import SageStore.Server.RowWrites

/-!
# The texts an accepted request stores

`textColumns` lists the text columns of each table that a listing returns, and for each of them
the text that a request hands to the database: a field of the request, or what the handler makes
of one. An accepted `POST` or `PUT` writes one row of the table that it addresses, and the
columns of that row hold these texts up to their first NUL (`textsWritten`).
-/

namespace SageStore

open Bytes Program BusinessLogic

variable {e : Enforcement} {p : Platform} {now : UtcTime} {req : RequestData} {d d' : Db e}

/-! ### Text columns -/

/-- A text column, under its key in requests and listings: the text that a request hands to the
database, the text of a stored row, and whether the handler refuses the empty text. -/
structure TextColumn (t : TableName) where
  key : String
  written : Dataset → Bytes
  stored : Row t → Bytes
  required : Bool

/-- A column that is written as the request has it. -/
def TextColumn.field {t : TableName} (key : String) (stored : Row t → Bytes) (required : Bool) :
    TextColumn t :=
  ⟨key, fun request => getOptionalDatasetValue request key, stored, required⟩

/-- The text columns of a table. The password is left out, since no listing returns it. -/
def textColumns : (t : TableName) → List (TextColumn t)
  | .role => [.field "name" RoleRow.name true]
  | .user => [.field "username" UserRow.username true]
  | .log => [.field "action" LogRow.action true]
  | .contact =>
    [.field "name" ContactRow.name true,
      ⟨"type", ManagementModule.writtenType, ContactRow.type, false⟩,
      .field "email" ContactRow.email false, .field "phone" ContactRow.phone false]
  | .employee =>
    [.field "name" PartyRow.name true, .field "number" PartyRow.number false,
      .field "email" PartyRow.email false, .field "address" PartyRow.address false]
  | .supplier =>
    [.field "name" PartyRow.name true, .field "number" PartyRow.number false,
      .field "email" PartyRow.email false, .field "address" PartyRow.address false]
  | .suppliersProductInfo => [.field "code" SuppliersProductInfoRow.code true]
  | .productType =>
    [.field "code" ProductTypeRow.code true, .field "barcode" ProductTypeRow.barcode false,
      .field "name" ProductTypeRow.name true,
      .field "description" ProductTypeRow.description false, .field "unit" ProductTypeRow.unit true]
  | .saleOrder => [.field "status" SaleOrderRow.status true]
  | .purchaseOrder =>
    [⟨"status", PurchaseModule.writtenStatus, PurchaseOrderRow.status, true⟩]
  | .inventory => []
  | .salesOrderRecord => []
  | .purchaseOrderRecord => []

/-- The row holds the texts that the request hands to the database, up to their first NUL; and
no text that is required was empty. -/
def StoresTexts (t : TableName) (request : Dataset) (x : Row t) : Prop :=
  ∀ c ∈ textColumns t, c.stored x = cstr (c.written request) ∧
    (c.required = true → c.written request ≠ [])

/-- A row with the texts of the request is written. -/
abbrev TextsWritten (p : Platform) (req : RequestData) (t : TableName) (d d' : Db e) : Prop :=
  RowWritten p req (StoresTexts t req.dataset) d d'

/-! ### Accepted writes -/

/-- The row that a request describes holds its texts. -/
theorem stored_writtenRow (p : Platform) (request : Dataset) {t : TableName} {c : TextColumn t}
    (hc : c ∈ textColumns t) : c.stored (writtenRow p request t) = cstr (c.written request) := by
  cases t <;> simp only [textColumns, List.mem_cons, List.not_mem_nil, or_false] at hc
  all_goals rcases hc with rfl | rfl | rfl | rfl | rfl <;> rfl

/-- The texts of required columns are refused when they are empty. -/
theorem mem_requiredTexts (request : Dataset) {t : TableName} {c : TextColumn t}
    (hc : c ∈ textColumns t) (hrequired : c.required = true) :
    c.written request ∈ requiredTexts request t := by
  cases t <;> simp only [textColumns, List.mem_cons, List.not_mem_nil, or_false] at hc
  all_goals
    rcases hc with rfl | rfl | rfl | rfl | rfl <;>
      first
      | exact absurd hrequired Bool.false_ne_true
      | simp [requiredTexts, TextColumn.field]

/-- The row that a module makes of a request holds the texts of the request. -/
theorem Makes.storesTexts {request : Dataset} {t : TableName} {x : Row t}
    (h : Makes p request d t x) : StoresTexts t request x := by
  have hgiven : [] ∉ requiredTexts request t := by cases h <;> assumption
  refine fun c hc => ⟨?_, fun hrequired hnil => ?_⟩
  · cases h with
    | described => exact stored_writtenRow p request hc
    | kept r hr =>
      -- the password is no column of a listing
      refine Eq.trans ?_ (stored_writtenRow p request hc)
      obtain rfl := List.mem_singleton.mp hc
      rfl
  · exact hgiven (hnil ▸ mem_requiredTexts request hc hrequired)

/-- **An accepted write** of a row with text columns writes the texts of the request. -/
theorem textsWritten {t : TableName} {s : Session (Db e) Exception} (haddr : req.Addresses t)
    (hmethod : req.method = utf8 "POST" ∨ req.method = utf8 "PUT")
    (hreply : utf8 "error" ∉ (executeTask p now req s).1.dataset) :
    TextsWritten p req t s.store (executeTask p now req s).2.store :=
  (rowMade haddr hmethod hreply).mono fun _ hx => hx.storesTexts

end SageStore
