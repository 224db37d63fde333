import SageStore.Server.ModuleUtils

/-!
# What one request can do

The vocabulary in which every module is specified. A request that the server accepts has an
`Effect` on the database: it reads; or it inserts, updates or deletes one row, of the table
its path addresses, under that table's guard; or it deletes an order with its lines; or it
receives a purchase order. The guards say what the handler has checked before it writes.

Requests that raise change nothing, with one exception: when a call to the database fails
part-way, deleting an order may leave some of its lines deleted (`Aborted`).
-/

namespace SageStore

open Bytes

variable {e : Enforcement}

/-! ### Requests -/

/-- The module and the submodule under which a table's rows are managed. -/
def path : TableName → String × String
  | .role => ("users", "roles")
  | .user => ("users", "users")
  | .log => ("logs", "entries")
  | .contact => ("management", "contacts")
  | .employee => ("management", "employees")
  | .supplier => ("management", "suppliers")
  | .suppliersProductInfo => ("inventory", "supplier-products")
  | .productType => ("inventory", "product-types")
  | .inventory => ("inventory", "stocks")
  | .saleOrder => ("sales", "orders")
  | .salesOrderRecord => ("sales", "order-records")
  | .purchaseOrder => ("purchase", "orders")
  | .purchaseOrderRecord => ("purchase", "order-records")

/-- The request is about the rows of `t`. -/
def RequestData.Addresses (req : RequestData) (t : TableName) : Prop :=
  req.module = utf8 (path t).1 ∧ req.submodule = utf8 (path t).2

instance (req : RequestData) (t : TableName) : Decidable (req.Addresses t) :=
  inferInstanceAs (Decidable (_ ∧ _))

/-- No two tables share a module and a submodule. -/
theorem path_injective : ∀ t t', utf8 (path t).1 = utf8 (path t').1 →
    utf8 (path t).2 = utf8 (path t').2 → t = t' := by
  intro t t'
  cases t <;> cases t' <;> decide

/-- A request is about one table at most. -/
theorem RequestData.Addresses.unique {req : RequestData} {t t' : TableName}
    (h : req.Addresses t) (h' : req.Addresses t') : t = t' :=
  path_injective t t' (h.1.symm.trans h'.1) (h.2.symm.trans h'.2)

/-- The request reads the log. -/
def RequestData.ListsLog (req : RequestData) : Prop :=
  req.Addresses .log ∧ req.method = utf8 "GET"

/-- The request posts a receipt. -/
def RequestData.PostsReceipt (req : RequestData) : Prop :=
  req.module = utf8 "purchase" ∧ req.submodule = utf8 "receipts" ∧ req.method = utf8 "POST"

instance (req : RequestData) : Decidable req.PostsReceipt :=
  inferInstanceAs (Decidable (_ ∧ _ ∧ _))

/-- The request changes no row: those that address a table are `GET`s, and it is no receipt. -/
structure RequestData.OnlyReads (req : RequestData) : Prop where
  isGet : ∀ t, req.Addresses t → req.method = utf8 "GET"
  noReceipt : ¬ req.PostsReceipt

theorem RequestData.OnlyReads.of_get {req : RequestData} (h : req.method = utf8 "GET") :
    req.OnlyReads :=
  ⟨fun _ _ => h, fun hpost => absurd (h.symm.trans hpost.2.2) (by decide)⟩

/-! ### Rows -/

/-- The texts of a row read back as valid UTF-8; the action of a log entry is left out. -/
def RowIsUtf8 : (t : TableName) → Row t → Prop
  | .role, x => IsUtf8 x.name
  | .user, x => IsUtf8 x.username ∧ IsUtf8 x.password ∧ IsUtf8 x.roleId.toText
  | .log, x => IsUtf8 x.userId.toText ∧ IsUtf8 x.timestamp
  | .contact, x => IsUtf8 x.name ∧ IsUtf8 x.type ∧ IsUtf8 x.email ∧ IsUtf8 x.phone
  | .employee, x => IsUtf8 x.name ∧ IsUtf8 x.number ∧ IsUtf8 x.email ∧ IsUtf8 x.address
  | .supplier, x => IsUtf8 x.name ∧ IsUtf8 x.number ∧ IsUtf8 x.email ∧ IsUtf8 x.address
  | .suppliersProductInfo, x =>
    IsUtf8 x.supplierID.toText ∧ IsUtf8 x.productTypeId.toText ∧ IsUtf8 x.code
  | .productType, x =>
    IsUtf8 x.code ∧ IsUtf8 x.barcode ∧ IsUtf8 x.name ∧ IsUtf8 x.description ∧
      IsUtf8 x.lastPrice ∧ IsUtf8 x.unit ∧ IsUtf8 x.isImported
  | .inventory, x =>
    IsUtf8 x.productTypeId.toText ∧ IsUtf8 x.quantityAvailable.toText ∧
      IsUtf8 x.employeeId.toText
  | .saleOrder, x =>
    IsUtf8 x.date ∧ IsUtf8 x.userId.toText ∧ IsUtf8 x.contactId.toText ∧
      IsUtf8 x.employeeId.toText ∧ IsUtf8 x.status
  | .salesOrderRecord, x =>
    IsUtf8 x.orderId.toText ∧ IsUtf8 x.productTypeId.toText ∧ IsUtf8 x.quantity.toText ∧
      IsUtf8 x.price
  | .purchaseOrder, x =>
    IsUtf8 x.date ∧ IsUtf8 x.userId.toText ∧ IsUtf8 x.supplierId.toText ∧ IsUtf8 x.status
  | .purchaseOrderRecord, x =>
    IsUtf8 x.orderId.toText ∧ IsUtf8 x.productTypeId.toText ∧ IsUtf8 x.quantity.toText ∧
      IsUtf8 x.price

/-- Every stored text but the actions of the log is valid UTF-8. -/
def TextsUtf8 (d : Db e) : Prop := ∀ t, ∀ r ∈ (d t).rows, RowIsUtf8 t r.2

/-- The actions of the log are valid UTF-8. -/
def ActionsUtf8 (d : Db e) : Prop := ∀ r ∈ (d .log).rows, IsUtf8 r.2.action

/-- The stock of a product: the quantity of its first stock row, and zero without one. -/
def stockOf (d : Db e) (product : ℕ) : ℤ :=
  match (d .inventory).rows.find? fun r => r.2.productTypeId = .int product with
  | some r => r.2.quantityAvailable.toInt
  | none => 0

/-- The purchase lines of the order with key `order`. -/
def purchaseLines (d : Db e) (order : Cell) : List (ℕ × OrderRecordRow) :=
  (d .purchaseOrderRecord).rows.filter fun r => r.2.orderId = order

/-- How much of a product a list of lines carries. -/
def carried (lines : List (ℕ × OrderRecordRow)) (product : ℕ) : ℤ :=
  ((lines.filter fun r => r.2.productTypeId = .int product).map fun r => r.2.quantity.toInt).sum

/-- The purchase order with key `order` exists and has not been received. -/
def IsOpen (d : Db e) (order : Cell) : Prop :=
  ∃ o ∈ (d .purchaseOrder).rows, Cell.int o.1 = order ∧ o.2.status ≠ utf8 "Received"

/-- What the cells of purchase lines and of stock rows are. -/
structure WellFormed (d : Db e) : Prop where
  lines : ∀ r ∈ (d .purchaseOrderRecord).rows,
    r.2.orderId.IsCount ∧ r.2.productTypeId.IsCount ∧ r.2.quantity.IsCount
  stocks : ∀ r ∈ (d .inventory).rows,
    r.2.productTypeId.IsCount ∧ r.2.quantityAvailable.IsCount

/-! ### Guards -/

/-- What is checked of a purchase line before it is written. -/
structure PurchaseLineGuard (d : Db e) (x : OrderRecordRow) : Prop where
  isOpen : IsOpen d x.orderId
  order : x.orderId.IsCount
  product : x.productTypeId.IsCount
  quantity : x.quantity.IsCount

/-- The statuses a purchase order can be given by hand. -/
def ManualStatus (status : Bytes) : Prop := status = utf8 "Draft" ∨ status = utf8 "Ordered"

/-- What is checked before `x` is inserted into `t`. -/
def InsertGuard (req : RequestData) (d : Db e) : (t : TableName) → Row t → Prop
  | .role, x => ∀ r ∈ (d .role).rows, r.2.name ≠ x.name
  | .log, x => req.dataset.IsUtf8 → IsUtf8 x.action
  | .productType, x => ∀ r ∈ (d .productType).rows, r.2.code ≠ x.code
  | .inventory, x => x.productTypeId.IsCount ∧ x.quantityAvailable.IsCount ∧
      ∀ r ∈ (d .inventory).rows, r.2.productTypeId ≠ x.productTypeId
  | .salesOrderRecord, x => (d .saleOrder).Has x.orderId
  | .purchaseOrder, x => ManualStatus x.status
  | .purchaseOrderRecord, x => PurchaseLineGuard d x
  | _, _ => True

/-- What is checked before the row of `t` with key `key` is replaced by `x`. Users and roles
are not looked up, except a user whose password is kept. -/
def UpdateGuard (req : RequestData) (d : Db e) (key : Cell) : (t : TableName) → Row t → Prop
  | .role, x => getOptionalDatasetValue req.dataset "name" ≠ [] ∧
      x.name = cstr (getOptionalDatasetValue req.dataset "name")
  | .user, _ =>
    getOptionalDatasetValue req.dataset "username" ≠ [] ∧
      getOptionalDatasetValue req.dataset "roleId" ≠ [] ∧
      (getOptionalDatasetValue req.dataset "password" = [] → (d .user).Has key)
  | .log, x => (d .log).Has key ∧ (req.dataset.IsUtf8 → IsUtf8 x.action)
  | .productType, x => (d .productType).Has key ∧
      ∀ r ∈ (d .productType).rows, r.2.code = x.code → Cell.int r.1 = key
  | .inventory, x => (d .inventory).Has key ∧ x.productTypeId.IsCount ∧
      x.quantityAvailable.IsCount ∧
      ∀ r ∈ (d .inventory).rows, r.2.productTypeId = x.productTypeId → Cell.int r.1 = key
  | .salesOrderRecord, x => (d .salesOrderRecord).Has key ∧ (d .saleOrder).Has x.orderId
  | .purchaseOrder, x => IsOpen d key ∧ ManualStatus x.status
  | .purchaseOrderRecord, x =>
    (∃ r ∈ (d .purchaseOrderRecord).rows, Cell.int r.1 = key ∧ IsOpen d r.2.orderId) ∧
      PurchaseLineGuard d x
  | t, _ => (d t).Has key

/-- What is checked before the row of `t` with key `key` is deleted. Users and roles are not
looked up, and orders are deleted with their lines. -/
def DeleteGuard (d : Db e) (key : Cell) : TableName → Prop
  | .role => True
  | .user => True
  | .saleOrder => False
  | .purchaseOrder => False
  | .purchaseOrderRecord =>
    ∃ r ∈ (d .purchaseOrderRecord).rows, Cell.int r.1 = key ∧ IsOpen d r.2.orderId
  | t => (d t).Has key

/-! ### Order deletion -/

/-- Rows of `t` are gone from `d`, and nothing else. -/
structure Erases (d : Db e) (t : TableName) (gone : ℕ × Row t → Bool) (d' : Db e) : Prop where
  rows : (d' t).rows = (d t).rows.filter fun r => !gone r
  seq : (d' t).seq = (d t).seq
  others : ∀ t', t' ≠ t → d' t' = d t'

/-! ### Receipts -/

/-- One entry of a receipt: the new quantity of a product, in the stock row `row` or in a
new one. -/
structure Posting where
  product : ℕ
  row : Option ℕ
  quantity : ℕ

/-- Write one entry of a receipt, for the receiving employee. -/
def Posting.apply (employee : Cell) (T : Table InventoryRow) (m : Posting) :
    Table InventoryRow :=
  match m.row with
  | none => T.insert ⟨.int m.product, .int m.quantity, employee⟩
  | some i => T.update (.int i) ⟨.int m.product, .int m.quantity, employee⟩

/-- A posting finds its stock row, or finds that there is none. -/
def Posting.Finds (T : Table InventoryRow) (m : Posting) : Prop :=
  match m.row with
  | none => ∀ r ∈ T.rows, r.2.productTypeId ≠ .int m.product
  | some i => ∃ r, T.rows.find? (fun r => r.2.productTypeId = .int m.product) = some r ∧ r.1 = i

/-- The entries of a receipt of some lines: one for each product on the lines, which raises
the stock by what the lines carry. -/
structure Plans (d : Db e) (lines : List (ℕ × OrderRecordRow)) (plan : List Posting) :
    Prop where
  nodup : (plan.map Posting.product).Nodup
  covers : ∀ n : ℕ, n ∈ plan.map Posting.product ↔ ∃ r ∈ lines, r.2.productTypeId = .int n
  finds : ∀ m ∈ plan, m.Finds (d .inventory)
  quantity : ∀ m ∈ plan, (m.quantity : ℤ) = stockOf d m.product + carried lines m.product
  fits : ∀ m ∈ plan, m.quantity < 2 ^ 63

/-- The order with key `order` is received: its postings are written, and its status. -/
structure Receives (p : Platform) (d : Db e) (order : Cell) (d' : Db e) : Prop where
  stock : ∃ (employee : ℕ) (plan : List Posting), Plans d (purchaseLines d order) plan ∧
    d' .inventory = plan.foldl (Posting.apply (.int employee)) (d .inventory)
  received : ∃ o ∈ (d .purchaseOrder).rows, Cell.int o.1 = order ∧
    o.2.status ≠ utf8 "Received" ∧
    d' .purchaseOrder = (d .purchaseOrder).update order
      ⟨p.sqlite.numeric (cstr o.2.date), p.cell o.2.userId.toText,
        p.cell o.2.supplierId.toText, utf8 "Received"⟩
  others : ∀ t, t ≠ .inventory → t ≠ .purchaseOrder → d' t = d t

/-! ### Effects -/

/-- What an accepted request does to the database. -/
inductive Effect (p : Platform) (req : RequestData) (d : Db e) : Db e → Prop
  | read : req.OnlyReads → Effect p req d d
  | insert (t : TableName) (x : Row t) {d' : Db e} :
    req.Addresses t → req.method = utf8 "POST" → InsertGuard req d t x →
    (req.dataset.IsUtf8 → RowIsUtf8 t x) → d.insert t x = .ok d' → Effect p req d d'
  | update (t : TableName) (x : Row t) {d' : Db e} :
    req.Addresses t → req.method = utf8 "PUT" → req.resourceId ≠ [] →
    UpdateGuard req d (p.cell req.resourceId) t x →
    (TextsUtf8 d → req.dataset.IsUtf8 → RowIsUtf8 t x) →
    d.update t (p.cell req.resourceId) x = .ok d' → Effect p req d d'
  | delete (t : TableName) {d' : Db e} :
    req.Addresses t → req.method = utf8 "DELETE" → req.resourceId ≠ [] →
    DeleteGuard d (p.cell req.resourceId) t →
    d.delete t (p.cell req.resourceId) = .ok d' → Effect p req d d'
  | deleteSaleOrder {d₁ d' : Db e} :
    req.Addresses .saleOrder → req.method = utf8 "DELETE" →
    (d .saleOrder).Has (p.cell req.resourceId) →
    Erases d .salesOrderRecord (fun r => r.2.orderId = p.cell req.resourceId) d₁ →
    d₁.delete .saleOrder (p.cell req.resourceId) = .ok d' → Effect p req d d'
  | deletePurchaseOrder {d₁ d' : Db e} :
    req.Addresses .purchaseOrder → req.method = utf8 "DELETE" →
    IsOpen d (p.cell req.resourceId) →
    Erases d .purchaseOrderRecord (fun r => r.2.orderId = p.cell req.resourceId) d₁ →
    d₁.delete .purchaseOrder (p.cell req.resourceId) = .ok d' → Effect p req d d'
  | receive {d' : Db e} :
    req.PostsReceipt →
    Receives p d (p.cell (getOptionalDatasetValue req.dataset "id")) d' → Effect p req d d'

/-- What a request can leave behind when one of its calls fails: some lines of the order it
was to delete are deleted. -/
inductive Aborted (p : Platform) (req : RequestData) (d : Db e) : Db e → Prop
  | deleteSaleOrder {d' : Db e} (gone : ℕ × OrderRecordRow → Bool) :
    req.Addresses .saleOrder → req.method = utf8 "DELETE" →
    (∀ r, gone r = true → r.2.orderId = p.cell req.resourceId) →
    Erases d .salesOrderRecord gone d' → Aborted p req d d'
  | deletePurchaseOrder {d' : Db e} (gone : ℕ × OrderRecordRow → Bool) :
    req.Addresses .purchaseOrder → req.method = utf8 "DELETE" →
    IsOpen d (p.cell req.resourceId) →
    (∀ r, gone r = true → r.2.orderId = p.cell req.resourceId) →
    Erases d .purchaseOrderRecord gone d' → Aborted p req d d'

/-- What the reply to an accepted request holds: never the error key, and valid UTF-8 unless
it lists log entries whose actions are not. -/
structure Answers (req : RequestData) (d : Db e) (reply : ResponseData) : Prop where
  no_error : utf8 "error" ∉ reply.dataset
  isUtf8 : TextsUtf8 d → (reply.dataset.IsUtf8 ↔ (req.ListsLog → ActionsUtf8 d))

/-- The specification of a module: an accepted request is answered and has its effect; a
rejected one has changed nothing, or was cut short by a failing call. -/
abbrev Serves (p : Platform) (req : RequestData) (d : Db e) (x : Task e ResponseData) : Prop :=
  Program.Outcome Exception.IsUtf8 d x (fun reply d' => Answers req d reply ∧ Effect p req d d')
    (Aborted p req d)

/-- A write was accepted: it has its effect, and the reply without data answers it. -/
abbrev Accepts (p : Platform) (req : RequestData) (d d' : Db e) : Prop :=
  Answers req d .empty ∧ Effect p req d d'

/-! ### Establishing effects -/

section Establishing

open Program

variable {p : Platform} {req : RequestData} {d : Db e} {t : TableName} {E : Type}

/-- An accepted receipt receives the order. -/
theorem Effect.receives {d' : Db e} (h : Effect p req d d') (hpost : req.PostsReceipt) :
    Receives p d (p.cell (getOptionalDatasetValue req.dataset "id")) d' := by
  -- no table has the path of the receipts, so no other effect is one of this request
  have hno (t : TableName) (haddr : req.Addresses t) : False := by
    have hsub : utf8 "receipts" = utf8 (path t).2 := hpost.2.1.symm.trans haddr.2
    cases t <;> exact absurd hsub (by decide)
  cases h with
  | read honly => exact absurd hpost honly.noReceipt
  | insert t x haddr => exact (hno t haddr).elim
  | update t x haddr => exact (hno t haddr).elim
  | delete t haddr => exact (hno t haddr).elim
  | deleteSaleOrder haddr => exact (hno _ haddr).elim
  | deletePurchaseOrder haddr => exact (hno _ haddr).elim
  | receive _ hreceives => exact hreceives

/-- The reply without data answers every request but a `GET`. -/
theorem Answers.empty (h : req.method ≠ utf8 "GET") : Answers req d .empty where
  no_error := Finmap.notMem_empty
  isUtf8 _ := by
    refine ⟨fun _ hlog => absurd hlog.2 h, fun _ key texts hl => ?_⟩
    simp [ResponseData.empty] at hl

/-- The keys of a listing are its columns. -/
theorem mem_listing {columns : List (String × (E → Bytes))} {xs : List E} {key : Bytes} :
    key ∈ (listing columns xs).dataset ↔ key ∈ columns.map fun c => utf8 c.1 := by
  rw [listing, ← Finmap.lookup_isSome, Finmap.dlookup_list_toFinmap, List.dlookup_isSome,
    List.keys, List.map_map]
  rfl

/-- A listing whose entries are valid is valid. -/
theorem isUtf8_listing {columns : List (String × (E → Bytes))} {xs : List E}
    (h : ∀ x ∈ xs, ∀ c ∈ columns, IsUtf8 (c.2 x)) : (listing columns xs).dataset.IsUtf8 := by
  intro key texts hl
  rw [listing, Finmap.dlookup_list_toFinmap] at hl
  obtain ⟨c, hc, heq⟩ := List.mem_map.mp (List.of_mem_dlookup hl)
  -- the texts of a key depend on the key, so they are equal as `HEq` first
  obtain ⟨rfl, htexts⟩ := Sigma.mk.inj heq
  obtain rfl := eq_of_heq htexts
  refine ⟨.utf8 _, fun t ht => ?_⟩
  obtain ⟨x, hx, rfl⟩ := List.mem_map.mp ht
  exact h x hx c hc

/-- A record of valid texts answers a request that does not list the log. -/
theorem Answers.record {fields : List (String × Bytes)} (hnot : ¬ req.ListsLog)
    (hkeys : utf8 "error" ∉ fields.map fun f => utf8 f.1)
    (hutf8 : TextsUtf8 d → ∀ f ∈ fields, IsUtf8 f.2) : Answers req d (record fields) where
  no_error h := hkeys (by simpa [SageStore.record, List.map_map] using mem_listing.mp h)
  isUtf8 hd := by
    refine iff_of_true (isUtf8_listing fun _ _ c hc => ?_) fun hlog => absurd hlog hnot
    obtain ⟨f, hf, rfl⟩ := List.mem_map.mp hc
    exact hutf8 hd f hf

/-- A reading program whose replies answer the request serves it. -/
theorem Serves.reads {x : Task e ResponseData} (hread : req.OnlyReads)
    (hx : Reads Exception.IsUtf8 d x fun reply => Answers req d reply) : Serves p req d x := by
  refine Atomic.outcome (Atomic.mono hx ?_)
  rintro reply _ ⟨rfl, hans⟩
  exact ⟨hans, .read hread⟩

/-- Listing rows of a table other than the log answers the request. -/
theorem listing_spec (r : Repository t E) {x : Task e (List E)}
    (columns : List (String × (E → Bytes))) (haddr : req.Addresses t)
    (hmethod : req.method = utf8 "GET") (ht : t ≠ .log)
    (hx : Reads Exception.IsUtf8 d x fun xs =>
      ∀ y ∈ xs, ∃ i ∈ (d t).rows, y = r.fromCurrentRow i.1 i.2)
    (hkeys : utf8 "error" ∉ columns.map fun c => utf8 c.1)
    (hutf8 : ∀ i y, RowIsUtf8 t y → ∀ c ∈ columns, IsUtf8 (c.2 (r.fromCurrentRow i y))) :
    Serves p req d (do let xs ← x; return listing columns xs) := by
  refine Serves.reads (.of_get hmethod)
    (hx.bindReads fun xs hxs => Reads.pure ⟨?_, fun hd => ?_⟩)
  · exact fun h => hkeys (mem_listing.mp h)
  · refine iff_of_true (isUtf8_listing fun y hy c hc => ?_) fun hlog => ?_
    · obtain ⟨i, hi, rfl⟩ := hxs y hy
      exact hutf8 _ _ (hd t i hi) c hc
    · exact absurd (haddr.unique hlog.1) ht

/-- What is read is a row of the table, as the repository reads it. -/
theorem getAll_mem (r : Repository t E) :
    Reads Exception.IsUtf8 d r.getAll fun xs =>
      ∀ y ∈ xs, ∃ i ∈ (d t).rows, y = r.fromCurrentRow i.1 i.2 := by
  refine (getAll_spec r).mono fun xs hxs y hy => ?_
  subst hxs
  obtain ⟨i, hi, rfl⟩ := List.mem_map.mp hy
  exact ⟨i, hi, rfl⟩

/-- What is looked up is a row of the table that matches. -/
theorem getByField_mem (r : Repository t E) (c : Column t) (v : Bytes) :
    Reads Exception.IsUtf8 d (r.getByField p c v) fun xs =>
      ∀ y ∈ xs, ∃ i ∈ (d t).rows, c.Matches p v i ∧ y = r.fromCurrentRow i.1 i.2 := by
  refine (getByField_spec r c v).mono fun xs hxs y hy => ?_
  subst hxs
  obtain ⟨i, hi, rfl⟩ := List.mem_map.mp hy
  exact ⟨i, (mem_matching.mp hi).1, (mem_matching.mp hi).2, rfl⟩

/-- An insertion through a repository is an effect of the request that asked for it. -/
theorem add_accepts (r : Repository t E) (x : E) (haddr : req.Addresses t)
    (hmethod : req.method = utf8 "POST") (hguard : InsertGuard req d t (r.insertRow p x))
    (hutf8 : req.dataset.IsUtf8 → RowIsUtf8 t (r.insertRow p x)) :
    Atomic Exception.IsUtf8 d (r.add p x) fun _ d' => Accepts p req d d' :=
  (add_spec r x).mono fun _ _ h =>
    ⟨.empty (by rw [hmethod]; decide), .insert t _ haddr hmethod hguard hutf8 h⟩

/-- So is an update of the addressed row. -/
theorem update_accepts (r : Repository t E) (x : E) (haddr : req.Addresses t)
    (hmethod : req.method = utf8 "PUT") (hid : r.id x = req.resourceId)
    (hne : req.resourceId ≠ [])
    (hguard : UpdateGuard req d (p.cell req.resourceId) t (r.updateRow p x))
    (hutf8 : TextsUtf8 d → req.dataset.IsUtf8 → RowIsUtf8 t (r.updateRow p x)) :
    Atomic Exception.IsUtf8 d (r.update p x) fun _ d' => Accepts p req d d' :=
  (update_spec r x).mono fun _ _ h =>
    ⟨.empty (by rw [hmethod]; decide), .update t _ haddr hmethod hne hguard hutf8 (hid ▸ h)⟩

/-- So is a deletion of the addressed row. -/
theorem delete_accepts (r : Repository t E) (haddr : req.Addresses t)
    (hmethod : req.method = utf8 "DELETE") (hne : req.resourceId ≠ [])
    (hguard : DeleteGuard d (p.cell req.resourceId) t) :
    Atomic Exception.IsUtf8 d (r.deleteResource p req.resourceId)
      fun _ d' => Accepts p req d d' :=
  (deleteResource_spec r req.resourceId).mono fun _ _ h =>
    ⟨.empty (by rw [hmethod]; decide), .delete t haddr hmethod hne hguard h⟩

/-- An edit checks that its row exists before it writes. -/
theorem editExisting_accepts (r : Repository t E) (component resourceName missing : String)
    {build : Except Exception E} (haddr : req.Addresses t) (hmethod : req.method = utf8 "PUT")
    (hbuild : Yields Exception.IsUtf8 build fun x => r.id x = req.resourceId ∧
      ((d t).Has (p.cell req.resourceId) →
        UpdateGuard req d (p.cell req.resourceId) t (r.updateRow p x)) ∧
      (req.dataset.IsUtf8 → RowIsUtf8 t (r.updateRow p x))) :
    Atomic Exception.IsUtf8 d
      (editExisting p r component resourceName missing build req.resourceId)
      fun _ d' => Accepts p req d d' := by
  refine (ensureExisting_spec r _ _ _ _).bindAtomic fun _ hex => ?_
  refine (reads_lift hbuild).bindAtomic fun x hx => ?_
  exact update_accepts r x haddr hmethod hx.1 hex.1 (hx.2.1 hex.2) fun _ => hx.2.2

/-- A deletion checks that its row exists before it writes. -/
theorem deleteExisting_accepts (r : Repository t E) (component resourceName missing : String)
    (haddr : req.Addresses t) (hmethod : req.method = utf8 "DELETE")
    (hguard : (d t).Has (p.cell req.resourceId) → DeleteGuard d (p.cell req.resourceId) t) :
    Atomic Exception.IsUtf8 d
      (deleteExisting p r component resourceName missing req.resourceId)
      fun _ d' => Accepts p req d d' := by
  refine (ensureExisting_spec r _ _ _ _).bindAtomic fun _ hex => ?_
  exact delete_accepts r haddr hmethod hex.1 (hguard hex.2)

/-- **Resources that are only built and stored.** When an entity is added as it is built
from the request, and edited and deleted when it exists, every method serves the request. -/
theorem managed_spec (r : Repository t E) {component resourceName missing : String}
    {get : Task e ResponseData} {build : Bytes → Except Exception E}
    (haddr : req.Addresses t) (hget : req.method = utf8 "GET" → Serves p req d get)
    (hbuild : ∀ id, Yields Exception.IsUtf8 (build id) fun x => r.id x = id ∧
      InsertGuard req d t (r.insertRow p x) ∧
      ((d t).Has (p.cell req.resourceId) →
        UpdateGuard req d (p.cell req.resourceId) t (r.updateRow p x)) ∧
      (req.dataset.IsUtf8 → RowIsUtf8 t (r.insertRow p x) ∧ RowIsUtf8 t (r.updateRow p x)))
    (hdelete : (d t).Has (p.cell req.resourceId) → DeleteGuard d (p.cell req.resourceId) t) :
    Serves p req d (dispatchMethod component req.method get
      (do let x ← build []; r.add p x)
      (editExisting p r component resourceName missing (build req.resourceId) req.resourceId)
      (deleteExisting p r component resourceName missing req.resourceId)) := by
  refine dispatchMethod_spec hget (fun h => Atomic.outcome ?_)
    (fun h => Atomic.outcome ?_) fun h => Atomic.outcome ?_
  · exact (reads_lift (hbuild [])).bindAtomic fun x hx =>
      add_accepts r x haddr h hx.2.1 fun hds => (hx.2.2.2 hds).1
  · exact editExisting_accepts r _ _ _ haddr h
      ((hbuild _).mono fun x hx => ⟨hx.1, hx.2.2.1, fun hds => (hx.2.2.2 hds).2⟩)
  · exact deleteExisting_accepts r _ _ _ haddr h hdelete

end Establishing

end SageStore
