import SageStore.Properties.Catalogue

/-!
# What becomes of a change

A client creates, edits and deletes rows. What it typed is what is shown of the row afterwards,
as far as the columns hold it (`asShown`): a text up to the first byte 0, the number that an
integer column makes of a text, a type or a status as the server normalises it. So what a `Change`
makes of a catalogue is said in terms of the entity itself, without its request.

When a change is executed, its client is told either that it was made, and then the catalogue is
the one that it makes; or, if it hears anything, that there was an error, and then the catalogue
is as it was (`told_of_own_change`).
-/

namespace SageStore

open Bytes Program BusinessLogic ClientRequest

variable {e : Enforcement} {p : Platform} {J : Json} {url : QUrl} {sha256 : Sha256}
  {t : TableName} {r : ClientRequest}

/-! ### What a client types is what is shown -/

section Typed

variable (p : Platform)

/-- What an integer column shows of a text. -/
def shownInteger (v : Bytes) : Bytes := (p.cell v).toText

/-- What clients are shown of an entity, once it is stored under the key `i`. Log entries are not
typed. -/
def asShown : (t : TableName) → ℕ → Entity t → Entity t
  | .role, i, x => ⟨decimal i, cstr x.name⟩
  | .user, i, x =>
    ⟨decimal i, cstr x.username, [], if x.roleId = [] then "1" else shownInteger p x.roleId⟩
  | .log, _, x => x
  | .contact, i, x =>
    ⟨decimal i, cstr x.name,
      cstr (if x.type = [] then "Customer" else ManagementModule.normalizeContactType x.type),
      cstr x.email, cstr x.phone⟩
  | .employee, i, x => ⟨decimal i, cstr x.name, cstr x.number, cstr x.email, cstr x.address⟩
  | .supplier, i, x => ⟨decimal i, cstr x.name, cstr x.number, cstr x.email, cstr x.address⟩
  | .suppliersProductInfo, i, x =>
    ⟨decimal i, shownInteger p x.supplierID, shownInteger p x.productTypeId, cstr x.code⟩
  | .productType, i, x =>
    ⟨decimal i, cstr x.code, cstr x.barcode, cstr x.name, cstr x.description,
      p.sqlite.real (cstr (if x.lastPrice = [] then "0.0" else x.lastPrice)), cstr x.unit,
      p.sqlite.numeric (cstr (InventoryModule.normalizeBooleanFlag x.isImported))⟩
  | .inventory, i, x =>
    ⟨decimal i, shownInteger p x.productTypeId, shownInteger p x.quantityAvailable,
      shownInteger p x.employeeId⟩
  | .saleOrder, i, x =>
    ⟨decimal i, p.sqlite.numeric (cstr x.date), shownInteger p x.userId,
      shownInteger p x.contactId, shownInteger p x.employeeId, cstr x.status⟩
  | .salesOrderRecord, i, x =>
    ⟨decimal i, shownInteger p x.orderId, shownInteger p x.productTypeId,
      shownInteger p x.quantity, p.sqlite.real (cstr x.price)⟩
  | .purchaseOrder, i, x =>
    ⟨decimal i, p.sqlite.numeric (cstr x.date), shownInteger p x.userId,
      shownInteger p x.supplierId,
      match PurchaseModule.normalizeOrderStatus x.status with
      | .ok status => cstr status
      | .error _ => []⟩
  | .purchaseOrderRecord, i, x =>
    ⟨decimal i, shownInteger p x.orderId, shownInteger p x.productTypeId,
      shownInteger p x.quantity, p.sqlite.real (cstr x.price)⟩

end Typed

/-- The fields that a client sends of an entity. -/
def entityFields : (t : TableName) → Entity t → Dataset
  | .role, x => fields [("name", x.name)]
  | .user, x => userFields x
  | .log, _ => ∅
  | .contact, x => contactFields x
  | .employee, x => partyFields x
  | .supplier, x => partyFields x
  | .suppliersProductInfo, x => supplierProductFields x
  | .productType, x => productTypeFields x
  | .inventory, x => stockFields x
  | .saleOrder, x => saleOrderFields x
  | .salesOrderRecord, x => orderRecordFields x
  | .purchaseOrder, x => purchaseOrderFields x
  | .purchaseOrderRecord, x => orderRecordFields x

/-- A role is created with an id that holds no text. -/
theorem dataset_entity {x : Entity t} {r : ClientRequest}
    (h : createEntity t x = some r ∨ editEntity t x = some r) :
    r.dataset = entityFields t x ∨
      t = .role ∧ r.dataset = (entityFields t x).insert (utf8 "id") [] := by
  -- `createRole` alone adds a field, the id of a role that has none yet
  rcases h with h | h <;> cases t <;> cases h
  case inl.role => exact Or.inr ⟨rfl, rfl⟩
  all_goals exact Or.inl rfl

/-- The row that the fields of an entity describe is shown as that entity. -/
theorem shownAs_entityFields (p : Platform) (i : ℕ) (ht : t ≠ .log) (x : Entity t) :
    shownAs t i (writtenRow p (entityFields t x) t) = asShown p t i x := by
  cases t with
  | log => exact absurd rfl ht
  | user =>
    have hdefault : (Cell.int 1).toText = utf8 "1" := rfl
    simp [shownAs, received, entityOf, userRepository, writtenRow, asShown, entityFields,
      userFields, getOptionalDatasetValue_fields, List.lookup_cons, shownInteger,
      apply_ite Cell.toText, hdefault]
  | purchaseOrder =>
    cases hstatus : PurchaseModule.normalizeOrderStatus x.status <;>
      simp [shownAs, received, entityOf, purchaseOrderRepository, writtenRow, asShown,
        entityFields, purchaseOrderFields, getOptionalDatasetValue_fields, List.lookup_cons,
        shownInteger, PurchaseModule.writtenStatus, hstatus, cstr]
  | _ =>
    -- each column is looked up in a literal list of fields
    simp [shownAs, received, entityOf, roleRepository, contactRepository, employeeRepository,
      supplierRepository, suppliersProductInfoRepository, productTypeRepository,
      inventoryRepository, saleOrderRepository, salesOrderRecordRepository,
      purchaseOrderRecordRepository, OrderRecord.fromCurrentRow, writtenLine, writtenParty,
      writtenRow, asShown, entityFields, contactFields, partyFields, supplierProductFields,
      productTypeFields, stockFields, saleOrderFields, orderRecordFields,
      getOptionalDatasetValue_fields, List.lookup_cons, shownInteger, ManagementModule.writtenType,
      InventoryModule.writtenPrice]

/-- The fields that a client sends of an entity describe it. -/
theorem shownAs_entity (p : Platform) (i : ℕ) {x : Entity t}
    (h : createEntity t x = some r ∨ editEntity t x = some r) :
    shownAs t i (writtenRow p r.dataset t) = asShown p t i x := by
  have ht : t ≠ .log := by
    rintro rfl
    rcases h with h | h <;> cases h
  rcases dataset_entity h with heq | ⟨rfl, heq⟩
  · rw [heq, shownAs_entityFields p i ht]
  · have hne : utf8 "name" ≠ utf8 "id" := by decide
    rw [heq, ← shownAs_entityFields p i ht]
    simp only [writtenRow, getOptionalDatasetValue, Finmap.lookup_insert_of_ne _ hne]

/-! ### Changes -/

/-- What a client may do to a row of a table. The row is named by its id, as listings show it: by
a key of 64 bits. -/
inductive Change (t : TableName)
  | create (x : Entity t)
  | edit (i : ℕ) (hi : i < 2 ^ 63) (x : Entity t) (hid : entityId t x = decimal i)
  | delete (i : ℕ) (hi : i < 2 ^ 63)

namespace Change

/-- The request for the change. Log entries are only listed. -/
def request : Change t → Option ClientRequest
  | create x => createEntity t x
  | edit _ _ x _ => editEntity t x
  | delete i _ => deleteEntity t (decimal i)

/-- The signal that the change has been made. -/
def signal : Change t → Signal
  | create _ => .created t
  | edit _ _ _ _ => .edited t
  | delete _ _ => .deleted t

/-- What the change makes of the catalogue. -/
def applied (p : Platform) (T : Table (Entity t)) : Change t → Table (Entity t)
  | create x => T.insert (asShown p t (T.seq + 1) x)
  | edit i _ x _ => T.update (.int i) (asShown p t i x)
  | delete i _ => T.delete (.int i)

variable {change : Change t}

/-- The client changes no log entries. -/
theorem ne_log (h : change.request = some r) : t ≠ .log := by
  rintro rfl
  cases change <;> cases h

/-- A change is sent to the endpoint of its table. -/
theorem endpoint_eq (h : change.request = some r) : r.endpoint = .resource t := by
  cases change with
  | create x =>
    obtain ⟨dataset, rfl⟩ := createEntity_eq h
    rfl
  | edit i hi x hid =>
    obtain ⟨dataset, id, rfl⟩ := editEntity_eq h
    rfl
  | delete i hi =>
    obtain rfl := deleteEntity_eq h
    rfl

/-- A reply that is handled tells that the change has been made. -/
theorem handle_eq (h : change.request = some r) (dataset : Dataset) :
    ApiManager.handle t r.method dataset = some change.signal := by
  have ht := ne_log h
  cases change with
  | create x =>
    obtain ⟨_, rfl⟩ := createEntity_eq h
    exact if_neg ht
  | edit i hi x hid =>
    obtain ⟨_, _, rfl⟩ := editEntity_eq h
    exact if_neg ht
  | delete i hi =>
    obtain rfl := deleteEntity_eq h
    exact if_neg ht

/-- The request makes of the catalogue what the change does. -/
theorem applied_task (p : Platform) (T : Table (Entity t)) (h : change.request = some r) :
    SageStore.applied p T (r.task url) = change.applied p T := by
  cases change with
  | create x =>
    have hshown := fun i => shownAs_entity p i (Or.inl h)
    obtain ⟨dataset, rfl⟩ := createEntity_eq h
    exact congrArg T.insert (hshown _)
  | edit i hi x hid =>
    -- the key is the id in the target, not the one among the fields
    have hshown := shownAs_entity p i (Or.inr h)
    have hcell : p.cell (r.task url).resourceId = .int i :=
      cell_task_decimal hi ((resourceId_editEntity h).trans hid)
    obtain ⟨dataset, id, rfl⟩ := editEntity_eq h
    unfold SageStore.applied
    rw [hcell]
    exact congrArg (T.update (.int i)) hshown
  | delete i hi =>
    obtain rfl := deleteEntity_eq h
    have hcell : p.cell ((ClientRequest.delete t (decimal i)).task url).resourceId = .int i :=
      cell_task_decimal hi rfl
    unfold SageStore.applied
    rw [hcell]
    rfl

end Change

/-! ### What the client is told -/

/-- A request about a table reaches no row of it but the one that it addresses. -/
theorem not_reaches_of_addresses {req : RequestData} (h : req.Addresses t) : ¬ req.Reaches t := by
  intro hreach
  cases hreach with
  | stocks hpost => exact absurd (hpost.2.1.symm.trans h.2) (by decide)
  | order hpost => exact absurd (hpost.2.1.symm.trans h.2) (by decide)
  | saleLines horder => exact absurd (horder.unique h) (by decide)
  | purchaseLines horder => exact absurd (horder.unique h) (by decide)

/-- A change that is made is announced to its client. -/
theorem onOutcome_change {s : Session (Db e) Exception} (hJ : J.RoundTrips)
    (hs : (server p e).Reachable s) (htexts : TextsUtf8 s.store) (r : SentRequest J url)
    (w : Circumstances) {change : Change t} (hchange : change.request = some r.request)
    (hreply : utf8 "error" ∉
      ((server p e).step s ⟨w.now, r.request.task url, w.faults⟩).1.dataset) :
    ApiManager.onOutcome J r.request (HttpTransaction.doResponse J
      ((server p e).step s ⟨w.now, r.request.task url, w.faults⟩).1) =
        some (.resource change.signal) := by
  have hend := Change.endpoint_eq hchange
  have hstep := Server.step_spec hs ⟨w.now, r.request.task url, w.faults⟩
  obtain ⟨-, hans, -⟩ := hstep.of_no_error hreply
  have hutf8 := (hans.isUtf8 htexts).mpr fun hlog =>
    absurd ((task_addresses url _ hend).unique hlog.1) (Change.ne_log hchange)
  rw [ApiManager.onOutcome, onNetworkReply_doResponse hJ hutf8, Option.bind_some,
    ApiManager.handleReply_of_no_error hreply, hend, ApiManager.handler,
    Change.handle_eq hchange, Option.map_some]

/-- **A client is told what has become of its change.** In every run, with any number of clients
and whatever has happened: a change that is executed, at whatever time and whichever calls fail,
has one reply. Either it tells that the change was made, and what clients are shown of the table
is what the change makes of it; or its client hears of an error, if of anything, and what they are
shown of it is the same as before. -/
theorem told_of_own_change {κ : Type} [DecidableEq κ] (hJ : J.RoundTrips) (p : Platform)
    (url : QUrl) (sha256 : Sha256) (e : Enforcement)
    (is : List (Network.Input κ HttpEvent Action Circumstances)) {i : ℕ} {c : κ}
    {r : SentRequest J url}
    (hr : ((system p J url sha256 e).after is).requests[i]? = some (c, r)) (change : Change t)
    (hchange : change.request = some r.request) (w : Circumstances) :
    let s := (system p J url sha256 e).after is
    let s' := (system p J url sha256 e).after (is ++ [.execute i w])
    ∃ b, s'.replies = s.replies ++ [(c, r, b)] ∧
      (ApiManager.onOutcome J r.request b = some (.resource change.signal) ∧
          catalogue s'.server.store t = change.applied p (catalogue s.server.store t) ∨
        (ApiManager.onOutcome J r.request b = none ∨
          ∃ message, ApiManager.onOutcome J r.request b = some (ApiManager.handleError message)) ∧
          catalogue s'.server.store t = catalogue s.server.store t) := by
  intro s s'
  obtain ⟨s₀, hreach, hstore, hstep⟩ := exists_reachable hJ p url sha256 e is
  have haddr := task_addresses url _ (Change.endpoint_eq hchange)
  have hcatalogue := Server.catalogue_step hreach ⟨w.now, r.request.task url, w.faults⟩
    (Change.ne_log hchange) (not_reaches_of_addresses haddr)
  have hafter : s' = (system p J url sha256 e).step s (.execute i w) :=
    Network.after_append_singleton _ is _
  have hserver : (system p J url sha256 e).server.step s.server
      ((system p J url sha256 e).event r w) = _ := hstep r w
  rw [hafter, Network.step_execute hr w, hserver]
  refine ⟨_, rfl, ?_⟩
  -- the error key of the reply decides both what the client hears and what is stored
  by_cases hreply : utf8 "error" ∈
      ((server p e).step s₀ ⟨w.now, r.request.task url, w.faults⟩).1.dataset
  · rw [if_neg fun h => h.2 hreply] at hcatalogue
    exact Or.inr ⟨onOutcome_error hJ hreach r w hreply, hcatalogue.trans (hstore ▸ rfl)⟩
  · rw [if_pos ⟨haddr, hreply⟩, Change.applied_task p _ hchange] at hcatalogue
    have htexts : TextsUtf8 s₀.store :=
      hstore ▸ (httpServer_valid (Network.server_reachable (N := system p J url sha256 e) is)).2
    exact Or.inl ⟨onOutcome_change hJ hreach htexts r w hchange hreply,
      hcatalogue.trans (hstore ▸ rfl)⟩

deriving instance DecidableEq for ClientRequest

/-- A contact is typed, while two lists are still under way. -/
def newContact : Contact := ⟨[], "Ann", "Customer", "ann@example.com", "1"⟩

def newContactAsked : List (Network.Input Unit HttpEvent Action Circumstances) :=
  contactsRun ++ [.act () (.createEntity .contact newContact)]

/-- The client is told that the contact was created. -/
theorem told_of_own_change_contact : ∃ r b,
    ((system .plain .arrays .percent .ofSetup .full).after newContactAsked).requests[2]? =
      some ((), r) ∧
    ((), r, b) ∈ ((system .plain .arrays .percent .ofSetup .full).after
      (newContactAsked ++ [.execute 2 ⟨noon, []⟩])).replies ∧
    ApiManager.onOutcome .arrays r.request b = some (.resource (.created .contact)) := by
  have hsent : ((taskSystem .plain .percent .ofSetup .full).after
      (newContactAsked.map (taskRefinement
        Json.arrays_roundTrips .plain .percent .ofSetup .full).meaning)).requests[2]? =
      some ((), createContact newContact) := by
    decide +kernel
  obtain ⟨r, hr, hrequest⟩ :=
    exists_sent Json.arrays_roundTrips .plain .percent .ofSetup .full newContactAsked hsent
  obtain ⟨b, hreplies, ⟨htold, -⟩ | ⟨-, hsame⟩⟩ := told_of_own_change (t := .contact)
    Json.arrays_roundTrips .plain .percent .ofSetup .full newContactAsked hr (.create newContact)
    (hrequest.symm ▸ rfl) ⟨noon, []⟩
  · exact ⟨r, b, hr, hreplies ▸ List.mem_append_right _ (List.mem_singleton_self _), htold⟩
  · -- there is one contact more than before
    have hlength := congrArg (fun T : Table Contact => T.rows.length) hsame
    rw [store_after Json.arrays_roundTrips, store_after Json.arrays_roundTrips] at hlength
    exact absurd hlength (by decide +kernel)

end SageStore
