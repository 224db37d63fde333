import SageStore.Client.ApiManager
import SageStore.Properties.Codec

/-!
# Listings arrive as they were sent

A `GET` of a resource is answered with one column for each field (`get_reply`); the reply is
encoded, decoded, and handled by the client, which emits the rows of the resource: all of
them, field for field and in their order (`listing_roundTrip`).
-/

namespace SageStore

open Bytes Program BusinessLogic

variable {e : Enforcement}

/-- The entity a row is read back as. -/
def entityOf : (t : TableName) → ℕ → Row t → Entity t
  | .role => roleRepository.fromCurrentRow
  | .user => userRepository.fromCurrentRow
  | .log => logRepository.fromCurrentRow
  | .contact => contactRepository.fromCurrentRow
  | .employee => employeeRepository.fromCurrentRow
  | .supplier => supplierRepository.fromCurrentRow
  | .suppliersProductInfo => suppliersProductInfoRepository.fromCurrentRow
  | .productType => productTypeRepository.fromCurrentRow
  | .inventory => inventoryRepository.fromCurrentRow
  | .saleOrder => saleOrderRepository.fromCurrentRow
  | .salesOrderRecord => salesOrderRecordRepository.fromCurrentRow
  | .purchaseOrder => purchaseOrderRepository.fromCurrentRow
  | .purchaseOrderRecord => purchaseOrderRecordRepository.fromCurrentRow

/-- The columns of the listing of a resource. -/
def listColumns : (t : TableName) → List (String × (Entity t → Bytes))
  | .role => [("id", Role.id), ("name", Role.name)]
  | .user => [("id", User.id), ("username", User.username), ("roleId", User.roleId)]
  | .log => [("id", Log.id), ("userId", Log.userId), ("action", Log.action),
      ("timestamp", Log.timestamp)]
  | .contact => [("id", Contact.id), ("name", Contact.name), ("type", Contact.type),
      ("email", Contact.email), ("phone", Contact.phone)]
  | .employee => ManagementModule.partyColumns
  | .supplier => ManagementModule.partyColumns
  | .suppliersProductInfo => [("id", SuppliersProductInfo.id),
      ("supplierID", SuppliersProductInfo.supplierID),
      ("productTypeId", SuppliersProductInfo.productTypeId), ("code", SuppliersProductInfo.code)]
  | .productType => [("id", ProductType.id), ("code", ProductType.code),
      ("barcode", ProductType.barcode), ("name", ProductType.name),
      ("description", ProductType.description), ("lastPrice", ProductType.lastPrice),
      ("unit", ProductType.unit), ("isImported", ProductType.isImported)]
  | .inventory => [("id", Inventory.id), ("productTypeId", Inventory.productTypeId),
      ("quantityAvailable", Inventory.quantityAvailable), ("employeeId", Inventory.employeeId)]
  | .saleOrder => [("id", SaleOrder.id), ("date", SaleOrder.date), ("userId", SaleOrder.userId),
      ("contactId", SaleOrder.contactId), ("employeeId", SaleOrder.employeeId),
      ("status", SaleOrder.status)]
  | .salesOrderRecord => orderRecordColumns
  | .purchaseOrder => [("id", PurchaseOrder.id), ("date", PurchaseOrder.date),
      ("userId", PurchaseOrder.userId), ("supplierId", PurchaseOrder.supplierId),
      ("status", PurchaseOrder.status)]
  | .purchaseOrderRecord => orderRecordColumns

/-- The rows that a listing request is about: the lines of one order if the request names one,
else all rows of the resource. -/
def listedRows (p : Platform) (resourceId : Bytes) (d : Db e) : (t : TableName) → List (ℕ × Row t)
  | .salesOrderRecord =>
    if resourceId = [] then (d .salesOrderRecord).rows
    else (d .salesOrderRecord).rows.filter fun r => r.2.orderId = p.cell resourceId
  | .purchaseOrderRecord =>
    if resourceId = [] then (d .purchaseOrderRecord).rows
    else (d .purchaseOrderRecord).rows.filter fun r => r.2.orderId = p.cell resourceId
  | t => (d t).rows

/-- The texts of a row that are listed are valid UTF-8. -/
def ListedIsUtf8 : (t : TableName) → Row t → Prop
  | .log, x => RowIsUtf8 .log x ∧ IsUtf8 x.action
  | .user, x => IsUtf8 x.username ∧ IsUtf8 x.roleId.toText
  | t, x => RowIsUtf8 t x

/-- What the client holds of an entity: all of it, but no password. -/
def received : (t : TableName) → Entity t → Entity t
  | .user, x => { x with password := [] }
  | _, x => x

/-- **The reply to a listing request.** -/
theorem get_reply (p : Platform) (now : UtcTime) {req : RequestData} {t : TableName}
    (haddr : req.Addresses t) (hget : req.method = utf8 "GET") (d : Db e)
    (snap : Option (Db e)) :
    (executeTask p now req ⟨d, snap, []⟩).1 =
      listing (listColumns t)
        ((listedRows p req.resourceId d t).map fun r => entityOf t r.1 r.2) := by
  obtain ⟨module, submodule, method, resourceId, dataset⟩ := req
  obtain ⟨hmodule, hsubmodule⟩ := haddr
  dsimp only at hmodule hsubmodule hget
  subst hmodule hsubmodule hget
  cases t
  case salesOrderRecord => cases resourceId <;> rfl
  case purchaseOrderRecord => cases resourceId <;> rfl
  all_goals rfl

/-! ### The two sides agree -/

/-- No listing names a column twice. -/
theorem nodup_listColumns (t : TableName) : ((listColumns t).map fun c => utf8 c.1).Nodup := by
  cases t <;> decide

/-- No listing has a column named as the error. -/
theorem error_notMem_listColumns (t : TableName) :
    utf8 "error" ∉ (listColumns t).map fun c => utf8 c.1 := by
  cases t <;> decide

/-- The client reads the columns that the server sends. -/
theorem keys_listHandler (t : TableName) :
    (ApiManager.listHandler t).keys = (listColumns t).map Prod.fst := by
  cases t <;> rfl

/-- The client puts each cell into the field that the server took it from. -/
theorem make_listHandler (t : TableName) (cell : String → Bytes) (x : Entity t)
    (h : ∀ c ∈ listColumns t, cell c.1 = c.2 x) :
    (ApiManager.listHandler t).make cell = received t x := by
  cases t <;>
    simp only [listColumns, ManagementModule.partyColumns, orderRecordColumns,
      List.forall_mem_cons, List.not_mem_nil, false_imp_iff, implies_true, and_true] at h <;>
    simp only [ApiManager.listHandler, ApiManager.handleRolesList, ApiManager.handleUsersList,
      ApiManager.handleLogsList, ApiManager.handleContactsList, ApiManager.handleEmployeesList,
      ApiManager.handleSuppliersList, ApiManager.handlePartiesList,
      ApiManager.handleSupplierProductsList, ApiManager.handleProductTypesList,
      ApiManager.handleStocksList, ApiManager.handleSalesOrdersList,
      ApiManager.handleSalesOrderRecordsList, ApiManager.handlePurchaseOrdersList,
      ApiManager.handlePurchaseOrderRecordsList, ApiManager.handleOrderRecordsList, received, h]

/-- The listed texts are valid UTF-8 if those of the row are. -/
theorem isUtf8_listColumns (t : TableName) (i : ℕ) (x : Row t) (h : ListedIsUtf8 t x) :
    ∀ c ∈ listColumns t, IsUtf8 (c.2 (entityOf t i x)) := by
  cases t <;>
    simp only [listColumns, ManagementModule.partyColumns, orderRecordColumns, entityOf,
      List.forall_mem_cons, List.not_mem_nil, false_imp_iff, implies_true, and_true] <;>
    simp only [ListedIsUtf8, RowIsUtf8] at h
  case role => exact ⟨.decimal _, h⟩
  case user => exact ⟨.decimal _, h.1, h.2⟩
  case log => exact ⟨.decimal _, h.1.1, h.2, h.1.2⟩
  all_goals exact ⟨.decimal _, h⟩

/-- The client makes of a listing one entity for each that was listed. -/
theorem handleResponse_listing (t : TableName) (xs : List (Entity t)) :
    ApiManager.handleResponse t .get (listing (listColumns t) xs).dataset =
      some (ApiManager.listSignal t (xs.map (received t))) := by
  have herror : ApiManager.errorMessage (listing (listColumns t) xs).dataset = [] := by
    have hnone : (listing (listColumns t) xs).dataset.lookup (utf8 "error") = none :=
      Finmap.lookup_eq_none.mpr fun h => error_notMem_listColumns t (mem_listing.mp h)
    rw [ApiManager.errorMessage, column, hnone]
    rfl
  have hentities : (ApiManager.listHandler t).entities (listing (listColumns t) xs).dataset =
      .ok (xs.map (received t)) :=
    ListHandler.entities_listing (nodup_listColumns t) (keys_listHandler t)
      (by cases t <;> decide) (make_listHandler t)
  rw [ApiManager.handleResponse, if_pos herror, ApiManager.handle, hentities]

/-- **Listings arrive as they were sent.** For every resource and every content of it, the reply
to a listing request is encoded, and from the decoded text the client emits exactly the listed
rows, in their order. -/
theorem listing_roundTrip {J : Json} (hJ : J.RoundTrips) (p : Platform) (now : UtcTime)
    (d : Db e) (snap : Option (Db e)) {t : TableName} {req : RequestData}
    (haddr : req.Addresses t) (hget : req.method = utf8 "GET")
    (hutf8 : ∀ r ∈ listedRows p req.resourceId d t, ListedIsUtf8 t r.2) :
    ((JsonSerializer.serialize J (executeTask p now req ⟨d, snap, []⟩).1.dataset).map fun text =>
        ApiManager.handleResponse t .get (JsonSerializer.deserialize J text)) =
      some (some (ApiManager.listSignal t
        ((listedRows p req.resourceId d t).map fun r => received t (entityOf t r.1 r.2)))) := by
  rw [get_reply p now haddr hget]
  generalize hxs : (listedRows p req.resourceId d t).map (fun r => entityOf t r.1 r.2) = xs
  have hvalid : (listing (listColumns t) xs).dataset.IsUtf8 := by
    refine isUtf8_listing fun x hx => ?_
    obtain ⟨r, hr, rfl⟩ := List.mem_map.mp (hxs ▸ hx)
    exact isUtf8_listColumns t _ _ (hutf8 r hr)
  -- the dataset that is decoded is the one the server sent
  obtain ⟨text, htext, hback⟩ :=
    Option.map_eq_some_iff.mp (JsonSerializer.deserialize_serialize hJ hvalid)
  rw [htext, Option.map_some, hback]
  rw [handleResponse_listing, ← hxs, List.map_map]
  rfl

/-- A listing request for the rows of a resource. -/
def listRequest (t : TableName) (resourceId : String) : RequestData :=
  ⟨utf8 (path t).1, utf8 (path t).2, utf8 "GET", utf8 resourceId, ∅⟩

/-- The users of the initial setup arrive, without the password. -/
theorem listing_roundTrip_users :
    ((JsonSerializer.serialize .arrays
        (executeTask .plain noon (listRequest .user "") ⟨seed .full, none, []⟩).1.dataset).map
      fun text => ApiManager.handleResponse .user .get (JsonSerializer.deserialize .arrays text)) =
      some (some (.usersList [⟨utf8 "1", utf8 "admin", [], utf8 "1"⟩])) := by
  have hutf8 : ∀ r ∈ listedRows .plain [] (seed .full) .user,
      IsUtf8 r.2.username ∧ IsUtf8 r.2.roleId.toText := by decide
  exact listing_roundTrip Json.arrays_roundTrips .plain noon (seed .full) none ⟨rfl, rfl⟩ rfl hutf8

end SageStore
