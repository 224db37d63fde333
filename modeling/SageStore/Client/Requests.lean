import SageStore.Client.NetworkService
import SageStore.Client.OrdersModel

/-!
# The requests of `ApiManager`

`ApiManager` has one function for each request of the client. The functions that list, create,
edit and delete a resource differ in the resource and in the fields that they send; those that
create and edit a resource send the same fields, but for roles. Logs are only listed.

A reply goes to the handler of the endpoint that was requested (`handleResponse`). The handlers
of the resources are in `ApiManager`; here are those of the other endpoints.
-/

namespace SageStore

open Bytes

namespace ClientRequest

/-- The dataset with one text under each key. -/
def fields (xs : List (String × Bytes)) : Dataset :=
  (xs.map fun x => (⟨utf8 x.1, [x.2]⟩ : Σ _ : Bytes, List Bytes)).toFinmap

/-- The server reads the field that was sent. -/
theorem getOptionalDatasetValue_fields (xs : List (String × Bytes)) (key : String) :
    getOptionalDatasetValue (fields xs) key = (xs.lookup key).getD [] := by
  unfold getOptionalDatasetValue fields
  rw [Finmap.dlookup_list_toFinmap]
  induction xs with
  | nil => rfl
  | cons x xs ih =>
    rw [List.map_cons, List.lookup_cons]
    by_cases hx : x.1 = key
    · subst hx
      simp [List.dlookup_cons_eq]
    · rw [List.dlookup_cons_ne _ _ fun h => hx (utf8_injective h).symm, ih,
        beq_false_of_ne (Ne.symm hx)]

/-! ### Requests about resources -/

def list (t : TableName) : ClientRequest := ⟨.resource t, .get, ∅, []⟩

def create (t : TableName) (dataset : Dataset) : ClientRequest := ⟨.resource t, .post, dataset, []⟩

def edit (t : TableName) (dataset : Dataset) (id : Bytes) : ClientRequest :=
  ⟨.resource t, .put, dataset, id⟩

def delete (t : TableName) (id : Bytes) : ClientRequest := ⟨.resource t, .del, ∅, id⟩

/-! #### Users and roles -/

def loginUser (username password : Bytes) : ClientRequest :=
  ⟨.login, .post, fields [("username", username), ("password", password)], []⟩

def userFields (user : User) : Dataset :=
  fields [("id", user.id), ("username", user.username), ("password", user.password),
    ("roleId", user.roleId)]

def getUsers : ClientRequest := list .user

def addUser (user : User) : ClientRequest := create .user (userFields user)

def editUser (user : User) : ClientRequest := edit .user (userFields user) user.id

def deleteUser (id : Bytes) : ClientRequest := delete .user id

def getRoleList : ClientRequest := list .role

/-- The column of the id is sent without a text in it. -/
def createRole (role : Role) : ClientRequest :=
  create .role ((fields [("name", role.name)]).insert (utf8 "id") [])

def editRole (role : Role) : ClientRequest := edit .role (fields [("name", role.name)]) role.id

def deleteRole (id : Bytes) : ClientRequest := delete .role id

/-! #### Products and stocks -/

def productTypeFields (productType : ProductType) : Dataset :=
  fields [("code", productType.code), ("barcode", productType.barcode), ("name", productType.name),
    ("description", productType.description), ("lastPrice", productType.lastPrice),
    ("unit", productType.unit), ("isImported", productType.isImported)]

def getProductTypes : ClientRequest := list .productType

def createProductType (productType : ProductType) : ClientRequest :=
  create .productType (productTypeFields productType)

def editProductType (productType : ProductType) : ClientRequest :=
  edit .productType (productTypeFields productType) productType.id

def deleteProductType (id : Bytes) : ClientRequest := delete .productType id

def stockFields (stock : Inventory) : Dataset :=
  fields [("productTypeId", stock.productTypeId), ("quantityAvailable", stock.quantityAvailable),
    ("employeeId", stock.employeeId)]

def getStocks : ClientRequest := list .inventory

def createStock (stock : Inventory) : ClientRequest := create .inventory (stockFields stock)

def editStock (stock : Inventory) : ClientRequest := edit .inventory (stockFields stock) stock.id

def deleteStock (id : Bytes) : ClientRequest := delete .inventory id

def supplierProductFields (supplierProduct : SuppliersProductInfo) : Dataset :=
  fields [("supplierID", supplierProduct.supplierID),
    ("productTypeId", supplierProduct.productTypeId), ("code", supplierProduct.code)]

def getSupplierProducts : ClientRequest := list .suppliersProductInfo

def createSupplierProduct (supplierProduct : SuppliersProductInfo) : ClientRequest :=
  create .suppliersProductInfo (supplierProductFields supplierProduct)

def editSupplierProduct (supplierProduct : SuppliersProductInfo) : ClientRequest :=
  edit .suppliersProductInfo (supplierProductFields supplierProduct) supplierProduct.id

def deleteSupplierProduct (id : Bytes) : ClientRequest := delete .suppliersProductInfo id

/-! #### Contacts, suppliers and employees -/

def contactFields (contact : Contact) : Dataset :=
  fields [("name", contact.name), ("type", contact.type), ("email", contact.email),
    ("phone", contact.phone)]

def getContacts : ClientRequest := list .contact

def createContact (contact : Contact) : ClientRequest := create .contact (contactFields contact)

def editContact (contact : Contact) : ClientRequest :=
  edit .contact (contactFields contact) contact.id

def deleteContact (id : Bytes) : ClientRequest := delete .contact id

/-- The fields of a supplier, and of an employee. -/
def partyFields (party : Party) : Dataset :=
  fields [("name", party.name), ("number", party.number), ("email", party.email),
    ("address", party.address)]

def getSuppliers : ClientRequest := list .supplier

def createSupplier (supplier : Party) : ClientRequest := create .supplier (partyFields supplier)

def editSupplier (supplier : Party) : ClientRequest :=
  edit .supplier (partyFields supplier) supplier.id

def deleteSupplier (id : Bytes) : ClientRequest := delete .supplier id

def getEmployees : ClientRequest := list .employee

def createEmployee (employee : Party) : ClientRequest := create .employee (partyFields employee)

def editEmployee (employee : Party) : ClientRequest :=
  edit .employee (partyFields employee) employee.id

def deleteEmployee (id : Bytes) : ClientRequest := delete .employee id

/-! #### Orders -/

def purchaseOrderFields (order : PurchaseOrder) : Dataset :=
  fields [("date", order.date), ("userId", order.userId), ("supplierId", order.supplierId),
    ("status", order.status)]

def getPurchaseOrders : ClientRequest := list .purchaseOrder

def createPurchaseOrder (order : PurchaseOrder) : ClientRequest :=
  create .purchaseOrder (purchaseOrderFields order)

def editPurchaseOrder (order : PurchaseOrder) : ClientRequest :=
  edit .purchaseOrder (purchaseOrderFields order) order.id

def deletePurchaseOrder (id : Bytes) : ClientRequest := delete .purchaseOrder id

/-- The fields of a line of a purchase order, and of a sales order. -/
def orderRecordFields (orderRecord : OrderRecord) : Dataset :=
  fields [("orderId", orderRecord.orderId), ("productTypeId", orderRecord.productTypeId),
    ("quantity", orderRecord.quantity), ("price", orderRecord.price)]

def getPurchaseOrderRecords (orderId : Bytes) : ClientRequest :=
  { list .purchaseOrderRecord with resourceId := orderId }

def createPurchaseOrderRecord (orderRecord : OrderRecord) : ClientRequest :=
  create .purchaseOrderRecord (orderRecordFields orderRecord)

def editPurchaseOrderRecord (orderRecord : OrderRecord) : ClientRequest :=
  edit .purchaseOrderRecord (orderRecordFields orderRecord) orderRecord.id

def deletePurchaseOrderRecord (id : Bytes) : ClientRequest := delete .purchaseOrderRecord id

def postPurchaseReceipt (orderId employeeId : Bytes) : ClientRequest :=
  ⟨.receipts, .post, fields [("id", orderId), ("employeeId", employeeId)], []⟩

def saleOrderFields (order : SaleOrder) : Dataset :=
  fields [("date", order.date), ("userId", order.userId), ("contactId", order.contactId),
    ("employeeId", order.employeeId), ("status", order.status)]

def getSalesOrders : ClientRequest := list .saleOrder

def createSalesOrder (order : SaleOrder) : ClientRequest :=
  create .saleOrder (saleOrderFields order)

def editSalesOrder (order : SaleOrder) : ClientRequest :=
  edit .saleOrder (saleOrderFields order) order.id

def deleteSalesOrder (id : Bytes) : ClientRequest := delete .saleOrder id

def getSalesOrderRecords (orderId : Bytes) : ClientRequest :=
  { list .salesOrderRecord with resourceId := orderId }

/-- The request for the lines of an order. -/
def getOrderRecords : OrderKind → Bytes → ClientRequest
  | .sales => getSalesOrderRecords
  | .purchase => getPurchaseOrderRecords

/-- The lines of an order are a listing that names the order. -/
theorem getOrderRecords_eq (k : OrderKind) (orderId : Bytes) :
    getOrderRecords k orderId = { list k.records with resourceId := orderId } := by
  cases k <;> rfl

def createSalesOrderRecord (orderRecord : OrderRecord) : ClientRequest :=
  create .salesOrderRecord (orderRecordFields orderRecord)

def editSalesOrderRecord (orderRecord : OrderRecord) : ClientRequest :=
  edit .salesOrderRecord (orderRecordFields orderRecord) orderRecord.id

def deleteSalesOrderRecord (id : Bytes) : ClientRequest := delete .salesOrderRecord id

/-! #### Logs and analytics -/

def getLogs : ClientRequest := list .log

def getSalesAnalytics : ClientRequest := ⟨.salesAnalytics, .get, ∅, []⟩

def getInventoryAnalytics : ClientRequest := ⟨.inventoryAnalytics, .get, ∅, []⟩

/-- The request that creates an entity of a resource. -/
def createEntity : (t : TableName) → Entity t → Option ClientRequest
  | .role, x => some (createRole x)
  | .user, x => some (addUser x)
  | .log, _ => none
  | .contact, x => some (createContact x)
  | .employee, x => some (createEmployee x)
  | .supplier, x => some (createSupplier x)
  | .suppliersProductInfo, x => some (createSupplierProduct x)
  | .productType, x => some (createProductType x)
  | .inventory, x => some (createStock x)
  | .saleOrder, x => some (createSalesOrder x)
  | .salesOrderRecord, x => some (createSalesOrderRecord x)
  | .purchaseOrder, x => some (createPurchaseOrder x)
  | .purchaseOrderRecord, x => some (createPurchaseOrderRecord x)

/-- The request that edits an entity of a resource. -/
def editEntity : (t : TableName) → Entity t → Option ClientRequest
  | .role, x => some (editRole x)
  | .user, x => some (editUser x)
  | .log, _ => none
  | .contact, x => some (editContact x)
  | .employee, x => some (editEmployee x)
  | .supplier, x => some (editSupplier x)
  | .suppliersProductInfo, x => some (editSupplierProduct x)
  | .productType, x => some (editProductType x)
  | .inventory, x => some (editStock x)
  | .saleOrder, x => some (editSalesOrder x)
  | .salesOrderRecord, x => some (editSalesOrderRecord x)
  | .purchaseOrder, x => some (editPurchaseOrder x)
  | .purchaseOrderRecord, x => some (editPurchaseOrderRecord x)

/-- The request that deletes an entity of a resource. -/
def deleteEntity : TableName → Bytes → Option ClientRequest
  | .role, id => some (deleteRole id)
  | .user, id => some (deleteUser id)
  | .log, _ => none
  | .contact, id => some (deleteContact id)
  | .employee, id => some (deleteEmployee id)
  | .supplier, id => some (deleteSupplier id)
  | .suppliersProductInfo, id => some (deleteSupplierProduct id)
  | .productType, id => some (deleteProductType id)
  | .inventory, id => some (deleteStock id)
  | .saleOrder, id => some (deleteSalesOrder id)
  | .salesOrderRecord, id => some (deleteSalesOrderRecord id)
  | .purchaseOrder, id => some (deletePurchaseOrder id)
  | .purchaseOrderRecord, id => some (deletePurchaseOrderRecord id)

section Entities

variable {t : TableName} {r : ClientRequest}

/-- Whatever entity is created, its table is posted to. -/
theorem createEntity_eq {entity : Entity t} (h : createEntity t entity = some r) :
    ∃ dataset, r = create t dataset := by
  cases t <;> cases h <;> exact ⟨_, rfl⟩

/-- Whatever entity is edited, its table is put to. -/
theorem editEntity_eq {entity : Entity t} (h : editEntity t entity = some r) :
    ∃ dataset id, r = edit t dataset id := by
  cases t <;> cases h <;> exact ⟨_, _, rfl⟩

/-- Whatever entity is deleted, its table is deleted from. -/
theorem deleteEntity_eq {id : Bytes} (h : deleteEntity t id = some r) : r = delete t id := by
  cases t <;> cases h <;> rfl

end Entities

end ClientRequest

/-! ### Replies -/

/-- The figures of the analytics: a text under each key. -/
abbrev Metrics := Bytes → Option Bytes

/-- The signals of `ApiManager`. -/
inductive ApiSignal where
  | resource (signal : Signal)
  | loginSuccess (id roleId : Bytes)
  | purchaseReceiptPosted
  | salesAnalyticsReady (metrics : Metrics)
  | inventoryAnalyticsReady (metrics : Metrics)

namespace ApiManager

def handleError (errorMessage : Bytes) : ApiSignal := .resource (.errorOccurred errorMessage)

def handleLoginResponse (dataset : Dataset) : ApiSignal :=
  match dataset.lookup (utf8 "id"), dataset.lookup (utf8 "roleId") with
  | some ids, some roleIds =>
    match ids, roleIds with
    | id :: _, roleId :: _ =>
      if id = [] ∨ roleId = [] then
        handleError "ApiManager::handleLoginResponse | empty id or roleId"
      else .loginSuccess id roleId
    | _, _ => handleError "ApiManager::handleLoginResponse | empty lists"
  | _, _ => handleError "ApiManager::handleLoginResponse | missing key in dataset"

/-- The first text under each key. -/
def buildAnalyticsMetrics (dataset : Dataset) : Metrics :=
  fun key => (dataset.lookup key).map fun values => values.headD []

/-- The handlers of `setupHandlers`. -/
def handler (endpoint : Endpoint) (method : Method) (dataset : Dataset) : Option ApiSignal :=
  match endpoint with
  | .resource t => (handle t method dataset).map .resource
  | .login => some (handleLoginResponse dataset)
  | .receipts => if method = .post then some .purchaseReceiptPosted else none
  | .salesAnalytics =>
    if method = .get then some (.salesAnalyticsReady (buildAnalyticsMetrics dataset)) else none
  | .inventoryAnalytics =>
    if method = .get then some (.inventoryAnalyticsReady (buildAnalyticsMetrics dataset)) else none

/-- The signals that the handler of an endpoint gives. -/
inductive Handles (method : Method) (dataset : Dataset) : Endpoint → ApiSignal → Prop
  | resource (t : TableName) (signal : Signal) : handle t method dataset = some signal →
    Handles method dataset (.resource t) (.resource signal)
  | login : Handles method dataset .login (handleLoginResponse dataset)
  | receipts : method = .post → Handles method dataset .receipts .purchaseReceiptPosted
  | salesAnalytics : method = .get →
    Handles method dataset .salesAnalytics (.salesAnalyticsReady (buildAnalyticsMetrics dataset))
  | inventoryAnalytics : method = .get → Handles method dataset .inventoryAnalytics
    (.inventoryAnalyticsReady (buildAnalyticsMetrics dataset))

/-- A handler's signal is one that its endpoint may have. -/
theorem handles_of_handler {endpoint : Endpoint} {method : Method} {dataset : Dataset}
    {signal : ApiSignal} (h : handler endpoint method dataset = some signal) :
    Handles method dataset endpoint signal := by
  cases endpoint with
  | resource t =>
    obtain ⟨s, hs, rfl⟩ := Option.map_eq_some_iff.mp h
    exact .resource t s hs
  | login =>
    obtain rfl := Option.some.inj h
    exact .login
  | receipts =>
    obtain ⟨hmethod, heq⟩ := Option.ite_none_right_eq_some.mp h
    obtain rfl := Option.some.inj heq
    exact .receipts hmethod
  | salesAnalytics =>
    obtain ⟨hmethod, heq⟩ := Option.ite_none_right_eq_some.mp h
    obtain rfl := Option.some.inj heq
    exact .salesAnalytics hmethod
  | inventoryAnalytics =>
    obtain ⟨hmethod, heq⟩ := Option.ite_none_right_eq_some.mp h
    obtain rfl := Option.some.inj heq
    exact .inventoryAnalytics hmethod

/-- The log-in of a reply succeeds, or an error is reported. -/
theorem handleLoginResponse_cases (dataset : Dataset) :
    (∃ id roleId, handleLoginResponse dataset = .loginSuccess id roleId) ∨
      ∃ message, handleLoginResponse dataset = handleError message := by
  unfold handleLoginResponse
  split
  · split
    · split
      · exact Or.inr ⟨_, rfl⟩
      · exact Or.inl ⟨_, _, rfl⟩
    · exact Or.inr ⟨_, rfl⟩
  · exact Or.inr ⟨_, rfl⟩

/-- `handleResponse`, for every endpoint. -/
def handleReply (endpoint : Endpoint) (method : Method) (dataset : Dataset) : Option ApiSignal :=
  if errorMessage dataset = [] then handler endpoint method dataset
  else some (handleError (errorMessage dataset))

/-- What the client makes of the end of a request. -/
def onOutcome (J : Json) (r : ClientRequest) (outcome : HttpOutcome) : Option ApiSignal :=
  (NetworkService.onNetworkReply J outcome).bind (handleReply r.endpoint r.method)

/-- A reply about a resource is handled as `ApiManager` handles it. -/
theorem handleReply_resource (t : TableName) (method : Method) (dataset : Dataset) :
    handleReply (.resource t) method dataset = (handleResponse t method dataset).map .resource := by
  unfold handleReply handleResponse
  split <;> rfl

/-- A reply without the error key goes to the handler of the endpoint. -/
theorem handleReply_of_no_error {endpoint : Endpoint} {method : Method} {dataset : Dataset}
    (h : utf8 "error" ∉ dataset) :
    handleReply endpoint method dataset = handler endpoint method dataset := by
  have hnone : errorMessage dataset = [] := by
    rw [errorMessage, column, Finmap.lookup_eq_none.mpr h]
    rfl
  rw [handleReply, if_pos hnone]

end ApiManager

end SageStore
