import Mathlib.Data.List.GetD
import SageStore.Server.Http

/-!
# `ApiManager`

What the client makes of the replies to its requests. A reply to a `GET` of a resource holds
one column for each field; its handler checks that the columns are there and of one length,
and walks them in parallel (`ListHandler.entities`). The thirteen list handlers are one
definition with their own keys, messages and entity.

A resource is named by its table: the endpoints of the source are the paths of the tables.
-/

namespace SageStore

open Bytes

/-- The entities of a resource; the server and the client share them. -/
abbrev Entity : TableName → Type
  | .role => Role
  | .user => User
  | .log => Log
  | .contact => Contact
  | .employee => Party
  | .supplier => Party
  | .suppliersProductInfo => SuppliersProductInfo
  | .productType => ProductType
  | .inventory => Inventory
  | .saleOrder => SaleOrder
  | .salesOrderRecord => OrderRecord
  | .purchaseOrder => PurchaseOrder
  | .purchaseOrderRecord => OrderRecord

/-- The methods of the client's requests. -/
inductive Method where
  | get
  | post
  | put
  | del
deriving DecidableEq

/-- The signals of `ApiManager` for replies about resources. A signal that a row was created,
edited or deleted has no arguments; there is one of each for every resource. -/
inductive Signal where
  | errorOccurred (message : Bytes)
  | rolesList (roles : List Role)
  | usersList (users : List User)
  | logsList (logs : List Log)
  | contactsList (contacts : List Contact)
  | employeesList (employees : List Party)
  | suppliersList (suppliers : List Party)
  | supplierProductsList (supplierProducts : List SuppliersProductInfo)
  | productTypesList (productTypes : List ProductType)
  | stocksList (stocks : List Inventory)
  | salesOrdersList (orders : List SaleOrder)
  | salesOrderRecordsList (records : List OrderRecord)
  | purchaseOrdersList (orders : List PurchaseOrder)
  | purchaseOrderRecordsList (records : List OrderRecord)
  | created (t : TableName)
  | edited (t : TableName)
  | deleted (t : TableName)

/-- A list handler: the keys it reads, what it reports when one of them is missing and when
their columns differ in length, and the entity it makes of the cells at one position. -/
structure ListHandler (E : Type) where
  keys : List String
  missing : String
  sizes : String
  make : (String → Bytes) → E

/-- The column under a key. -/
def column (dataset : Dataset) (key : String) : List Bytes :=
  (dataset.lookup (utf8 key)).getD []

/-- The entities that a list handler makes of a reply, or what it reports. -/
def ListHandler.entities {E : Type} (h : ListHandler E) (dataset : Dataset) :
    Except Bytes (List E) :=
  if ∃ key ∈ h.keys, utf8 key ∉ dataset then .error (utf8 h.missing)
  else if ∃ key ∈ h.keys, (column dataset key).length ≠ (column dataset "id").length then
    .error (utf8 h.sizes)
  else
    -- the iterators walk all columns in step, so an entity has the cells of one position
    .ok ((List.range (column dataset "id").length).map fun i =>
      h.make fun key => (column dataset key).getD i [])

namespace ApiManager

def handleRolesList : ListHandler Role where
  keys := ["id", "name"]
  missing := "dataset doesn't contain ID or NAME lists"
  sizes := "ID and Name lists have different sizes."
  make cell := ⟨cell "id", cell "name"⟩

/-- The server sends no passwords, so the users of the client have none. -/
def handleUsersList : ListHandler User where
  keys := ["id", "username", "roleId"]
  missing := "Dataset doesn't contain required User keys"
  sizes := "User lists have different sizes."
  make cell := ⟨cell "id", cell "username", [], cell "roleId"⟩

def handleProductTypesList : ListHandler ProductType where
  keys := ["id", "code", "barcode", "name", "description", "lastPrice", "unit", "isImported"]
  missing := "Key missing in dataset"
  sizes := "ProductType lists have different sizes."
  make cell := ⟨cell "id", cell "code", cell "barcode", cell "name", cell "description",
    cell "lastPrice", cell "unit", cell "isImported"⟩

def handleStocksList : ListHandler Inventory where
  keys := ["id", "productTypeId", "quantityAvailable", "employeeId"]
  missing := "Key missing in dataset"
  sizes := "Inventory lists have different sizes."
  make cell := ⟨cell "id", cell "productTypeId", cell "quantityAvailable", cell "employeeId"⟩

def handleSupplierProductsList : ListHandler SuppliersProductInfo where
  keys := ["id", "supplierID", "productTypeId", "code"]
  missing := "Key missing in dataset"
  sizes := "Supplier product lists have different sizes."
  make cell := ⟨cell "id", cell "supplierID", cell "productTypeId", cell "code"⟩

def handleContactsList : ListHandler Contact where
  keys := ["id", "name", "type", "email", "phone"]
  missing := "Key missing in dataset"
  sizes := "Contact lists have different sizes."
  make cell := ⟨cell "id", cell "name", cell "type", cell "email", cell "phone"⟩

/-- The handler of suppliers and of employees, which have the same fields. -/
def handlePartiesList (sizes : String) : ListHandler Party where
  keys := ["id", "name", "number", "email", "address"]
  missing := "Key missing in dataset"
  sizes := sizes
  make cell := ⟨cell "id", cell "name", cell "number", cell "email", cell "address"⟩

def handleSuppliersList : ListHandler Party :=
  handlePartiesList "Supplier lists have different sizes."

def handleEmployeesList : ListHandler Party :=
  handlePartiesList "Employee lists have different sizes."

def handlePurchaseOrdersList : ListHandler PurchaseOrder where
  keys := ["id", "date", "userId", "supplierId", "status"]
  missing := "Key missing in dataset"
  sizes := "Purchase order lists have different sizes."
  make cell := ⟨cell "id", cell "date", cell "userId", cell "supplierId", cell "status"⟩

/-- The handler of the lines of purchase orders and of sales orders. -/
def handleOrderRecordsList (sizes : String) : ListHandler OrderRecord where
  keys := ["id", "orderId", "productTypeId", "quantity", "price"]
  missing := "Key missing in dataset"
  sizes := sizes
  make cell := ⟨cell "id", cell "orderId", cell "productTypeId", cell "quantity", cell "price"⟩

def handlePurchaseOrderRecordsList : ListHandler OrderRecord :=
  handleOrderRecordsList "Purchase order record lists have different sizes."

def handleSalesOrdersList : ListHandler SaleOrder where
  keys := ["id", "date", "userId", "contactId", "employeeId", "status"]
  missing := "Key missing in dataset"
  sizes := "Sales order lists have different sizes."
  make cell := ⟨cell "id", cell "date", cell "userId", cell "contactId", cell "employeeId",
    cell "status"⟩

def handleSalesOrderRecordsList : ListHandler OrderRecord :=
  handleOrderRecordsList "Sales order record lists have different sizes."

def handleLogsList : ListHandler Log where
  keys := ["id", "userId", "action", "timestamp"]
  missing := "Key missing in dataset"
  sizes := "Log lists have different sizes."
  make cell := ⟨cell "id", cell "userId", cell "action", cell "timestamp"⟩

/-- The list handler of a resource. -/
def listHandler : (t : TableName) → ListHandler (Entity t)
  | .role => handleRolesList
  | .user => handleUsersList
  | .log => handleLogsList
  | .contact => handleContactsList
  | .employee => handleEmployeesList
  | .supplier => handleSuppliersList
  | .suppliersProductInfo => handleSupplierProductsList
  | .productType => handleProductTypesList
  | .inventory => handleStocksList
  | .saleOrder => handleSalesOrdersList
  | .salesOrderRecord => handleSalesOrderRecordsList
  | .purchaseOrder => handlePurchaseOrdersList
  | .purchaseOrderRecord => handlePurchaseOrderRecordsList

/-- The signal with the list of a resource. -/
def listSignal : (t : TableName) → List (Entity t) → Signal
  | .role => .rolesList
  | .user => .usersList
  | .log => .logsList
  | .contact => .contactsList
  | .employee => .employeesList
  | .supplier => .suppliersList
  | .suppliersProductInfo => .supplierProductsList
  | .productType => .productTypesList
  | .inventory => .stocksList
  | .saleOrder => .salesOrdersList
  | .salesOrderRecord => .salesOrderRecordsList
  | .purchaseOrder => .purchaseOrdersList
  | .purchaseOrderRecord => .purchaseOrderRecordsList

/-- The handler of the replies about a resource. Logs are only listed: a reply to another
method is answered by a warning, without a signal. -/
def handle (t : TableName) (method : Method) (dataset : Dataset) : Option Signal :=
  match method with
  | .get =>
    match (listHandler t).entities dataset with
    | .ok entities => some (listSignal t entities)
    | .error message => some (.errorOccurred message)
  | .post => if t = .log then none else some (.created t)
  | .put => if t = .log then none else some (.edited t)
  | .del => if t = .log then none else some (.deleted t)

/-- What the error key of a reply holds, one line for each text. -/
def errorMessage (dataset : Dataset) : Bytes :=
  (column dataset "error").flatMap fun text => text ++ utf8 "\n"

def handleResponse (t : TableName) (method : Method) (dataset : Dataset) : Option Signal :=
  if errorMessage dataset = [] then handle t method dataset
  else some (.errorOccurred (errorMessage dataset))

end ApiManager

/-! ### Reading a listing -/

section Listing

variable {E E' : Type} {columns : List (String × (E → Bytes))} {xs : List E}

/-- A column of a listing. -/
theorem column_listing (hnodup : (columns.map fun c => utf8 c.1).Nodup)
    {c : String × (E → Bytes)} (hc : c ∈ columns) :
    column (listing columns xs).dataset c.1 = xs.map c.2 := by
  have hkeys : (columns.map fun c =>
      (⟨utf8 c.1, xs.map c.2⟩ : Σ _ : Bytes, List Bytes)).NodupKeys := by
    rw [List.NodupKeys, List.keys, List.map_map]
    exact hnodup
  have hmem : (⟨utf8 c.1, xs.map c.2⟩ : Σ _ : Bytes, List Bytes) ∈
      columns.map fun c => (⟨utf8 c.1, xs.map c.2⟩ : Σ _ : Bytes, List Bytes) :=
    List.mem_map_of_mem hc
  have hlookup : (listing columns xs).dataset.lookup (utf8 c.1) = some (xs.map c.2) := by
    rw [listing, Finmap.dlookup_list_toFinmap]
    exact (List.mem_dlookup_iff hkeys).mpr hmem
  rw [column, hlookup, Option.getD_some]

/-- **Reading a listing.** A handler that reads the columns of a listing makes of it one entity
for each that was listed, in their order. -/
theorem ListHandler.entities_listing {h : ListHandler E'} {f : E → E'}
    (hnodup : (columns.map fun c => utf8 c.1).Nodup) (hkeys : h.keys = columns.map Prod.fst)
    (hid : "id" ∈ h.keys)
    (hmake : ∀ (cell : String → Bytes) (x : E), (∀ c ∈ columns, cell c.1 = c.2 x) →
      h.make cell = f x) :
    h.entities (listing columns xs).dataset = .ok (xs.map f) := by
  -- each key of the handler is a column of the listing, so no column is missing or shorter
  have hcolumn (key : String) (hkey : key ∈ h.keys) :
      ∃ c ∈ columns, c.1 = key ∧ column (listing columns xs).dataset key = xs.map c.2 := by
    obtain ⟨c, hc, rfl⟩ := List.mem_map.mp (hkeys ▸ hkey)
    exact ⟨c, hc, rfl, column_listing hnodup hc⟩
  have hlength (key : String) (hkey : key ∈ h.keys) :
      (column (listing columns xs).dataset key).length = xs.length := by
    obtain ⟨c, -, -, heq⟩ := hcolumn key hkey
    rw [heq, List.length_map]
  have hpresent : ¬ ∃ key ∈ h.keys, utf8 key ∉ (listing columns xs).dataset := by
    rintro ⟨key, hkey, hnot⟩
    obtain ⟨c, hc, rfl, -⟩ := hcolumn key hkey
    exact hnot (mem_listing.mpr (List.mem_map_of_mem hc))
  have hsizes : ¬ ∃ key ∈ h.keys, (column (listing columns xs).dataset key).length ≠
      (column (listing columns xs).dataset "id").length := by
    rintro ⟨key, hkey, hne⟩
    exact hne ((hlength key hkey).trans (hlength "id" hid).symm)
  rw [ListHandler.entities, if_neg hpresent, if_neg hsizes, hlength "id" hid]
  -- the entity made at a position is made of the fields of the entity listed there
  refine congrArg Except.ok (List.ext_getElem (by simp) fun i hi _ => ?_)
  have hi : i < xs.length := by simpa using hi
  rw [List.getElem_map, List.getElem_map, List.getElem_range]
  refine hmake _ _ fun c hc => ?_
  rw [column_listing hnodup hc, List.getD_eq_getElem _ _ (by simpa using hi), List.getElem_map]

end Listing

end SageStore
