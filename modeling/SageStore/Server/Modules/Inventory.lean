import SageStore.Server.Effect

/-!
# `InventoryModule`

Product types, stock rows and the products of suppliers. The code of a product type and the
product of a stock row are unique by look-up: an edit exempts the row whose key, as it is
read back, is the text that addresses the edit.
-/

namespace SageStore

open Bytes Program

variable {e : Enforcement}

namespace InventoryModule

/-- The flag that is stored: `1` for the texts that mean true, and `0` for every other text. -/
def normalizeBooleanFlag (value : Bytes) : Bytes :=
  if value = utf8 "1" ∨ value = utf8 "true" ∨ value = utf8 "True" then "1" else "0"

/-- The module's own version, which need not ask again whether the text is empty. -/
def getRequiredNonNegativeInteger (request : Dataset) (key : String) :
    Except Exception Bytes := do
  let value ← getRequiredDatasetValue request key "InventoryModule"
  if ¬ value.all isDigit then
    throw (.server "InventoryModule" (utf8 "Invalid integer field: " ++ utf8 key))
  ensureIntegerFitsRange value key "InventoryModule"
  return value

/-- A number is positive if its text is not `0`, so `00` passes. -/
def getRequiredPositiveInteger (request : Dataset) (key : String) : Except Exception Bytes := do
  let value ← getRequiredNonNegativeInteger request key
  if value = utf8 "0" then
    throw (.server "InventoryModule" (utf8 "Invalid positive integer field: " ++ utf8 key))
  return value

/-- A product type has a code, a name and a unit. A price that is left out is `0.0`. -/
def buildProductType (request : Dataset) (resourceId : Bytes) :
    Except Exception ProductType := do
  let code ← getRequiredDatasetValue request "code" "InventoryModule"
  let name ← getRequiredDatasetValue request "name" "InventoryModule"
  let unit ← getRequiredDatasetValue request "unit" "InventoryModule"
  let lastPrice := getOptionalDatasetValue request "lastPrice"
  return {
    id := resourceId
    code
    barcode := getOptionalDatasetValue request "barcode"
    name
    description := getOptionalDatasetValue request "description"
    lastPrice := if lastPrice = [] then "0.0" else lastPrice
    unit
    isImported := normalizeBooleanFlag (getOptionalDatasetValue request "isImported") }

/-- The quantity and the employee of a stock row are checked to be numbers; its product is not. -/
def buildStock (request : Dataset) (resourceId : Bytes) : Except Exception Inventory := do
  let productTypeId ← getRequiredDatasetValue request "productTypeId" "InventoryModule"
  let quantityAvailable ← getRequiredNonNegativeInteger request "quantityAvailable"
  let employeeId ← getRequiredPositiveInteger request "employeeId"
  return ⟨resourceId, productTypeId, quantityAvailable, employeeId⟩

def buildSupplierProduct (request : Dataset) (resourceId : Bytes) :
    Except Exception SuppliersProductInfo := do
  let supplierID ← getRequiredPositiveInteger request "supplierID"
  let productTypeId ← getRequiredPositiveInteger request "productTypeId"
  let code ← getRequiredDatasetValue request "code" "InventoryModule"
  return ⟨resourceId, supplierID, productTypeId, code⟩

def getProductTypes : Task e ResponseData := do
  let productTypes ← productTypeRepository.getAll
  return listing [("id", ProductType.id), ("code", ProductType.code),
    ("barcode", ProductType.barcode), ("name", ProductType.name),
    ("description", ProductType.description), ("lastPrice", ProductType.lastPrice),
    ("unit", ProductType.unit), ("isImported", ProductType.isImported)] productTypes

/-- A code that is in use is refused. -/
def addProductType (p : Platform) (request : Dataset) : Task e Unit := do
  let productType ← buildProductType request []
  let existingProductTypes ←
    productTypeRepository.getByField p (.text ProductTypeRow.code) productType.code
  if existingProductTypes ≠ [] then
    throw (.server "InventoryModule" "Product type with this code already exists")
  else
    productTypeRepository.add p productType

/-- An edit may keep the code of its row: the rows that have the code are compared by their key
with the identifier of the request. -/
def editProductType (p : Platform) (request : Dataset) (resourceId : Bytes) : Task e Unit := do
  ensureExisting p productTypeRepository "InventoryModule" "Product type"
    "Product type does not exist" resourceId
  let productType ← buildProductType request resourceId
  let productTypesByCode ←
    productTypeRepository.getByField p (.text ProductTypeRow.code) productType.code
  if productTypesByCode.any fun existing => existing.id ≠ resourceId then
    throw (.server "InventoryModule" "Product type with this code already exists")
  else
    productTypeRepository.update p productType

/-- Whether stock or lines refer to the product is left to the engine. -/
def deleteProductType (p : Platform) (resourceId : Bytes) : Task e Unit :=
  deleteExisting p productTypeRepository "InventoryModule" "Product type"
    "Product type does not exist" resourceId

def getStocks : Task e ResponseData := do
  let inventoryRecords ← inventoryRepository.getAll
  return listing [("id", Inventory.id), ("productTypeId", Inventory.productTypeId),
    ("quantityAvailable", Inventory.quantityAvailable), ("employeeId", Inventory.employeeId)]
    inventoryRecords

def getSupplierProducts : Task e ResponseData := do
  let mappings ← suppliersProductInfoRepository.getAll
  return listing [("id", SuppliersProductInfo.id),
    ("supplierID", SuppliersProductInfo.supplierID),
    ("productTypeId", SuppliersProductInfo.productTypeId), ("code", SuppliersProductInfo.code)]
    mappings

/-- A product has one stock row: a second one is refused. -/
def addStock (p : Platform) (request : Dataset) : Task e Unit := do
  let stock ← buildStock request []
  ensureEntityExists p productTypeRepository .id stock.productTypeId "InventoryModule"
    "Referenced product type does not exist"
  -- the column is compared as an integer, the text of the request as the engine converts it
  let stocks ←
    inventoryRepository.getByField p (.integer InventoryRow.productTypeId) stock.productTypeId
  if stocks ≠ [] then
    throw (.server "InventoryModule" "Stock record for this product type already exists")
  else
    inventoryRepository.add p stock

def editStock (p : Platform) (request : Dataset) (resourceId : Bytes) : Task e Unit := do
  ensureExisting p inventoryRepository "InventoryModule" "Stock"
    "Stock record does not exist" resourceId
  let stock ← buildStock request resourceId
  ensureEntityExists p productTypeRepository .id stock.productTypeId "InventoryModule"
    "Referenced product type does not exist"
  -- rows but the edited one: their key must not read as the identifier of the request
  let stocksByProductType ←
    inventoryRepository.getByField p (.integer InventoryRow.productTypeId) stock.productTypeId
  if stocksByProductType.any fun existing => existing.id ≠ resourceId then
    throw (.server "InventoryModule" "Stock record for this product type already exists")
  else
    inventoryRepository.update p stock

def deleteStock (p : Platform) (resourceId : Bytes) : Task e Unit :=
  deleteExisting p inventoryRepository "InventoryModule" "Stock" "Stock record does not exist"
    resourceId

/-- The references of a supplier's product, checked before it is added or edited. -/
def ensureReferences (p : Platform) (mapping : SuppliersProductInfo) : Task e Unit := do
  ensureEntityExists p supplierRepository .id mapping.supplierID "InventoryModule"
    "Referenced supplier does not exist"
  ensureEntityExists p productTypeRepository .id mapping.productTypeId "InventoryModule"
    "Referenced product type does not exist"

def addSupplierProduct (p : Platform) (request : Dataset) : Task e Unit := do
  let mapping ← buildSupplierProduct request []
  ensureReferences p mapping
  suppliersProductInfoRepository.add p mapping

def editSupplierProduct (p : Platform) (request : Dataset) (resourceId : Bytes) :
    Task e Unit := do
  ensureExisting p suppliersProductInfoRepository "InventoryModule" "Supplier product mapping"
    "Supplier product mapping does not exist" resourceId
  let mapping ← buildSupplierProduct request resourceId
  ensureReferences p mapping
  suppliersProductInfoRepository.update p mapping

def deleteSupplierProduct (p : Platform) (resourceId : Bytes) : Task e Unit :=
  deleteExisting p suppliersProductInfoRepository "InventoryModule" "Supplier product mapping"
    "Supplier product mapping does not exist" resourceId

def executeTask (p : Platform) (req : RequestData) : Task e ResponseData :=
  if req.submodule = utf8 "product-types" then
    dispatchMethod "InventoryModule" req.method getProductTypes (addProductType p req.dataset)
      (editProductType p req.dataset req.resourceId) (deleteProductType p req.resourceId)
  else if req.submodule = utf8 "stocks" then
    dispatchMethod "InventoryModule" req.method getStocks (addStock p req.dataset)
      (editStock p req.dataset req.resourceId) (deleteStock p req.resourceId)
  else if req.submodule = utf8 "supplier-products" then
    dispatchMethod "InventoryModule" req.method getSupplierProducts
      (addSupplierProduct p req.dataset) (editSupplierProduct p req.dataset req.resourceId)
      (deleteSupplierProduct p req.resourceId)
  else
    throw (.server "InventoryModule" "Unrecognized inventory task")

/-! ### Specifications -/

section Specifications

variable {p : Platform} {req : RequestData} {d : Db e} {request : Dataset} {key : String}
  {resourceId : Bytes}

/-- What passes is the field of the request, made of digits and in range. -/
theorem getRequiredNonNegativeInteger_spec :
    Yields Exception.IsUtf8 (getRequiredNonNegativeInteger request key)
      fun v => v = getOptionalDatasetValue request key ∧ isDigits v = true ∧
        digitsValue v < 2 ^ 63 := by
  refine getRequiredDatasetValue_spec.bind fun v hv => ?_
  refine Yields.ite (fun _ => ?_) fun hall => ?_
  · exact Yields.throw ⟨.utf8 _, .append (.utf8 _) (.utf8 _)⟩
  -- a required field is not empty, and all of its bytes are digits
  have hd : isDigits v = true :=
    Bool.and_eq_true_iff.mpr ⟨by simpa using hv.2, not_not.mp hall⟩
  exact (ensureIntegerFitsRange_spec hd).bind fun _ hlt => ⟨hv.1, hd, hlt⟩

/-- What passes is moreover not the text `0`. -/
theorem getRequiredPositiveInteger_spec :
    Yields Exception.IsUtf8 (getRequiredPositiveInteger request key)
      fun v => v = getOptionalDatasetValue request key ∧ isDigits v = true ∧
        digitsValue v < 2 ^ 63 ∧ v ≠ utf8 "0" := by
  refine getRequiredNonNegativeInteger_spec.bind fun v hv => ?_
  refine Yields.ite (fun _ => ?_) fun h0 => ?_
  · exact Yields.throw ⟨.utf8 _, .append (.utf8 _) (.utf8 _)⟩
  · exact Yields.pure ⟨hv.1, hv.2.1, hv.2.2, h0⟩

theorem isUtf8_normalizeBooleanFlag (value : Bytes) : IsUtf8 (normalizeBooleanFlag value) := by
  unfold normalizeBooleanFlag
  split <;> exact .utf8 _

/-- The row of a product type that is built of valid UTF-8 reads as valid UTF-8. -/
theorem buildProductType_spec (p : Platform) :
    Yields Exception.IsUtf8 (buildProductType request resourceId) fun x => x.id = resourceId ∧
      (request.IsUtf8 → RowIsUtf8 .productType (ProductType.row p x)) := by
  refine getRequiredDatasetValue_spec.bind fun code hcode => ?_
  refine getRequiredDatasetValue_spec.bind fun name hname => ?_
  refine getRequiredDatasetValue_spec.bind fun unit hunit => ?_
  refine Yields.pure ⟨rfl, fun hds => ⟨?_, (hds.field _).cstr, ?_, (hds.field _).cstr, ?_, ?_, ?_⟩⟩
  · exact (hcode.1 ▸ hds.field _).cstr
  · exact (hname.1 ▸ hds.field _).cstr
  · -- the price is the one of the request, or the default
    refine (p.sqlite.real_renders _).isUtf8 (Bytes.IsUtf8.cstr ?_)
    dsimp only
    split
    · exact .utf8 _
    · exact hds.field _
  · exact (hunit.1 ▸ hds.field _).cstr
  · exact (p.sqlite.numeric_renders _).isUtf8 (isUtf8_normalizeBooleanFlag _).cstr

/-- The stock row that is built holds a quantity in range. -/
theorem buildStock_spec (p : Platform) :
    Yields Exception.IsUtf8 (buildStock request resourceId) fun x => x.id = resourceId ∧
      (Inventory.row p x).quantityAvailable.IsCount ∧
      (request.IsUtf8 → RowIsUtf8 .inventory (Inventory.row p x)) := by
  refine getRequiredDatasetValue_spec.bind fun productTypeId hproduct => ?_
  refine getRequiredNonNegativeInteger_spec.bind fun quantity hquantity => ?_
  refine getRequiredPositiveInteger_spec.bind fun employeeId hemployee => ?_
  refine Yields.pure ⟨rfl, ⟨_, p.cell_of_isDigits hquantity.2.1 hquantity.2.2, hquantity.2.2⟩,
    fun hds => ⟨?_, ?_, ?_⟩⟩
  · exact p.isUtf8_cell (hproduct.1 ▸ hds.field _)
  · exact p.isUtf8_cell (hquantity.1 ▸ hds.field _)
  · exact p.isUtf8_cell (hemployee.1 ▸ hds.field _)

/-- The row of a supplier's product that is built of valid UTF-8 reads as valid UTF-8. -/
theorem buildSupplierProduct_spec (p : Platform) :
    Yields Exception.IsUtf8 (buildSupplierProduct request resourceId) fun x =>
      x.id = resourceId ∧
      (request.IsUtf8 → RowIsUtf8 .suppliersProductInfo (SuppliersProductInfo.row p x)) := by
  refine getRequiredPositiveInteger_spec.bind fun supplierID hsupplier => ?_
  refine getRequiredPositiveInteger_spec.bind fun productTypeId hproduct => ?_
  refine getRequiredDatasetValue_spec.bind fun code hcode => ?_
  refine Yields.pure ⟨rfl, fun hds => ⟨?_, ?_, (hcode.1 ▸ hds.field _).cstr⟩⟩
  · exact p.isUtf8_cell (hsupplier.1 ▸ hds.field _)
  · exact p.isUtf8_cell (hproduct.1 ▸ hds.field _)

/-- Rows found by a column are exempt from a uniqueness check when their key reads back as
the text that addresses the edit; then that text denotes their key. -/
theorem key_of_exempt {t : TableName} {E : Type} (r : Repository t E) {c : Column t} {v : Bytes}
    (hid : ∀ i x, r.id (r.fromCurrentRow i x) = decimal i) {xs : List E}
    (hxs : xs = ((d t).rows.filter fun x => c.Matches p v x).map fun x =>
      r.fromCurrentRow x.1 x.2)
    (hexempt : ¬ (xs.any fun existing => r.id existing ≠ resourceId) = true) :
    ∀ x ∈ (d t).rows, c.Matches p v x → Cell.int x.1 = p.cell resourceId := by
  intro x hx hmatch
  have hmem : r.fromCurrentRow x.1 x.2 ∈ xs := by
    rw [hxs]
    exact List.mem_map.mpr ⟨x, List.mem_filter.mpr ⟨hx, decide_eq_true hmatch⟩, rfl⟩
  -- the check compares texts; the key is the one the identifier denotes, since it reads back
  have hsame : r.id (r.fromCurrentRow x.1 x.2) = resourceId := by
    by_contra hne
    exact hexempt (List.any_eq_true.mpr ⟨_, hmem, decide_eq_true hne⟩)
  rw [← hsame, hid, p.cell_key hx]

theorem getProductTypes_spec (haddr : req.Addresses .productType)
    (hmethod : req.method = utf8 "GET") : Serves p req d getProductTypes :=
  listing_spec productTypeRepository _ haddr hmethod (by decide) (getAll_mem _) (by decide)
    fun i y hy => by
      obtain ⟨h1, h2, h3, h4, h5, h6, h7⟩ := hy
      simp [productTypeRepository, h1, h2, h3, h4, h5, h6, h7]

/-- A product type is added under a code that no row had. -/
theorem addProductType_spec (haddr : req.Addresses .productType)
    (hmethod : req.method = utf8 "POST") :
    Atomic Exception.IsUtf8 d (addProductType p req.dataset) fun _ d' => Accepts p req d d' := by
  refine (reads_lift (buildProductType_spec p)).bindAtomic fun x hx => ?_
  refine (getByField_spec productTypeRepository _ _).bindAtomic fun existing hexisting => ?_
  refine Outcome.ite (fun _ => Outcome.throw ⟨.utf8 _, .utf8 _⟩) fun hnil => ?_
  refine add_accepts _ x haddr hmethod (fun r hr hsame => ?_) hx.2
  -- a product type of this code would have been found
  rw [not_not, hexisting, List.map_eq_nil_iff, List.filter_eq_nil_iff] at hnil
  exact hnil r hr (decide_eq_true hsame)

/-- An edited product type has a code that no other row has. -/
theorem editProductType_spec (haddr : req.Addresses .productType)
    (hmethod : req.method = utf8 "PUT") :
    Atomic Exception.IsUtf8 d (editProductType p req.dataset req.resourceId)
      fun _ d' => Accepts p req d d' := by
  refine (ensureExisting_spec _ _ _ _ _).bindAtomic fun _ hex => ?_
  refine (reads_lift (buildProductType_spec p)).bindAtomic fun x hx => ?_
  refine (getByField_spec productTypeRepository _ _).bindAtomic fun existing hexisting => ?_
  refine Outcome.ite (fun _ => Outcome.throw ⟨.utf8 _, .utf8 _⟩) fun hexempt => ?_
  exact update_accepts _ x haddr hmethod hx.1 hex.1
    ⟨hex.2, key_of_exempt productTypeRepository (fun _ _ => rfl) hexisting hexempt⟩
    fun _ => hx.2

theorem getStocks_spec (haddr : req.Addresses .inventory)
    (hmethod : req.method = utf8 "GET") : Serves p req d getStocks :=
  listing_spec inventoryRepository _ haddr hmethod (by decide) (getAll_mem _) (by decide)
    fun i y hy => by simp [inventoryRepository, hy.1, hy.2.1, hy.2.2]

/-- A stock row is added for a product that exists and had none. -/
theorem addStock_spec (haddr : req.Addresses .inventory) (hmethod : req.method = utf8 "POST") :
    Atomic Exception.IsUtf8 d (addStock p req.dataset) fun _ d' => Accepts p req d d' := by
  refine (reads_lift (buildStock_spec p)).bindAtomic fun x hx => ?_
  refine (ensureEntityExists_spec productTypeRepository .id _ _ _).bindAtomic
    fun _ hproduct => ?_
  refine (getByField_spec inventoryRepository _ _).bindAtomic fun stocks hstocks => ?_
  refine Outcome.ite (fun _ => Outcome.throw ⟨.utf8 _, .utf8 _⟩) fun hnil => ?_
  refine add_accepts _ x haddr hmethod
    ⟨Database.isCount_of_has hproduct, hx.2.1, fun r hr hsame => ?_⟩ hx.2.2
  -- a stock row of this product would have been found
  rw [not_not, hstocks, List.map_eq_nil_iff, List.filter_eq_nil_iff] at hnil
  exact hnil r hr (decide_eq_true hsame)

/-- An edited stock row is the only one of its product, which exists. -/
theorem editStock_spec (haddr : req.Addresses .inventory) (hmethod : req.method = utf8 "PUT") :
    Atomic Exception.IsUtf8 d (editStock p req.dataset req.resourceId)
      fun _ d' => Accepts p req d d' := by
  refine (ensureExisting_spec _ _ _ _ _).bindAtomic fun _ hex => ?_
  refine (reads_lift (buildStock_spec p)).bindAtomic fun x hx => ?_
  refine (ensureEntityExists_spec productTypeRepository .id _ _ _).bindAtomic
    fun _ hproduct => ?_
  refine (getByField_spec inventoryRepository _ _).bindAtomic fun stocks hstocks => ?_
  refine Outcome.ite (fun _ => Outcome.throw ⟨.utf8 _, .utf8 _⟩) fun hexempt => ?_
  exact update_accepts _ x haddr hmethod hx.1 hex.1
    ⟨hex.2, Database.isCount_of_has hproduct, hx.2.1,
      key_of_exempt inventoryRepository (fun _ _ => rfl) hstocks hexempt⟩ fun _ => hx.2.2

theorem getSupplierProducts_spec (haddr : req.Addresses .suppliersProductInfo)
    (hmethod : req.method = utf8 "GET") : Serves p req d getSupplierProducts :=
  listing_spec suppliersProductInfoRepository _ haddr hmethod (by decide) (getAll_mem _)
    (by decide) fun i y hy => by simp [suppliersProductInfoRepository, hy.1, hy.2.1, hy.2.2]

/-- The references are looked up, and nothing else is done. -/
theorem ensureReferences_spec (mapping : SuppliersProductInfo) :
    Reads Exception.IsUtf8 d (ensureReferences p mapping) fun _ => True :=
  (ensureEntityExists_spec supplierRepository .id _ _ _).bindReads fun _ _ =>
    (ensureEntityExists_spec productTypeRepository .id _ _ _).mono fun _ _ => trivial

/-- A supplier's product is added once its references are found. -/
theorem addSupplierProduct_spec (haddr : req.Addresses .suppliersProductInfo)
    (hmethod : req.method = utf8 "POST") :
    Atomic Exception.IsUtf8 d (addSupplierProduct p req.dataset)
      fun _ d' => Accepts p req d d' := by
  refine (reads_lift (buildSupplierProduct_spec p)).bindAtomic fun x hx => ?_
  refine (ensureReferences_spec x).bindAtomic fun _ _ => ?_
  exact add_accepts _ x haddr hmethod trivial hx.2

/-- An edited row exists, and so do the supplier and the product that it names. -/
theorem editSupplierProduct_spec (haddr : req.Addresses .suppliersProductInfo)
    (hmethod : req.method = utf8 "PUT") :
    Atomic Exception.IsUtf8 d (editSupplierProduct p req.dataset req.resourceId)
      fun _ d' => Accepts p req d d' := by
  refine (ensureExisting_spec _ _ _ _ _).bindAtomic fun _ hex => ?_
  refine (reads_lift (buildSupplierProduct_spec p)).bindAtomic fun x hx => ?_
  refine (ensureReferences_spec x).bindAtomic fun _ _ => ?_
  exact update_accepts _ x haddr hmethod hx.1 hex.1 hex.2 fun _ => hx.2

/-- **The module serves its requests**: an accepted one has its effect, and a rejected one none. -/
theorem executeTask_spec (hmodule : req.module = utf8 "inventory") :
    Serves p req d (executeTask p req) := by
  refine Outcome.ite (fun hsub => ?_) fun _ => Outcome.ite (fun hsub => ?_) fun _ =>
    Outcome.ite (fun hsub => ?_) fun _ => Outcome.throw ⟨.utf8 _, .utf8 _⟩
  · have haddr : req.Addresses .productType := ⟨hmodule, hsub⟩
    exact dispatchMethod_spec (getProductTypes_spec haddr)
      (fun h => (addProductType_spec haddr h).outcome)
      (fun h => (editProductType_spec haddr h).outcome)
      fun h => (deleteExisting_accepts productTypeRepository _ _ _ haddr h id).outcome
  · have haddr : req.Addresses .inventory := ⟨hmodule, hsub⟩
    exact dispatchMethod_spec (getStocks_spec haddr)
      (fun h => (addStock_spec haddr h).outcome) (fun h => (editStock_spec haddr h).outcome)
      fun h => (deleteExisting_accepts inventoryRepository _ _ _ haddr h id).outcome
  · have haddr : req.Addresses .suppliersProductInfo := ⟨hmodule, hsub⟩
    exact dispatchMethod_spec (getSupplierProducts_spec haddr)
      (fun h => (addSupplierProduct_spec haddr h).outcome)
      (fun h => (editSupplierProduct_spec haddr h).outcome)
      fun h => (deleteExisting_accepts suppliersProductInfoRepository _ _ _ haddr h id).outcome

end Specifications

end InventoryModule

end SageStore
