import SageStore.Server.Effect

/-!
# `AnalyticsModule`

Figures about sales and stock, for reading only. Texts that are no numbers count as zero, so
the figures are defined for every database.
-/

namespace SageStore

open Bytes Program

variable {e : Enforcement}

namespace AnalyticsModule

/-! ### Reading numbers and statuses -/

def parseDouble (p : Platform) (value : Bytes) : p.doubles.Double :=
  (p.doubles.stod value).getD (p.doubles.ofInt 0)

def parseInteger (value : Bytes) : ℤ := (stoll value).getD 0

def trimValue (value : Bytes) : Bytes := trim value

def normalizeSalesStatus (status : Bytes) : Bytes :=
  let normalized := trimValue status
  if normalized = utf8 "Draft" ∨ normalized = utf8 "Чернетка" then
    utf8 "Draft"
  else if normalized = utf8 "Confirmed" ∨ normalized = utf8 "Підтверджено" then
    utf8 "Confirmed"
  else if normalized = utf8 "Invoiced" ∨ normalized = utf8 "Issued" ∨
      normalized = utf8 "Виставлено рахунок" then
    utf8 "Invoiced"
  else
    normalized

def normalizePurchaseStatus (status : Bytes) : Bytes :=
  let normalized := trimValue status
  if normalized = utf8 "Received" ∨ normalized = utf8 "Отримано" then
    utf8 "Received"
  else if normalized = utf8 "Ordered" ∨ normalized = utf8 "Pending" ∨
      normalized = utf8 "Замовлено" then
    utf8 "Ordered"
  else if normalized = utf8 "Draft" ∨ normalized = utf8 "Чернетка" then
    utf8 "Draft"
  else
    normalized

/-! ### Figures -/

/-- The value of some lines: the sum of price times quantity, added in the order of the
lines. -/
def totalValue (p : Platform) (records : List OrderRecord) : p.doubles.Double :=
  records.foldl (fun total x => p.doubles.add total
    (p.doubles.mul (parseDouble p x.price) (p.doubles.ofInt (parseInteger x.quantity))))
    (p.doubles.ofInt 0)

/-- The units in stock. The sum is kept in 64 bits, and wraps around. -/
def totalUnits (stocks : List Inventory) : ℤ :=
  stocks.foldl (fun total x => (total + parseInteger x.quantityAvailable).bmod (2 ^ 64)) 0

/-- The value of the stock at the last prices; stock of a product without a row is left
out. -/
def inventoryValueEstimate (p : Platform) (stocks : List Inventory)
    (productTypes : List ProductType) : p.doubles.Double :=
  stocks.foldl (fun total x =>
    match productTypes.find? fun y => y.id = x.productTypeId with
    | some y => p.doubles.add total (p.doubles.mul
        (p.doubles.ofInt (parseInteger x.quantityAvailable)) (parseDouble p y.lastPrice))
    | none => total) (p.doubles.ofInt 0)

def isImported (x : ProductType) : Bool :=
  x.isImported = utf8 "1" ∨ x.isImported = utf8 "true" ∨ x.isImported = utf8 "True"

def getSalesAnalytics (p : Platform) : Task e ResponseData := do
  let orders ← saleOrderRepository.getAll
  let salesRecords ← salesOrderRecordRepository.getAll
  let purchaseRecords ← purchaseOrderRecordRepository.getAll
  let totalRevenue := totalValue p salesRecords
  let totalPurchaseCost := totalValue p purchaseRecords
  let uniqueCustomers := ((orders.map SaleOrder.contactId).filter fun id => id ≠ []).dedup
  let withStatus (status : String) : ℕ :=
    orders.countP fun x => normalizeSalesStatus x.status = utf8 status
  -- no order, or no revenue: the quotient is not formed
  let averageOrderValue :=
    if orders = [] then p.doubles.ofInt 0
    else p.doubles.div totalRevenue (p.doubles.ofInt orders.length)
  let grossProfit := p.doubles.sub totalRevenue totalPurchaseCost
  let grossMarginPercent :=
    if p.doubles.le totalRevenue (p.doubles.ofInt 0) then p.doubles.ofInt 0
    else p.doubles.mul (p.doubles.div grossProfit totalRevenue) (p.doubles.ofInt 100)
  return record
    [("totalOrders", decimal orders.length), ("totalOrderLines", decimal salesRecords.length),
      ("totalRevenue", p.doubles.toText totalRevenue),
      ("averageOrderValue", p.doubles.toText averageOrderValue),
      ("uniqueCustomers", decimal uniqueCustomers.length),
      ("totalPurchaseCost", p.doubles.toText totalPurchaseCost),
      ("grossProfit", p.doubles.toText grossProfit),
      ("grossMarginPercent", p.doubles.toText grossMarginPercent),
      ("draftOrders", decimal (withStatus "Draft")),
      ("confirmedOrders", decimal (withStatus "Confirmed")),
      ("invoicedOrders", decimal (withStatus "Invoiced"))]

def getInventoryAnalytics (p : Platform) : Task e ResponseData := do
  let inventoryRecords ← inventoryRepository.getAll
  let productTypes ← productTypeRepository.getAll
  let purchaseOrders ← purchaseOrderRepository.getAll
  let purchaseRecords ← purchaseOrderRecordRepository.getAll
  let zeroStockRecords := inventoryRecords.countP fun x => parseInteger x.quantityAvailable = 0
  let receivedPurchaseOrders :=
    purchaseOrders.countP fun x => normalizePurchaseStatus x.status = utf8 "Received"
  return record
    [("totalProductTypes", decimal productTypes.length),
      ("totalStockRecords", decimal inventoryRecords.length),
      ("totalUnitsAvailable", ofInt (totalUnits inventoryRecords)),
      ("importedProductTypes", decimal (productTypes.countP isImported)),
      ("zeroStockRecords", decimal zeroStockRecords),
      ("totalPurchaseOrders", decimal purchaseOrders.length),
      -- an order with any status but `Received` counts as open
      ("openPurchaseOrders", ofInt (purchaseOrders.length - receivedPurchaseOrders)),
      ("receivedPurchaseOrders", decimal receivedPurchaseOrders),
      ("totalPurchaseSpend", p.doubles.toText (totalValue p purchaseRecords)),
      ("inventoryValueEstimate",
        p.doubles.toText (inventoryValueEstimate p inventoryRecords productTypes))]

def executeTask (p : Platform) (req : RequestData) : Task e ResponseData :=
  if req.method ≠ utf8 "GET" then
    throw (.server "AnalyticsModule" "Analytics endpoints are read-only")
  else if req.submodule = utf8 "sales" then
    getSalesAnalytics p
  else if req.submodule = utf8 "inventory" then
    getInventoryAnalytics p
  else
    throw (.server "AnalyticsModule" "Unrecognized analytics task")

/-! ### Specifications -/

section Specifications

variable {p : Platform} {req : RequestData} {d : Db e}

theorem isUtf8_double (x : p.doubles.Double) : IsUtf8 (p.doubles.toText x) :=
  .of_ascii (p.doubles.toText_ascii x)

/-- The figures are read, and nothing is written. -/
theorem getSalesAnalytics_spec (hmodule : req.module = utf8 "analytics")
    (hmethod : req.method = utf8 "GET") : Serves p req d (getSalesAnalytics p) := by
  refine Serves.reads (.of_get hmethod) ?_
  refine (getAll_spec saleOrderRepository).bindReads fun orders _ => ?_
  refine (getAll_spec salesOrderRecordRepository).bindReads fun salesRecords _ => ?_
  refine (getAll_spec purchaseOrderRecordRepository).bindReads fun purchaseRecords _ => ?_
  refine Reads.pure (.record (fun hlog => ?_) (by dsimp only [List.map]; decide) fun _ => ?_)
  · exact absurd (hmodule.symm.trans hlog.1.1) (by decide)
  · simp [isUtf8_double]

/-- The figures are read, and nothing is written. -/
theorem getInventoryAnalytics_spec (hmodule : req.module = utf8 "analytics")
    (hmethod : req.method = utf8 "GET") : Serves p req d (getInventoryAnalytics p) := by
  refine Serves.reads (.of_get hmethod) ?_
  refine (getAll_spec inventoryRepository).bindReads fun inventoryRecords _ => ?_
  refine (getAll_spec productTypeRepository).bindReads fun productTypes _ => ?_
  refine (getAll_spec purchaseOrderRepository).bindReads fun purchaseOrders _ => ?_
  refine (getAll_spec purchaseOrderRecordRepository).bindReads fun purchaseRecords _ => ?_
  refine Reads.pure (.record (fun hlog => ?_) (by dsimp only [List.map]; decide) fun _ => ?_)
  · exact absurd (hmodule.symm.trans hlog.1.1) (by decide)
  · simp [isUtf8_double]

theorem executeTask_spec (hmodule : req.module = utf8 "analytics") :
    Serves p req d (executeTask p req) :=
  Outcome.ite (fun _ => Outcome.throw ⟨.utf8 _, .utf8 _⟩) fun hmethod =>
    Outcome.ite (fun _ => getSalesAnalytics_spec hmodule (not_not.mp hmethod)) fun _ =>
      Outcome.ite (fun _ => getInventoryAnalytics_spec hmodule (not_not.mp hmethod)) fun _ =>
        Outcome.throw ⟨.utf8 _, .utf8 _⟩

end Specifications

end AnalyticsModule

end SageStore
