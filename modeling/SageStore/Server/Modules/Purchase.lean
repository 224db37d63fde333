import SageStore.Server.Modules.Orders

/-!
# `PurchaseModule`

Purchase orders, their lines, and receipts. A purchase order is `Draft`, `Ordered` or
`Received`. Only a receipt makes it `Received`, and a received order, with its lines, can no
longer be edited or deleted.

A receipt first plans, reading only, what becomes of the stock of each product on the
order's lines. The source keeps a map from product texts to planned mutations and a list of
its keys in the order of their insertion; here both are one association list in that order.
-/

namespace SageStore

open Bytes Program

variable {e : Enforcement}

namespace PurchaseModule

/-! ### Statuses -/

def trimStatus (value : Bytes) : Bytes := trim value

def normalizeOrderStatus (status : Bytes) : Except Exception Bytes :=
  let normalized := trimStatus status
  if normalized = utf8 "Draft" ∨ normalized = utf8 "Чернетка" then
    pure "Draft"
  else if normalized = utf8 "Ordered" ∨ normalized = utf8 "Pending" ∨
      normalized = utf8 "Замовлено" then
    pure "Ordered"
  else if normalized = utf8 "Received" ∨ normalized = utf8 "Отримано" then
    pure "Received"
  else
    throw (.server "PurchaseModule" "Invalid purchase order status")

def getOrderById (p : Platform) (orderId : Bytes) : Task e PurchaseOrder := do
  ensureEntityExists p purchaseOrderRepository .id orderId "PurchaseModule"
    "Purchase order does not exist"
  let orders ← purchaseOrderRepository.getByField p .id orderId
  match orders with
  | [] => throw (.server "PurchaseModule" "Purchase order does not exist")
  | order :: _ => return order

def ensureOrderIsNotReceived (order : PurchaseOrder) (message : String) :
    Except Exception Unit := do
  let status ← normalizeOrderStatus order.status
  if status = utf8 "Received" then
    throw (.server "PurchaseModule" message)

def ensureOrderStatusCanBeSetManually (order : PurchaseOrder) : Except Exception Unit :=
  if order.status = utf8 "Received" then
    throw (.server "PurchaseModule" "Purchase orders must be received via receipt posting")
  else
    pure ()

/-! ### Building entities -/

def buildOrder (request : Dataset) (resourceId : Bytes) : Except Exception PurchaseOrder := do
  let date ← getRequiredDatasetValue request "date" "PurchaseModule"
  let userId ← getRequiredPositiveInteger request "userId" "PurchaseModule"
  let supplierId ← getRequiredPositiveInteger request "supplierId" "PurchaseModule"
  let status ← getRequiredDatasetValue request "status" "PurchaseModule"
  let normalized ← normalizeOrderStatus status
  return ⟨resourceId, date, userId, supplierId, normalized⟩

def buildOrderRecord (p : Platform) (request : Dataset) (resourceId : Bytes) :
    Except Exception OrderRecord :=
  buildOrderRecordOf "PurchaseModule" p request resourceId

/-! ### Quantities -/

def parseNonNegativeQuantity (value : Bytes) : Except Exception ℤ :=
  if ¬ isDigits value then
    throw (.server "PurchaseModule" "Invalid quantity value")
  else
    match stoll value with
    | some quantity => pure quantity
    | none => throw (.server "PurchaseModule" "Quantity is out of range")

def addQuantities (currentQuantity receivedQuantity : Bytes) : Except Exception ℤ := do
  let current ← parseNonNegativeQuantity currentQuantity
  let received ← parseNonNegativeQuantity receivedQuantity
  -- the check of the source subtracts, so that it cannot overflow itself
  if (2 ^ 63 - 1) - received < current then
    throw (.server "PurchaseModule" "Stock quantity overflow")
  return current + received

/-! ### Orders -/

def getOrders : Task e ResponseData := do
  let orders ← purchaseOrderRepository.getAll
  return listing [("id", PurchaseOrder.id), ("date", PurchaseOrder.date),
    ("userId", PurchaseOrder.userId), ("supplierId", PurchaseOrder.supplierId),
    ("status", PurchaseOrder.status)] orders

def getOrderRecords (p : Platform) (orderId : Bytes) : Task e ResponseData := do
  let records ← (if orderId = [] then purchaseOrderRecordRepository.getAll
    else purchaseOrderRecordRepository.getByField p (.integer OrderRecordRow.orderId) orderId)
  return listing orderRecordColumns records

/-- The status and the references of an order, checked before it is added or edited. -/
def ensureOrderCanBeStored (p : Platform) (order : PurchaseOrder) : Task e Unit := do
  ensureOrderStatusCanBeSetManually order
  ensureEntityExists p userRepository .id order.userId "PurchaseModule"
    "Referenced user does not exist"
  ensureEntityExists p supplierRepository .id order.supplierId "PurchaseModule"
    "Referenced supplier does not exist"

def addOrder (p : Platform) (request : Dataset) : Task e Unit := do
  let order ← buildOrder request []
  ensureOrderCanBeStored p order
  purchaseOrderRepository.add p order

def editOrder (p : Platform) (request : Dataset) (resourceId : Bytes) : Task e Unit := do
  ensureResourceId resourceId "PurchaseModule" "Purchase order"
  let existingOrder ← getOrderById p resourceId
  ensureOrderIsNotReceived existingOrder "Received purchase orders cannot be edited"
  let order ← buildOrder request resourceId
  ensureOrderCanBeStored p order
  purchaseOrderRepository.update p order

def deleteOrder (p : Platform) (resourceId : Bytes) : Task e Unit := do
  ensureResourceId resourceId "PurchaseModule" "Purchase order"
  let existingOrder ← getOrderById p resourceId
  ensureOrderIsNotReceived existingOrder "Received purchase orders cannot be deleted"
  eraseOrder p purchaseOrderRecordRepository OrderRecordRow.orderId purchaseOrderRepository
    resourceId

/-! ### Receipts -/

/-- A stock row that a receipt will insert (`create`) or update. -/
structure PlannedStockMutation where
  create : Bool
  stock : Inventory

/-- Raise the quantity a mutation writes, and name the receiving employee. -/
def raiseStock (employeeId quantity : Bytes) (mutation : PlannedStockMutation) :
    Except Exception PlannedStockMutation := do
  let sum ← addQuantities mutation.stock.quantityAvailable quantity
  return { mutation with
    stock := { mutation.stock with quantityAvailable := ofInt sum, employeeId } }

/-- Change the entry under `key`, if there is one. -/
def updateEntry {M : Type} (key : Bytes) (f : M → Except Exception M) :
    List (Bytes × M) → Except Exception (List (Bytes × M))
  | [] => pure []
  | (k, m) :: rest =>
    if k = key then do
      let m' ← f m
      return (k, m') :: rest
    else do
      let rest' ← updateEntry key f rest
      return (k, m) :: rest'

/-- The mutation a product starts with: its first stock row, or a new one. -/
def initialMutation (productTypeId employeeId : Bytes) :
    List Inventory → PlannedStockMutation
  | [] => ⟨true, ⟨[], productTypeId, "0", employeeId⟩⟩
  | stock :: _ => ⟨false, stock⟩

/-- One turn of the planning loop: a product that is new gets an entry, and the line's
quantity is added to the entry of its product. -/
def planRecord (p : Platform) (employeeId : Bytes) (plan : List (Bytes × PlannedStockMutation))
    (entry : OrderRecord) : Task e (List (Bytes × PlannedStockMutation)) := do
  ensureEntityExists p productTypeRepository .id entry.productTypeId "PurchaseModule"
    "Referenced product type does not exist"
  let planned ← (if plan.any (fun planned => planned.1 = entry.productTypeId) then pure plan
    else do
      let matchingStocks ← inventoryRepository.getByField p
        (.integer InventoryRow.productTypeId) entry.productTypeId
      return plan ++
        [(entry.productTypeId, initialMutation entry.productTypeId employeeId matchingStocks)])
  updateEntry entry.productTypeId (raiseStock employeeId entry.quantity) planned

/-- Write a planned mutation. -/
def postMutation (p : Platform) (mutation : PlannedStockMutation) : Task e Unit :=
  if mutation.create then inventoryRepository.add p mutation.stock
  else inventoryRepository.update p mutation.stock

def receiveOrder (p : Platform) (request : Dataset) : Task e Unit := do
  let orderId ← getRequiredPositiveInteger request "id" "PurchaseModule"
  let employeeId ← getRequiredPositiveInteger request "employeeId" "PurchaseModule"
  ensureEntityExists p employeeRepository .id employeeId "PurchaseModule"
    "Referenced employee does not exist"
  let order ← getOrderById p orderId
  ensureOrderIsNotReceived order "Purchase order is already received"
  let records ←
    purchaseOrderRecordRepository.getByField p (.integer OrderRecordRow.orderId) orderId
  if records = [] then
    throw (.server "PurchaseModule" "Purchase order has no line items")
  else
    let plan ← records.foldlM (planRecord p employeeId) []
    runInTransaction do
      forM plan fun planned => postMutation p planned.2
      purchaseOrderRepository.update p { order with status := "Received" }

/-! ### Lines -/

def addOrderRecord (p : Platform) (request : Dataset) : Task e Unit := do
  let entry ← buildOrderRecord p request []
  let parentOrder ← getOrderById p entry.orderId
  ensureOrderIsNotReceived parentOrder
    "Received purchase orders cannot be modified through line items"
  ensureEntityExists p productTypeRepository .id entry.productTypeId "PurchaseModule"
    "Referenced product type does not exist"
  purchaseOrderRecordRepository.add p entry

/-- The look-up that `editOrderRecord` and `deleteOrderRecord` begin with. -/
def getOrderRecordById (p : Platform) (resourceId : Bytes) : Task e OrderRecord := do
  ensureExisting p purchaseOrderRecordRepository "PurchaseModule" "Purchase order record"
    "Purchase order record does not exist" resourceId
  let existingRecords ← purchaseOrderRecordRepository.getByField p .id resourceId
  match existingRecords with
  | [] => throw (.server "PurchaseModule" "Purchase order record does not exist")
  | entry :: _ => return entry

def editOrderRecord (p : Platform) (request : Dataset) (resourceId : Bytes) : Task e Unit := do
  let existingRecord ← getOrderRecordById p resourceId
  let entry ← buildOrderRecord p request resourceId
  let existingParentOrder ← getOrderById p existingRecord.orderId
  ensureOrderIsNotReceived existingParentOrder
    "Received purchase orders cannot be modified through line items"
  let targetParentOrder ← getOrderById p entry.orderId
  ensureOrderIsNotReceived targetParentOrder
    "Received purchase orders cannot be modified through line items"
  ensureEntityExists p productTypeRepository .id entry.productTypeId "PurchaseModule"
    "Referenced product type does not exist"
  purchaseOrderRecordRepository.update p entry

def deleteOrderRecord (p : Platform) (resourceId : Bytes) : Task e Unit := do
  let existingRecord ← getOrderRecordById p resourceId
  let parentOrder ← getOrderById p existingRecord.orderId
  ensureOrderIsNotReceived parentOrder
    "Received purchase orders cannot be modified through line items"
  purchaseOrderRecordRepository.deleteResource p resourceId

/-! ### Dispatch -/

def executeTask (p : Platform) (req : RequestData) : Task e ResponseData :=
  if req.submodule = utf8 "orders" then
    dispatchMethod "PurchaseModule" req.method getOrders (addOrder p req.dataset)
      (editOrder p req.dataset req.resourceId) (deleteOrder p req.resourceId)
  else if req.submodule = utf8 "order-records" then
    dispatchMethod "PurchaseModule" req.method (getOrderRecords p req.resourceId)
      (addOrderRecord p req.dataset) (editOrderRecord p req.dataset req.resourceId)
      (deleteOrderRecord p req.resourceId)
  else if req.submodule = utf8 "receipts" then
    if req.method = utf8 "POST" then do
      receiveOrder p req.dataset
      pure .empty
    else
      throw (.server "PurchaseModule" "Unrecognized method")
  else
    throw (.server "PurchaseModule" "Unrecognized purchase task")

/-! ### Specifications of the look-ups and the statuses -/

section Specifications

variable {p : Platform} {d : Db e}

/-- A status passes in one of the four spellings that are stored. -/
theorem normalizeOrderStatus_spec {status : Bytes} :
    Yields Exception.IsUtf8 (normalizeOrderStatus status)
      fun s => ManualStatus s ∨ s = utf8 "Received" := by
  refine Yields.ite (fun _ => Or.inl (Or.inl rfl)) fun _ => ?_
  refine Yields.ite (fun _ => Or.inl (Or.inr rfl)) fun _ => ?_
  exact Yields.ite (fun _ => Or.inr rfl) fun _ => Yields.throw ⟨.utf8 _, .utf8 _⟩

/-- The statuses that are stored are recognised, as themselves. -/
theorem normalizeOrderStatus_self {status : Bytes}
    (h : ManualStatus status ∨ status = utf8 "Received") :
    normalizeOrderStatus status = .ok status := by
  rcases h with (rfl | rfl) | rfl <;> decide

/-- The statuses are stored as they are. -/
theorem cstr_status {status : Bytes} (h : ManualStatus status ∨ status = utf8 "Received") :
    cstr status = status := by
  rcases h with (rfl | rfl) | rfl <;> decide

/-- An order that passes is not received. -/
theorem ensureOrderIsNotReceived_spec (order : PurchaseOrder) (message : String) :
    Yields Exception.IsUtf8 (ensureOrderIsNotReceived order message)
      fun _ => order.status ≠ utf8 "Received" := by
  unfold ensureOrderIsNotReceived
  -- the other spellings of the status are refused too, so this is one direction only
  by_cases h : order.status = utf8 "Received"
  · rw [h, normalizeOrderStatus_self (Or.inr rfl)]
    exact Yields.throw ⟨.utf8 _, .utf8 _⟩
  · refine normalizeOrderStatus_spec.bind fun status _ => ?_
    exact Yields.ite (fun _ => Yields.throw ⟨.utf8 _, .utf8 _⟩) fun _ => Yields.pure h

/-- A status that passes is not that of a received order. -/
theorem ensureOrderStatusCanBeSetManually_spec (order : PurchaseOrder) :
    Yields Exception.IsUtf8 (ensureOrderStatusCanBeSetManually order)
      fun _ => order.status ≠ utf8 "Received" :=
  Yields.ite (fun _ => Yields.throw ⟨.utf8 _, .utf8 _⟩) fun h => Yields.pure h

/-- The order found is the one row with the key looked up. -/
theorem getOrderById_spec (orderId : Bytes) :
    Reads Exception.IsUtf8 d (getOrderById p orderId) fun order =>
      ∃ o ∈ (d .purchaseOrder).rows, Cell.int o.1 = p.cell orderId ∧
        order = purchaseOrderRepository.fromCurrentRow o.1 o.2 := by
  refine (ensureEntityExists_spec purchaseOrderRepository .id _ _ _).bindReads fun _ _ => ?_
  refine (getByField_spec purchaseOrderRepository _ _).bindReads fun orders horders => ?_
  cases orders with
  | nil => exact Reads.throw ⟨.utf8 _, .utf8 _⟩
  | cons order rest =>
    obtain ⟨o, ho, rfl⟩ := List.mem_map.mp (horders ▸ List.mem_cons_self)
    exact Reads.pure ⟨o, (mem_matching.mp ho).1, (mem_matching.mp ho).2, rfl⟩

end Specifications

end PurchaseModule

end SageStore
