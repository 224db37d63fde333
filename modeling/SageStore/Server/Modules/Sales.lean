import SageStore.Server.Modules.Orders

/-!
# `SalesModule`

Sales orders, with any status text, and their lines.
-/

namespace SageStore

open Bytes Program

variable {e : Enforcement}

namespace SalesModule

/-- A sales order is given a date, a status and three references; the status may be any text. -/
def buildOrder (request : Dataset) (resourceId : Bytes) : Except Exception SaleOrder := do
  let date ← getRequiredDatasetValue request "date" "SalesModule"
  let userId ← getRequiredPositiveInteger request "userId" "SalesModule"
  let contactId ← getRequiredPositiveInteger request "contactId" "SalesModule"
  let employeeId ← getRequiredPositiveInteger request "employeeId" "SalesModule"
  let status ← getRequiredDatasetValue request "status" "SalesModule"
  return ⟨resourceId, date, userId, contactId, employeeId, status⟩

def buildOrderRecord (p : Platform) (request : Dataset) (resourceId : Bytes) :
    Except Exception OrderRecord :=
  buildOrderRecordOf "SalesModule" p request resourceId

def getOrders : Task e ResponseData := do
  let orders ← saleOrderRepository.getAll
  return listing [("id", SaleOrder.id), ("date", SaleOrder.date), ("userId", SaleOrder.userId),
    ("contactId", SaleOrder.contactId), ("employeeId", SaleOrder.employeeId),
    ("status", SaleOrder.status)] orders

/-- The lines of one order if the request names one, else all lines. -/
def getOrderRecords (p : Platform) (orderId : Bytes) : Task e ResponseData := do
  let records ← (if orderId = [] then salesOrderRecordRepository.getAll
    else salesOrderRecordRepository.getByField p (.integer OrderRecordRow.orderId) orderId)
  return listing orderRecordColumns records

/-- The references of an order, checked before it is added or edited. -/
def ensureOrderReferences (p : Platform) (order : SaleOrder) : Task e Unit := do
  ensureEntityExists p userRepository .id order.userId "SalesModule"
    "Referenced user does not exist"
  ensureEntityExists p contactRepository .id order.contactId "SalesModule"
    "Referenced contact does not exist"
  ensureEntityExists p employeeRepository .id order.employeeId "SalesModule"
    "Referenced employee does not exist"

def addOrder (p : Platform) (request : Dataset) : Task e Unit := do
  let order ← buildOrder request []
  ensureOrderReferences p order
  saleOrderRepository.add p order

def editOrder (p : Platform) (request : Dataset) (resourceId : Bytes) : Task e Unit := do
  ensureExisting p saleOrderRepository "SalesModule" "Sales order" "Sales order does not exist"
    resourceId
  let order ← buildOrder request resourceId
  ensureOrderReferences p order
  saleOrderRepository.update p order

/-- The lines are deleted first, each by a statement of its own and without a transaction. -/
def deleteOrder (p : Platform) (resourceId : Bytes) : Task e Unit := do
  ensureExisting p saleOrderRepository "SalesModule" "Sales order" "Sales order does not exist"
    resourceId
  eraseOrder p salesOrderRecordRepository OrderRecordRow.orderId saleOrderRepository resourceId

/-- The references of a line, checked before it is added or edited. -/
def ensureRecordReferences (p : Platform) (entry : OrderRecord) : Task e Unit := do
  ensureEntityExists p saleOrderRepository .id entry.orderId "SalesModule"
    "Referenced sales order does not exist"
  ensureEntityExists p productTypeRepository .id entry.productTypeId "SalesModule"
    "Referenced product type does not exist"

/-- A line is added to an order in any status. -/
def addOrderRecord (p : Platform) (request : Dataset) : Task e Unit := do
  let entry ← buildOrderRecord p request []
  ensureRecordReferences p entry
  salesOrderRecordRepository.add p entry

def editOrderRecord (p : Platform) (request : Dataset) (resourceId : Bytes) : Task e Unit := do
  ensureExisting p salesOrderRecordRepository "SalesModule" "Sales order record"
    "Sales order record does not exist" resourceId
  let entry ← buildOrderRecord p request resourceId
  ensureRecordReferences p entry
  salesOrderRecordRepository.update p entry

def deleteOrderRecord (p : Platform) (resourceId : Bytes) : Task e Unit :=
  deleteExisting p salesOrderRecordRepository "SalesModule" "Sales order record"
    "Sales order record does not exist" resourceId

def executeTask (p : Platform) (req : RequestData) : Task e ResponseData :=
  if req.submodule = utf8 "orders" then
    dispatchMethod "SalesModule" req.method getOrders (addOrder p req.dataset)
      (editOrder p req.dataset req.resourceId) (deleteOrder p req.resourceId)
  else if req.submodule = utf8 "order-records" then
    dispatchMethod "SalesModule" req.method (getOrderRecords p req.resourceId)
      (addOrderRecord p req.dataset) (editOrderRecord p req.dataset req.resourceId)
      (deleteOrderRecord p req.resourceId)
  else
    throw (.server "SalesModule" "Unrecognized sales task")

/-! ### Specifications -/

section Specifications

variable {p : Platform} {req : RequestData} {d : Db e} {request : Dataset}
  {resourceId : Bytes}

/-- The row of an order that is built of valid UTF-8 reads as valid UTF-8. -/
theorem buildOrder_spec (p : Platform) :
    Yields Exception.IsUtf8 (buildOrder request resourceId) fun x => x.id = resourceId ∧
      (request.IsUtf8 → RowIsUtf8 .saleOrder (SaleOrder.row p x)) := by
  refine getRequiredDatasetValue_spec.bind fun date hdate => ?_
  refine getRequiredPositiveInteger_spec.bind fun userId huser => ?_
  refine getRequiredPositiveInteger_spec.bind fun contactId hcontact => ?_
  refine getRequiredPositiveInteger_spec.bind fun employeeId hemployee => ?_
  refine getRequiredDatasetValue_spec.bind fun status hstatus => ?_
  refine Yields.pure ⟨rfl, fun hds => ⟨?_, ?_, ?_, ?_, (hstatus.1 ▸ hds.field _).cstr⟩⟩
  · exact (p.sqlite.numeric_renders _).isUtf8 (hdate.1 ▸ hds.field _).cstr
  · exact p.isUtf8_cell (huser.1 ▸ hds.field _)
  · exact p.isUtf8_cell (hcontact.1 ▸ hds.field _)
  · exact p.isUtf8_cell (hemployee.1 ▸ hds.field _)

/-- The references are looked up, and nothing else is done. -/
theorem ensureOrderReferences_spec (order : SaleOrder) :
    Reads Exception.IsUtf8 d (ensureOrderReferences p order) fun _ => True :=
  (ensureEntityExists_spec userRepository .id _ _ _).bindReads fun _ _ =>
    (ensureEntityExists_spec contactRepository .id _ _ _).bindReads fun _ _ =>
      (ensureEntityExists_spec employeeRepository .id _ _ _).mono fun _ _ => trivial

/-- A line that passes is about an order that exists. -/
theorem ensureRecordReferences_spec (entry : OrderRecord) :
    Reads Exception.IsUtf8 d (ensureRecordReferences p entry)
      fun _ => (d .saleOrder).Has (OrderRecord.row p entry).orderId :=
  (ensureEntityExists_spec saleOrderRepository .id _ _ _).bindReads fun _ hhas =>
    (ensureEntityExists_spec productTypeRepository .id _ _ _).mono fun _ _ => hhas

/-- Listing the orders only reads. -/
theorem getOrders_spec (haddr : req.Addresses .saleOrder)
    (hmethod : req.method = utf8 "GET") : Serves p req d getOrders :=
  listing_spec saleOrderRepository _ haddr hmethod (by decide) (getAll_mem _) (by decide)
    fun i y hy => by
      obtain ⟨h1, h2, h3, h4, h5⟩ := hy
      simp [saleOrderRepository, h1, h2, h3, h4, h5]

/-- Listing lines only reads, for one order or for all. -/
theorem getOrderRecords_spec (haddr : req.Addresses .salesOrderRecord)
    (hmethod : req.method = utf8 "GET") : Serves p req d (getOrderRecords p req.resourceId) := by
  refine listing_spec salesOrderRecordRepository orderRecordColumns haddr hmethod (by decide) ?_
    (by decide) fun i y hy => ?_
  -- the lines of one order if the request names one, else all
  · exact Reads.ite (fun _ => getAll_mem _) fun _ => (getByField_mem _ _ _).mono
      fun xs hxs y hy => (hxs y hy).imp fun i hi => ⟨hi.1, hi.2.2⟩
  · obtain ⟨h1, h2, h3, h4⟩ := hy
    simp [orderRecordColumns, salesOrderRecordRepository, OrderRecord.fromCurrentRow, h1, h2, h3,
      h4]

/-- An order is added once its references are found. -/
theorem addOrder_spec (haddr : req.Addresses .saleOrder) (hmethod : req.method = utf8 "POST") :
    Atomic Exception.IsUtf8 d (addOrder p req.dataset) fun _ d' => Accepts p req d d' := by
  refine (reads_lift (buildOrder_spec p)).bindAtomic fun x hx => ?_
  refine (ensureOrderReferences_spec x).bindAtomic fun _ _ => ?_
  exact add_accepts _ x haddr hmethod trivial hx.2

/-- An edited order exists, and so does what it refers to. -/
theorem editOrder_spec (haddr : req.Addresses .saleOrder) (hmethod : req.method = utf8 "PUT") :
    Atomic Exception.IsUtf8 d (editOrder p req.dataset req.resourceId)
      fun _ d' => Accepts p req d d' := by
  refine (ensureExisting_spec _ _ _ _ _).bindAtomic fun _ hex => ?_
  refine (reads_lift (buildOrder_spec p)).bindAtomic fun x hx => ?_
  refine (ensureOrderReferences_spec x).bindAtomic fun _ _ => ?_
  exact update_accepts _ x haddr hmethod hx.1 hex.1 hex.2 fun _ => hx.2

/-- An accepted deletion removes the order with its lines. One that a failing call cuts short may
have removed some of the lines. -/
theorem deleteOrder_spec (haddr : req.Addresses .saleOrder)
    (hmethod : req.method = utf8 "DELETE") :
    Outcome Exception.IsUtf8 d (deleteOrder p req.resourceId)
      (fun _ d' => Accepts p req d d') (Aborted p req d) := by
  refine (ensureExisting_spec _ _ _ _ _).bind fun _ hex => ?_
  refine Outcome.mono (eraseOrder_spec salesOrderRecordRepository OrderRecordRow.orderId
    saleOrderRepository (fun _ _ => rfl) (by simp [references]) (by simp [references]))
    ?_ ?_
  -- the lines are deleted one by one, so a failing call can leave some of them deleted
  · rintro _ d' ⟨d₁, herase, hd'⟩
    exact ⟨.empty (by rw [hmethod]; decide),
      .deleteSaleOrder haddr hmethod hex.2 herase hd'⟩
  · rintro d' ⟨gone, hgone, herase⟩
    exact .deleteSaleOrder gone haddr hmethod hgone herase

/-- A line is added to an order that exists. -/
theorem addOrderRecord_spec (haddr : req.Addresses .salesOrderRecord)
    (hmethod : req.method = utf8 "POST") :
    Atomic Exception.IsUtf8 d (addOrderRecord p req.dataset)
      fun _ d' => Accepts p req d d' := by
  refine (reads_lift (buildOrderRecordOf_spec p)).bindAtomic fun x hx => ?_
  refine (ensureRecordReferences_spec x).bindAtomic fun _ hhas => ?_
  exact add_accepts _ x haddr hmethod hhas hx.2.2.2.2

/-- An edited line exists, and so does the order that it is moved to. -/
theorem editOrderRecord_spec (haddr : req.Addresses .salesOrderRecord)
    (hmethod : req.method = utf8 "PUT") :
    Atomic Exception.IsUtf8 d (editOrderRecord p req.dataset req.resourceId)
      fun _ d' => Accepts p req d d' := by
  refine (ensureExisting_spec _ _ _ _ _).bindAtomic fun _ hex => ?_
  refine (reads_lift (buildOrderRecordOf_spec p)).bindAtomic fun x hx => ?_
  refine (ensureRecordReferences_spec x).bindAtomic fun _ hhas => ?_
  exact update_accepts _ x haddr hmethod hx.1 hex.1 ⟨hex.2, hhas⟩ fun _ => hx.2.2.2.2

/-- **The module serves its requests**: an accepted one has its effect, and a rejected one none but
for a deletion that was cut short. -/
theorem executeTask_spec (hmodule : req.module = utf8 "sales") :
    Serves p req d (executeTask p req) := by
  refine Outcome.ite (fun hsub => ?_) fun _ => Outcome.ite (fun hsub => ?_) fun _ =>
    Outcome.throw ⟨.utf8 _, .utf8 _⟩
  · have haddr : req.Addresses .saleOrder := ⟨hmodule, hsub⟩
    exact dispatchMethod_spec (getOrders_spec haddr)
      (fun h => (addOrder_spec haddr h).outcome) (fun h => (editOrder_spec haddr h).outcome)
      fun h => deleteOrder_spec haddr h
  · have haddr : req.Addresses .salesOrderRecord := ⟨hmodule, hsub⟩
    exact dispatchMethod_spec (getOrderRecords_spec haddr)
      (fun h => (addOrderRecord_spec haddr h).outcome)
      (fun h => (editOrderRecord_spec haddr h).outcome)
      fun h => (deleteExisting_accepts salesOrderRecordRepository _ _ _ haddr h id).outcome

end Specifications

end SalesModule

end SageStore
