import SageStore.Server.BusinessLogic

/-!
# Footprints

`Footprint p ts x` says how the task `x` is composed: of calls to the repositories of the
tables `ts`, of checks that a key is in use, in any table, and of transactions. It says
nothing about what the calls do; whatever a task of this form keeps or does not see is proved
once, by induction on the form, and not along each task.

Every module has its footprint. The tables of users are reached by `UsersModule` alone: the
modules of orders only ask whether a user exists.
-/

namespace SageStore

open Bytes Program

variable {e : Enforcement}

/-- **The form of a task**: it reaches the tables `ts` through their repositories, and of the
other tables it asks only whether a key is in use. -/
inductive Footprint (p : Platform) (ts : List TableName) : ∀ {α : Type}, Task e α → Prop
  | pure {α : Type} (a : α) : Footprint p ts (pure a)
  | throw {α : Type} (ex : Exception) : Footprint p ts (throw ex : Task e α)
  | bind {α β : Type} {x : Task e α} {f : α → Task e β} :
    Footprint p ts x → (∀ a, Footprint p ts (f a)) → Footprint p ts (x >>= f)
  | getAll {t : TableName} {E : Type} (r : Repository t E) : t ∈ ts →
    Footprint p ts (r.getAll : Task e (List E))
  | getByField {t : TableName} {E : Type} (r : Repository t E) (c : Column t) (v : Bytes) :
    t ∈ ts → Footprint p ts (r.getByField p c v : Task e (List E))
  | add {t : TableName} {E : Type} (r : Repository t E) (x : E) : t ∈ ts →
    Footprint p ts (r.add p x : Task e Unit)
  | update {t : TableName} {E : Type} (r : Repository t E) (x : E) : t ∈ ts →
    Footprint p ts (r.update p x : Task e Unit)
  | deleteResource {t : TableName} {E : Type} (r : Repository t E) (id : Bytes) : t ∈ ts →
    Footprint p ts (r.deleteResource p id : Task e Unit)
  | ensureKey {t : TableName} {E : Type} (r : Repository t E) (v : Bytes)
    (component message : String) :
    Footprint p ts (ensureEntityExists p r .id v component message : Task e Unit)
  | runInTransaction {x : Task e Unit} : Footprint p ts x → Footprint p ts (runInTransaction x)

namespace Footprint

variable {p : Platform} {ts : List TableName} {α β ι : Type}

/-! ### Composed tasks -/

/-- A task that chooses reaches what its branches reach. -/
theorem ite {c : Prop} [Decidable c] {x y : Task e α} (hx : Footprint p ts x)
    (hy : Footprint p ts y) : Footprint p ts (if c then x else y) := by
  split
  · exact hx
  · exact hy

/-- A computation without a store. -/
theorem lift (x : Except Exception α) : Footprint p ts (liftM x : Task e α) := by
  cases x with
  | error ex => exact .throw ex
  | ok a => exact .pure a

/-- A loop with an accumulator reaches what its body reaches. -/
theorem foldlM {f : β → ι → Task e β} (hf : ∀ b i, Footprint p ts (f b i)) (is : List ι)
    (b : β) : Footprint p ts (is.foldlM f b) := by
  induction is generalizing b with
  | nil => exact .pure b
  | cons i is ih =>
    rw [List.foldlM_cons]
    exact .bind (hf b i) fun b' => ih b'

/-- A loop reaches what its body reaches. -/
theorem forM {f : ι → Task e PUnit} (hf : ∀ i, Footprint p ts (f i)) (is : List ι) :
    Footprint p ts (ForM.forM is f) := by
  induction is with
  | nil => exact .pure _
  | cons i is ih =>
    rw [List.forM_cons]
    exact .bind (hf i) fun _ => ih

section Helpers

variable {t : TableName} {E : Type} (r : Repository t E) (component resourceName : String)

/-- Checking that a row exists asks for a key only. -/
theorem ensureExisting (missing : String) (resourceId : Bytes) :
    Footprint p ts
      (ensureExisting p r component resourceName missing resourceId : Task e Unit) :=
  .bind (lift _) fun _ => .ensureKey r resourceId component missing

/-- An edit reaches the table of the row. -/
theorem editExisting (missing : String) (build : Except Exception E) (resourceId : Bytes)
    (ht : t ∈ ts) :
    Footprint p ts
      (editExisting p r component resourceName missing build resourceId : Task e Unit) :=
  .bind (ensureExisting r _ _ _ _) fun _ => .bind (lift _) fun x => .update r x ht

/-- A deletion reaches the table of the row. -/
theorem deleteExisting (missing : String) (resourceId : Bytes) (ht : t ∈ ts) :
    Footprint p ts
      (deleteExisting p r component resourceName missing resourceId : Task e Unit) :=
  .bind (ensureExisting r _ _ _ _) fun _ => .deleteResource r _ ht

/-- A request reaches what the handlers of the four methods reach. -/
theorem dispatchMethod {method : Bytes} {get : Task e ResponseData}
    {post put delete : Task e Unit} (hget : Footprint p ts get) (hpost : Footprint p ts post)
    (hput : Footprint p ts put) (hdelete : Footprint p ts delete) :
    Footprint p ts (dispatchMethod component method get post put delete) :=
  .ite hget (.ite (.bind hpost fun _ => .pure _) (.ite (.bind hput fun _ => .pure _)
    (.ite (.bind hdelete fun _ => .pure _) (.throw _))))

/-- A resource that is only built and stored. -/
theorem managed {missing : String} {method resourceId : Bytes}
    {columns : List (String × (E → Bytes))} {build : Bytes → Except Exception E} (ht : t ∈ ts) :
    Footprint p ts (SageStore.dispatchMethod component method
      (do let xs ← r.getAll; return listing columns xs)
      (do let x ← build []; r.add p x)
      (SageStore.editExisting p r component resourceName missing (build resourceId) resourceId)
      (SageStore.deleteExisting p r component resourceName missing resourceId) :
        Task e ResponseData) :=
  dispatchMethod component (.bind (.getAll r ht) fun _ => .pure _)
    (.bind (lift _) fun x => .add r x ht) (editExisting r _ _ _ _ _ ht)
    (deleteExisting r _ _ _ _ ht)

end Helpers

end Footprint

/-! ### The modules -/

section Modules

variable {p : Platform}

/-- The system module reaches no table. -/
theorem SystemModule.executeTask_footprint (req : RequestData) :
    Footprint p [] (SystemModule.executeTask req : Task e ResponseData) :=
  .ite (.throw _) (.ite (.throw _) (.pure _))

/-- The log is reached through its own module. -/
theorem LogsModule.executeTask_footprint (req : RequestData) :
    Footprint p [.log] (LogsModule.executeTask p req : Task e ResponseData) :=
  .ite (.throw _) (.managed logRepository _ _ (by decide))

/-- The three resources of the module are built and stored alike. -/
theorem ManagementModule.executeTask_footprint (req : RequestData) :
    Footprint p [.contact, .supplier, .employee]
      (ManagementModule.executeTask p req : Task e ResponseData) := by
  refine .ite (.managed contactRepository _ _ (by decide)) ?_
  refine .ite (.managed supplierRepository _ _ (by decide)) ?_
  exact .ite (.managed employeeRepository _ _ (by decide)) (.throw _)

/-- The figures are taken from orders, lines, stock and products; users are not read. -/
theorem AnalyticsModule.executeTask_footprint (req : RequestData) :
    Footprint p [.saleOrder, .salesOrderRecord, .purchaseOrder, .purchaseOrderRecord,
        .inventory, .productType]
      (AnalyticsModule.executeTask p req : Task e ResponseData) := by
  refine .ite (.throw _) (.ite ?_ (.ite ?_ (.throw _)))
  -- the figures of sales, and those of the inventory
  · refine .bind (.getAll saleOrderRepository (by decide)) fun orders => ?_
    refine .bind (.getAll salesOrderRecordRepository (by decide)) fun salesRecords => ?_
    refine .bind (.getAll purchaseOrderRecordRepository (by decide)) fun purchaseRecords => ?_
    exact .pure _
  · refine .bind (.getAll inventoryRepository (by decide)) fun inventoryRecords => ?_
    refine .bind (.getAll productTypeRepository (by decide)) fun productTypes => ?_
    refine .bind (.getAll purchaseOrderRepository (by decide)) fun purchaseOrders => ?_
    refine .bind (.getAll purchaseOrderRecordRepository (by decide)) fun purchaseRecords => ?_
    exact .pure _

/-- The requests about roles do not read users. -/
theorem UsersModule.roles_footprint (req : RequestData) :
    Footprint p [.role]
      (dispatchMethod "UsersModule" req.method UsersModule.getRoles
        (UsersModule.addRole p req.dataset)
        (UsersModule.updateRole p req.dataset req.resourceId)
        (UsersModule.deleteRole p req.resourceId) : Task e ResponseData) := by
  refine .dispatchMethod _ ?_ ?_ ?_ ?_
  · exact .bind (.getAll roleRepository (by decide)) fun rolesVec => .pure _
  · refine .bind (.lift _) fun roleName => ?_
    refine .bind (.getByField roleRepository _ _ (by decide)) fun rolesVec => ?_
    exact .ite (.add roleRepository _ (by decide)) (.throw _)
  · refine .ite (.throw _) (.bind (.lift _) fun roleName => ?_)
    exact .update roleRepository _ (by decide)
  · exact .ite (.throw _) (.deleteResource roleRepository _ (by decide))

namespace InventoryModule

/-- The tables of the module. -/
def tables : List TableName := [.productType, .inventory, .suppliersProductInfo]

/-- Product types are looked up by their code. -/
theorem productTypes_footprint (req : RequestData) :
    Footprint p tables
      (dispatchMethod "InventoryModule" req.method getProductTypes (addProductType p req.dataset)
        (editProductType p req.dataset req.resourceId) (deleteProductType p req.resourceId) :
          Task e ResponseData) := by
  refine .dispatchMethod _ ?_ ?_ ?_ (.deleteExisting productTypeRepository _ _ _ _ (by decide))
  · exact .bind (.getAll productTypeRepository (by decide)) fun productTypes => .pure _
  · refine .bind (.lift _) fun productType => ?_
    refine .bind (.getByField productTypeRepository _ _ (by decide)) fun existing => ?_
    exact .ite (.throw _) (.add productTypeRepository _ (by decide))
  · refine .bind (.ensureExisting productTypeRepository _ _ _ _) fun _ => ?_
    refine .bind (.lift _) fun productType => ?_
    refine .bind (.getByField productTypeRepository _ _ (by decide)) fun productTypesByCode => ?_
    exact .ite (.throw _) (.update productTypeRepository _ (by decide))

/-- Of a product it is only asked whether it exists; its stock rows are looked up. -/
theorem stocks_footprint (req : RequestData) :
    Footprint p tables
      (dispatchMethod "InventoryModule" req.method getStocks (addStock p req.dataset)
        (editStock p req.dataset req.resourceId) (deleteStock p req.resourceId) :
          Task e ResponseData) := by
  refine .dispatchMethod _ ?_ ?_ ?_ (.deleteExisting inventoryRepository _ _ _ _ (by decide))
  · exact .bind (.getAll inventoryRepository (by decide)) fun inventoryRecords => .pure _
  · refine .bind (.lift _) fun stock => ?_
    refine .bind (.ensureKey productTypeRepository _ _ _) fun _ => ?_
    refine .bind (.getByField inventoryRepository _ _ (by decide)) fun stocks => ?_
    exact .ite (.throw _) (.add inventoryRepository _ (by decide))
  · refine .bind (.ensureExisting inventoryRepository _ _ _ _) fun _ => ?_
    refine .bind (.lift _) fun stock => ?_
    refine .bind (.ensureKey productTypeRepository _ _ _) fun _ => ?_
    refine .bind (.getByField inventoryRepository _ _ (by decide)) fun stocksByProductType => ?_
    exact .ite (.throw _) (.update inventoryRepository _ (by decide))

/-- References are keys, so checking them reaches no table. -/
theorem ensureReferences_footprint (ts : List TableName) (mapping : SuppliersProductInfo) :
    Footprint p ts (ensureReferences p mapping : Task e Unit) :=
  .bind (.ensureKey supplierRepository _ _ _) fun _ => .ensureKey productTypeRepository _ _ _

/-- A supplier's product is written once its references are found. -/
theorem supplierProducts_footprint (req : RequestData) :
    Footprint p tables
      (dispatchMethod "InventoryModule" req.method getSupplierProducts
        (addSupplierProduct p req.dataset) (editSupplierProduct p req.dataset req.resourceId)
        (deleteSupplierProduct p req.resourceId) : Task e ResponseData) := by
  refine .dispatchMethod _ ?_ ?_ ?_
    (.deleteExisting suppliersProductInfoRepository _ _ _ _ (by decide))
  · exact .bind (.getAll suppliersProductInfoRepository (by decide)) fun mappings => .pure _
  · refine .bind (.lift _) fun mapping => ?_
    refine .bind (ensureReferences_footprint _ mapping) fun _ => ?_
    exact .add suppliersProductInfoRepository _ (by decide)
  · refine .bind (.ensureExisting suppliersProductInfoRepository _ _ _ _) fun _ => ?_
    refine .bind (.lift _) fun mapping => ?_
    refine .bind (ensureReferences_footprint _ mapping) fun _ => ?_
    exact .update suppliersProductInfoRepository _ (by decide)

/-- The module reaches its tables. -/
theorem executeTask_footprint (req : RequestData) :
    Footprint p tables (executeTask p req : Task e ResponseData) :=
  .ite (productTypes_footprint req) (.ite (stocks_footprint req)
    (.ite (supplierProducts_footprint req) (.throw _)))

end InventoryModule

/-! ### The modules of orders -/

/-- Deleting an order deletes its lines, and then the order. -/
theorem eraseOrder_footprint {ts : List TableName} {lines orders : TableName} {E : Type}
    (records : Repository lines OrderRecord) (orderId : Row lines → Cell)
    (repository : Repository orders E) (resourceId : Bytes) (hlines : lines ∈ ts)
    (horders : orders ∈ ts) :
    Footprint p ts (eraseOrder p records orderId repository resourceId : Task e Unit) := by
  refine .bind (.getByField records _ _ hlines) fun found => ?_
  refine .bind (.forM (fun record => .deleteResource records _ hlines) found) fun _ => ?_
  exact .deleteResource repository _ horders

namespace SalesModule

/-- The tables of the module. -/
def tables : List TableName := [.saleOrder, .salesOrderRecord]

/-- Of a user, a contact and an employee it is only asked whether they exist. -/
theorem ensureOrderReferences_footprint (order : SaleOrder) :
    Footprint p tables (ensureOrderReferences p order : Task e Unit) :=
  .bind (.ensureKey userRepository _ _ _) fun _ =>
    .bind (.ensureKey contactRepository _ _ _) fun _ => .ensureKey employeeRepository _ _ _

/-- Orders are written after their references, and deleted with their lines. -/
theorem orders_footprint (req : RequestData) :
    Footprint p tables
      (dispatchMethod "SalesModule" req.method getOrders (addOrder p req.dataset)
        (editOrder p req.dataset req.resourceId) (deleteOrder p req.resourceId) :
          Task e ResponseData) := by
  refine .dispatchMethod _ ?_ ?_ ?_ ?_
  · exact .bind (.getAll saleOrderRepository (by decide)) fun orders => .pure _
  · refine .bind (.lift _) fun order => ?_
    refine .bind (ensureOrderReferences_footprint order) fun _ => ?_
    exact .add saleOrderRepository _ (by decide)
  · refine .bind (.ensureExisting saleOrderRepository _ _ _ _) fun _ => ?_
    refine .bind (.lift _) fun order => ?_
    refine .bind (ensureOrderReferences_footprint order) fun _ => ?_
    exact .update saleOrderRepository _ (by decide)
  · refine .bind (.ensureExisting saleOrderRepository _ _ _ _) fun _ => ?_
    exact eraseOrder_footprint _ _ _ _ (by decide) (by decide)

/-- Of the order and the product of a line it is only asked whether they exist. -/
theorem ensureRecordReferences_footprint (entry : OrderRecord) :
    Footprint p tables (ensureRecordReferences p entry : Task e Unit) :=
  .bind (.ensureKey saleOrderRepository _ _ _) fun _ => .ensureKey productTypeRepository _ _ _

/-- Lines are listed for one order or for all. -/
theorem orderRecords_footprint (req : RequestData) :
    Footprint p tables
      (dispatchMethod "SalesModule" req.method (getOrderRecords p req.resourceId)
        (addOrderRecord p req.dataset) (editOrderRecord p req.dataset req.resourceId)
        (deleteOrderRecord p req.resourceId) : Task e ResponseData) := by
  refine .dispatchMethod _ ?_ ?_ ?_
    (.deleteExisting salesOrderRecordRepository _ _ _ _ (by decide))
  · refine .bind (.ite ?_ ?_) fun records => .pure _
    · exact .getAll salesOrderRecordRepository (by decide)
    · exact .getByField salesOrderRecordRepository _ _ (by decide)
  · refine .bind (.lift _) fun entry => ?_
    refine .bind (ensureRecordReferences_footprint entry) fun _ => ?_
    exact .add salesOrderRecordRepository _ (by decide)
  · refine .bind (.ensureExisting salesOrderRecordRepository _ _ _ _) fun _ => ?_
    refine .bind (.lift _) fun entry => ?_
    refine .bind (ensureRecordReferences_footprint entry) fun _ => ?_
    exact .update salesOrderRecordRepository _ (by decide)

/-- The module reaches its tables. -/
theorem executeTask_footprint (req : RequestData) :
    Footprint p tables (executeTask p req : Task e ResponseData) :=
  .ite (orders_footprint req) (.ite (orderRecords_footprint req) (.throw _))

end SalesModule

namespace PurchaseModule

/-- The tables of the module, and the one a receipt posts to. -/
def tables : List TableName := [.purchaseOrder, .purchaseOrderRecord, .inventory]

/-- An order is found by its key and read. -/
theorem getOrderById_footprint (orderId : Bytes) :
    Footprint p tables (getOrderById p orderId : Task e PurchaseOrder) := by
  refine .bind (.ensureKey purchaseOrderRepository _ _ _) fun _ => ?_
  refine .bind (.getByField purchaseOrderRepository _ _ (by decide)) fun orders => ?_
  cases orders with
  | nil => exact .throw _
  | cons order rest => exact .pure order

/-- A line is found by its key and read. -/
theorem getOrderRecordById_footprint (resourceId : Bytes) :
    Footprint p tables (getOrderRecordById p resourceId : Task e OrderRecord) := by
  refine .bind (.ensureExisting purchaseOrderRecordRepository _ _ _ _) fun _ => ?_
  refine .bind (.getByField purchaseOrderRecordRepository _ _ (by decide)) fun existing => ?_
  cases existing with
  | nil => exact .throw _
  | cons entry rest => exact .pure entry

/-- Of the user and the supplier of an order it is only asked whether they exist. -/
theorem ensureOrderCanBeStored_footprint (order : PurchaseOrder) :
    Footprint p tables (ensureOrderCanBeStored p order : Task e Unit) :=
  .bind (.lift _) fun _ => .bind (.ensureKey userRepository _ _ _) fun _ =>
    .ensureKey supplierRepository _ _ _

/-- Orders are read before they are edited or deleted, for their status. -/
theorem orders_footprint (req : RequestData) :
    Footprint p tables
      (dispatchMethod "PurchaseModule" req.method getOrders (addOrder p req.dataset)
        (editOrder p req.dataset req.resourceId) (deleteOrder p req.resourceId) :
          Task e ResponseData) := by
  refine .dispatchMethod _ ?_ ?_ ?_ ?_
  · exact .bind (.getAll purchaseOrderRepository (by decide)) fun orders => .pure _
  · refine .bind (.lift _) fun order => ?_
    refine .bind (ensureOrderCanBeStored_footprint order) fun _ => ?_
    exact .add purchaseOrderRepository _ (by decide)
  · refine .bind (.lift _) fun _ => ?_
    refine .bind (getOrderById_footprint _) fun existingOrder => ?_
    refine .bind (.lift _) fun _ => .bind (.lift _) fun order => ?_
    refine .bind (ensureOrderCanBeStored_footprint order) fun _ => ?_
    exact .update purchaseOrderRepository _ (by decide)
  · refine .bind (.lift _) fun _ => ?_
    refine .bind (getOrderById_footprint _) fun existingOrder => ?_
    refine .bind (.lift _) fun _ => ?_
    exact eraseOrder_footprint _ _ _ _ (by decide) (by decide)

/-- The order of a line is read before the line is written, for its status. -/
theorem orderRecords_footprint (req : RequestData) :
    Footprint p tables
      (dispatchMethod "PurchaseModule" req.method (getOrderRecords p req.resourceId)
        (addOrderRecord p req.dataset) (editOrderRecord p req.dataset req.resourceId)
        (deleteOrderRecord p req.resourceId) : Task e ResponseData) := by
  refine .dispatchMethod _ ?_ ?_ ?_ ?_
  · refine .bind (.ite ?_ ?_) fun records => .pure _
    · exact .getAll purchaseOrderRecordRepository (by decide)
    · exact .getByField purchaseOrderRecordRepository _ _ (by decide)
  · refine .bind (.lift _) fun entry => ?_
    refine .bind (getOrderById_footprint _) fun parentOrder => .bind (.lift _) fun _ => ?_
    refine .bind (.ensureKey productTypeRepository _ _ _) fun _ => ?_
    exact .add purchaseOrderRecordRepository _ (by decide)
  · -- an edit may move the line, so both orders are read
    refine .bind (getOrderRecordById_footprint _) fun existingRecord => ?_
    refine .bind (.lift _) fun entry => ?_
    refine .bind (getOrderById_footprint _) fun existingParentOrder => .bind (.lift _) fun _ => ?_
    refine .bind (getOrderById_footprint _) fun targetParentOrder => .bind (.lift _) fun _ => ?_
    refine .bind (.ensureKey productTypeRepository _ _ _) fun _ => ?_
    exact .update purchaseOrderRecordRepository _ (by decide)
  · refine .bind (getOrderRecordById_footprint _) fun existingRecord => ?_
    refine .bind (getOrderById_footprint _) fun parentOrder => .bind (.lift _) fun _ => ?_
    exact .deleteResource purchaseOrderRecordRepository _ (by decide)

/-- Planning a line reads the stock of its product. -/
theorem planRecord_footprint (employeeId : Bytes) (plan : List (Bytes × PlannedStockMutation))
    (entry : OrderRecord) :
    Footprint p tables (planRecord p employeeId plan entry :
      Task e (List (Bytes × PlannedStockMutation))) := by
  refine .bind (.ensureKey productTypeRepository _ _ _) fun _ => ?_
  -- only a product that is new to the plan is looked up
  refine .bind (.ite (.pure _) ?_) fun planned => .lift _
  exact .bind (.getByField inventoryRepository _ _ (by decide)) fun _ => .pure _

/-- A planned change adds a stock row or updates one. -/
theorem postMutation_footprint (mutation : PlannedStockMutation) :
    Footprint p tables (postMutation p mutation : Task e Unit) :=
  .ite (.add inventoryRepository _ (by decide)) (.update inventoryRepository _ (by decide))

/-- A receipt reads the order and its lines, and writes stock and the order in a transaction. -/
theorem receiveOrder_footprint (request : Dataset) :
    Footprint p tables (receiveOrder p request : Task e Unit) := by
  refine .bind (.lift _) fun orderId => .bind (.lift _) fun employeeId => ?_
  refine .bind (.ensureKey employeeRepository _ _ _) fun _ => ?_
  refine .bind (getOrderById_footprint orderId) fun order => .bind (.lift _) fun _ => ?_
  refine .bind (.getByField purchaseOrderRecordRepository _ _ (by decide)) fun records => ?_
  refine .ite (.throw _) ?_
  -- the plan is made outside the transaction, and posted in it
  refine .bind (.foldlM (planRecord_footprint employeeId) records []) fun plan => ?_
  refine .runInTransaction (.bind (.forM (fun planned => ?_) plan) fun _ => ?_)
  · exact postMutation_footprint planned.2
  · exact .update purchaseOrderRepository _ (by decide)

/-- Receipts are the only requests to the module that reach stock. -/
theorem executeTask_footprint (req : RequestData) :
    Footprint p tables (executeTask p req : Task e ResponseData) := by
  refine .ite (orders_footprint req) (.ite (orderRecords_footprint req) ?_)
  exact .ite (.ite (.bind (receiveOrder_footprint _) fun _ => .pure _) (.throw _)) (.throw _)

end PurchaseModule

end Modules

end SageStore
