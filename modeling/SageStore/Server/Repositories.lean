import SageStore.Foundation.Session
import SageStore.Server.Schema

/-!
# Exceptions, entities and repositories

The modules reach the database through one repository per table. A `Repository` says how
an entity becomes the parameters of `INSERT` and `UPDATE` and how a result row becomes an
entity; `add`, `update`, `deleteResource`, `getByField` and `getAll` are then the same for
every table, and each is one call to the database.

Every parameter is bound as a NUL-terminated string, so a text is stored and compared up to
its first NUL (`Platform.text`, `Platform.cell`).
-/

namespace SageStore

open Bytes Program

/-! ### Exceptions -/

/-- What the server's code throws: a `ServerException`, or another standard exception. -/
inductive Exception where
  | server (componentName message : Bytes)
  | std (what : Bytes)
deriving DecidableEq

/-- The texts of an exception are valid UTF-8. -/
def Exception.IsUtf8 : Exception → Prop
  | .server componentName message => Bytes.IsUtf8 componentName ∧ Bytes.IsUtf8 message
  | .std what => Bytes.IsUtf8 what

/-- The exception `buildDatabaseErrorMessage` makes of a failed statement. -/
def databaseError : Violation → Exception
  | .full => .server "SqliteDatabaseManager" (utf8 "SQL error: " ++ utf8 "database or disk is full")
  | .foreignKey => .server "SqliteDatabaseManager"
      (utf8 "Operation violates referential integrity constraints. " ++
        utf8 "The resource is referenced by other records.")
  | .unique name => .server "SqliteDatabaseManager"
      (utf8 "SQL error: " ++ utf8 "UNIQUE constraint failed: " ++ name)

/-- A program over the server's database. -/
abbrev Task (e : Enforcement) (α : Type) := Program (Db e) Exception α

/-! ### Entities -/

structure Role where
  id : Bytes
  name : Bytes

structure User where
  id : Bytes
  username : Bytes
  password : Bytes
  roleId : Bytes

structure Log where
  id : Bytes
  userId : Bytes
  action : Bytes
  timestamp : Bytes

structure Contact where
  id : Bytes
  name : Bytes
  type : Bytes
  email : Bytes
  phone : Bytes

/-- An `Employee` or a `Supplier`. -/
structure Party where
  id : Bytes
  name : Bytes
  number : Bytes
  email : Bytes
  address : Bytes

structure SuppliersProductInfo where
  id : Bytes
  supplierID : Bytes
  productTypeId : Bytes
  code : Bytes

structure ProductType where
  id : Bytes
  code : Bytes
  barcode : Bytes
  name : Bytes
  description : Bytes
  lastPrice : Bytes
  unit : Bytes
  isImported : Bytes

structure Inventory where
  id : Bytes
  productTypeId : Bytes
  quantityAvailable : Bytes
  employeeId : Bytes

structure SaleOrder where
  id : Bytes
  date : Bytes
  userId : Bytes
  contactId : Bytes
  employeeId : Bytes
  status : Bytes

structure PurchaseOrder where
  id : Bytes
  date : Bytes
  userId : Bytes
  supplierId : Bytes
  status : Bytes

/-- A `SalesOrderRecord` or a `PurchaseOrderRecord`. -/
structure OrderRecord where
  id : Bytes
  orderId : Bytes
  productTypeId : Bytes
  quantity : Bytes
  price : Bytes
deriving DecidableEq

/-! ### Bound parameters -/

/-- The cell a bound text is, in an `INTEGER` column. -/
def Platform.cell (p : Platform) (t : Bytes) : Cell := p.sqlite.integer (cstr t)

/-- A column the modules look rows up by. -/
inductive Column (t : TableName) where
  | id
  | integer (cell : Row t → Cell)
  | text (value : Row t → Bytes)

/-- `column = ?`, with the text `v` bound. -/
def Column.Matches {t : TableName} (p : Platform) : Column t → Bytes → ℕ × Row t → Prop
  | .id, v, r => Cell.int r.1 = p.cell v
  | .integer cell, v, r => cell r.2 = p.cell v
  | .text value, v, r => value r.2 = cstr v

instance {t : TableName} (p : Platform) (c : Column t) (v : Bytes) (r : ℕ × Row t) :
    Decidable (c.Matches p v r) :=
  match c with
  | .id => inferInstanceAs (Decidable (Cell.int r.1 = p.cell v))
  | .integer cell => inferInstanceAs (Decidable (cell r.2 = p.cell v))
  | .text value => inferInstanceAs (Decidable (value r.2 = cstr v))

/-- The rows that are found are those that match. -/
theorem mem_matching {t : TableName} {p : Platform} {c : Column t} {v : Bytes}
    {rows : List (ℕ × Row t)} {r : ℕ × Row t} :
    (r ∈ rows.filter fun x => c.Matches p v x) ↔ r ∈ rows ∧ c.Matches p v r := by
  rw [List.mem_filter, decide_eq_true_eq]

/-! ### Repositories -/

/-- How the entities of a table are written and read. -/
structure Repository (t : TableName) (E : Type) where
  id : E → Bytes
  insertRow : Platform → E → Row t
  updateRow : Platform → E → Row t
  fromCurrentRow : ℕ → Row t → E

namespace Repository

variable {e : Enforcement} {t : TableName} {E : Type}

/-- Run a statement that the engine accepts or rejects. -/
def executeStatement (f : Db e → Except Violation (Db e)) : Task e Unit :=
  statement fun db => (f db).mapError databaseError

def add (r : Repository t E) (p : Platform) (x : E) : Task e Unit :=
  executeStatement fun db => db.insert t (r.insertRow p x)

def update (r : Repository t E) (p : Platform) (x : E) : Task e Unit :=
  executeStatement fun db => db.update t (p.cell (r.id x)) (r.updateRow p x)

def deleteResource (_r : Repository t E) (p : Platform) (id : Bytes) : Task e Unit :=
  executeStatement fun db => db.delete t (p.cell id)

def getByField (r : Repository t E) (p : Platform) (c : Column t) (v : Bytes) :
    Task e (List E) :=
  query fun db => .ok (((db t).rows.filter fun x => c.Matches p v x).map fun x =>
    r.fromCurrentRow x.1 x.2)

def getAll (r : Repository t E) : Task e (List E) :=
  query fun db => .ok ((db t).rows.map fun x => r.fromCurrentRow x.1 x.2)

end Repository

def roleRepository : Repository .role Role where
  id := Role.id
  insertRow _ x := ⟨cstr x.name⟩
  updateRow _ x := ⟨cstr x.name⟩
  fromCurrentRow i x := ⟨decimal i, x.name⟩

def userRepository : Repository .user User where
  id := User.id
  -- without a role the column is left out of the INSERT, and its DEFAULT 1 applies
  insertRow p x :=
    ⟨cstr x.username, cstr x.password, if x.roleId = [] then .int 1 else p.cell x.roleId⟩
  updateRow p x := ⟨cstr x.username, cstr x.password, p.cell x.roleId⟩
  fromCurrentRow i x := ⟨decimal i, x.username, x.password, x.roleId.toText⟩

/-- The row a log entry is written as: `NULLIF(?, '')` makes an empty user NULL. -/
def Log.row (p : Platform) (x : Log) : LogRow :=
  ⟨if cstr x.userId = [] then .null else p.cell x.userId, cstr x.action,
    p.sqlite.numeric (cstr x.timestamp)⟩

def logRepository : Repository .log Log where
  id := Log.id
  insertRow := Log.row
  updateRow := Log.row
  fromCurrentRow i x := ⟨decimal i, x.userId.toText, x.action, x.timestamp⟩

def Contact.row (_p : Platform) (x : Contact) : ContactRow :=
  ⟨cstr x.name, cstr x.type, cstr x.email, cstr x.phone⟩

def contactRepository : Repository .contact Contact where
  id := Contact.id
  insertRow := Contact.row
  updateRow := Contact.row
  fromCurrentRow i x := ⟨decimal i, x.name, x.type, x.email, x.phone⟩

def Party.row (_p : Platform) (x : Party) : PartyRow :=
  ⟨cstr x.name, cstr x.number, cstr x.email, cstr x.address⟩

def employeeRepository : Repository .employee Party where
  id := Party.id
  insertRow := Party.row
  updateRow := Party.row
  fromCurrentRow i x := ⟨decimal i, x.name, x.number, x.email, x.address⟩

def supplierRepository : Repository .supplier Party where
  id := Party.id
  insertRow := Party.row
  updateRow := Party.row
  fromCurrentRow i x := ⟨decimal i, x.name, x.number, x.email, x.address⟩

def SuppliersProductInfo.row (p : Platform) (x : SuppliersProductInfo) :
    SuppliersProductInfoRow :=
  ⟨p.cell x.supplierID, p.cell x.productTypeId, cstr x.code⟩

def suppliersProductInfoRepository :
    Repository .suppliersProductInfo SuppliersProductInfo where
  id := SuppliersProductInfo.id
  insertRow := SuppliersProductInfo.row
  updateRow := SuppliersProductInfo.row
  fromCurrentRow i x := ⟨decimal i, x.supplierID.toText, x.productTypeId.toText, x.code⟩

def ProductType.row (p : Platform) (x : ProductType) : ProductTypeRow :=
  ⟨cstr x.code, cstr x.barcode, cstr x.name, cstr x.description,
    p.sqlite.real (cstr x.lastPrice), cstr x.unit, p.sqlite.numeric (cstr x.isImported)⟩

def productTypeRepository : Repository .productType ProductType where
  id := ProductType.id
  insertRow := ProductType.row
  updateRow := ProductType.row
  fromCurrentRow i x :=
    ⟨decimal i, x.code, x.barcode, x.name, x.description, x.lastPrice, x.unit, x.isImported⟩

def Inventory.row (p : Platform) (x : Inventory) : InventoryRow :=
  ⟨p.cell x.productTypeId, p.cell x.quantityAvailable, p.cell x.employeeId⟩

def inventoryRepository : Repository .inventory Inventory where
  id := Inventory.id
  insertRow := Inventory.row
  updateRow := Inventory.row
  fromCurrentRow i x :=
    ⟨decimal i, x.productTypeId.toText, x.quantityAvailable.toText, x.employeeId.toText⟩

def SaleOrder.row (p : Platform) (x : SaleOrder) : SaleOrderRow :=
  ⟨p.sqlite.numeric (cstr x.date), p.cell x.userId, p.cell x.contactId, p.cell x.employeeId,
    cstr x.status⟩

def saleOrderRepository : Repository .saleOrder SaleOrder where
  id := SaleOrder.id
  insertRow := SaleOrder.row
  updateRow := SaleOrder.row
  fromCurrentRow i x :=
    ⟨decimal i, x.date, x.userId.toText, x.contactId.toText, x.employeeId.toText, x.status⟩

def PurchaseOrder.row (p : Platform) (x : PurchaseOrder) : PurchaseOrderRow :=
  ⟨p.sqlite.numeric (cstr x.date), p.cell x.userId, p.cell x.supplierId, cstr x.status⟩

def purchaseOrderRepository : Repository .purchaseOrder PurchaseOrder where
  id := PurchaseOrder.id
  insertRow := PurchaseOrder.row
  updateRow := PurchaseOrder.row
  fromCurrentRow i x := ⟨decimal i, x.date, x.userId.toText, x.supplierId.toText, x.status⟩

def OrderRecord.row (p : Platform) (x : OrderRecord) : OrderRecordRow :=
  ⟨p.cell x.orderId, p.cell x.productTypeId, p.cell x.quantity, p.sqlite.real (cstr x.price)⟩

/-- A line as it is read back. -/
def OrderRecord.fromCurrentRow (i : ℕ) (x : OrderRecordRow) : OrderRecord :=
  ⟨decimal i, x.orderId.toText, x.productTypeId.toText, x.quantity.toText, x.price⟩

def salesOrderRecordRepository : Repository .salesOrderRecord OrderRecord where
  id := OrderRecord.id
  insertRow := OrderRecord.row
  updateRow := OrderRecord.row
  fromCurrentRow := OrderRecord.fromCurrentRow

def purchaseOrderRecordRepository : Repository .purchaseOrderRecord OrderRecord where
  id := OrderRecord.id
  insertRow := OrderRecord.row
  updateRow := OrderRecord.row
  fromCurrentRow := OrderRecord.fromCurrentRow

/-- `RepositoryManager::runInTransaction`. -/
def runInTransaction {e : Enforcement} (operation : Task e Unit) : Task e Unit :=
  transaction
    (.server "SqliteDatabaseManager" (utf8 "Failed to execute statement: " ++
      utf8 "cannot start a transaction within a transaction"))
    (.server "SqliteDatabaseManager" (utf8 "Failed to execute statement: " ++
      utf8 "cannot commit - no transaction is active"))
    operation

/-! ### Specifications -/

section Specifications

variable {e : Enforcement} {t : TableName} {E : Type} {p : Platform} {d : Db e}

@[simp] theorem isUtf8_server {c m : Bytes} :
    (Exception.server c m).IsUtf8 ↔ Bytes.IsUtf8 c ∧ Bytes.IsUtf8 m := Iff.rfl

/-- The engine's messages are valid UTF-8. -/
theorem isUtf8_databaseError {U : Table (Row t)} {v : Violation} (h : d.put t U = .error v) :
    (databaseError v).IsUtf8 := by
  cases v with
  | full => exact ⟨.utf8 _, .append (.utf8 _) (.utf8 _)⟩
  | foreignKey => exact ⟨.utf8 _, .append (.utf8 _) (.utf8 _)⟩
  | unique name =>
    refine ⟨.utf8 _, .append (.append (.utf8 _) (.utf8 _)) ?_⟩
    rcases Database.put_error_unique h with rfl | ⟨u, hu, rfl⟩
    · exact .nil
    · rcases mem_uniqueKeys hu with rfl | rfl <;> exact .utf8 _

/-- A statement takes effect as a whole, or fails and changes nothing. -/
theorem executeStatement_spec {U : Db e → Table (Row t)} :
    Atomic Exception.IsUtf8 d (Repository.executeStatement fun db => db.put t (U db))
      fun _ d' => d.put t (U d) = .ok d' := by
  refine Atomic.mono (atomic_statement fun ex hex => ?_) fun _ d' hok => ?_
  · cases hc : d.put t (U d) with
    | ok d' => simp [hc, Except.mapError] at hex
    | error v =>
      simp only [hc, Except.mapError, Except.error.injEq] at hex
      exact hex ▸ isUtf8_databaseError hc
  · cases hc : d.put t (U d) with
    | ok d'' => simpa [hc, Except.mapError] using hok
    | error v => simp [hc, Except.mapError] at hok

/-- `add` inserts the row of its entity, or leaves everything as it was. -/
theorem add_spec (r : Repository t E) (x : E) :
    Atomic Exception.IsUtf8 d (r.add p x) fun _ d' => d.insert t (r.insertRow p x) = .ok d' :=
  executeStatement_spec

/-- `update` replaces the row under the entity's identifier, or leaves everything as it was. -/
theorem update_spec (r : Repository t E) (x : E) :
    Atomic Exception.IsUtf8 d (r.update p x)
      fun _ d' => d.update t (p.cell (r.id x)) (r.updateRow p x) = .ok d' :=
  executeStatement_spec

/-- `deleteResource` deletes the row under the identifier, or leaves everything as it was. -/
theorem deleteResource_spec (r : Repository t E) (id : Bytes) :
    Atomic Exception.IsUtf8 d (r.deleteResource p id)
      fun _ d' => d.delete t (p.cell id) = .ok d' :=
  executeStatement_spec

/-- The rows that are found, while no call fails. -/
theorem exec_getByField (r : Repository t E) (c : Column t) (v : Bytes) (d : Db e)
    (snap : Option (Db e)) :
    (r.getByField p c v).exec ⟨d, snap, []⟩ =
      (.ok (((d t).rows.filter fun x => c.Matches p v x).map fun x => r.fromCurrentRow x.1 x.2),
        ⟨d, snap, []⟩) :=
  exec_query _ d snap

/-- An update that the engine refuses, while no call fails. -/
theorem exec_update_error (r : Repository t E) {x : E} {v : Violation} {snap : Option (Db e)}
    (h : d.update t (p.cell (r.id x)) (r.updateRow p x) = .error v) :
    (r.update p x).exec ⟨d, snap, []⟩ = (.error (databaseError v), ⟨d, snap, []⟩) := by
  unfold Repository.update Repository.executeStatement
  rw [exec_statement]
  dsimp only
  rw [h]
  rfl

/-- An update that the engine accepts, while no call fails. -/
theorem exec_update (r : Repository t E) {x : E} {d' : Db e} {snap : Option (Db e)}
    (h : d.update t (p.cell (r.id x)) (r.updateRow p x) = .ok d') :
    (r.update p x).exec ⟨d, snap, []⟩ = (.ok (), ⟨d', snap, []⟩) := by
  unfold Repository.update Repository.executeStatement
  rw [exec_statement]
  dsimp only
  rw [h]
  rfl

/-- A deletion that the engine accepts, while no call fails. -/
theorem exec_deleteResource (r : Repository t E) {id : Bytes} {d' : Db e} {snap : Option (Db e)}
    (h : d.delete t (p.cell id) = .ok d') :
    (r.deleteResource p id).exec ⟨d, snap, []⟩ = (.ok (), ⟨d', snap, []⟩) := by
  unfold Repository.deleteResource Repository.executeStatement
  rw [exec_statement]
  dsimp only
  rw [h]
  rfl

/-- `getByField` reads the rows that match, in order. -/
theorem getByField_spec (r : Repository t E) (c : Column t) (v : Bytes) :
    Reads Exception.IsUtf8 d (r.getByField p c v)
      fun xs => xs = ((d t).rows.filter fun x => c.Matches p v x).map fun x =>
        r.fromCurrentRow x.1 x.2 :=
  Reads.mono (reads_query fun _ h => by cases h) fun _ h => (Except.ok.inj h).symm

/-- `getAll` reads all rows, in order. -/
theorem getAll_spec (r : Repository t E) :
    Reads Exception.IsUtf8 d r.getAll
      fun xs => xs = (d t).rows.map fun x => r.fromCurrentRow x.1 x.2 :=
  Reads.mono (reads_query fun _ h => by cases h) fun _ h => (Except.ok.inj h).symm

/-- A transaction makes an operation that may stop halfway all or nothing. -/
theorem runInTransaction_spec {operation : Task e Unit} {W : Unit → Db e → Prop}
    (h : Changes Exception.IsUtf8 d operation W) :
    Atomic Exception.IsUtf8 d (runInTransaction operation) W :=
  h.transaction ⟨.utf8 _, .append (.utf8 _) (.utf8 _)⟩ ⟨.utf8 _, .append (.utf8 _) (.utf8 _)⟩

end Specifications

end SageStore
