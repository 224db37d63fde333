import SageStore.Foundation.Database
import SageStore.Server.Platform

/-!
# The schema

The tables of `create_db.sql`, their constraints, and the database its initial setup leaves
(`seed`). `ContactInfo` and `ProductInfo` are left out: no repository the server builds
reaches them, so they stay empty and their references constrain nothing.

A row holds what a statement can compare or read back: the cell of an `INTEGER` column, and
for every other column the text it is read back as. No statement compares the values of such a
column but as texts, and the server reads every column as a text. The dates of orders and of log
entries are in columns of numeric affinity, where a text that looks like a number is kept as that
number: what is not in the text it is read back as, such as digits beyond the 15 that SQLite
prints, is not in the row.

`Enforcement` says which constraints the engine enforces. The server runs under
`Enforcement.full`; the others are for what the modules guarantee by themselves.
-/

namespace SageStore

/-- The tables the server reads or writes. -/
inductive TableName where
  | role
  | user
  | log
  | contact
  | employee
  | supplier
  | suppliersProductInfo
  | productType
  | inventory
  | saleOrder
  | salesOrderRecord
  | purchaseOrder
  | purchaseOrderRecord
deriving DecidableEq

/-! ### Rows -/

structure RoleRow where
  name : Bytes
deriving DecidableEq

structure UserRow where
  username : Bytes
  password : Bytes
  roleId : Cell
deriving DecidableEq

structure LogRow where
  userId : Cell
  action : Bytes
  timestamp : Bytes
deriving DecidableEq

structure ContactRow where
  name : Bytes
  type : Bytes
  email : Bytes
  phone : Bytes
deriving DecidableEq

/-- A row of `Employee` or of `Supplier`: the two tables have the same columns. -/
structure PartyRow where
  name : Bytes
  number : Bytes
  email : Bytes
  address : Bytes
deriving DecidableEq

structure SuppliersProductInfoRow where
  supplierID : Cell
  productTypeId : Cell
  code : Bytes
deriving DecidableEq

structure ProductTypeRow where
  code : Bytes
  barcode : Bytes
  name : Bytes
  description : Bytes
  lastPrice : Bytes
  unit : Bytes
  isImported : Bytes
deriving DecidableEq

structure InventoryRow where
  productTypeId : Cell
  quantityAvailable : Cell
  employeeId : Cell
deriving DecidableEq

structure SaleOrderRow where
  date : Bytes
  userId : Cell
  contactId : Cell
  employeeId : Cell
  status : Bytes
deriving DecidableEq

structure PurchaseOrderRow where
  date : Bytes
  userId : Cell
  supplierId : Cell
  status : Bytes
deriving DecidableEq

/-- A line of a sales order or of a purchase order: the two tables have the same columns. -/
structure OrderRecordRow where
  orderId : Cell
  productTypeId : Cell
  quantity : Cell
  price : Bytes
deriving DecidableEq

/-- The rows of a table. -/
abbrev Row : TableName → Type
  | .role => RoleRow
  | .user => UserRow
  | .log => LogRow
  | .contact => ContactRow
  | .employee => PartyRow
  | .supplier => PartyRow
  | .suppliersProductInfo => SuppliersProductInfoRow
  | .productType => ProductTypeRow
  | .inventory => InventoryRow
  | .saleOrder => SaleOrderRow
  | .salesOrderRecord => OrderRecordRow
  | .purchaseOrder => PurchaseOrderRow
  | .purchaseOrderRecord => OrderRecordRow

/-! ### Constraints -/

/-- Which constraints the engine enforces. -/
structure Enforcement where
  foreignKeys : Bool
  uniqueStock : Bool

/-- The server's engine: `PRAGMA foreign_keys = ON`, and every `UNIQUE` of the schema. -/
def Enforcement.full : Enforcement := ⟨true, true⟩

/-- `UNIQUE` of `User.username`. -/
def uniqueUsername : UniqueKey Row :=
  ⟨"User.username", .user, fun r => .text r.username⟩

/-- `UNIQUE (productTypeId)` of `Inventory`. -/
def uniqueStock : UniqueKey Row :=
  ⟨"Inventory.productTypeId", .inventory, InventoryRow.productTypeId⟩

/-- The `FOREIGN KEY` clauses, in the order of the script. -/
def references : List (ForeignKey Row) :=
  [⟨.user, UserRow.roleId, .role⟩,
    ⟨.log, LogRow.userId, .user⟩,
    ⟨.suppliersProductInfo, SuppliersProductInfoRow.supplierID, .supplier⟩,
    ⟨.suppliersProductInfo, SuppliersProductInfoRow.productTypeId, .productType⟩,
    ⟨.inventory, InventoryRow.productTypeId, .productType⟩,
    ⟨.inventory, InventoryRow.employeeId, .employee⟩,
    ⟨.saleOrder, SaleOrderRow.userId, .user⟩,
    ⟨.saleOrder, SaleOrderRow.contactId, .contact⟩,
    ⟨.saleOrder, SaleOrderRow.employeeId, .employee⟩,
    ⟨.salesOrderRecord, OrderRecordRow.orderId, .saleOrder⟩,
    ⟨.salesOrderRecord, OrderRecordRow.productTypeId, .productType⟩,
    ⟨.purchaseOrder, PurchaseOrderRow.userId, .user⟩,
    ⟨.purchaseOrder, PurchaseOrderRow.supplierId, .supplier⟩,
    ⟨.purchaseOrderRecord, OrderRecordRow.orderId, .purchaseOrder⟩,
    ⟨.purchaseOrderRecord, OrderRecordRow.productTypeId, .productType⟩]

/-- The constraints in force under `e`. -/
def constraints (e : Enforcement) : Constraints Row where
  uniqueKeys := if e.uniqueStock then [uniqueUsername, uniqueStock] else [uniqueUsername]
  foreignKeys := if e.foreignKeys then references else []

/-- The server's database under `e`. -/
abbrev Db (e : Enforcement) := Database (constraints e)

/-- What is enforced is declared. -/
theorem mem_references_of_mem {e : Enforcement} {fk : ForeignKey Row}
    (h : fk ∈ (constraints e).foreignKeys) : fk ∈ references := by
  unfold constraints at h
  dsimp only at h
  split at h
  · exact h
  · exact absurd h List.not_mem_nil

/-- Only user names and the products of stock are declared unique. -/
theorem mem_uniqueKeys {e : Enforcement} {u : UniqueKey Row}
    (h : u ∈ (constraints e).uniqueKeys) : u = uniqueUsername ∨ u = uniqueStock := by
  unfold constraints at h
  dsimp only at h
  split at h
  · simpa using h
  · exact Or.inl (List.mem_singleton.mp h)

/-- Under full enforcement a row refers to a row that is there, unless it holds NULL. -/
theorem refers {d : Db .full} (fk : ForeignKey Row) (h : fk ∈ references) {r : ℕ × Row fk.child}
    (hr : r ∈ (d fk.child).rows) : fk.column r.2 = .null ∨ (d fk.parent).Has (fk.column r.2) :=
  d.references fk h r hr

/-- A stock row refers to its product and to its employee. -/
theorem stock_references {e : Enforcement} {fk : ForeignKey Row}
    (h : fk ∈ (constraints e).foreignKeys) (hc : fk.child = .inventory) :
    fk = ⟨.inventory, InventoryRow.productTypeId, .productType⟩ ∨
      fk = ⟨.inventory, InventoryRow.employeeId, .employee⟩ := by
  have hrefs : ∀ fk ∈ references, fk.child = .inventory →
      fk = ⟨.inventory, InventoryRow.productTypeId, .productType⟩ ∨
        fk = ⟨.inventory, InventoryRow.employeeId, .employee⟩ := by simp [references]
  exact hrefs fk (mem_references_of_mem h) hc

/-- Stock rows with distinct products meet the uniqueness constraint of their table. -/
theorem stock_unique {e : Enforcement} {d : Db e} {U : Table InventoryRow}
    (h : U.Distinct InventoryRow.productTypeId) {u : UniqueKey Row}
    (hu : u ∈ (constraints e).uniqueKeys) (ht : u.tab = .inventory) :
    u.Holds (Function.update d.tables .inventory U) := by
  rcases mem_uniqueKeys hu with rfl | rfl
  · cases ht
  · have hrows : Function.update d.tables .inventory U uniqueStock.tab = U :=
      Function.update_self _ _ _
    exact fun y hy z hz heq _ => h y (hrows ▸ hy) z (hrows ▸ hz) heq

/-! ### The initial database -/

/-- The rows of the initial setup. -/
def seedRows : ∀ t, List (Row t)
  | .role => [⟨"user"⟩, ⟨"admin"⟩]
  | .user =>
    [⟨"admin", "240be518fabd2724ddb6f04eeb1da5967448d7e831c08c8fa822809f74c720a9", .int 1⟩]
  | .log => []
  | .contact => [⟨"Default Contact", "Customer", "contact@example.com", "123-456-7890"⟩]
  | .employee => [⟨"John Doe", "123456789", "john@example.com", "123 Main St"⟩]
  | .supplier => [⟨"Default Supplier", "987654321", "supplier@example.com", "456 Elm St"⟩]
  | .suppliersProductInfo => []
  | .productType =>
    [⟨"DEFAULT", "000000000000", "Default Product", "Default product description", "0.0",
      "unit", "0"⟩]
  | .inventory => [⟨.int 1, .int 0, .int 1⟩]
  | .saleOrder => [⟨"2024-02-19", .int 1, .int 1, .int 1, "Pending"⟩]
  | .salesOrderRecord => [⟨.int 1, .int 1, .int 1, "10.99"⟩]
  | .purchaseOrder => [⟨"2024-02-19", .int 1, .int 1, "Ordered"⟩]
  | .purchaseOrderRecord => [⟨.int 1, .int 1, .int 1, "10.99"⟩]

/-- The database `create_db.sql` leaves. -/
def seed (e : Enforcement) : Db e where
  tables t := .ofRows (seedRows t)
  keys_fit t := by cases t <;> decide
  unique u hu := by
    rcases mem_uniqueKeys hu with rfl | rfl <;> decide
  references fk hfk := by
    have hall : ∀ fk ∈ references, fk.Holds fun t => Table.ofRows (seedRows t) := by decide
    exact hall fk (mem_references_of_mem hfk)

end SageStore
