import SageStore.Foundation.Sql
import SageStore.Server.Repositories

/-!
# The statements of the repositories

The texts of the statements of every repository class, the parameters it binds and the columns it
reads by their numbers. `Repositories` has what these statements do to the tables the modules
use; here they are executed as they stand, on tables whose columns are those of the schema.
`ProductInfoRepository` has its place here, although no module reaches it.

Parameters are bound as NUL-terminated strings.

The statements of thirteen classes select all columns in the order in which the class reads them,
and update all columns but the key (`scan_getAll`, `scan_getByField`, `scan_update`).
-/

namespace SageStore

open Bytes Sql

/-- The repository classes: one for every table of the modules, and `ProductInfoRepository`. -/
inductive RepositoryClass where
  | of (t : TableName)
  | productInfo

structure ProductInfo where
  id : Bytes
  productTypeId : Bytes
  name : Bytes
  value : Bytes
deriving DecidableEq

/-- What a repository class sends to the database, and how it reads the result. -/
structure Queries (α : Type) where
  getAllQuery : List Char
  getByFieldQuery : Name → List Char
  updateQuery : List Char
  updateParams : α → List Bytes
  /-- The entity made of the columns of a row, which `getString` reads by their numbers. -/
  fromCurrentRow : (ℕ → Bytes) → α

/-! ### The classes -/

def roleQueries : Queries Role where
  getAllQuery := "SELECT id, name FROM Role;".toList
  getByFieldQuery fieldName :=
    "SELECT id, name FROM Role WHERE ".toList ++ fieldName ++ " = ?;".toList
  updateQuery := "UPDATE Role SET name = ? WHERE id = ?;".toList
  updateParams x := [x.name, x.id]
  fromCurrentRow getString := ⟨getString 0, getString 1⟩

def userQueries : Queries User where
  getAllQuery := "SELECT id, username, password, roleId FROM  User ;".toList
  getByFieldQuery fieldName :=
    "SELECT id, username, password, roleId FROM User WHERE ".toList ++ fieldName ++
      " = ?;".toList
  updateQuery := "UPDATE User SET username = ?, password = ?, roleId = ? WHERE id = ?;".toList
  updateParams x := [x.username, x.password, x.roleId, x.id]
  fromCurrentRow getString := ⟨getString 0, getString 1, getString 2, getString 3⟩

def logQueries : Queries Log where
  getAllQuery := "SELECT id, userId, action, timestamp FROM Log;".toList
  getByFieldQuery fieldName :=
    "SELECT id, userId, action, timestamp FROM Log WHERE ".toList ++ fieldName ++ " = ?;".toList
  updateQuery :=
    "UPDATE Log SET userId = NULLIF(?, ''), action = ?, timestamp = ? WHERE id = ?;".toList
  updateParams x := [x.userId, x.action, x.timestamp, x.id]
  fromCurrentRow getString := ⟨getString 0, getString 1, getString 2, getString 3⟩

def contactQueries : Queries Contact where
  getAllQuery := "SELECT id, name, type, email, phone FROM Contact;".toList
  getByFieldQuery fieldName :=
    "SELECT id, name, type, email, phone FROM Contact WHERE ".toList ++ fieldName ++
      " = ?;".toList
  updateQuery :=
    "UPDATE Contact SET name = ?, type = ?, email = ?, phone = ? WHERE id = ?;".toList
  updateParams x := [x.name, x.type, x.email, x.phone, x.id]
  fromCurrentRow getString :=
    ⟨getString 0, getString 1, getString 2, getString 3, getString 4⟩

def employeeQueries : Queries Party where
  getAllQuery := "SELECT id, name, number, email, address FROM Employee;".toList
  getByFieldQuery fieldName :=
    "SELECT id, name, number, email, address FROM Employee WHERE ".toList ++ fieldName ++
      " = ?;".toList
  updateQuery :=
    "UPDATE Employee SET name = ?, number = ?, email = ?, address = ? WHERE id = ?;".toList
  updateParams x := [x.name, x.number, x.email, x.address, x.id]
  fromCurrentRow getString :=
    ⟨getString 0, getString 1, getString 2, getString 3, getString 4⟩

def supplierQueries : Queries Party where
  getAllQuery := "SELECT id, name, number, email, address FROM Supplier;".toList
  getByFieldQuery fieldName :=
    "SELECT id, name, number, email, address FROM Supplier WHERE ".toList ++ fieldName ++
      " = ?;".toList
  updateQuery :=
    "UPDATE Supplier SET name = ?, number = ?, email = ?, address = ? WHERE id = ?;".toList
  updateParams x := [x.name, x.number, x.email, x.address, x.id]
  fromCurrentRow getString :=
    ⟨getString 0, getString 1, getString 2, getString 3, getString 4⟩

def suppliersProductInfoQueries : Queries SuppliersProductInfo where
  getAllQuery := "SELECT id, supplierID, productTypeId, code FROM SuppliersProductInfo;".toList
  getByFieldQuery fieldName :=
    "SELECT id, supplierID, productTypeId, code FROM SuppliersProductInfo WHERE ".toList ++
      fieldName ++ " = ?;".toList
  updateQuery := ("UPDATE SuppliersProductInfo SET supplierID = ?, productTypeId = ?, code = ? " ++
    "WHERE id = ?;").toList
  updateParams x := [x.supplierID, x.productTypeId, x.code, x.id]
  fromCurrentRow getString := ⟨getString 0, getString 1, getString 2, getString 3⟩

def productTypeQueries : Queries ProductType where
  getAllQuery :=
    ("SELECT id, code, barcode, name, description, lastPrice, unit, isImported " ++
      "FROM ProductType;").toList
  getByFieldQuery fieldName :=
    ("SELECT id, code, barcode, name, description, lastPrice, unit, isImported " ++
      "FROM ProductType WHERE ").toList ++ fieldName ++ " = ?;".toList
  updateQuery :=
    ("UPDATE ProductType SET code = ?, barcode = ?, name = ?, description = ?, lastPrice = ?, " ++
      "unit = ?, isImported = ? WHERE id = ?;").toList
  updateParams x :=
    [x.code, x.barcode, x.name, x.description, x.lastPrice, x.unit, x.isImported, x.id]
  fromCurrentRow getString :=
    ⟨getString 0, getString 1, getString 2, getString 3, getString 4, getString 5, getString 6,
      getString 7⟩

def inventoryQueries : Queries Inventory where
  getAllQuery :=
    "SELECT id, productTypeId, quantityAvailable, employeeId FROM Inventory;".toList
  getByFieldQuery fieldName :=
    "SELECT id, productTypeId, quantityAvailable, employeeId FROM Inventory WHERE ".toList ++
      fieldName ++ " = ?;".toList
  updateQuery :=
    ("UPDATE Inventory SET productTypeId = ?, quantityAvailable = ?, employeeId = ? " ++
      "WHERE id = ?;").toList
  updateParams x := [x.productTypeId, x.quantityAvailable, x.employeeId, x.id]
  fromCurrentRow getString := ⟨getString 0, getString 1, getString 2, getString 3⟩

def saleOrderQueries : Queries SaleOrder where
  getAllQuery := "SELECT id, date, userId, contactId, employeeId, status FROM SaleOrder;".toList
  getByFieldQuery fieldName :=
    "SELECT id, date, userId, contactId, employeeId, status FROM SaleOrder WHERE ".toList ++
      fieldName ++ " = ?;".toList
  updateQuery :=
    ("UPDATE SaleOrder SET date = ?, userId = ?, contactId = ?, employeeId = ?, status = ? " ++
      "WHERE id = ?;").toList
  updateParams x := [x.date, x.userId, x.contactId, x.employeeId, x.status, x.id]
  fromCurrentRow getString :=
    ⟨getString 0, getString 1, getString 2, getString 3, getString 4, getString 5⟩

def purchaseOrderQueries : Queries PurchaseOrder where
  getAllQuery := "SELECT id, date, userId, supplierId, status FROM PurchaseOrder;".toList
  getByFieldQuery fieldName :=
    "SELECT id, date, userId, supplierId, status FROM PurchaseOrder WHERE ".toList ++ fieldName ++
      " = ?;".toList
  updateQuery :=
    "UPDATE PurchaseOrder SET date = ?, userId = ?, supplierId = ?, status = ? WHERE id = ?;".toList
  updateParams x := [x.date, x.userId, x.supplierId, x.status, x.id]
  fromCurrentRow getString :=
    ⟨getString 0, getString 1, getString 2, getString 3, getString 4⟩

def salesOrderRecordQueries : Queries OrderRecord where
  getAllQuery :=
    "SELECT id, orderId, productTypeId, quantity, price FROM SalesOrderRecord;".toList
  getByFieldQuery fieldName :=
    "SELECT id, orderId, productTypeId, quantity, price FROM SalesOrderRecord WHERE ".toList ++
      fieldName ++ " = ?;".toList
  updateQuery :=
    ("UPDATE SalesOrderRecord SET orderId = ?, productTypeId = ?, quantity = ?, price = ? " ++
      "WHERE id = ?;").toList
  updateParams x := [x.orderId, x.productTypeId, x.quantity, x.price, x.id]
  fromCurrentRow getString :=
    ⟨getString 0, getString 1, getString 2, getString 3, getString 4⟩

def purchaseOrderRecordQueries : Queries OrderRecord where
  getAllQuery :=
    "SELECT id, orderId, productTypeId, quantity, price FROM PurchaseOrderRecord;".toList
  getByFieldQuery fieldName :=
    "SELECT id, orderId, productTypeId, quantity, price FROM PurchaseOrderRecord WHERE ".toList ++
      fieldName ++ " = ?;".toList
  updateQuery :=
    ("UPDATE PurchaseOrderRecord SET orderId = ?, productTypeId = ?, quantity = ?, price = ? " ++
      "WHERE id = ?;").toList
  updateParams x := [x.orderId, x.productTypeId, x.quantity, x.price, x.id]
  fromCurrentRow getString :=
    ⟨getString 0, getString 1, getString 2, getString 3, getString 4⟩

def productInfoQueries : Queries ProductInfo where
  getAllQuery := "SELECT id, productTypeId, name, value FROM  ProductInfo ;".toList
  -- the list of columns begins after the identifier
  getByFieldQuery fieldName :=
    "SELECT productTypeId, name, value FROM ProductInfo WHERE ".toList ++ fieldName ++
      " = ?;".toList
  -- a comma and the condition are missing
  updateQuery := "UPDATE ProductInfo SET id = ?, productTypeId = ?, name = ? value = ?;".toList
  updateParams x := [x.id, x.productTypeId, x.name, x.value]
  fromCurrentRow getString := ⟨getString 0, getString 1, getString 2, getString 3⟩

namespace RepositoryClass

/-- The entities of a class. -/
abbrev Entity : RepositoryClass → Type
  | .of .role => Role
  | .of .user => User
  | .of .log => Log
  | .of .contact => Contact
  | .of .employee => Party
  | .of .supplier => Party
  | .of .suppliersProductInfo => SuppliersProductInfo
  | .of .productType => ProductType
  | .of .inventory => Inventory
  | .of .saleOrder => SaleOrder
  | .of .salesOrderRecord => OrderRecord
  | .of .purchaseOrder => PurchaseOrder
  | .of .purchaseOrderRecord => OrderRecord
  | .productInfo => ProductInfo

def queries : (c : RepositoryClass) → Queries c.Entity
  | .of .role => roleQueries
  | .of .user => userQueries
  | .of .log => logQueries
  | .of .contact => contactQueries
  | .of .employee => employeeQueries
  | .of .supplier => supplierQueries
  | .of .suppliersProductInfo => suppliersProductInfoQueries
  | .of .productType => productTypeQueries
  | .of .inventory => inventoryQueries
  | .of .saleOrder => saleOrderQueries
  | .of .salesOrderRecord => salesOrderRecordQueries
  | .of .purchaseOrder => purchaseOrderQueries
  | .of .purchaseOrderRecord => purchaseOrderRecordQueries
  | .productInfo => productInfoQueries

/-! ### The tables -/

def tableName : RepositoryClass → String
  | .of .role => "Role"
  | .of .user => "User"
  | .of .log => "Log"
  | .of .contact => "Contact"
  | .of .employee => "Employee"
  | .of .supplier => "Supplier"
  | .of .suppliersProductInfo => "SuppliersProductInfo"
  | .of .productType => "ProductType"
  | .of .inventory => "Inventory"
  | .of .saleOrder => "SaleOrder"
  | .of .salesOrderRecord => "SalesOrderRecord"
  | .of .purchaseOrder => "PurchaseOrder"
  | .of .purchaseOrderRecord => "PurchaseOrderRecord"
  | .productInfo => "ProductInfo"

/-- The columns that `create_db.sql` declares. -/
def declared : RepositoryClass → List (String × Affinity)
  | .of .role => [("id", .integer), ("name", .text)]
  | .of .user =>
    [("id", .integer), ("username", .text), ("password", .text), ("roleId", .integer)]
  | .of .log =>
    [("id", .integer), ("userId", .integer), ("action", .text), ("timestamp", .numeric)]
  | .of .contact =>
    [("id", .integer), ("name", .text), ("type", .text), ("email", .text), ("phone", .text)]
  | .of .employee | .of .supplier =>
    [("id", .integer), ("name", .text), ("number", .text), ("email", .text), ("address", .text)]
  | .of .suppliersProductInfo =>
    [("id", .integer), ("supplierID", .integer), ("productTypeId", .integer), ("code", .text)]
  | .of .productType =>
    [("id", .integer), ("code", .text), ("barcode", .text), ("name", .text),
      ("description", .text), ("lastPrice", .real), ("unit", .text), ("isImported", .numeric)]
  | .of .inventory =>
    [("id", .integer), ("productTypeId", .integer), ("quantityAvailable", .integer),
      ("employeeId", .integer)]
  | .of .saleOrder =>
    [("id", .integer), ("date", .numeric), ("userId", .integer), ("contactId", .integer),
      ("employeeId", .integer), ("status", .text)]
  | .of .purchaseOrder =>
    [("id", .integer), ("date", .numeric), ("userId", .integer), ("supplierId", .integer),
      ("status", .text)]
  | .of .salesOrderRecord | .of .purchaseOrderRecord =>
    [("id", .integer), ("orderId", .integer), ("productTypeId", .integer),
      ("quantity", .integer), ("price", .real)]
  | .productInfo =>
    [("id", .integer), ("productTypeId", .integer), ("name", .text), ("value", .text)]

def columns (c : RepositoryClass) : List (Name × Affinity) :=
  c.declared.map fun x => (x.1.toList, x.2)

def columnNames (c : RepositoryClass) : List Name := c.columns.map Prod.fst

/-- The table of a class, under the constraints of the schema. -/
def tableDef {V : Type} (c : RepositoryClass) (admits : List (Sql.Row V) → Bool) : TableDef V :=
  ⟨c.tableName.toList, c.columns, admits⟩

end RepositoryClass

/-- The rows of a table. The column `id` is an `INTEGER PRIMARY KEY`, and holds integers. -/
structure Content {V : Type} (E : Engine Bytes V) where
  rows : List (Sql.Row V)
  key : ∀ row ∈ rows, ∃ n : ℤ, n.natAbs < 2 ^ 63 ∧ row "id".toList = E.int n

/-- What is stored of a text without NUL is read as a text without NUL. -/
def ReadsStrings {V : Type} (E : Engine Bytes V) : Prop :=
  ∀ a t, (0 : UInt8) ∉ t → (0 : UInt8) ∉ E.text (E.store a t)

/-! ### Execution -/

section Execution

variable {V α : Type} (E : Engine Bytes V) (d : TableDef V)

/-- `SqliteDatabaseManager::executeQuery`. -/
def executeQuery (rows : List (Sql.Row V)) (query : List Char) (params : List Bytes) :
    Except Failure (List (List V) × List (Sql.Row V)) :=
  execute E d rows query (params.map cstr)

/-- `SqliteQueryResult::getString`: NULL, and a column past the last, read as the empty text. -/
def getString (row : List V) (columnIndex : ℕ) : Bytes :=
  (row[columnIndex]?).elim (E.literal []) E.text

namespace Queries

variable (q : Queries α) (rows : List (Sql.Row V))

def getAll : Except Failure (List α) :=
  (executeQuery E d rows q.getAllQuery []).map fun result =>
    result.1.map fun row => q.fromCurrentRow (getString E row)

def getByField (fieldName : Name) (value : Bytes) : Except Failure (List α) :=
  (executeQuery E d rows (q.getByFieldQuery fieldName) [value]).map fun result =>
    result.1.map fun row => q.fromCurrentRow (getString E row)

/-- The rows after `update`, or the failure it throws. -/
def update (entity : α) : Except Failure (List (Sql.Row V)) :=
  (executeQuery E d rows q.updateQuery (q.updateParams entity)).map Prod.snd

end Queries

end Execution

namespace RepositoryClass

/-! ### The texts of the statements -/

theorem nodup_columnNames (c : RepositoryClass) : c.columnNames.Nodup := by
  rcases c with t | _
  · cases t <;> decide +kernel
  · decide +kernel

/-- Column names are words, so they end where a statement says. -/
theorem words_columnNames (c : RepositoryClass) :
    ∀ f ∈ c.columnNames, f ≠ [] ∧ ∀ x ∈ f, isWordChar x = true := by
  have hwords : c.columnNames.all (fun f => f ≠ [] ∧ f.all isWordChar = true) = true := by
    rcases c with t | _
    · cases t <;> decide +kernel
    · decide +kernel
  intro f hf
  have hword := of_decide_eq_true (List.all_eq_true.mp hwords f hf)
  exact ⟨hword.1, List.all_eq_true.mp hword.2⟩

/-- The columns an update assigns to: an empty user of a log entry is made NULL. -/
def assignments (t : TableName) : List (Name × Expression) :=
  (of t).columnNames.tail.map fun name =>
    (name, if t = .log ∧ name = "userId".toList then .nullIf [] else .parameter)

/-- The columns that `getByField` selects. -/
def selected : RepositoryClass → List Name
  | .of t => (of t).columnNames
  | .productInfo => (columnNames .productInfo).tail

/-- The `SELECT` that lists a table is the statement that it is read as. -/
theorem scan_getAll (c : RepositoryClass) :
    scan [] none c.queries.getAllQuery =
      some (Statement.select c.columnNames c.tableName.toList none).tokens := by
  rcases c with t | _
  · cases t <;> decide +kernel
  · decide +kernel

/-- So is the `UPDATE` of a table. -/
theorem scan_update (t : TableName) :
    scan [] none (of t).queries.updateQuery =
      some (Statement.update (of t).tableName.toList (assignments t)
        (some "id".toList)).tokens := by
  cases t <;> decide +kernel

/-- The tokens of `getByField` before the name of the field. -/
def selectTokens (c : RepositoryClass) : List Token :=
  .word "SELECT".toList :: separated columnTokens c.selected ++
    [.word "FROM".toList, .word c.tableName.toList, .word "WHERE".toList]

/-- The text of `getByField` before the name of the field ends in a blank. -/
theorem getByField_front (c : RepositoryClass) :
    ∃ front : List Char, (∀ f, c.queries.getByFieldQuery f = front ++ f ++ " = ?;".toList) ∧
      front.getLast? = some ' ' ∧ scan [] none front.dropLast = some c.selectTokens := by
  rcases c with t | _
  · cases t <;> exact ⟨_, fun _ => rfl, by decide +kernel, by decide +kernel⟩
  · exact ⟨_, fun _ => rfl, by decide +kernel, by decide +kernel⟩

/-- The name of a field is one word of the statement. -/
theorem scan_getByField (c : RepositoryClass) {f : Name} (hf : f ∈ c.columnNames) :
    scan [] none (c.queries.getByFieldQuery f) =
      some (Statement.select c.selected c.tableName.toList (some f)).tokens := by
  obtain ⟨front, hquery, hend, hfront⟩ := c.getByField_front
  obtain ⟨hne, hword⟩ := c.words_columnNames f hf
  have hrest : scan [] none "= ?;".toList =
      some [.symbol '=', .symbol '?', .symbol ';'] := by decide +kernel
  have hname : scan [] none (f ++ " = ?;".toList) =
      some [.word f, .symbol '=', .symbol '?', .symbol ';'] := by
    have hblank : " = ?;".toList = ' ' :: "= ?;".toList := by decide +kernel
    have hend : endWord f = [.word f] := if_neg (by simpa using hne)
    rw [hblank, scan_blank (scan_word hword []), List.nil_append, hrest, hend]
    rfl
  rw [hquery, List.append_assoc, scan_append hend hfront, hname, Option.map_some]
  simp [selectTokens, Statement.tokens, conditionTokens]

theorem selected_ne_nil (c : RepositoryClass) : c.selected ≠ [] := by
  rcases c with t | _
  · cases t <;> exact List.cons_ne_nil _ _
  · exact List.cons_ne_nil _ _

theorem columnNames_ne_nil (c : RepositoryClass) : c.columnNames ≠ [] := by
  rcases c with t | _
  · cases t <;> exact List.cons_ne_nil _ _
  · exact List.cons_ne_nil _ _

/-- The key is the first column. -/
theorem columnNames_eq_cons (c : RepositoryClass) :
    c.columnNames = "id".toList :: c.columnNames.tail := by
  rcases c with t | _
  · cases t <;> rfl
  · rfl

/-- Only the first column is the key. -/
theorem id_notMem_tail (c : RepositoryClass) : "id".toList ∉ c.columnNames.tail := by
  have h := c.nodup_columnNames
  rw [c.columnNames_eq_cons] at h
  exact (List.nodup_cons.mp h).1

end RepositoryClass

/-! ### The engine of a platform -/

/-- The empty text is no number, and is stored as it is. -/
structure Sqlite.KeepsEmpty (s : Sqlite) : Prop where
  integer : (s.integer []).toText = []
  numeric : s.numeric [] = []
  real : s.real [] = []

theorem Sqlite.keepsEmpty_digits : Sqlite.digits.KeepsEmpty := ⟨rfl, rfl, rfl⟩

namespace Platform

/-- What a text is stored as in a column, as `Repositories` has it. -/
def store (p : Platform) : Affinity → Bytes → Cell
  | .integer, t => p.sqlite.integer t
  | .text, t => .text t
  | .numeric, t => .text (p.sqlite.numeric t)
  | .real, t => .text (p.sqlite.real t)

/-- The engine of a platform. -/
def engine (p : Platform) (h : p.sqlite.KeepsEmpty) : Engine Bytes Cell where
  null := .null
  int := .int
  literal l := l.flatMap String.utf8EncodeChar
  store := p.store
  equals a v t := v = p.store a t
  text := Cell.toText
  text_null := rfl
  text_store_empty a := by
    cases a with
    | integer => exact h.integer
    | text => rfl
    | numeric => exact h.numeric
    | real => exact h.real
  text_int n := by
    rw [Cell.toText_int, List.flatMap_nil]
    exact ofInt_ne_nil n
  store_of_equals _ _ _ heq := (of_decide_eq_true heq).symm

end Platform

end SageStore
