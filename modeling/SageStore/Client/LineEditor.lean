import SageStore.Client.Cents
import SageStore.Client.OrdersModel

/-!
# The tables of lines in `SalesView` and `PurchaseView`

The lines of the selected order are shown in a table whose quantities, prices and products are
edited in place. The two views do so in the same way, each with functions of its own: what a view
makes of a quantity and of a price is a function of its `OrderKind`, and the table is one
definition.

An item of the table has a text and, as `Qt::UserRole`, the text it was last filled with. When the
text of an item has been changed, the whole row is read and normalised, compared with the stored
line and sent if it differs. The table is that of an order whose lines may be edited; while it is
filled, changes are not listened to.
-/

namespace SageStore

open Bytes

/-- Qt, with the flag of `QString::toDouble` and the sign of a number. -/
structure QtNumbers extends Qt where
  /-- `QString::toDouble` with its flag. -/
  toDouble? : Bytes → Option Double
  /-- `x < 0.0` -/
  isNegative : Double → Bool

/-! ### Quantities and prices -/

namespace PurchaseView

/-- The normalised text of a quantity, if the text is one. -/
def parsePositiveInteger (qt : QtNumbers) (text : Bytes) : Option Bytes :=
  (Qt.toInt? (qt.trimmed text)).bind fun value =>
    if value ≤ 0 then none else some (Bytes.ofInt value)

/-- The normalised text of a price, if the text is one. -/
def parseNonNegativeDecimal (qt : QtNumbers) (text : Bytes) : Option Bytes :=
  (qt.toDouble? (qt.trimmed text)).bind fun value =>
    if qt.isNegative value then none else some (qt.number value)

end PurchaseView

namespace SalesView

def parseSalesQuantity : QtNumbers → Bytes → Option Bytes := PurchaseView.parsePositiveInteger

def parseSalesPrice : QtNumbers → Bytes → Option Bytes := PurchaseView.parseNonNegativeDecimal

end SalesView

namespace OrderKind

def parseQuantity : OrderKind → QtNumbers → Bytes → Option Bytes
  | .sales => SalesView.parseSalesQuantity
  | .purchase => PurchaseView.parsePositiveInteger

def parsePrice : OrderKind → QtNumbers → Bytes → Option Bytes
  | .sales => SalesView.parseSalesPrice
  | .purchase => PurchaseView.parseNonNegativeDecimal

/-- `matchesSalesOrderRecordSnapshot` and `matchesOrderRecordSnapshot`: the normalised texts of a
row are those of a stored line. -/
def matchesOrderRecordSnapshot (kind : OrderKind) (qt : QtNumbers) (record : OrderRecord)
    (productTypeId quantity price : Bytes) : Bool :=
  let normalizedRecordQuantity := (kind.parseQuantity qt record.quantity).getD record.quantity
  let normalizedRecordPrice := (kind.parsePrice qt record.price).getD record.price
  record.productTypeId = productTypeId && normalizedRecordQuantity = quantity &&
    normalizedRecordPrice = price

end OrderKind

/-! ### The table -/

/-- An item of a table: its text, and the text it was last filled with. -/
structure TableItem where
  text : Bytes
  userRole : Bytes
deriving DecidableEq

namespace TableItem

/-- `createEditableTableItem` -/
def create (text : Bytes) : TableItem := ⟨text, text⟩

def setText (item : TableItem) (text : Bytes) : TableItem := { item with text := text }

/-- `restoreItemText`, to the text that is tracked. -/
def restore (item : TableItem) : TableItem := item.setText item.userRole

end TableItem

/-- The items of a row that are read back. -/
structure RecordRow where
  id : TableItem
  orderId : TableItem
  productTypeId : TableItem
  quantity : TableItem
  price : TableItem
deriving DecidableEq

/-- What a change of the table makes the view do. -/
inductive Emission where
  | errorOccurred (message : Bytes)
  | editOrderRecord (record : OrderRecord)

/-- The line that is sent. -/
def Emission.edit? : Emission → Option OrderRecord
  | .errorOccurred _ => none
  | .editOrderRecord record => some record

/-- The table of lines, and the lines it was filled with. -/
structure RecordsTable where
  currentRecords : List OrderRecord
  rows : List RecordRow

namespace RecordRow

def ofRecord (record : OrderRecord) : RecordRow where
  id := .create record.id
  orderId := .create record.orderId
  productTypeId := .create record.productTypeId
  quantity := .create record.quantity
  price := .create record.price

variable (kind : OrderKind) (qt : QtNumbers) (records : List OrderRecord) (row : RecordRow)

/-- `persistOrderRecordRow` -/
def persistOrderRecordRow : RecordRow × Option Emission :=
  let productTypeId := qt.trimmed row.productTypeId.text
  if productTypeId = [] then
    (row, some (.errorOccurred (qt.tr "Product type is required.")))
  else
    match kind.parseQuantity qt row.quantity.text with
    | none =>
      ({ row with quantity := row.quantity.restore },
        some (.errorOccurred (qt.tr "Quantity must be a positive integer.")))
    | some normalizedQuantity =>
      match kind.parsePrice qt row.price.text with
      | none =>
        ({ row with price := row.price.restore },
          some (.errorOccurred (qt.tr "Price must be a non-negative number.")))
      | some normalizedPrice =>
        let normalized := { row with
          quantity := .create normalizedQuantity
          price := .create normalizedPrice }
        let existing := records.find? fun record => record.id = row.id.text
        if existing.any fun record => kind.matchesOrderRecordSnapshot qt record productTypeId
            normalizedQuantity normalizedPrice then
          (normalized, none)
        else
          (normalized, some (.editOrderRecord
            ⟨row.id.text, row.orderId.text, productTypeId, normalizedQuantity, normalizedPrice⟩))

/-- What is done after the text of a quantity or of a price was changed: an invalid text is
replaced by the one that is tracked, and one that normalises to it is not taken for a change. -/
def onItemChanged (item : TableItem) (parse : Bytes → Option Bytes) (message : String)
    (set : TableItem → RecordRow) : RecordRow × Option Emission :=
  match parse item.text with
  | none => (set item.restore, some (.errorOccurred (qt.tr message)))
  | some normalized =>
    if item.userRole = normalized then (set (item.setText normalized), none)
    else (set item).persistOrderRecordRow kind qt records

/-- `onOrderRecordsTableItemChanged`, for the item in a column. -/
def onOrderRecordsTableItemChanged (column : ℕ) : RecordRow × Option Emission :=
  if column = 4 then
    onItemChanged kind qt records row.quantity (kind.parseQuantity qt)
      "Quantity must be a positive integer." fun item => { row with quantity := item }
  else if column = 5 then
    onItemChanged kind qt records row.price (kind.parsePrice qt)
      "Price must be a non-negative number." fun item => { row with price := item }
  else (row, none)

/-- A product is chosen in the list of a row. -/
def onProductTypeChosen (value : Bytes) : RecordRow × Option Emission :=
  if value = [] then (row, none)
  else
    ({ row with productTypeId := .create value } : RecordRow).persistOrderRecordRow kind qt
      records

end RecordRow

/-- What the user does to a row: enter the text of a quantity or of a price, or choose a
product. -/
inductive RowChange where
  | quantity (text : Bytes)
  | product (value : Bytes)
  | price (text : Bytes)

/-- The row after a change. -/
def RecordRow.change (kind : OrderKind) (qt : QtNumbers) (records : List OrderRecord)
    (row : RecordRow) : RowChange → RecordRow × Option Emission
  | .quantity text =>
    ({ row with quantity := row.quantity.setText text } : RecordRow).onOrderRecordsTableItemChanged
      kind qt records 4
  | .product value => row.onProductTypeChosen kind qt records value
  | .price text =>
    ({ row with price := row.price.setText text } : RecordRow).onOrderRecordsTableItemChanged
      kind qt records 5

namespace RecordsTable

/-- `fillRecordsTable` -/
def fillRecordsTable (records : List OrderRecord) : RecordsTable where
  currentRecords := records
  rows := records.map RecordRow.ofRecord

/-- The table after a change of a row, and what the view does. -/
def change (kind : OrderKind) (qt : QtNumbers) (table : RecordsTable) (row : ℕ) (c : RowChange) :
    RecordsTable × Option Emission :=
  match table.rows[row]? with
  | none => (table, none)
  | some items =>
    let changed := items.change kind qt table.currentRecords c
    ({ table with rows := table.rows.set row changed.1 }, changed.2)

end RecordsTable

/-! ### Exact numbers -/

/-- Floating-point numbers are taken for the decimals they stand for, `QString::toDouble` reads
decimal numbers, and `QString::number` rounds to a nearest number of cents. -/
structure QtNumbers.Exact (qt : QtNumbers) (value : qt.Double → ℚ) (cents : ℚ → ℕ) : Prop where
  toDouble? : ∀ t, IsDecimalNumber t → (qt.toDouble? t).map value = some (numberValue t)
  isNegative : ∀ x, qt.isNegative x = true ↔ value x < 0
  number : ∀ x, 0 ≤ value x → qt.number x = centsText (cents (value x))
  nearest : ∀ v, 0 ≤ v → |v * 100 - cents v| ≤ 1 / 2

/-- `Qt.exact`, which reads decimal numbers only. -/
def QtNumbers.exact : QtNumbers where
  toQt := Qt.exact
  toDouble? t :=
    if floatPrefix t = some t ∧ t.all isDecimalByte = true then some (numberValue t) else none
  isNegative := fun x : ℚ => decide (x < 0)

theorem QtNumbers.exact_exact : QtNumbers.exact.Exact (fun x : ℚ => x) nearestCents where
  toDouble? t ht := by
    have hspelled : floatPrefix t = some t ∧ t.all isDecimalByte = true := by
      rw [List.all_eq_true]
      exact isDecimalNumber_iff.mp ht
    change (if floatPrefix t = some t ∧ t.all isDecimalByte = true then
      some (numberValue t) else none).map _ = _
    rw [if_pos hspelled]
    rfl
  isNegative := fun x : ℚ => (decide_eq_true_iff : decide (x < 0) = true ↔ x < 0)
  number _ hx := twoDecimals_of_nonneg hx
  nearest _ hv := abs_sub_nearestCents hv

end SageStore
