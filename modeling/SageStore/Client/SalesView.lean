import SageStore.Client.OrdersModel
import SageStore.Client.Qt

/-!
# `SalesView`

The sales orders, the lines of the selected order and the invoice preview. Orders are selected
in two tables, of orders and of invoices; a selection requests the lines of its order, and the
lines that arrive are shown on the page selected from last. The preview is made of the order
selected in the table of invoices and of whatever lines the model has.

The filter fields are empty, so both tables show all orders. Filling a table clears it first,
and with it its selection, which the view is notified of.
-/

namespace SageStore

open Bytes

/-! ### `SalesModel` and `SalesViewModel` -/

/-- What orders refer to. -/
structure ReferenceData where
  users : List User
  contacts : List Contact
  employees : List Party
  productTypes : List ProductType

/-- The model of sales orders: their lines, the orders, and what they refer to. -/
structure SalesModel extends OrdersModel where
  orders : List SaleOrder
  referenceData : ReferenceData

/-- A line of an invoice: the line of the order it is made from, and what it shows. -/
structure InvoiceLine (N : Type) where
  record : OrderRecord
  product : Bytes
  quantity : ℤ
  price : N
deriving DecidableEq

/-- An invoice: what it shows of its order, and its lines. -/
structure Invoice (N : Type) where
  orderId : Bytes
  date : Bytes
  customer : Bytes
  handledBy : Bytes
  status : Bytes
  lines : List (InvoiceLine N)
deriving DecidableEq

def InvoiceLine.amount (qt : Qt) (line : InvoiceLine qt.Double) : qt.Double :=
  qt.mul line.price (qt.ofInt line.quantity)

/-- The sum of the amounts of the lines. -/
def Invoice.total (qt : Qt) (invoice : Invoice qt.Double) : qt.Double :=
  invoice.lines.foldl (fun total line => qt.add total (line.amount qt)) (qt.ofInt 0)

/-- The text of an invoice. -/
def Invoice.text (qt : Qt) (invoice : Invoice qt.Double) : Bytes :=
  qt.tr "SageStore Invoice" ++ utf8 "\n" ++
  qt.tr "Order ID" ++ utf8 ": " ++ invoice.orderId ++ utf8 "\n" ++
  qt.tr "Date" ++ utf8 ": " ++ invoice.date ++ utf8 "\n" ++
  qt.tr "Customer" ++ utf8 ": " ++ invoice.customer ++ utf8 "\n" ++
  qt.tr "Handled by" ++ utf8 ": " ++ invoice.handledBy ++ utf8 "\n" ++
  qt.tr "Status" ++ utf8 ": " ++ invoice.status ++ utf8 "\n\n" ++
  qt.tr "Items" ++ utf8 ":\n" ++
  (invoice.lines.flatMap fun line =>
    utf8 " - " ++ line.product ++ utf8 " | " ++ Bytes.ofInt line.quantity ++ utf8 " x " ++
      qt.number line.price ++ utf8 " = " ++ qt.number (line.amount qt) ++ utf8 "\n") ++
  utf8 "\n" ++ qt.tr "Total" ++ utf8 ": " ++ qt.number (invoice.total qt) ++ utf8 "\n"

namespace SalesViewModel

/-- The label of what an id refers to, the id itself if there is nothing with it. -/
def labelOf {E : Type} (id label : E → Bytes) (es : List E) (t : Bytes) : Bytes :=
  ((es.find? fun x => id x = t).map label).getD t

def contactLabel (data : ReferenceData) : Bytes → Bytes :=
  labelOf Contact.id Contact.name data.contacts

def employeeLabel (data : ReferenceData) : Bytes → Bytes :=
  labelOf Party.id Party.name data.employees

def productTypeLabel (data : ReferenceData) : Bytes → Bytes :=
  labelOf ProductType.id (fun x => x.code ++ utf8 " | " ++ x.name) data.productTypes

def translateSalesStatus (qt : Qt) (status : Bytes) : Bytes :=
  let normalized := qt.trimmed status
  if qt.equalsIgnoringCase normalized (utf8 "Draft") ∨ normalized = utf8 "Чернетка" then
    qt.tr "Draft"
  else if qt.equalsIgnoringCase normalized (utf8 "Confirmed") ∨
      normalized = utf8 "Підтверджено" then qt.tr "Confirmed"
  else if qt.equalsIgnoringCase normalized (utf8 "Invoiced") ∨
      normalized = utf8 "Виставлено рахунок" then qt.tr "Invoiced"
  else normalized

/-- The invoice of an order with the lines of the model; none for an unknown order. -/
def buildInvoicePreview (qt : Qt) (model : SalesModel) (orderId : Bytes) :
    Option (Invoice qt.Double) :=
  (model.orders.find? fun order => order.id = orderId).map fun order =>
    { orderId := order.id
      date := order.date
      customer := contactLabel model.referenceData order.contactId
      handledBy := employeeLabel model.referenceData order.employeeId
      status := translateSalesStatus qt order.status
      lines := model.orderRecords.map fun record =>
        { record := record
          product := productTypeLabel model.referenceData record.productTypeId
          quantity := Qt.toInt record.quantity
          price := qt.toDouble record.price } }

end SalesViewModel

/-! ### The view -/

/-- A table of orders, and the row that is selected in it. -/
structure OrdersTable where
  rows : List SaleOrder
  selected : Option ℕ

/-- The id of the selected order, empty if none is selected. -/
def OrdersTable.selectedOrderId (table : OrdersTable) : Bytes :=
  ((table.selected.bind fun row => table.rows[row]?).map SaleOrder.id).getD []

/-- The page whose table of lines shows the lines that arrive. -/
inductive RecordsContext where
  | none
  | orders
  | invoices
deriving DecidableEq

structure SalesView (N : Type) where
  model : SalesModel
  allOrders : List SaleOrder
  currentRecords : List OrderRecord
  recordsContext : RecordsContext
  ordersTable : OrdersTable
  orderRecordsTable : List OrderRecord
  invoiceOrdersTable : OrdersTable
  invoiceRecordsTable : List OrderRecord
  invoicePreview : Option (Invoice N)

namespace SalesView

section

variable {N : Type}

/-- The view after a call of the model, and the orders whose lines it requests. -/
def call (view : SalesView N) (c : OrdersModel.Call) : SalesView N × List Bytes :=
  ({ view with model.toOrdersModel := (view.model.toOrdersModel.call c).1 },
    (view.model.toOrdersModel.call c).2)

def onOrdersSelectionChanged (view : SalesView N) : SalesView N × List Bytes :=
  let orderId := view.ordersTable.selectedOrderId
  if orderId ≠ [] then
    { view with recordsContext := .orders }.call (.fetchOrderRecords orderId)
  else ({ view with currentRecords := [], orderRecordsTable := [] }, [])

def onInvoiceSelectionChanged (view : SalesView N) : SalesView N × List Bytes :=
  let orderId := view.invoiceOrdersTable.selectedOrderId
  if orderId ≠ [] then
    { view with recordsContext := .invoices }.call (.fetchOrderRecords orderId)
  else
    ({ view with currentRecords := [], invoiceRecordsTable := [], invoicePreview := none }, [])

/-- The user selects a row of the orders, or none. -/
def selectOrder (view : SalesView N) (row : Option ℕ) : SalesView N × List Bytes :=
  if view.ordersTable.selected = row then (view, [])
  else onOrdersSelectionChanged { view with ordersTable.selected := row }

/-- The user selects a row of the invoices, or none. -/
def selectInvoice (view : SalesView N) (row : Option ℕ) : SalesView N × List Bytes :=
  if view.invoiceOrdersTable.selected = row then (view, [])
  else onInvoiceSelectionChanged { view with invoiceOrdersTable.selected := row }

/-- The table of orders is cleared and filled; without a selection no lines are requested. -/
def applyOrdersFilter (view : SalesView N) : SalesView N :=
  let view := (view.selectOrder none).1
  { view with ordersTable.rows := view.allOrders }

/-- The table of invoices is cleared and filled. -/
def applyInvoicesFilter (view : SalesView N) : SalesView N :=
  let view := (view.selectInvoice none).1
  { view with invoiceOrdersTable.rows := view.allOrders }

def onOrdersChanged (view : SalesView N) : SalesView N :=
  applyInvoicesFilter (applyOrdersFilter { view with allOrders := view.model.orders })

end

variable (qt : Qt)

def updateInvoicePreview (view : SalesView qt.Double) : SalesView qt.Double :=
  let orderId := view.invoiceOrdersTable.selectedOrderId
  { view with
    invoicePreview := if orderId = [] then none
      else SalesViewModel.buildInvoicePreview qt view.model orderId }

/-- The current lines are shown on the page they are for. -/
def showRecords (view : SalesView qt.Double) : SalesView qt.Double :=
  match view.recordsContext with
  | .none => view
  | .orders => { view with orderRecordsTable := view.currentRecords }
  | .invoices => updateInvoicePreview qt { view with invoiceRecordsTable := view.currentRecords }

def onOrderRecordsChanged (view : SalesView qt.Double) : SalesView qt.Double :=
  showRecords qt { view with currentRecords := view.model.orderRecords }

def onReferenceDataChanged (view : SalesView qt.Double) : SalesView qt.Double :=
  showRecords qt (applyInvoicesFilter (applyOrdersFilter view))

end SalesView

/-! ### Runs -/

/-- The reply to `ApiManager::getSalesOrders` of a server with the database `d`. -/
def salesOrdersReply {e : Enforcement} (p : Platform) (now : UtcTime) (d : Db e) : Dataset :=
  (BusinessLogic.executeTask p now
    ⟨utf8 "sales", utf8 "orders", utf8 "GET", [], ∅⟩ ⟨d, none, []⟩).1.dataset

namespace SalesView

/-- What can happen to the view, besides replies with lines: the user selects, the list of
orders or what they refer to arrives, or an order or a line was changed. -/
inductive Action (e : Enforcement) where
  | selectOrder (row : Option ℕ)
  | selectInvoice (row : Option ℕ)
  | ordersList (d : Db e)
  | referenceData (data : ReferenceData)
  | refreshCurrentRecords

variable (qt : Qt) (p : Platform) (now : UtcTime)

/-- The view after a reply with the list of orders. -/
def onOrdersReply (view : SalesView qt.Double) (dataset : Dataset) : SalesView qt.Double :=
  match ApiManager.handleResponse .saleOrder .get dataset with
  | some (.salesOrdersList orders) => onOrdersChanged { view with model.orders := orders }
  | _ => view

/-- The view after a reply with lines. -/
def onReply (view : SalesView qt.Double) (dataset : Dataset) : SalesView qt.Double :=
  match (ApiManager.handleResponse .salesOrderRecord .get dataset).bind
      OrderKind.sales.orderRecordsList with
  | some records => onOrderRecordsChanged qt
    { view with model.toOrdersModel := view.model.toOrdersModel.onOrderRecordsList records }
  | none => view

def act {e : Enforcement} (view : SalesView qt.Double) :
    Action e → SalesView qt.Double × List Bytes
  | .selectOrder row => view.selectOrder row
  | .selectInvoice row => view.selectInvoice row
  | .ordersList d => (view.onOrdersReply qt (salesOrdersReply p now d), [])
  | .referenceData data =>
    (onReferenceDataChanged qt { view with model.referenceData := data }, [])
  | .refreshCurrentRecords => view.call .refreshCurrentRecords

/-- The view with its requests for lines; a reply depends on the database of the server. -/
def exchange (e : Enforcement) : Exchange (SalesView qt.Double) (Action e) Bytes (Db e) where
  init := ⟨⟨⟨[], []⟩, [], ⟨[], [], [], []⟩⟩, [], [], .none, ⟨[], none⟩, [], ⟨[], none⟩, [], none⟩
  act := act qt p now
  receive view orderId d := (view.onReply qt (OrderKind.sales.reply p now orderId d), [])

/-- The runs of the view. -/
def machine (e : Enforcement) :
    Machine (SalesView qt.Double × List Bytes) (Exchange.Event (Action e) (Db e))
      (Exchange.Traffic Bytes) :=
  (exchange qt p now e).machine

end SalesView

end SageStore
