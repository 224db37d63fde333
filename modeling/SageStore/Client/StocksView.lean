import SageStore.Client.ApiManager
import SageStore.Client.Qt

/-!
# `StocksView` and the server

The stock rows as a client loaded them, in an editable table. An edit of a cell sends the whole
row; the server replaces the stored row by it. Several clients with their tables, the lists of
stocks and the edits in flight, and the server with the receipts it takes, are one machine.

The filter field is empty, so the table shows all stock rows.
-/

namespace SageStore

open Bytes

/-! ### Requests -/

namespace ApiManager

def getStocks : RequestData := ⟨utf8 "inventory", utf8 "stocks", utf8 "GET", [], ∅⟩

def editStock (stock : Inventory) : RequestData where
  module := utf8 "inventory"
  submodule := utf8 "stocks"
  method := utf8 "PUT"
  resourceId := stock.id
  dataset := [(⟨utf8 "productTypeId", [stock.productTypeId]⟩ : Σ _ : Bytes, List Bytes),
    ⟨utf8 "quantityAvailable", [stock.quantityAvailable]⟩,
    ⟨utf8 "employeeId", [stock.employeeId]⟩].toFinmap

/-- A receipt, with any fields. -/
def postPurchaseReceipt (dataset : Dataset) : RequestData :=
  ⟨utf8 "purchase", utf8 "receipts", utf8 "POST", [], dataset⟩

end ApiManager

/-! ### The table -/

namespace StocksView

/-- The columns whose cells are edited as text. -/
inductive EditableColumn where
  | quantity
  | employee

/-- The text a cell of a row was filled with. -/
def EditableColumn.tracked (stock : Inventory) : EditableColumn → Bytes
  | .quantity => stock.quantityAvailable
  | .employee => stock.employeeId

def EditableColumn.set (stock : Inventory) (value : Bytes) : EditableColumn → Inventory
  | .quantity => { stock with quantityAvailable := value }
  | .employee => { stock with employeeId := value }

def EditableColumn.isValid (value : Bytes) : EditableColumn → Bool
  | .quantity => (Qt.toInt? value).isSome
  | .employee => 0 < Qt.toInt value

/-- The stock that a row is sent as, if it is sent. -/
def persistRow (qt : Qt) (stock : Inventory) : Option Inventory :=
  let stock := { stock with
    quantityAvailable := qt.trimmed stock.quantityAvailable
    employeeId := qt.trimmed stock.employeeId }
  if stock.productTypeId = [] ∨ stock.quantityAvailable = [] ∨ stock.employeeId = [] then none
  else some stock

/-- The rows after the text of a cell was changed, and the stock that is sent. -/
def onItemChanged (qt : Qt) (rows : List Inventory) (row : ℕ) (column : EditableColumn)
    (text : Bytes) : List Inventory × Option Inventory :=
  match rows[row]? with
  | none => (rows, none)
  | some stock =>
    let currentValue := qt.trimmed text
    if column.isValid currentValue = false then (rows, none)
    else if column.tracked stock = currentValue then (rows, none)
    else
      let stock := column.set stock currentValue
      (rows.set row stock, persistRow qt stock)

end StocksView

/-! ### Clients and the server -/

/-- The server, the rows in the table of each client, the lists on their way to a client, and the
edits on their way to the server. -/
structure Stocks (e : Enforcement) where
  session : Session (Db e) Exception
  views : ℕ → List Inventory
  lists : List (ℕ × List Inventory)
  edits : List Inventory

/-- What can happen: the server takes a receipt; it answers a client's request for the stocks,
and the list arrives; a client changes the employee of a row; the server takes an edit. -/
inductive Stocks.Input where
  | postReceipt (now : UtcTime) (faults : List (Option Exception)) (dataset : Dataset)
  | getStocks (client : ℕ) (now : UtcTime)
  | stocksList (i : ℕ)
  | editEmployee (client row : ℕ) (text : Bytes)
  | editStock (i : ℕ) (now : UtcTime) (faults : List (Option Exception))

/-- What the server has done: it has received lines, or stored an edited stock. -/
inductive StockChange where
  | none
  | received (lines : List (ℕ × OrderRecordRow))
  | edited (stock : Inventory)

namespace Stocks

variable {e : Enforcement}

/-- The list that a client makes of the reply to a request for the stocks. -/
def stocksOf (p : Platform) (now : UtcTime) (d : Db e) : Option (List Inventory) :=
  match ApiManager.handleResponse .inventory .get
    (BusinessLogic.executeTask p now ApiManager.getStocks ⟨d, none, []⟩).1.dataset with
  | some (.stocksList stocks) => some stocks
  | _ => none

def step (qt : Qt) (p : Platform) (s : Stocks e) : Input → StockChange × Stocks e
  | .postReceipt now faults dataset =>
    let r := (server p e).step s.session ⟨now, ApiManager.postPurchaseReceipt dataset, faults⟩
    (if utf8 "error" ∈ r.1.dataset then .none
      else .received
        (purchaseLines s.session.store (p.cell (getOptionalDatasetValue dataset "id"))),
      { s with session := r.2 })
  | .getStocks client now =>
    (.none, { s with
      lists := s.lists ++ ((stocksOf p now s.session.store).map fun l => (client, l)).toList })
  | .stocksList i =>
    match s.lists[i]? with
    | none => (.none, s)
    | some l => (.none, { s with
        views := Function.update s.views l.1 l.2
        lists := s.lists.eraseIdx i })
  | .editEmployee client row text =>
    let r := StocksView.onItemChanged qt (s.views client) row .employee text
    (.none, { s with
      views := Function.update s.views client r.1
      edits := s.edits ++ r.2.toList })
  | .editStock i now faults =>
    match s.edits[i]? with
    | none => (.none, s)
    | some stock =>
      let r := (server p e).step s.session ⟨now, ApiManager.editStock stock, faults⟩
      (if utf8 "error" ∈ r.1.dataset then .none else .edited stock,
        { s with session := r.2, edits := s.edits.eraseIdx i })

/-- Runs from a state of the server, with empty tables and nothing in flight. -/
def machine (qt : Qt) (p : Platform) (s₀ : Session (Db e) Exception) :
    Machine (Stocks e) Input StockChange where
  init := ⟨s₀, fun _ => [], [], []⟩
  step := step qt p

end Stocks

end SageStore
