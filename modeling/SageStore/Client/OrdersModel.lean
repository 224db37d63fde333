import SageStore.Client.ApiManager
import SageStore.Foundation.Exchange

/-!
# `SalesModel` and `PurchaseModel`

The two models keep the lines of one order: `fetchOrderRecords` remembers the order and requests
its lines, and the signal that a list of lines arrived replaces the lines of the model. The
signal does not say which order was asked for. Both models do so in the same way and differ in
the resource they request and in the signal they listen to, so they are one definition with an
`OrderKind`: `SalesModel` is `OrderKind.model .sales` and `PurchaseModel` is
`OrderKind.model .purchase`.
-/

namespace SageStore

open Bytes

/-- What a model keeps of the lines of orders. -/
structure OrdersModel where
  lastOrderId : Bytes
  orderRecords : List OrderRecord

namespace OrdersModel

def onOrderRecordsList (model : OrdersModel) (records : List OrderRecord) : OrdersModel :=
  { model with orderRecords := records }

/-- The model after a call, and the orders whose lines it requests. -/
def fetchOrderRecords (model : OrdersModel) (orderId : Bytes) : OrdersModel × List Bytes :=
  ({ model with lastOrderId := orderId }, [orderId])

/-- After a change of an order or a line the lines of the last order are requested again. -/
def refreshCurrentRecords (model : OrdersModel) : OrdersModel × List Bytes :=
  (model, if model.lastOrderId = [] then [] else [model.lastOrderId])

/-- The calls of a model that request lines. -/
inductive Call where
  | fetchOrderRecords (orderId : Bytes)
  | refreshCurrentRecords

def call (model : OrdersModel) : Call → OrdersModel × List Bytes
  | .fetchOrderRecords orderId => model.fetchOrderRecords orderId
  | .refreshCurrentRecords => model.refreshCurrentRecords

end OrdersModel

/-- Whose lines a model keeps. -/
inductive OrderKind where
  | sales
  | purchase

namespace OrderKind

/-- The resource of the lines. -/
def records : OrderKind → TableName
  | .sales => .salesOrderRecord
  | .purchase => .purchaseOrderRecord

/-- The lines that come with the signal the model listens to. -/
def orderRecordsList : OrderKind → Signal → Option (List OrderRecord)
  | .sales, .salesOrderRecordsList records => some records
  | .purchase, .purchaseOrderRecordsList records => some records
  | _, _ => none

/-- The request that `ApiManager::getSalesOrderRecords` or `getPurchaseOrderRecords` sends. -/
def getOrderRecords (k : OrderKind) (orderId : Bytes) : RequestData :=
  ⟨utf8 (path k.records).1, utf8 (path k.records).2, utf8 "GET", orderId, ∅⟩

/-- The reply of a server with the database `d`. -/
def reply {e : Enforcement} (k : OrderKind) (p : Platform) (now : UtcTime) (orderId : Bytes)
    (d : Db e) : Dataset :=
  (BusinessLogic.executeTask p now (k.getOrderRecords orderId) ⟨d, none, []⟩).1.dataset

/-- The model after a reply to a request for lines. -/
def onReply (k : OrderKind) (model : OrdersModel) (dataset : Dataset) : OrdersModel :=
  match (ApiManager.handleResponse k.records .get dataset).bind k.orderRecordsList with
  | some records => model.onOrderRecordsList records
  | none => model

/-- A model with its requests for lines; a reply depends on the database of the server. -/
def model (k : OrderKind) (p : Platform) (now : UtcTime) (e : Enforcement) :
    Exchange OrdersModel OrdersModel.Call Bytes (Db e) where
  init := ⟨[], []⟩
  act := OrdersModel.call
  receive model orderId d := (k.onReply model (k.reply p now orderId d), [])

/-- The runs of a model: its calls and the deliveries of replies, in any order. -/
def machine (k : OrderKind) (p : Platform) (now : UtcTime) (e : Enforcement) :
    Machine (OrdersModel × List Bytes) (Exchange.Event OrdersModel.Call (Db e))
      (Exchange.Traffic Bytes) :=
  (k.model p now e).machine

end OrderKind

end SageStore
