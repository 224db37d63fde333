import Mathlib.Logic.Function.Basic
import SageStore.Client.Requests

/-!
# The client: its models, its views and its dialogs

A model keeps lists that came from the server. It is created when the first view on it is opened,
and then stays. The signals of `ApiManager` go to every model: a list replaces the list of every
model that keeps it (`ModelName.keeps`), and the signal that a row was created, edited or deleted
makes the model that manages the resource (`ModelName.owner`) request its list again.

The nine models are one definition with their own connections. The lines of orders and the order
they are of are kept by `PurchaseModel` and `SalesModel`, the figures by `AnalyticsModel`.

The main window stands behind the modal dialogs of `DialogManager`, which are hidden when a log-in
succeeds. So nothing can be done in it before.
-/

namespace SageStore

open Bytes

/-! ### Models -/

inductive ModelName where
  | productTypesModel
  | stocksModel
  | managementModel
  | usersManagementModel
  | logsModel
  | supplierCatalogModel
  | purchaseModel
  | salesModel
  | analyticsModel
deriving DecidableEq

/-- What a model keeps. -/
structure Model where
  lists : (t : TableName) → List (Entity t)
  lastOrderId : Bytes
  salesMetrics : Metrics
  inventoryMetrics : Metrics

/-- A model that was just created. -/
def Model.empty : Model := ⟨fun _ => [], [], fun _ => none, fun _ => none⟩

namespace ModelName

/-- The lists whose signals a model is connected to. -/
def keeps : ModelName → List TableName
  | productTypesModel => [.productType]
  | stocksModel => [.inventory, .productType]
  | managementModel => [.contact, .supplier, .employee]
  | usersManagementModel => [.user, .role]
  | logsModel => [.log, .user]
  | supplierCatalogModel => [.suppliersProductInfo, .supplier, .productType]
  | purchaseModel =>
    [.purchaseOrder, .purchaseOrderRecord, .user, .supplier, .employee, .productType]
  | salesModel =>
    [.saleOrder, .salesOrderRecord, .user, .contact, .employee, .productType]
  | analyticsModel => [.saleOrder, .purchaseOrder]

/-- The model that is connected to the signals that a row was created, edited or deleted, and
through which the views do so. Nobody changes the log. -/
def owner : TableName → Option ModelName
  | .role => some usersManagementModel
  | .user => some usersManagementModel
  | .log => none
  | .contact => some managementModel
  | .employee => some managementModel
  | .supplier => some managementModel
  | .suppliersProductInfo => some supplierCatalogModel
  | .productType => some productTypesModel
  | .inventory => some stocksModel
  | .saleOrder => some salesModel
  | .salesOrderRecord => some salesModel
  | .purchaseOrder => some purchaseModel
  | .purchaseOrderRecord => some purchaseModel

/-- The owner of a resource keeps its list. -/
theorem mem_keeps_of_owner {t : TableName} {m : ModelName} (h : owner t = some m) :
    t ∈ m.keeps := by
  revert h
  cases t <;> cases m <;> decide

end ModelName

namespace Model

/-- The handlers of the list signals, such as `onUsersList`. -/
def onList (m : ModelName) (t : TableName) (entities : List (Entity t)) (model : Model) : Model :=
  if t ∈ m.keeps then { model with lists := Function.update model.lists t entities } else model

/-- A model keeps the list that arrives. -/
theorem lists_onList_self {m : ModelName} {t : TableName} (h : t ∈ m.keeps)
    (entities : List (Entity t)) (model : Model) :
    (onList m t entities model).lists t = entities := by
  simp only [onList, if_pos h, Function.update_self]

/-- It keeps its other lists. -/
theorem lists_onList_of_ne {t t' : TableName} (h : t' ≠ t) (m : ModelName)
    (entities : List (Entity t)) (model : Model) :
    (onList m t entities model).lists t' = model.lists t' := by
  unfold onList
  split
  · exact Function.update_of_ne h ..
  · rfl

theorem onList_eq (m : ModelName) (t : TableName) (entities : List (Entity t)) (model : Model) :
    onList m t entities model =
      { model with lists := (onList m t entities model).lists } := by
  unfold onList
  split <;> rfl

/-- `fetchOrderRecords` of the two models of orders. -/
def fetchOrderRecords (k : OrderKind) (orderId : Bytes) (model : Model) :
    Model × List ClientRequest :=
  ({ model with lastOrderId := orderId }, [.getOrderRecords k orderId])

def refreshCurrentRecords (k : OrderKind) (model : Model) : List ClientRequest :=
  if model.lastOrderId = [] then []
  else [.getOrderRecords k model.lastOrderId]

/-- What the owner of a resource requests when a row of it was created, edited or deleted. -/
def onChanged (t : TableName) (model : Model) : List ClientRequest :=
  match t with
  | .purchaseOrder => ClientRequest.getPurchaseOrders :: model.refreshCurrentRecords .purchase
  | .purchaseOrderRecord => model.refreshCurrentRecords .purchase
  | .saleOrder => ClientRequest.getSalesOrders :: model.refreshCurrentRecords .sales
  | .salesOrderRecord => model.refreshCurrentRecords .sales
  | t => [ClientRequest.list t]

/-- `onReceiptPosted` of `PurchaseModel`, and then `onPurchaseReceiptPosted` of its view. The
stocks, which the receipt has changed, are not requested. -/
def onReceiptPosted (model : Model) : List ClientRequest :=
  ClientRequest.getPurchaseOrders :: model.refreshCurrentRecords .purchase ++
    [ClientRequest.getPurchaseOrders]

section Requests

variable {model : Model} {r : ClientRequest}

/-- The lines of the last order are asked for. -/
theorem mem_refreshCurrentRecords {k : OrderKind} (h : r ∈ model.refreshCurrentRecords k) :
    r = { ClientRequest.list k.records with resourceId := model.lastOrderId } := by
  unfold refreshCurrentRecords at h
  split at h
  · exact absurd h List.not_mem_nil
  · rw [← ClientRequest.getOrderRecords_eq]
    exact List.mem_singleton.mp h

/-- A model requests lists only. -/
theorem mem_onChanged {t : TableName} (h : r ∈ model.onChanged t) :
    ∃ t' id, r = { ClientRequest.list t' with resourceId := id } := by
  have horders {k : OrderKind} {t' : TableName}
      (h : r ∈ ClientRequest.list t' :: model.refreshCurrentRecords k) :
      ∃ t' id, r = { ClientRequest.list t' with resourceId := id } := by
    rcases List.mem_cons.mp h with rfl | h
    · exact ⟨t', [], rfl⟩
    · exact ⟨k.records, _, mem_refreshCurrentRecords h⟩
  cases t with
  | purchaseOrder => exact horders h
  | saleOrder => exact horders h
  | purchaseOrderRecord => exact ⟨_, _, mem_refreshCurrentRecords h⟩
  | salesOrderRecord => exact ⟨_, _, mem_refreshCurrentRecords h⟩
  | _ =>
    obtain rfl := List.mem_singleton.mp h
    exact ⟨_, [], rfl⟩

/-- After a receipt only listings are asked for. -/
theorem mem_onReceiptPosted (h : r ∈ model.onReceiptPosted) :
    ∃ t id, r = { ClientRequest.list t with resourceId := id } := by
  rcases List.mem_append.mp h with h | h
  · rcases List.mem_cons.mp h with rfl | h
    · exact ⟨_, [], rfl⟩
    · exact ⟨_, _, mem_refreshCurrentRecords h⟩
  · obtain rfl := List.mem_singleton.mp h
    exact ⟨_, [], rfl⟩

end Requests

end Model

/-! ### Views -/

inductive View where
  | productTypesView
  | stocksView
  | usersView
  | rolesView
  | managementView
  | supplierCatalogView
  | purchaseView
  | salesView
  | logsView
  | analyticsView
deriving DecidableEq

namespace View

/-- The model of a view; users and roles share theirs. -/
def model : View → ModelName
  | productTypesView => .productTypesModel
  | stocksView => .stocksModel
  | usersView => .usersManagementModel
  | rolesView => .usersManagementModel
  | managementView => .managementModel
  | supplierCatalogView => .supplierCatalogModel
  | purchaseView => .purchaseModel
  | salesView => .salesModel
  | logsView => .logsModel
  | analyticsView => .analyticsModel

/-- What is requested when the tab of a view is opened (`fetchAll` of most models). -/
def fetches : View → List ClientRequest
  | productTypesView => [.getProductTypes]
  | stocksView => [.getProductTypes, .getStocks]
  | usersView => [.getRoleList, .getUsers]
  | rolesView => [.getRoleList]
  | managementView => [.getContacts, .getSuppliers, .getEmployees]
  | supplierCatalogView => [.getSuppliers, .getProductTypes, .getSupplierProducts]
  | purchaseView =>
    [.getUsers, .getSuppliers, .getEmployees, .getProductTypes, .getPurchaseOrders]
  | salesView => [.getUsers, .getContacts, .getEmployees, .getProductTypes, .getSalesOrders]
  | logsView => [.getUsers, .getLogs]
  | analyticsView =>
    [.getSalesAnalytics, .getInventoryAnalytics, .getSalesOrders, .getPurchaseOrders]

end View

/-! ### Signals -/

/-- The list that comes with a signal. -/
def Signal.list? : Signal → Option ((t : TableName) × List (Entity t))
  | .rolesList xs => some ⟨.role, xs⟩
  | .usersList xs => some ⟨.user, xs⟩
  | .logsList xs => some ⟨.log, xs⟩
  | .contactsList xs => some ⟨.contact, xs⟩
  | .employeesList xs => some ⟨.employee, xs⟩
  | .suppliersList xs => some ⟨.supplier, xs⟩
  | .supplierProductsList xs => some ⟨.suppliersProductInfo, xs⟩
  | .productTypesList xs => some ⟨.productType, xs⟩
  | .stocksList xs => some ⟨.inventory, xs⟩
  | .salesOrdersList xs => some ⟨.saleOrder, xs⟩
  | .salesOrderRecordsList xs => some ⟨.salesOrderRecord, xs⟩
  | .purchaseOrdersList xs => some ⟨.purchaseOrder, xs⟩
  | .purchaseOrderRecordsList xs => some ⟨.purchaseOrderRecord, xs⟩
  | _ => none

/-- The resource of which a row was created, edited or deleted. -/
def Signal.changed? : Signal → Option TableName
  | .created t => some t
  | .edited t => some t
  | .deleted t => some t
  | _ => none

@[simp] theorem list?_listSignal (t : TableName) (xs : List (Entity t)) :
    (ApiManager.listSignal t xs).list? = some ⟨t, xs⟩ := by
  cases t <;> rfl

@[simp] theorem changed?_listSignal (t : TableName) (xs : List (Entity t)) :
    (ApiManager.listSignal t xs).changed? = none := by
  cases t <;> rfl

/-! ### The client -/

/-- `QCryptographicHash` with SHA-256, in hexadecimal digits. -/
structure Sha256 where
  hex : Bytes → Bytes
  hex_length : ∀ t, (hex t).length = 64
  hex_digits : ∀ t, ∀ b ∈ hex t, isDigit b ∨ 97 ≤ b.toNat ∧ b.toNat ≤ 102

/-- SHA-256 on the password of the initial setup, which is all that is needed of it there. -/
def Sha256.ofSetup : Sha256 where
  hex t :=
    if t = utf8 "admin123" then
      "240be518fabd2724ddb6f04eeb1da5967448d7e831c08c8fa822809f74c720a9"
    else List.replicate 64 48
  hex_length t := by
    split
    · decide
    · exact List.length_replicate
  hex_digits t := by
    have h : ((utf8 "240be518fabd2724ddb6f04eeb1da5967448d7e831c08c8fa822809f74c720a9").all fun b =>
        decide (isDigit b ∨ 97 ≤ b.toNat ∧ b.toNat ≤ 102)) = true := by decide
    split
    · exact fun b hb => of_decide_eq_true (List.all_eq_true.mp h b hb)
    · intro b hb
      rw [List.eq_of_mem_replicate hb]
      decide

/-- A client: whether a log-in has succeeded, the tabs that are open, and the models that were
created. -/
structure Client where
  isAuthenticated : Bool
  tabs : List View
  models : ModelName → Option Model

/-- What the user does. A modal dialog covers the main window until a log-in has succeeded, and a
resource is changed in a view of the model that owns it. -/
inductive Action where
  | login (username password : Bytes)
  | register (username password confirmation : Bytes)
  | openView (view : View)
  | closeTab (view : View)
  | fetchOrderRecords (k : OrderKind) (orderId : Bytes)
  | createEntity (t : TableName) (entity : Entity t)
  | editEntity (t : TableName) (entity : Entity t)
  | deleteEntity (t : TableName) (id : Bytes)
  | postReceipt (orderId employeeId : Bytes)

/-- The model of the orders of a kind. -/
def OrderKind.ordersModel : OrderKind → ModelName
  | .sales => .salesModel
  | .purchase => .purchaseModel

namespace Client

/-- A client that was just started. -/
def start : Client := ⟨false, [], fun _ => none⟩

/-- The owner of a resource was created. -/
def Manages (client : Client) (t : TableName) : Prop :=
  ∃ m, ModelName.owner t = some m ∧ (client.models m).isSome

instance (client : Client) (t : TableName) : Decidable (client.Manages t) :=
  match h : ModelName.owner t with
  | none => isFalse fun ⟨_, hm, _⟩ => by rw [h] at hm; cases hm
  | some m => decidable_of_iff (client.models m).isSome
      ⟨fun hs => ⟨m, h, hs⟩, fun ⟨_, hm, hs⟩ => Option.some.inj (h.symm.trans hm) ▸ hs⟩

/-- `ensureProductTypesView` and its like: the model of a view is created with the first view on
it. -/
def ensureModel (client : Client) (m : ModelName) : Client :=
  match client.models m with
  | some _ => client
  | none => { client with models := Function.update client.models m (some Model.empty) }

/-- `handleMainMenuAction`: the view is created, its tab is shown, and its lists are requested if
the tab was not open. -/
def openView (client : Client) (view : View) : Client × List ClientRequest :=
  let client := client.ensureModel view.model
  if view ∈ client.tabs then (client, [])
  else ({ client with tabs := client.tabs ++ [view] }, view.fetches)

/-- `RegistrationDialog::onRegisterClicked`. -/
def register (sha256 : Sha256) (username password confirmation : Bytes) : List ClientRequest :=
  if password = confirmation then [.addUser ⟨[], username, sha256.hex password, "0"⟩] else []

/-- What the client does of what the user does, and what it requests. -/
def act (sha256 : Sha256) (client : Client) : Action → Client × List ClientRequest
  | .login username password => (client, [.loginUser username (sha256.hex password)])
  | .register username password confirmation =>
    (client, register sha256 username password confirmation)
  | .openView view => if client.isAuthenticated then client.openView view else (client, [])
  | .closeTab view => ({ client with tabs := client.tabs.erase view }, [])
  | .fetchOrderRecords k orderId =>
    match client.models k.ordersModel with
    | none => (client, [])
    | some model =>
      let (model, requests) := model.fetchOrderRecords k orderId
      ({ client with models := Function.update client.models k.ordersModel (some model) }, requests)
  | .createEntity t entity =>
    (client, if client.Manages t then (ClientRequest.createEntity t entity).toList else [])
  | .editEntity t entity =>
    (client, if client.Manages t then (ClientRequest.editEntity t entity).toList else [])
  | .deleteEntity t id =>
    (client, if client.Manages t then (ClientRequest.deleteEntity t id).toList else [])
  | .postReceipt orderId employeeId =>
    (client, if (client.models .purchaseModel).isSome then
      [.postPurchaseReceipt orderId employeeId] else [])

/-- A list goes to every model that keeps it. -/
def onList (client : Client) (t : TableName) (entities : List (Entity t)) : Client :=
  { client with models := fun m => (client.models m).map (Model.onList m t entities) }

/-- The owner of a resource hears that a row of it was created, edited or deleted. -/
def onChanged (client : Client) (t : TableName) : List ClientRequest :=
  match (ModelName.owner t).bind client.models with
  | none => []
  | some model => model.onChanged t

/-- The figures go to `AnalyticsModel`. -/
def onMetrics (client : Client) (change : Model → Model) : Client :=
  { client with
    models := Function.update client.models .analyticsModel
      ((client.models .analyticsModel).map change) }

/-- What the client does at a signal of `ApiManager`. -/
def onSignal (client : Client) : ApiSignal → Client × List ClientRequest
  | .loginSuccess _ _ => ({ client with isAuthenticated := true }, [])
  | .purchaseReceiptPosted =>
    match client.models .purchaseModel with
    | none => (client, [])
    | some model => (client, model.onReceiptPosted)
  | .salesAnalyticsReady metrics =>
    (client.onMetrics fun model => { model with salesMetrics := metrics }, [])
  | .inventoryAnalyticsReady metrics =>
    (client.onMetrics fun model => { model with inventoryMetrics := metrics }, [])
  | .resource signal =>
    match signal.list?, signal.changed? with
    | some list, _ => (client.onList list.1 list.2, [])
    | none, some t => (client, client.onChanged t)
    | none, none => (client, [])

theorem models_onMetrics_self (client : Client) (change : Model → Model) :
    (client.onMetrics change).models .analyticsModel =
      (client.models .analyticsModel).map change := by
  simp only [onMetrics, Function.update_self]

theorem models_onMetrics_of_ne (client : Client) (change : Model → Model) {m : ModelName}
    (hm : m ≠ .analyticsModel) : (client.onMetrics change).models m = client.models m := by
  simp only [onMetrics, Function.update_of_ne hm]

/-! #### What happens to the models -/

section Models

variable {sha256 : Sha256} {client : Client} {m : ModelName}

/-- A model that is ensured is new and empty if there was none. -/
theorem models_ensureModel (client : Client) (m m' : ModelName) :
    (client.ensureModel m').models m = client.models m ∨
      client.models m = none ∧ m = m' ∧ (client.ensureModel m').models m = some Model.empty := by
  unfold ensureModel
  split
  · exact Or.inl rfl
  · next hnone =>
    by_cases hm : m = m'
    · subst hm
      exact Or.inr ⟨hnone, rfl, Function.update_self ..⟩
    · exact Or.inl (Function.update_of_ne hm ..)

theorem models_openView (view : View) :
    (client.openView view).1.models = (client.ensureModel view.model).models := by
  unfold openView
  dsimp only
  split <;> rfl

/-- What the user does leaves a model alone, or creates it, or names the order whose lines it is
to keep. -/
theorem models_act (sha256 : Sha256) (client : Client) (m : ModelName) (a : Action) :
    (client.act sha256 a).1.models m = client.models m ∨
      (client.models m = none ∧ (client.act sha256 a).1.models m = some Model.empty ∧
        client.isAuthenticated = true ∧ ∃ view, a = .openView view ∧ view.model = m) ∨
      ∃ k orderId model, a = .fetchOrderRecords k orderId ∧ m = k.ordersModel ∧
        client.models m = some model ∧ (client.act sha256 a).1.models m =
          some { model with lastOrderId := orderId } := by
  cases a with
  | openView view =>
    unfold act
    dsimp only
    split
    · next hauth =>
      rw [models_openView]
      rcases models_ensureModel client m view.model with h | ⟨hnone, hm, h⟩
      · exact Or.inl h
      · exact Or.inr (Or.inl ⟨hnone, h, hauth, view, rfl, hm.symm⟩)
    · exact Or.inl rfl
  | fetchOrderRecords k orderId =>
    unfold act
    dsimp only
    split
    · exact Or.inl rfl
    · next model hmodel =>
      by_cases hm : m = k.ordersModel
      · subst hm
        exact Or.inr (Or.inr ⟨k, orderId, model, rfl, rfl, hmodel, Function.update_self ..⟩)
      · exact Or.inl (Function.update_of_ne hm ..)
  | _ => exact Or.inl rfl

/-- What a signal does to a model: nothing, or it brings figures or a list. -/
inductive Heard (m : ModelName) : ApiSignal → (Model → Model) → Prop
  | nothing (signal : ApiSignal) : Heard m signal id
  | salesMetrics (metrics : Metrics) :
    Heard m (.salesAnalyticsReady metrics) fun model => { model with salesMetrics := metrics }
  | inventoryMetrics (metrics : Metrics) :
    Heard m (.inventoryAnalyticsReady metrics)
      fun model => { model with inventoryMetrics := metrics }
  | list (s : Signal) (t : TableName) (entities : List (Entity t)) :
    s.list? = some ⟨t, entities⟩ → Heard m (.resource s) (Model.onList m t entities)

/-- A signal creates no model and drops none. -/
theorem models_onSignal (client : Client) (m : ModelName) (signal : ApiSignal) :
    ∃ f, Heard m signal f ∧ (client.onSignal signal).1.models m = (client.models m).map f := by
  have hid : client.models m = (client.models m).map id := Option.map_id'.symm
  cases signal with
  | loginSuccess id' roleId => exact ⟨id, .nothing _, hid⟩
  | purchaseReceiptPosted =>
    -- it only makes the model of purchases ask for its lists
    refine ⟨id, .nothing _, ?_⟩
    unfold onSignal
    dsimp only
    split <;> exact hid
  | salesAnalyticsReady metrics =>
    by_cases hm : m = .analyticsModel
    · subst hm
      exact ⟨_, .salesMetrics metrics, models_onMetrics_self client _⟩
    · exact ⟨id, .nothing _, (models_onMetrics_of_ne client _ hm).trans hid⟩
  | inventoryAnalyticsReady metrics =>
    by_cases hm : m = .analyticsModel
    · subst hm
      exact ⟨_, .inventoryMetrics metrics, models_onMetrics_self client _⟩
    · exact ⟨id, .nothing _, (models_onMetrics_of_ne client _ hm).trans hid⟩
  | resource s =>
    unfold onSignal
    dsimp only
    split
    · next list hlist => exact ⟨_, .list s list.1 list.2 hlist, rfl⟩
    · exact ⟨id, .nothing _, hid⟩
    · exact ⟨id, .nothing _, hid⟩

/-- Models are not dropped. -/
theorem isSome_models_act (a : Action) (h : (client.models m).isSome) :
    ((client.act sha256 a).1.models m).isSome := by
  rcases models_act sha256 client m a with
    heq | ⟨-, heq, -⟩ | ⟨_, _, _, -, -, -, heq⟩
  · rw [heq]
    exact h
  · rw [heq]
    rfl
  · rw [heq]
    rfl

/-- What an action requests, and when. -/
inductive Sends (sha256 : Sha256) (client : Client) : Action → ClientRequest → Prop
  | login (username password : Bytes) : Sends sha256 client (.login username password)
    (.loginUser username (sha256.hex password))
  | register (username password : Bytes) :
    Sends sha256 client (.register username password password)
    (.addUser ⟨[], username, sha256.hex password, "0"⟩)
  | fetch (view : View) (r : ClientRequest) : client.isAuthenticated = true → r ∈ view.fetches →
    Sends sha256 client (.openView view) r
  | orderRecords (k : OrderKind) (orderId : Bytes) : (client.models k.ordersModel).isSome →
    Sends sha256 client (.fetchOrderRecords k orderId) (.getOrderRecords k orderId)
  | create (t : TableName) (entity : Entity t) (r : ClientRequest) : client.Manages t →
    ClientRequest.createEntity t entity = some r → Sends sha256 client (.createEntity t entity) r
  | edit (t : TableName) (entity : Entity t) (r : ClientRequest) : client.Manages t →
    ClientRequest.editEntity t entity = some r → Sends sha256 client (.editEntity t entity) r
  | delete (t : TableName) (id : Bytes) (r : ClientRequest) : client.Manages t →
    ClientRequest.deleteEntity t id = some r → Sends sha256 client (.deleteEntity t id) r
  | receipt (orderId employeeId : Bytes) : (client.models .purchaseModel).isSome →
    Sends sha256 client (.postReceipt orderId employeeId) (.postPurchaseReceipt orderId employeeId)

/-- What is sent by an action is sent for that action. -/
theorem sends_of_act {a : Action} {r : ClientRequest} (hr : r ∈ (client.act sha256 a).2) :
    Sends sha256 client a r := by
  cases a with
  | login username password =>
    obtain rfl := List.mem_singleton.mp hr
    exact .login username password
  | register username password confirmation =>
    change r ∈ SageStore.Client.register sha256 username password confirmation at hr
    unfold SageStore.Client.register at hr
    -- the dialog sends nothing unless the password was confirmed
    split at hr
    · next heq =>
      subst heq
      obtain rfl := List.mem_singleton.mp hr
      exact .register username password
    · exact absurd hr List.not_mem_nil
  | openView view =>
    unfold act at hr
    dsimp only at hr
    split at hr
    · next hauth =>
      refine .fetch view r hauth ?_
      -- a view that has a tab already is not opened again
      unfold openView at hr
      dsimp only at hr
      split at hr
      · exact absurd hr List.not_mem_nil
      · exact hr
    · exact absurd hr List.not_mem_nil
  | closeTab view => exact absurd hr List.not_mem_nil
  | fetchOrderRecords k orderId =>
    unfold act at hr
    dsimp only at hr
    split at hr
    · exact absurd hr List.not_mem_nil
    · next model hmodel =>
      obtain rfl := List.mem_singleton.mp hr
      exact .orderRecords k orderId (Option.isSome_of_eq_some hmodel)
  | createEntity t entity =>
    obtain ⟨hmanages, hr⟩ := List.mem_ite_nil_right.mp hr
    exact .create t entity r hmanages (Option.mem_toList.mp hr)
  | editEntity t entity =>
    obtain ⟨hmanages, hr⟩ := List.mem_ite_nil_right.mp hr
    exact .edit t entity r hmanages (Option.mem_toList.mp hr)
  | deleteEntity t id =>
    obtain ⟨hmanages, hr⟩ := List.mem_ite_nil_right.mp hr
    exact .delete t id r hmanages (Option.mem_toList.mp hr)
  | postReceipt orderId employeeId =>
    obtain ⟨hsome, hr⟩ := List.mem_ite_nil_right.mp hr
    obtain rfl := List.mem_singleton.mp hr
    exact .receipt orderId employeeId hsome

/-- What is requested at a signal is requested by a model, and is a list. -/
theorem mem_onSignal {signal : ApiSignal} {r : ClientRequest}
    (h : r ∈ (client.onSignal signal).2) :
    (∃ m, (client.models m).isSome) ∧
      ∃ t id, r = { ClientRequest.list t with resourceId := id } := by
  cases signal with
  | purchaseReceiptPosted =>
    unfold onSignal at h
    dsimp only at h
    split at h
    · exact absurd h List.not_mem_nil
    · next model hmodel =>
      exact ⟨⟨_, Option.isSome_of_eq_some hmodel⟩, Model.mem_onReceiptPosted h⟩
  | resource s =>
    unfold onSignal at h
    dsimp only at h
    split at h
    · exact absurd h List.not_mem_nil
    · next t hlist hchanged =>
      unfold onChanged at h
      split at h
      · exact absurd h List.not_mem_nil
      · next model hmodel =>
        obtain ⟨m, -, hm⟩ := Option.bind_eq_some_iff.mp hmodel
        exact ⟨⟨m, Option.isSome_of_eq_some hm⟩, Model.mem_onChanged h⟩
    · exact absurd h List.not_mem_nil
  | _ => exact absurd h List.not_mem_nil

theorem isSome_models_onSignal (signal : ApiSignal) :
    ((client.onSignal signal).1.models m).isSome = (client.models m).isSome := by
  obtain ⟨f, -, hf⟩ := models_onSignal client m signal
  rw [hf, Option.isSome_map]

end Models

end Client

/-! ### The client on the network -/

/-- A request that has left the client. -/
structure SentRequest (J : Json) (url : QUrl) where
  request : ClientRequest
  http : HttpRequest
  sent : NetworkService.sendRequest J url request = some http

/-- A request whose texts cannot be encoded does not leave. -/
def ClientRequest.send (J : Json) (url : QUrl) (r : ClientRequest) : Option (SentRequest J url) :=
  match h : NetworkService.sendRequest J url r with
  | none => none
  | some http => some ⟨r, http, h⟩

namespace Client

variable (J : Json) (url : QUrl) (sha256 : Sha256)

/-- The requests that leave. -/
def send (x : Client × List ClientRequest) : Client × List (SentRequest J url) :=
  (x.1, x.2.filterMap fun r => r.send J url)

/-- The client, with what the network hands it. -/
def exchange : Exchange Client Action (SentRequest J url) HttpOutcome where
  init := start
  act client a := send J url (client.act sha256 a)
  receive client r outcome :=
    match ApiManager.onOutcome J r.request outcome with
    | none => (client, [])
    | some signal => send J url (client.onSignal signal)

end Client

end SageStore
