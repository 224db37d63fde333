import SageStore.Client.SalesView
import SageStore.Properties.Selection

/-!
# Invoice previews and the orders of their lines

A preview is made of the order selected in the table of invoices and of the lines the model
has, whoever they were requested for. So an invoice shows no line of another order in all states
of a run exactly if every reply that arrives while the invoice of an order is shown answers a
request for this order, or for one without lines (`invoice_unmixed_iff`). Selections, new lists
of orders and new reference data only leave or clear the preview: filling the tables clears
their selections.
-/

namespace SageStore

open Bytes Exchange

variable {e : Enforcement} {qt : Qt} {p : Platform} {now : UtcTime}

/-! ### What the slots do -/

namespace SalesView

section

variable {N : Type} {view : SalesView N}

/-- What filling the two tables of orders does: the selections are gone, and the preview is left
or cleared. -/
structure Refilled (view view' : SalesView N) : Prop where
  model : view'.model = view.model
  allOrders : view'.allOrders = view.allOrders
  recordsContext : view'.recordsContext = view.recordsContext
  ordersTable : view'.ordersTable = ⟨view.allOrders, none⟩
  invoiceOrdersTable : view'.invoiceOrdersTable = ⟨view.allOrders, none⟩
  invoicePreview : view'.invoicePreview = view.invoicePreview ∨ view'.invoicePreview = none

theorem selectedOrderId_none (rows : List SaleOrder) :
    OrdersTable.selectedOrderId ⟨rows, none⟩ = [] := rfl

/-- Without a selection the slot requests nothing and clears what was shown. -/
theorem selectOrder_none (view : SalesView N) :
    (view.selectOrder none).1 = view ∧ view.ordersTable.selected = none ∨
      (view.selectOrder none).1 = { view with
        ordersTable := ⟨view.ordersTable.rows, none⟩
        currentRecords := []
        orderRecordsTable := [] } := by
  rw [selectOrder]
  by_cases hnone : view.ordersTable.selected = none
  · rw [if_pos hnone]
    exact Or.inl ⟨rfl, hnone⟩
  · rw [if_neg hnone, onOrdersSelectionChanged, selectedOrderId_none]
    exact Or.inr rfl

theorem selectInvoice_none (view : SalesView N) :
    (view.selectInvoice none).1 = view ∧ view.invoiceOrdersTable.selected = none ∨
      (view.selectInvoice none).1 = { view with
        invoiceOrdersTable := ⟨view.invoiceOrdersTable.rows, none⟩
        currentRecords := []
        invoiceRecordsTable := []
        invoicePreview := none } := by
  rw [selectInvoice]
  by_cases hnone : view.invoiceOrdersTable.selected = none
  · rw [if_pos hnone]
    exact Or.inl ⟨rfl, hnone⟩
  · rw [if_neg hnone, onInvoiceSelectionChanged, selectedOrderId_none]
    exact Or.inr rfl

/-- Filters refill both tables and touch nothing else. -/
theorem refilled_applyFilters (view : SalesView N) :
    Refilled view (applyInvoicesFilter (applyOrdersFilter view)) := by
  -- filling the first table may clear the lines shown under it, and nothing else
  have horders : ∃ current lines, applyOrdersFilter view = { view with
      ordersTable := ⟨view.allOrders, none⟩
      currentRecords := current
      orderRecordsTable := lines } := by
    rw [applyOrdersFilter]
    obtain ⟨hsame, hnone⟩ | heq := view.selectOrder_none
    · rw [hsame]
      refine ⟨view.currentRecords, view.orderRecordsTable, ?_⟩
      rw [← hnone]
    · rw [heq]
      exact ⟨[], [], rfl⟩
  obtain ⟨current, lines, horders⟩ := horders
  rw [horders, applyInvoicesFilter]
  obtain ⟨hsame, hnone⟩ | heq := selectInvoice_none { view with
      ordersTable := ⟨view.allOrders, none⟩
      currentRecords := current
      orderRecordsTable := lines }
  · rw [hsame]
    have hnone : view.invoiceOrdersTable.selected = none := hnone
    exact ⟨rfl, rfl, rfl, rfl, by rw [← hnone], Or.inl rfl⟩
  · rw [heq]
    exact ⟨rfl, rfl, rfl, rfl, rfl, Or.inr rfl⟩

/-! ### The orders that can be selected -/

/-- The text of a key of a table. -/
def IsKey (t : Bytes) : Prop := ∃ n < 2 ^ 63, t = decimal n

/-- The tables show the orders of the model, which are named by keys, and so is the order whose
lines were requested last. -/
structure Listed (view : SalesView N) : Prop where
  allOrders : view.allOrders = view.model.orders
  ordersTable : view.ordersTable.rows = view.model.orders
  invoiceOrdersTable : view.invoiceOrdersTable.rows = view.model.orders
  ids : ∀ order ∈ view.model.orders, IsKey order.id
  lastOrderId : view.model.lastOrderId = [] ∨ IsKey view.model.lastOrderId

/-- What the view does besides taking replies with lines: it requests lines by keys, and leaves
or clears the preview. -/
structure Acts (preview : Option (Invoice N)) (r : SalesView N × List Bytes) : Prop where
  listed : Listed r.1
  requests : ∀ orderId ∈ r.2, IsKey orderId
  invoicePreview : r.1.invoicePreview = preview ∨ r.1.invoicePreview = none

/-- What is selected is an order of the table, or nothing. -/
theorem selectedOrderId_cases (table : OrdersTable) :
    table.selectedOrderId = [] ∨ ∃ order ∈ table.rows, table.selectedOrderId = order.id := by
  obtain ⟨rows, selected⟩ := table
  cases selected with
  | none => exact Or.inl rfl
  | some row =>
    show ((rows[row]?).map SaleOrder.id).getD [] = [] ∨
      ∃ order ∈ rows, ((rows[row]?).map SaleOrder.id).getD [] = order.id
    cases horder : rows[row]? with
    | none => exact Or.inl rfl
    | some order => exact Or.inr ⟨order, List.mem_of_getElem? horder, rfl⟩

theorem selectedOrderId_isKey {table : OrdersTable} (h : ∀ order ∈ table.rows, IsKey order.id)
    (hne : table.selectedOrderId ≠ []) : IsKey table.selectedOrderId := by
  obtain hnil | ⟨order, horder, hid⟩ := selectedOrderId_cases table
  · exact absurd hnil hne
  · rw [hid]
    exact h order horder

/-- Tables that are refilled from the orders list orders. -/
theorem Listed.refilled {view' : SalesView N} (hrefill : Refilled view view')
    (hall : view.allOrders = view.model.orders)
    (hids : ∀ order ∈ view.model.orders, IsKey order.id)
    (hlast : view.model.lastOrderId = [] ∨ IsKey view.model.lastOrderId) : Listed view' where
  allOrders := by rw [hrefill.allOrders, hrefill.model, hall]
  ordersTable := by rw [hrefill.ordersTable, hrefill.model, hall]
  invoiceOrdersTable := by rw [hrefill.invoiceOrdersTable, hrefill.model, hall]
  ids := by rwa [hrefill.model]
  lastOrderId := by rwa [hrefill.model]

/-- Asking for the lines of an order leaves the preview. -/
theorem Listed.fetchOrderRecords (h : Listed view) {orderId : Bytes} (hkey : IsKey orderId) :
    Acts view.invoicePreview (view.call (.fetchOrderRecords orderId)) where
  listed := ⟨h.allOrders, h.ordersTable, h.invoiceOrdersTable, h.ids, Or.inr hkey⟩
  requests := by
    intro o ho
    rwa [List.mem_singleton.mp ho]
  invoicePreview := Or.inl rfl

theorem Listed.refreshCurrentRecords (h : Listed view) :
    Acts view.invoicePreview (view.call .refreshCurrentRecords) where
  listed := ⟨h.allOrders, h.ordersTable, h.invoiceOrdersTable, h.ids, h.lastOrderId⟩
  requests := by
    show ∀ o ∈ if view.model.lastOrderId = [] then [] else [view.model.lastOrderId], IsKey o
    intro o ho
    by_cases hempty : view.model.lastOrderId = []
    · rw [if_pos hempty] at ho
      cases ho
    · rw [if_neg hempty] at ho
      rw [List.mem_singleton.mp ho]
      exact h.lastOrderId.resolve_left hempty
  invoicePreview := Or.inl rfl

/-- Selecting an order asks for its lines, and leaves the preview or clears it. -/
theorem Listed.selectOrder (h : Listed view) (row : Option ℕ) :
    Acts view.invoicePreview (view.selectOrder row) := by
  rw [SalesView.selectOrder]
  split
  · -- the row was selected before
    exact ⟨h, fun _ ho => absurd ho List.not_mem_nil, Or.inl rfl⟩
  · rw [onOrdersSelectionChanged]
    dsimp only
    split
    · next hne =>
      have hkey := selectedOrderId_isKey (h.ordersTable ▸ h.ids) hne
      have hlisted : Listed { view with
          ordersTable := ⟨view.ordersTable.rows, row⟩
          recordsContext := .orders } :=
        ⟨h.allOrders, h.ordersTable, h.invoiceOrdersTable, h.ids, h.lastOrderId⟩
      exact hlisted.fetchOrderRecords hkey
    · exact ⟨⟨h.allOrders, h.ordersTable, h.invoiceOrdersTable, h.ids, h.lastOrderId⟩,
        fun _ ho => absurd ho List.not_mem_nil, Or.inl rfl⟩

/-- So does selecting an invoice. -/
theorem Listed.selectInvoice (h : Listed view) (row : Option ℕ) :
    Acts view.invoicePreview (view.selectInvoice row) := by
  rw [SalesView.selectInvoice]
  split
  · -- the row was selected before
    exact ⟨h, fun _ ho => absurd ho List.not_mem_nil, Or.inl rfl⟩
  · rw [onInvoiceSelectionChanged]
    dsimp only
    split
    · next hne =>
      have hkey := selectedOrderId_isKey (h.invoiceOrdersTable ▸ h.ids) hne
      have hlisted : Listed { view with
          invoiceOrdersTable := ⟨view.invoiceOrdersTable.rows, row⟩
          recordsContext := .invoices } :=
        ⟨h.allOrders, h.ordersTable, h.invoiceOrdersTable, h.ids, h.lastOrderId⟩
      exact hlisted.fetchOrderRecords hkey
    · exact ⟨⟨h.allOrders, h.ordersTable, h.invoiceOrdersTable, h.ids, h.lastOrderId⟩,
        fun _ ho => absurd ho List.not_mem_nil, Or.inr rfl⟩

end

/-! ### The lists of orders and the reference data -/

theorem Listed.showRecords {view : SalesView qt.Double} (h : Listed view) :
    Listed (showRecords qt view) := by
  rw [SalesView.showRecords]
  split <;> exact ⟨h.allOrders, h.ordersTable, h.invoiceOrdersTable, h.ids, h.lastOrderId⟩

/-- Without a selected invoice the current lines do not bring up a preview. -/
theorem showRecords_invoicePreview {view : SalesView qt.Double}
    (h : view.invoiceOrdersTable.selectedOrderId = []) :
    (showRecords qt view).invoicePreview = view.invoicePreview ∨
      (showRecords qt view).invoicePreview = none := by
  rw [showRecords]
  split
  · exact Or.inl rfl
  · exact Or.inl rfl
  · exact Or.inr (if_pos h)

/-- New reference data leave the preview or clear it. -/
theorem Listed.onReferenceDataChanged {view : SalesView qt.Double} (h : Listed view)
    (data : ReferenceData) :
    Acts view.invoicePreview
      (onReferenceDataChanged qt { view with model.referenceData := data }, []) := by
  have hrefill := refilled_applyFilters { view with model.referenceData := data }
  have hlisted := Listed.refilled hrefill h.allOrders h.ids h.lastOrderId
  have hnone : (applyInvoicesFilter (applyOrdersFilter { view with
      model.referenceData := data })).invoiceOrdersTable.selectedOrderId = [] := by
    rw [hrefill.invoiceOrdersTable, selectedOrderId_none]
  refine ⟨hlisted.showRecords, fun _ ho => absurd ho List.not_mem_nil, ?_⟩
  -- the preview of before is left, or cleared with the selection
  obtain hkept | hcleared := showRecords_invoicePreview hnone
  · exact hrefill.invoicePreview.imp hkept.trans hkept.trans
  · exact Or.inr hcleared

/-- The orders that arrive are named by their keys. -/
theorem salesOrdersList_reply (p : Platform) (now : UtcTime) (d : Db e) :
    ∃ orders, ApiManager.handleResponse .saleOrder .get (salesOrdersReply p now d) =
      some (.salesOrdersList orders) ∧ ∀ order ∈ orders, IsKey order.id := by
  have hreply := @get_reply e p now ⟨utf8 "sales", utf8 "orders", utf8 "GET", [], ∅⟩ .saleOrder
    ⟨rfl, rfl⟩ rfl d none
  rw [salesOrdersReply, hreply, handleResponse_listing]
  refine ⟨_, rfl, ?_⟩
  intro order horder
  obtain ⟨x, hx, rfl⟩ := List.mem_map.mp horder
  obtain ⟨r, hr, rfl⟩ := List.mem_map.mp hx
  exact ⟨r.1, Database.key_lt hr, rfl⟩

/-- So does a list of orders. -/
theorem Listed.onOrdersReply {view : SalesView qt.Double} (h : Listed view) (p : Platform)
    (now : UtcTime) (d : Db e) :
    Acts view.invoicePreview (view.onOrdersReply qt (salesOrdersReply p now d), []) := by
  obtain ⟨orders, hsignal, hids⟩ := salesOrdersList_reply p now d
  have hrefill := refilled_applyFilters { view with
    model.orders := orders
    allOrders := orders }
  have heq : view.onOrdersReply qt (salesOrdersReply p now d) =
      applyInvoicesFilter (applyOrdersFilter { view with
        model.orders := orders
        allOrders := orders }) := by
    rw [SalesView.onOrdersReply, hsignal]
    rfl
  rw [heq]
  exact ⟨Listed.refilled hrefill rfl hids h.lastOrderId, fun _ ho => absurd ho List.not_mem_nil,
    hrefill.invoicePreview⟩

/-- **What the view does** besides taking replies with lines. -/
theorem Listed.act {view : SalesView qt.Double} (h : Listed view) (a : Action e) :
    Acts view.invoicePreview (view.act qt p now a) := by
  cases a with
  | selectOrder row => exact h.selectOrder row
  | selectInvoice row => exact h.selectInvoice row
  | ordersList d => exact h.onOrdersReply p now d
  | referenceData data => exact h.onReferenceDataChanged data
  | refreshCurrentRecords => exact h.refreshCurrentRecords

/-! ### Replies with lines -/

/-- The lines that a reply to a request by a key lists are lines of that order. -/
theorem orderId_of_mem_lines {a : Bytes} (ha : IsKey a) {d : Db e} {record : OrderRecord}
    (h : record ∈ OrderKind.sales.lines p a d) : record.orderId = a := by
  obtain ⟨n, hn, rfl⟩ := ha
  obtain ⟨r, hr, rfl⟩ := List.mem_map.mp h
  rw [listedRows, if_neg (decimal_ne_nil n)] at hr
  have hcell : r.2.orderId = p.cell (decimal n) := of_decide_eq_true (List.mem_filter.mp hr).2
  show r.2.orderId.toText = decimal n
  rw [hcell, p.cell_decimal hn]
  rfl

/-- The preview after a reply with lines. -/
theorem onReply_reply (qt : Qt) (p : Platform) (now : UtcTime) (view : SalesView qt.Double)
    (a : Bytes) (d : Db e) :
    view.onReply qt (OrderKind.sales.reply p now a d) = onOrderRecordsChanged qt { view with
      model.orderRecords := OrderKind.sales.lines p a d } := by
  have hrecords : (ApiManager.handleResponse .salesOrderRecord .get
      (OrderKind.sales.reply p now a d)).bind OrderKind.sales.orderRecordsList =
        some (OrderKind.sales.lines p a d) := OrderKind.sales.orderRecordsList_reply p now a d
  rw [onReply, hrecords]
  rfl

/-- While invoices are shown a reply brings up the preview of the selected one; otherwise it
leaves the preview. -/
theorem onReply_invoicePreview (qt : Qt) (p : Platform) (now : UtcTime)
    (view : SalesView qt.Double) (a : Bytes) (d : Db e) :
    (view.onReply qt (OrderKind.sales.reply p now a d)).invoicePreview =
      if view.recordsContext = .invoices then
        if view.invoiceOrdersTable.selectedOrderId = [] then none
        else SalesViewModel.buildInvoicePreview qt
          { view.model with orderRecords := OrderKind.sales.lines p a d }
          view.invoiceOrdersTable.selectedOrderId
      else view.invoicePreview := by
  rw [onReply_reply]
  obtain ⟨model, all, current, context, table, lines, invoices, invoiceLines, preview⟩ := view
  cases context <;> rfl

/-- Every line of the invoice that is shown, and so every amount in its total, is from a line of
its order. -/
def Unmixed {N : Type} (view : SalesView N) : Prop :=
  ∀ invoice, view.invoicePreview = some invoice →
    ∀ line ∈ invoice.lines, line.record.orderId = invoice.orderId

/-- A reply that arrives while the invoice of an order is shown answers a request for the lines
of that order, or of one without lines. -/
def RepliesMatch (p : Platform) {N : Type} (s : SalesView N × List Bytes) :
    Exchange.Event (Action e) (Db e) → Prop
  | .act _ => True
  | .deliver i d => s.1.recordsContext = .invoices →
      s.1.invoiceOrdersTable.selectedOrderId ≠ [] → ∀ a, s.2[i]? = some a →
        a = s.1.invoiceOrdersTable.selectedOrderId ∨ OrderKind.sales.lines p a d = []

/-- A preview of lines shows them under the order it is for. -/
theorem buildInvoicePreview_lines {model : SalesModel} {orderId : Bytes}
    {invoice : Invoice qt.Double}
    (h : SalesViewModel.buildInvoicePreview qt model orderId = some invoice) :
    invoice.orderId = orderId ∧
      invoice.lines.map InvoiceLine.record = model.orderRecords := by
  obtain ⟨order, horder, rfl⟩ := Option.map_eq_some_iff.mp h
  have hid : order.id = orderId := by simpa using List.find?_some horder
  constructor
  · exact hid
  · dsimp only
    rw [List.map_map]
    exact List.map_id _

/-- There is a preview of a listed order. -/
theorem exists_buildInvoicePreview {model : SalesModel} {order : SaleOrder}
    (h : order ∈ model.orders) :
    ∃ invoice, SalesViewModel.buildInvoicePreview qt model order.id = some invoice := by
  have hfound : (model.orders.find? fun x => x.id = order.id).isSome :=
    List.find?_isSome.mpr ⟨order, h, decide_eq_true rfl⟩
  obtain ⟨x, hx⟩ := Option.isSome_iff_exists.mp hfound
  exact ⟨_, congrArg _ hx⟩

/-- The selected order is listed, so there is a preview of it, whatever lines have arrived. -/
theorem Listed.exists_preview {view : SalesView qt.Double} (h : Listed view)
    (hselected : view.invoiceOrdersTable.selectedOrderId ≠ []) (records : List OrderRecord) :
    ∃ invoice, SalesViewModel.buildInvoicePreview qt
      { view.model with orderRecords := records }
      view.invoiceOrdersTable.selectedOrderId = some invoice := by
  obtain hnil | ⟨order, horder, hid⟩ := selectedOrderId_cases view.invoiceOrdersTable
  · exact absurd hnil hselected
  · have hmem : order ∈ SalesModel.orders { view.model with orderRecords := records } := by
      rwa [← h.invoiceOrdersTable]
    rw [hid]
    exact exists_buildInvoicePreview hmem

/-- A reply keeps the invoices unmixed exactly if it matches. -/
theorem unmixed_onReply_iff {view : SalesView qt.Double} (hlisted : Listed view)
    (h : view.Unmixed) {a : Bytes} (ha : IsKey a) (d : Db e) :
    (view.onReply qt (OrderKind.sales.reply p now a d)).Unmixed ↔
      (view.recordsContext = .invoices → view.invoiceOrdersTable.selectedOrderId ≠ [] →
        a = view.invoiceOrdersTable.selectedOrderId ∨ OrderKind.sales.lines p a d = []) := by
  rw [Unmixed, onReply_invoicePreview]
  by_cases hcontext : view.recordsContext = .invoices
  · rw [if_pos hcontext]
    by_cases hselected : view.invoiceOrdersTable.selectedOrderId = []
    · -- nothing is selected, and the preview is cleared
      rw [if_pos hselected]
      exact ⟨fun _ _ hne => absurd hselected hne, fun _ _ hnone => by cases hnone⟩
    · rw [if_neg hselected]
      constructor
      · intro hunmixed _ _
        obtain ⟨invoice, hinvoice⟩ :=
          hlisted.exists_preview hselected (OrderKind.sales.lines p a d)
        have hlines := hunmixed invoice hinvoice
        obtain ⟨horderId, hrecords⟩ := buildInvoicePreview_lines hinvoice
        by_cases hempty : OrderKind.sales.lines p a d = []
        · exact Or.inr hempty
        · -- a line that arrived is shown, and carries both orders
          obtain ⟨record, hrecord⟩ := List.exists_mem_of_ne_nil _ hempty
          have hshown : record ∈ invoice.lines.map InvoiceLine.record := by rwa [hrecords]
          obtain ⟨line, hline, rfl⟩ := List.mem_map.mp hshown
          refine Or.inl ?_
          rw [← orderId_of_mem_lines ha hrecord, hlines line hline, horderId]
      · -- the lines that arrived are those of the order that is shown
        intro hmatch invoice hinvoice line hline
        obtain ⟨horderId, hrecords⟩ := buildInvoicePreview_lines hinvoice
        have hrecord : line.record ∈ OrderKind.sales.lines p a d := by
          have hmem := List.mem_map_of_mem (f := InvoiceLine.record) hline
          rwa [hrecords] at hmem
        obtain heq | hempty := hmatch hcontext hselected
        · rw [orderId_of_mem_lines ha hrecord, heq, horderId]
        · rw [hempty] at hrecord
          cases hrecord
  · -- lines that were asked for on the page of orders leave the preview
    rw [if_neg hcontext]
    exact ⟨fun _ hctx => absurd hctx hcontext, fun _ => h⟩

theorem Listed.onReply {view : SalesView qt.Double} (h : Listed view) (a : Bytes) (d : Db e) :
    Listed (view.onReply qt (OrderKind.sales.reply p now a d)) := by
  rw [onReply_reply]
  have hlisted : Listed { view with
      model.orderRecords := OrderKind.sales.lines p a d
      currentRecords := OrderKind.sales.lines p a d } :=
    ⟨h.allOrders, h.ordersTable, h.invoiceOrdersTable, h.ids, h.lastOrderId⟩
  exact hlisted.showRecords

/-! ### Runs -/

/-- The orders are listed, and the requests in flight name keys. -/
def Requesting {N : Type} (s : SalesView N × List Bytes) : Prop :=
  Listed s.1 ∧ ∀ a ∈ s.2, IsKey a

/-- Every request in flight names an order by its key. -/
theorem Requesting.step {s : SalesView qt.Double × List Bytes} (h : Requesting s)
    (ev : Exchange.Event (Action e) (Db e)) :
    Requesting ((machine qt p now e).step s ev).2 := by
  obtain ⟨hlisted, hkeys⟩ := h
  obtain ⟨a, -, heq⟩ | ⟨i, d, -, -, heq⟩ | ⟨i, d, -, hi, heq⟩ :=
    (exchange qt p now e).step_cases s ev
  · rw [machine, heq]
    have hacts : Acts s.1.invoicePreview (s.1.act qt p now a) := hlisted.act a
    refine ⟨hacts.listed, ?_⟩
    intro o ho
    exact (List.mem_append.mp ho).elim (hkeys o) (hacts.requests o)
  · rw [machine, heq]
    exact ⟨hlisted, hkeys⟩
  · rw [machine, heq]
    refine ⟨hlisted.onReply s.2[i] d, ?_⟩
    -- a reply sends no request
    intro o ho
    have hmem : o ∈ s.2.eraseIdx i := (List.mem_append.mp ho).resolve_right List.not_mem_nil
    exact hkeys o (List.mem_of_mem_eraseIdx hmem)

/-- A step keeps the invoice that is shown unmixed exactly if the reply it takes matches. -/
theorem unmixed_step_iff {s : SalesView qt.Double × List Bytes} (h : Requesting s)
    (hunmixed : s.1.Unmixed) (ev : Exchange.Event (Action e) (Db e)) :
    ((machine qt p now e).step s ev).2.1.Unmixed ↔ RepliesMatch p s ev := by
  obtain ⟨a, rfl, heq⟩ | ⟨i, d, rfl, hnone, heq⟩ | ⟨i, d, rfl, hi, heq⟩ :=
    (exchange qt p now e).step_cases s ev
  · rw [machine, heq]
    have hacts : Acts s.1.invoicePreview (s.1.act qt p now a) := h.1.act a
    -- an action leaves the invoice that is shown, or clears it
    refine ⟨fun _ => trivial, fun _ invoice hinvoice => ?_⟩
    have hinvoice : (s.1.act qt p now a).1.invoicePreview = some invoice := hinvoice
    obtain hkept | hcleared := hacts.invoicePreview
    · exact hunmixed invoice (hkept ▸ hinvoice)
    · rw [hcleared] at hinvoice
      cases hinvoice
  · rw [machine, heq]
    -- no such request is in flight, so nothing arrives
    refine ⟨fun _ _ _ a ha => ?_, fun _ => hunmixed⟩
    rw [hnone] at ha
    cases ha
  · rw [machine, heq]
    have hget : s.2[i]? = some s.2[i] := List.getElem?_eq_getElem hi
    have hiff := @unmixed_onReply_iff e qt p now s.1 h.1 hunmixed s.2[i]
      (h.2 _ (List.getElem_mem hi)) d
    refine hiff.trans ⟨fun hmatch hcontext hselected a ha => ?_,
      fun hmatch hcontext hselected => hmatch hcontext hselected _ hget⟩
    rw [hget] at ha
    rw [← Option.some.inj ha]
    exact hmatch hcontext hselected

/-- **Invoices list lines of their order.** In all states of a run every line of the invoice that
is shown, and so every amount in its total, is from a line of its order, exactly if every reply
that arrives while an invoice is shown matches its order. -/
theorem invoice_unmixed_iff (qt : Qt) (p : Platform) (now : UtcTime)
    (es : List (Exchange.Event (Action e) (Db e))) :
    (∀ is, is <+: es →
      ((machine qt p now e).run (machine qt p now e).init is).1.Unmixed) ↔
        (machine qt p now e).Along (RepliesMatch p) (machine qt p now e).init es := by
  have hinit : Requesting (machine qt p now e).init := by
    refine ⟨⟨rfl, rfl, rfl, ?_, Or.inl rfl⟩, ?_⟩
    · intro order horder
      cases horder
    · intro a ha
      cases ha
  have hrequesting (is : List (Exchange.Event (Action e) (Db e))) :
      Requesting ((machine qt p now e).run (machine qt p now e).init is) :=
    Machine.run_invariant (fun _ ev h => h.step ev) hinit is
  constructor
  · intro hall
    refine Machine.along_of_prefixes _ fun is ev hprefixes => ?_
    have hbefore := hall is ((List.prefix_append is [ev]).trans hprefixes)
    have hafter := hall (is ++ [ev]) hprefixes
    rw [Machine.run_append] at hafter
    exact (unmixed_step_iff (hrequesting is) hbefore ev).mp hafter
  · intro halong is his
    -- the invariant of the run is that the requests are by keys and the invoice is unmixed
    have hinv := Machine.Along.invariant (M := machine qt p now e) (G := RepliesMatch p)
      (I := fun s => Requesting s ∧ s.1.Unmixed)
      (fun s ev h hmatch => ⟨h.1.step ev, (unmixed_step_iff h.1 h.2 ev).mpr hmatch⟩)
      ⟨hinit, fun _ hnone => by cases hnone⟩ (Machine.along_initial _ halong his)
    exact hinv.2

/-- The first invoice is selected and then the second, which has no lines, and the reply for the
first arrives. -/
def laterSelection : List (Exchange.Event (Action .full) (Db .full)) :=
  [.act (.ordersList secondOrder), .act (.selectInvoice (some 0)),
    .act (.selectInvoice (some 1)), .deliver 0 secondOrder]

/-- Replies in the order of the requests mix the lines of two orders. -/
theorem invoice_mixed :
    ¬ ∀ (qt : Qt) (p : Platform) (now : UtcTime)
      (es : List (Exchange.Event (Action .full) (Db .full))), (∀ ev ∈ es, ev.InOrder) →
      ((machine qt p now .full).run (machine qt p now .full).init es).1.Unmixed := by
  intro h
  have hinOrder : ∀ ev ∈ laterSelection, ev.InOrder := by
    intro ev hev
    simp only [laterSelection, List.mem_cons, List.not_mem_nil, or_false] at hev
    obtain rfl | rfl | rfl | rfl := hev
    · trivial
    · trivial
    · trivial
    · exact rfl
  have hmixed := h .plain .plain noon laterSelection hinOrder
  -- the invoice of the second order shows the line of the first
  have hpreview : (((machine .plain .plain noon .full).run (machine .plain .plain noon .full).init
      laterSelection).1.invoicePreview.map fun invoice =>
        (invoice.orderId, invoice.lines.map fun line => line.record.orderId)) =
      some (utf8 "2", [utf8 "1"]) := by decide +kernel
  obtain ⟨invoice, hinvoice, hshown⟩ := Option.map_eq_some_iff.mp hpreview
  have horder : invoice.orderId = utf8 "2" := congrArg Prod.fst hshown
  have hmem : utf8 "1" ∈ invoice.lines.map fun line => line.record.orderId := by
    rw [show invoice.lines.map (fun line => line.record.orderId) = [utf8 "1"] from
      congrArg Prod.snd hshown]
    exact List.mem_cons_self
  obtain ⟨line, hline, hid⟩ := List.mem_map.mp hmem
  have hsame := hmixed invoice hinvoice line hline
  rw [hid, horder] at hsame
  exact absurd hsame (by decide)

end SalesView

end SageStore
