import SageStore.Properties.Frame
import SageStore.Properties.Receivable

/-!
# Receiving an order, end to end

A receipt succeeds exactly when the order is `Receivable`, and then every product on its lines has
one stock row, in which the stock is raised by what the lines carry. The order is written back as
a whole: its status is new, its user and its supplier are what they were, and its date is bound
again as the text that it was read back as.

SQLite gives a number back with 15 digits, and a number with a fraction may be given back in the
spelling of a whole one, which the column then converts. So the receipt keeps all fields of the
order but the status if and only if the date is stored again as it is read (`receipt_exact_iff`).
-/

namespace SageStore

open Bytes Program BusinessLogic

variable {e : Enforcement} {p : Platform} {now : UtcTime} {req : RequestData} {d d' : Db e}

/-- What the receipt of an order by an employee is to leave: the stock of each product on the lines
in one row, and the order `Received`; all other rows are what they were, and only the log has a
new one. -/
structure Posted (d : Db e) (order employee : ℕ) (d' : Db e) : Prop where
  stock : ∀ n : ℕ, IsOrdered d order n →
    ∃ i, ((d' .inventory).rows.filter fun r => r.2.productTypeId = .int n) =
      [(i, ⟨.int n, .int (stockOf d n + carried (purchaseLines d (.int order)) n),
        .int employee⟩)]
  otherStock : ∀ r : ℕ × InventoryRow, (∀ n : ℕ, IsOrdered d order n → r.2.productTypeId ≠ .int n) →
    (r ∈ (d' .inventory).rows ↔ r ∈ (d .inventory).rows)
  orders : ∀ i x, (i, x) ∈ (d' .purchaseOrder).rows ↔
    ∃ x₀, (i, x₀) ∈ (d .purchaseOrder).rows ∧
      x = if i = order then { x₀ with status := utf8 "Received" } else x₀
  others : ∀ t, t ≠ .inventory → t ≠ .purchaseOrder → t ≠ .log → d' t = d t

/-- A receipt is exact: it succeeds if and only if the order is receivable, and is then posted. -/
def ReceiptExact (d : Db e) (order employee : ℕ) (reply : ResponseData) (d' : Db e) : Prop :=
  (utf8 "error" ∉ reply.dataset ↔ Receivable d order employee) ∧
    (utf8 "error" ∉ reply.dataset → Posted d order employee d')

/-- The date of the order is stored again as it is read. -/
def DateKept (p : Platform) (d : Db e) (order : ℕ) : Prop :=
  ∀ x, (order, x) ∈ (d .purchaseOrder).rows → p.sqlite.numeric (cstr x.date) = x.date

/-! ### The stock -/

namespace PurchaseModule

section Stock

variable {order employee : ℕ}

/-- A product on the lines has one stock row after the receipt, with the new stock. -/
theorem ReceivesBy.stock (h : ReceivesBy p d (.int order) (.int employee) d')
    (hdistinct : (d .inventory).Distinct InventoryRow.productTypeId) {n : ℕ}
    (hn : IsOrdered d order n) :
    ∃ i, ((d' .inventory).rows.filter fun r => r.2.productTypeId = .int n) =
      [(i, ⟨.int n, .int (stockOf d n + carried (purchaseLines d (.int order)) n),
        .int employee⟩)] := by
  obtain ⟨plan, hplan, hstock⟩ := h.postings
  have hdistinct' : (d' .inventory).Distinct InventoryRow.productTypeId := by
    rw [hstock]
    exact distinct_postings _ plan hdistinct hplan.nodup hplan.finds
  -- the posting of the product has written the row that is found for it
  obtain ⟨m, hm, rfl⟩ := List.mem_map.mp ((hplan.covers n).mpr hn)
  obtain ⟨i, hrow⟩ := (stockRow_postings (.int employee) plan hplan.nodup hplan.finds).1 m hm
  rw [← hstock] at hrow
  obtain ⟨hr, hproduct⟩ := stockRow_some hrow
  refine ⟨i, ?_⟩
  rw [← hplan.quantity m hm]
  refine Table.filter_eq_singleton hr (decide_eq_true hproduct) fun r' hr' hq => ?_
  exact Table.eq_of_mem hr' hr (hdistinct' r' hr' _ hr ((of_decide_eq_true hq).trans hproduct.symm))

/-- The stock rows of other products are what they were. -/
theorem ReceivesBy.otherStock (h : ReceivesBy p d (.int order) (.int employee) d')
    {r : ℕ × InventoryRow} (hr : ∀ n : ℕ, IsOrdered d order n → r.2.productTypeId ≠ .int n) :
    r ∈ (d' .inventory).rows ↔ r ∈ (d .inventory).rows := by
  obtain ⟨plan, hplan, hstock⟩ := h.postings
  have hordered {m : Posting} (hm : m ∈ plan) : IsOrdered d order m.product :=
    (hplan.covers m.product).mp (List.mem_map_of_mem hm)
  rw [hstock]
  constructor
  · intro hmem
    rcases mem_postings plan hmem with hmem | ⟨m, hm, heq⟩
    · exact hmem
    · exact absurd (by rw [heq]) (hr m.product (hordered hm))
  · intro hmem
    refine mem_postings_of_mem plan hmem fun m hm hrow => ?_
    -- a posting that names the row has found it under a product on the lines
    obtain ⟨r', hr', hkey, hproduct⟩ := (hplan.finds m hm).mem hrow
    obtain rfl := Table.eq_of_mem hr' hmem hkey
    exact hr m.product (hordered hm) hproduct

/-- What a receipt has posted could be posted. -/
theorem ReceivesBy.receivable (h : ReceivesBy p d (.int order) (.int employee) d') :
    Receivable d order employee where
  hasEmployee := h.hasEmployee
  isOpen := by
    obtain ⟨o, ho, hkey, hopen, -⟩ := h.receives.received
    exact ⟨o, ho, hkey, hopen⟩
  hasLines := h.hasLines
  fits n hn := by
    obtain ⟨plan, hplan, -⟩ := h.postings
    obtain ⟨m, hm, rfl⟩ := List.mem_map.mp ((hplan.covers n).mpr hn)
    have hquantity := hplan.quantity m hm
    have hlt := hplan.fits m hm
    omega

end Stock

end PurchaseModule

/-! ### The order -/

section Order

variable {d d' : Db .full} {order employee : ℕ}

/-- The order is written back with its status changed and its date bound again. -/
theorem Receives.mem_orders (h : Receives p d (.int order) d') (hrefer : OrdersRefer d) {i : ℕ}
    {x : PurchaseOrderRow} : (i, x) ∈ (d' .purchaseOrder).rows ↔
      ∃ x₀, (i, x₀) ∈ (d .purchaseOrder).rows ∧ x = if i = order then
        { x₀ with date := p.sqlite.numeric (cstr x₀.date), status := utf8 "Received" } else x₀ := by
  obtain ⟨o, ho, hkey, -, hwritten⟩ := h.received
  obtain ⟨i₀, x₁⟩ := o
  obtain rfl : i₀ = order := by simpa using hkey
  obtain ⟨huser, hsupplier⟩ := hrefer.cells (p := p) ho
  rw [hwritten, Table.mem_update, huser, hsupplier]
  constructor
  · -- a row of the new table is an old one under another key, or the one that is written
    rintro (⟨hx, hne⟩ | ⟨heq, rfl, -⟩)
    · have hne : i ≠ i₀ := by simpa using hne
      exact ⟨x, hx, (if_neg hne).symm⟩
    · obtain rfl : i = i₀ := by simpa using heq
      exact ⟨x₁, ho, (if_pos rfl).symm⟩
  · rintro ⟨x₀, hx₀, rfl⟩
    by_cases hi : i = i₀
    · -- the key names one order
      subst hi
      obtain rfl : x₀ = x₁ := congrArg Prod.snd (Table.eq_of_mem hx₀ ho rfl)
      exact Or.inr ⟨rfl, if_pos rfl, _, ho, rfl⟩
    · rw [if_neg hi]
      exact Or.inl ⟨hx₀, by simpa using hi⟩

/-- The fields of the order but the status are kept exactly when its date is. -/
theorem Receives.orders_iff (h : Receives p d (.int order) d') (hrefer : OrdersRefer d) :
    (∀ i x, (i, x) ∈ (d' .purchaseOrder).rows ↔ ∃ x₀, (i, x₀) ∈ (d .purchaseOrder).rows ∧
        x = if i = order then { x₀ with status := utf8 "Received" } else x₀) ↔
      DateKept p d order := by
  constructor
  · intro hkept x hx
    -- both descriptions of the written row are right
    have hrow : (order, { x with status := utf8 "Received" }) ∈ (d' .purchaseOrder).rows :=
      (hkept order _).mpr ⟨x, hx, (if_pos rfl).symm⟩
    have hrow' :
        (order, { x with date := p.sqlite.numeric (cstr x.date), status := utf8 "Received" }) ∈
          (d' .purchaseOrder).rows :=
      (h.mem_orders hrefer).mpr ⟨x, hx, (if_pos rfl).symm⟩
    have heq := congrArg Prod.snd (Table.eq_of_mem hrow' hrow rfl)
    exact congrArg PurchaseOrderRow.date heq
  · intro hdate i x
    refine (h.mem_orders hrefer).trans (exists_congr fun x₀ => and_congr_right fun hx₀ => ?_)
    by_cases hi : i = order
    · subst hi
      rw [if_pos rfl, if_pos rfl, hdate x₀ hx₀]
    · rw [if_neg hi, if_neg hi]

/-- What is posted of a receipt but the fields of its order does not depend on the date. -/
theorem PurchaseModule.ReceivesBy.posted_iff {d₁ : Db .full}
    (h : ReceivesBy p d (.int order) (.int employee) d₁)
    (hdistinct : (d .inventory).Distinct InventoryRow.productTypeId) (hrefer : OrdersRefer d)
    (hsame : ∀ t, t ≠ .log → d' t = d₁ t) :
    Posted d order employee d' ↔ DateKept p d order := by
  rw [← h.receives.orders_iff hrefer, ← hsame .purchaseOrder (by decide)]
  constructor
  · intro hposted
    exact hposted.orders
  · intro horders
    exact
      { stock := fun n hn => by
          rw [hsame .inventory (by decide)]
          exact h.stock hdistinct hn
        otherStock := fun r hr => by
          rw [hsame .inventory (by decide)]
          exact h.otherStock hr
        orders := horders
        others := fun t hstock horder hlog => by
          rw [hsame t hlog, h.receives.others t hstock horder] }

end Order

/-! ### The request -/

section Request

variable {order employee : ℕ}

/-- The server hands a receipt to the purchase module. -/
theorem moduleTask_receipt (p : Platform) (hreq : req.PostsReceipt) :
    (moduleTask p req : Task e ResponseData) =
      (do PurchaseModule.receiveOrder p req.dataset; pure .empty) := by
  obtain ⟨hmodule, hsub, hmethod⟩ := hreq
  rw [moduleTask_purchase p hmodule, PurchaseModule.executeTask, if_neg (by rw [hsub]; decide),
    if_neg (by rw [hsub]; decide), if_pos hsub, if_pos hmethod]

/-- An accepted receipt has posted the order. -/
theorem receivesBy_of_accepted {s : Session (Db e) Exception} (hwf : WellFormed s.store)
    (hreq : req.PostsReceipt) (horder : HoldsKey req.dataset "id" order)
    (hemployee : HoldsKey req.dataset "employeeId" employee)
    (hreply : utf8 "error" ∉ (executeTask p now req s).1.dataset) :
    ∃ d₁, PurchaseModule.ReceivesBy p s.store (.int order) (.int employee) d₁ ∧
      ∀ t, t ≠ .log → (executeTask p now req s).2.store t = d₁ t := by
  have hmodule : Outcome Exception.IsUtf8 s.store (moduleTask p req) (fun _ d' =>
      PurchaseModule.ReceivesBy p s.store (.int order) (.int employee) d') fun _ => False := by
    rw [moduleTask_receipt p hreq, ← horder.cell (p := p), ← hemployee.cell (p := p)]
    exact Outcome.bindPure (PurchaseModule.receiveOrder_receivesBy hwf req.dataset)
  exact executeTask_accepted hmodule hreply

/-- The receipt of a receivable order is accepted, while no call fails. -/
theorem executeTask_receivable {d : Db .full} (hwf : WellFormed d) (hknown : StatusesKnown d)
    (hrefer : OrdersRefer d) (hdistinct : (d .inventory).Distinct InventoryRow.productTypeId)
    (hreq : req.PostsReceipt) (horder : HoldsKey req.dataset "id" order)
    (hemployee : HoldsKey req.dataset "employeeId" employee)
    (hkeys : (d .inventory).KeysLeft (newStocks d order)) (h : Receivable d order employee) :
    (executeTask p now req ⟨d, none, []⟩).1 = .empty := by
  obtain ⟨_, d', hrun, -⟩ := PurchaseModule.receiveOrder_completes (p := p) hwf hknown hrefer
    hdistinct horder hemployee hkeys h
  have hmodule : (moduleTask p req).exec ⟨d, none, []⟩ = (.ok .empty, ⟨d', none, []⟩) := by
    rw [moduleTask_receipt p hreq, exec_bind_ok hrun]
    rfl
  exact executeTask_of_ok p now hmodule

/-- **A receipt from end to end.** In every reachable state, for every receipt of an order by an
employee, while no call fails (and the engine has a key for each stock row that is new, without
which an insertion fails): it succeeds if and only if the order is receivable. Then every
product on the lines has exactly one stock row, with the old stock and what the lines carry and
for the employee, the order is `Received` with its other fields kept, and nothing else changes but
the log: this, with the first equivalence, is so if and only if the order is not receivable, or
its date is stored again as it is read. -/
theorem receipt_exact_iff (p : Platform) {s : Session (Db .full) Exception}
    (hs : (server p .full).Reachable s) (now : UtcTime) {req : RequestData}
    (hreq : req.PostsReceipt) (horder : HoldsKey req.dataset "id" order)
    (hemployee : HoldsKey req.dataset "employeeId" employee)
    (hkeys : (s.store .inventory).KeysLeft (newStocks s.store order)) :
    let step := (server p .full).step s ⟨now, req, []⟩
    (utf8 "error" ∉ step.1.dataset ↔ Receivable s.store order employee) ∧
      (ReceiptExact s.store order employee step.1 step.2.store ↔
        (Receivable s.store order employee → DateKept p s.store order)) := by
  intro step
  obtain ⟨hwf, hsnap⟩ := Server.wellFormed hs
  have hknown := Server.statusesKnown hs
  have hrefer := Server.ordersRefer hs
  have hdistinct := Server.stock_products hs
  -- what an accepted receipt has done, and that a receivable order is accepted
  have hby : utf8 "error" ∉ step.1.dataset → ∃ d₁,
      PurchaseModule.ReceivesBy p s.store (.int order) (.int employee) d₁ ∧
        ∀ t, t ≠ .log → step.2.store t = d₁ t :=
    receivesBy_of_accepted (s := { s with faults := [] }) hwf hreq horder hemployee
  have hok : Receivable s.store order employee → utf8 "error" ∉ step.1.dataset := by
    intro h
    have hstart : (⟨s.store, none, []⟩ : Session (Db .full) Exception) =
        { s with faults := [] } := by rw [← hsnap]
    have hreply : step.1 = .empty := by
      refine (congrArg (fun s => (executeTask p now req s).1) hstart.symm).trans ?_
      exact executeTask_receivable hwf hknown hrefer hdistinct hreq horder hemployee hkeys h
    rw [hreply]
    exact Finmap.notMem_empty
  have hiff : utf8 "error" ∉ step.1.dataset ↔ Receivable s.store order employee := by
    refine ⟨fun hreply => ?_, hok⟩
    obtain ⟨d₁, hd₁, -⟩ := hby hreply
    exact hd₁.receivable
  refine ⟨hiff, ?_⟩
  -- of what is posted, only the date of the order is in question
  constructor
  · rintro ⟨-, hposted⟩ h
    obtain ⟨d₁, hd₁, hsame⟩ := hby (hok h)
    exact (hd₁.posted_iff hdistinct hrefer hsame).mp (hposted (hok h))
  · intro hdate
    refine ⟨hiff, fun hreply => ?_⟩
    obtain ⟨d₁, hd₁, hsame⟩ := hby hreply
    exact (hd₁.posted_iff hdistinct hrefer hsame).mpr (hdate (hiff.mp hreply))

end Request

/-- The receipt of the first order by the first employee names both by their keys. -/
theorem receiptOfFirstOrder_holds : receiptOfFirstOrder.request.PostsReceipt ∧
    HoldsKey receiptOfFirstOrder.request.dataset "id" 1 ∧
    HoldsKey receiptOfFirstOrder.request.dataset "employeeId" 1 :=
  ⟨by decide, ⟨by decide, by decide, by decide, by decide⟩,
    ⟨by decide, by decide, by decide, by decide⟩⟩

/-- The receipt of the order of the initial setup is exact. -/
theorem receipt_exact_iff_firstOrder :
    let s := (server .plain .full).init
    let step := (server .plain .full).step s ⟨noon, receiptOfFirstOrder.request, []⟩
    ReceiptExact s.store 1 1 step.1 step.2.store := by
  obtain ⟨hpost, horder, hemployee⟩ := receiptOfFirstOrder_holds
  have hdates : ∀ o ∈ ((server .plain .full).init.store .purchaseOrder).rows,
      cstr o.2.date = o.2.date := by decide +kernel
  have hkept : DateKept .plain (server .plain .full).init.store 1 :=
    fun x hx => hdates (1, x) hx
  exact (receipt_exact_iff .plain (server .plain .full).reachable_init noon hpost horder
    hemployee (by decide +kernel)).2.mpr fun _ => hkept

/-! ### A date that is not kept -/

theorem ascii_of_all {t : Bytes} (h : (t.all fun b => b.toNat < 128) = true) :
    ∀ b ∈ t, b.toNat < 128 :=
  fun b hb => of_decide_eq_true (List.all_eq_true.mp h b hb)

/-- SQLite, also on a time in microseconds with a fraction: the column keeps a number, which is
given back with 15 digits; and the text that is given back denotes a whole number. -/
def Sqlite.rounding : Sqlite :=
  { Sqlite.digits with
    numeric := fun t =>
      if t = utf8 "1708300800123456.5" then "1.70830080012346e+15"
      else if t = utf8 "1.70830080012346e+15" then "1708300800123460"
      else t
    numeric_renders := by
      intro t
      split
      · exact Or.inr (ascii_of_all (by decide))
      · split
        · exact Or.inr (ascii_of_all (by decide))
        · exact Or.inl rfl }

/-- The platform with this SQLite. -/
def Platform.rounding : Platform := ⟨.rounding, .integers⟩

/-- An edit of the first order that dates it with a time in microseconds. -/
def dateInMicroseconds : Event :=
  .plain "purchase" "orders" "PUT" "1"
    [("date", "1708300800123456.5"), ("userId", "1"), ("supplierId", "1"), ("status", "Ordered")]

/-- The state after this edit. -/
def orderInMicroseconds : Session (Db .full) Exception :=
  (server .rounding .full).run (server .rounding .full).init [dateInMicroseconds]

/-- The receipt of this order is accepted, and changes its date. -/
theorem receipt_changes_date :
    let step := (server .rounding .full).step orderInMicroseconds
      ⟨noon, receiptOfFirstOrder.request, []⟩
    (server .rounding .full).Reachable orderInMicroseconds ∧
    receiptOfFirstOrder.request.PostsReceipt ∧
    HoldsKey receiptOfFirstOrder.request.dataset "id" 1 ∧
    HoldsKey receiptOfFirstOrder.request.dataset "employeeId" 1 ∧
    utf8 "error" ∉ step.1.dataset ∧
    (∃ o ∈ (orderInMicroseconds.store .purchaseOrder).rows,
      o.1 = 1 ∧ o.2.date = utf8 "1.70830080012346e+15") ∧
    (∀ o ∈ (step.2.store .purchaseOrder).rows, o.2.date = utf8 "1708300800123460") ∧
    ¬ ReceiptExact orderInMicroseconds.store 1 1 step.1 step.2.store := by
  intro step
  obtain ⟨hpost, horder, hemployee⟩ := receiptOfFirstOrder_holds
  have hreply : utf8 "error" ∉ step.1.dataset := by decide +kernel
  have hbefore : ∃ o ∈ (orderInMicroseconds.store .purchaseOrder).rows,
      o.1 = 1 ∧ o.2.date = utf8 "1.70830080012346e+15" := by decide +kernel
  have hafter : ∀ o ∈ (step.2.store .purchaseOrder).rows,
      o.2.date = utf8 "1708300800123460" := by decide +kernel
  refine ⟨⟨_, rfl⟩, hpost, horder, hemployee, hreply, hbefore, hafter, fun hexact => ?_⟩
  -- the row that the receipt is to leave has the date from before
  obtain ⟨⟨i, x⟩, hx, rfl, hdate⟩ := hbefore
  have hrow := ((hexact.2 hreply).orders 1 _).mpr ⟨x, hx, rfl⟩
  have hsame : x.date = utf8 "1708300800123460" := hafter _ hrow
  exact absurd (hdate.symm.trans hsame) (by decide)

end SageStore
