import Mathlib.Data.List.Find
import SageStore.Properties.PurchaseOrders

/-!
# The stock ledger

As long as nobody writes stock rows by hand, the stock of a product is what it was in the
initial setup, plus what the lines of the received orders carry (`stock_ledger`).

A receipt adds to both sides: it writes the plan of the order's lines (`stockOf_postings`),
and makes them lines of a received order. No other request changes either side, because
stock rows are not written, orders do not become received, and lines belong to open orders
when they are written (`lines_step`).
-/

namespace SageStore

open Bytes Program BusinessLogic

variable {e : Enforcement} {p : Platform} {now : UtcTime} {req : RequestData}
  {faults : List (Option Exception)} {d d' : Db e} {reply : ResponseData}

/-- A direct write to the stock rows. -/
def RequestData.WritesStock (req : RequestData) : Prop :=
  req.Addresses .inventory ∧ req.method ∈ [utf8 "POST", utf8 "PUT", utf8 "DELETE"]

instance (req : RequestData) : Decidable req.WritesStock :=
  inferInstanceAs (Decidable (_ ∧ _))

/-- The lines of the received orders. -/
def receivedLines (d : Db e) : List (ℕ × OrderRecordRow) :=
  (d .purchaseOrderRecord).rows.filter fun r => IsReceived d r.2.orderId

/-! ### The stock after a receipt -/

/-- The stock row of a product: the first one. -/
def stockRow (T : Table InventoryRow) (n : ℕ) : Option (ℕ × InventoryRow) :=
  T.rows.find? fun r => r.2.productTypeId = .int n

/-- The stock of a product is the quantity of its row, or nothing. -/
theorem stockOf_eq (d : Db e) (n : ℕ) :
    stockOf d n =
      ((stockRow (d .inventory) n).map fun r => r.2.quantityAvailable.toInt).getD 0 := by
  unfold stockOf stockRow
  split
  · next r hr => rw [hr]; rfl
  · next hr => rw [hr]; rfl

/-- A stock row that is found holds the product it was looked up by. -/
theorem stockRow_some {T : Table InventoryRow} {n : ℕ} {r : ℕ × InventoryRow}
    (h : stockRow T n = some r) : r ∈ T.rows ∧ r.2.productTypeId = .int n :=
  ⟨List.mem_of_find?_eq_some h, by simpa using List.find?_some h⟩

/-- A posting finds the key of the stock row of its product. -/
theorem Posting.finds_iff {T : Table InventoryRow} {m : Posting} :
    m.Finds T ↔ (stockRow T m.product).map Prod.fst = m.row := by
  obtain ⟨product, row, quantity⟩ := m
  cases row with
  | none => simp [Finds, stockRow]
  | some i => simp [Finds, stockRow]

/-- Replacing a stock row by one of the same product does not change which row is found. -/
theorem stockRow_update {T : Table InventoryRow} {r : ℕ × InventoryRow} {x : InventoryRow}
    (hr : r ∈ T.rows) (hx : x.productTypeId = r.2.productTypeId) (n : ℕ) :
    stockRow (T.update (.int r.1) x) n =
      (stockRow T n).map fun r' => if Cell.int r'.1 = .int r.1 then (r'.1, x) else r' := by
  unfold stockRow Table.update
  rw [List.find?_map]
  refine congrArg _ (List.find?_congr fun r' hr' => ?_)
  dsimp only [Function.comp_apply]
  split
  · next hkey => rw [Table.eq_of_mem_of_key hr' hr hkey rfl, hx]
  · rfl

/-- A posting leaves the stock rows of other products alone. -/
theorem Posting.stockRow_of_ne {T : Table InventoryRow} {m : Posting} {employee : Cell} {n : ℕ}
    (hfinds : m.Finds T) (hn : m.product ≠ n) :
    stockRow (m.apply employee T) n = stockRow T n := by
  obtain ⟨product, row, quantity⟩ := m
  cases row with
  | none =>
    -- the new row is about the posted product
    have hne : ¬ product = n := hn
    simp [apply, stockRow, List.find?_append, hne]
  | some i =>
    obtain ⟨r, hfound, rfl⟩ := hfinds
    obtain ⟨hr, hproduct⟩ := stockRow_some hfound
    refine (stockRow_update hr hproduct.symm n).trans ?_
    cases hrow : stockRow T n with
    | none => rfl
    | some r' =>
      -- a row of another product is not the row that is replaced
      obtain ⟨hr', hproduct'⟩ := stockRow_some hrow
      refine congrArg some (if_neg fun hkey => hn ?_)
      obtain rfl := Table.eq_of_mem_of_key hr' hr hkey rfl
      simpa using hproduct.symm.trans hproduct'

/-- A posting sets the stock of its product. -/
theorem Posting.stockRow_self (employee : Cell) {T : Table InventoryRow} {m : Posting}
    (hfinds : m.Finds T) : ∃ i, stockRow (m.apply employee T) m.product =
      some (i, ⟨.int m.product, .int m.quantity, employee⟩) := by
  obtain ⟨product, row, quantity⟩ := m
  cases row with
  | none =>
    have hnone : T.rows.find? (fun r => r.2.productTypeId = .int product) = none :=
      List.find?_eq_none.mpr fun r hr => by simpa using hfinds r hr
    exact ⟨T.seq + 1, by simp [apply, stockRow, List.find?_append, hnone]⟩
  | some i =>
    obtain ⟨r, hfound, rfl⟩ := hfinds
    obtain ⟨hr, hproduct⟩ := stockRow_some hfound
    refine ⟨r.1, (stockRow_update hr hproduct.symm product).trans ?_⟩
    rw [show stockRow T product = some r from hfound]
    exact congrArg some (if_pos rfl)

/-- A posting still finds its row when another product was posted before it. -/
theorem Posting.Finds.apply {T : Table InventoryRow} {m m' : Posting} {employee : Cell}
    (hm : m.Finds T) (hm' : m'.Finds T) (hne : m.product ≠ m'.product) :
    m'.Finds (m.apply employee T) := by
  rw [finds_iff, stockRow_of_ne hm hne]
  exact finds_iff.mp hm'

/-- **The stock after a receipt**: a posted product has the posted quantity, and every other
product the stock it had. -/
theorem stockRow_postings (employee : Cell) (plan : List Posting) {T : Table InventoryRow}
    (hnodup : (plan.map Posting.product).Nodup) (hfinds : ∀ m ∈ plan, m.Finds T) :
    (∀ m ∈ plan, ∃ i, stockRow (plan.foldl (Posting.apply employee) T) m.product =
        some (i, ⟨.int m.product, .int m.quantity, employee⟩)) ∧
      ∀ n ∉ plan.map Posting.product,
        stockRow (plan.foldl (Posting.apply employee) T) n = stockRow T n := by
  induction plan generalizing T with
  | nil => exact ⟨by simp, fun _ _ => rfl⟩
  | cons m plan ih =>
    obtain ⟨hnotin, hnodup⟩ := List.nodup_cons.mp hnodup
    have hm := hfinds m List.mem_cons_self
    have hne {m' : Posting} (hm' : m' ∈ plan) : m.product ≠ m'.product :=
      fun heq => hnotin (heq ▸ List.mem_map_of_mem hm')
    -- the later postings are about other products, so they find their rows as before
    obtain ⟨hin, hout⟩ := ih (T := m.apply employee T) hnodup fun m' hm' =>
      hm.apply (hfinds m' (List.mem_cons_of_mem _ hm')) (hne hm')
    refine ⟨fun m' hm' => ?_, fun n hn => ?_⟩
    · rcases List.mem_cons.mp hm' with rfl | hm'
      · obtain ⟨i, hi⟩ := Posting.stockRow_self employee hm
        exact ⟨i, (hout _ hnotin).trans hi⟩
      · exact hin m' hm'
    · rw [List.map_cons, List.mem_cons, not_or] at hn
      exact (hout n hn.2).trans (Posting.stockRow_of_ne hm (Ne.symm hn.1))

/-- A receipt raises the stock of every product by what the order's lines carry. -/
theorem Receives.stockOf_eq {order : Cell} (h : Receives p d order d') (n : ℕ) :
    stockOf d' n = stockOf d n + carried (purchaseLines d order) n := by
  obtain ⟨employee, plan, hplan, hstock⟩ := h.stock
  obtain ⟨hin, hout⟩ := stockRow_postings (.int employee) plan hplan.nodup hplan.finds
  rw [SageStore.stockOf_eq d', hstock]
  by_cases hn : n ∈ plan.map Posting.product
  · -- the posted quantity is the old stock plus what the lines carry
    obtain ⟨m, hm, rfl⟩ := List.mem_map.mp hn
    obtain ⟨i, hi⟩ := hin m hm
    rw [hi, ← hplan.quantity m hm]
    rfl
  · -- no line of the order is about the product
    have hnone : carried (purchaseLines d order) n = 0 :=
      carried_eq_zero fun r hr heq => hn ((hplan.covers n).mpr ⟨r, hr, heq⟩)
    rw [hout n hn, hnone, add_zero, ← SageStore.stockOf_eq d]

/-! ### The lines of received orders -/

/-- Without a receipt, received orders stay the same, and so do their lines. -/
theorem receivedLines_step (h : ∀ t, TableStep p now req d t (d' t))
    (hpost : ¬ req.PostsReceipt) : receivedLines d' = receivedLines d := by
  have hsame (order : Cell) : IsReceived d' order ↔ IsReceived d order :=
    ⟨fun ho => (isReceived_of_step (h _) ho).resolve_right fun hp => hpost hp.1,
      fun ho => ho.step (h _)⟩
  unfold receivedLines
  simp only [hsame]
  -- the lines that change are lines of open orders
  exact lines_step (h _) (q := fun c => IsReceived d c) fun _ hopen =>
    decide_eq_false hopen.not_isReceived

/-- What two disjoint selections of lines carry adds up. -/
theorem carried_filter_or {lines : List (ℕ × OrderRecordRow)} {q q' : ℕ × OrderRecordRow → Bool}
    (hdisjoint : ∀ r ∈ lines, q r = true → q' r = false) (n : ℕ) :
    carried (lines.filter fun r => q r || q' r) n =
      carried (lines.filter q) n + carried (lines.filter q') n := by
  induction lines with
  | nil => rfl
  | cons r lines ih =>
    have ih := ih fun r' hr' => hdisjoint r' (List.mem_cons_of_mem r hr')
    have hcons (rest : List (ℕ × OrderRecordRow)) :
        carried (r :: rest) n = carried [r] n + carried rest n := carried_append [r] rest n
    -- the first line goes to the first selection, to the second, or to neither
    cases hq : q r with
    | true =>
      have hq' := hdisjoint r List.mem_cons_self hq
      simp only [List.filter_cons, hq, hq', Bool.true_or, if_true, Bool.false_eq_true, if_false]
      rw [hcons, hcons (lines.filter q), ih, add_assoc]
    | false =>
      cases hq' : q' r with
      | true =>
        simp only [List.filter_cons, hq, hq', Bool.false_or, if_true, Bool.false_eq_true, if_false]
        rw [hcons, hcons (lines.filter q'), ih, add_left_comm]
      | false =>
        simpa only [List.filter_cons, hq, hq', Bool.or_false, Bool.false_eq_true, if_false] using ih

/-- A receipt adds the lines of its order to the lines of received orders. -/
theorem Receives.carried_receivedLines {order : Cell} (h : Receives p d order d') (n : ℕ) :
    carried (receivedLines d') n =
      carried (receivedLines d) n + carried (purchaseLines d order) n := by
  unfold receivedLines purchaseLines
  -- a line is received afterwards if it was, or if it is a line of this order, and not both
  rw [h.others _ (by decide) (by decide), ← carried_filter_or fun r _ hr => decide_eq_false ?_]
  · simp only [h.isReceived_iff, Bool.decide_or]
  · rintro rfl
    exact (h.isReceived_iff r.2.orderId).1 (of_decide_eq_true hr)

/-! ### The ledger -/

/-- Requests that are neither receipts nor direct writes leave the stock rows alone. -/
theorem inventory_step (h : TableStep p now req d .inventory (d' .inventory))
    (hpost : ¬ req.PostsReceipt) (hdirect : ¬ req.WritesStock) : d' .inventory = d .inventory := by
  generalize d' .inventory = T at h ⊢
  cases h with
  | same => rfl
  | insert _ x haddr hmethod => exact absurd ⟨haddr, by simp [hmethod]⟩ hdirect
  | update _ x haddr hmethod => exact absurd ⟨haddr, by simp [hmethod]⟩ hdirect
  | delete _ haddr hmethod => exact absurd ⟨haddr, by simp [hmethod]⟩ hdirect
  | receiveStock employee plan order hp => exact absurd hp hpost

/-- **One step of the ledger**: the stock of a product and what the lines of received orders
carry of it grow by the same. -/
theorem ledger_step (h : Step p now req faults d reply d') (hdirect : ¬ req.WritesStock) (n : ℕ) :
    stockOf d' n - carried (receivedLines d') n = stockOf d n - carried (receivedLines d) n := by
  by_cases hpost : req.PostsReceipt
  · cases h with
    | rejected ex hreply hex heq => rw [heq]
    | aborted ex hreply hfault habort =>
      -- a receipt is a `POST`, and only deletions are cut short
      exact absurd (hpost.2.2.symm.trans habort.isDelete) (by decide)
    | @accepted d₁ hans heffect haudit =>
      have hreceives := heffect.receives hpost
      -- the audit entry changes neither side
      have hstock : stockOf d' n = stockOf d₁ n := by
        rw [stockOf_eq, haudit.eq_of_ne (by decide), ← stockOf_eq]
      have hlines : receivedLines d' = receivedLines d₁ := by
        unfold receivedLines
        simp only [isReceived_congr (haudit.eq_of_ne (by decide)),
          haudit.eq_of_ne (show TableName.purchaseOrderRecord ≠ .log by decide)]
      rw [hstock, hlines, hreceives.stockOf_eq, hreceives.carried_receivedLines]
      ring
  · rw [stockOf_eq d', inventory_step (h.table _) hpost hdirect, ← stockOf_eq d,
      receivedLines_step h.table hpost]

/-- Before any request no order is received. -/
theorem receivedLines_seed : receivedLines (seed e) = [] := by
  refine List.filter_eq_nil_iff.mpr fun r _ hr => ?_
  obtain ⟨o, ho, -, hst⟩ := of_decide_eq_true hr
  have h : ∀ o ∈ (Table.ofRows (seedRows .purchaseOrder)).rows,
    o.2.status ≠ utf8 "Received" := by decide
  exact h o ho hst

/-- **The stock ledger.** After every run without direct writes to the stock rows, the stock
of each product is its stock in the initial setup plus the quantities of all lines for it
whose order is received. -/
theorem stock_ledger (p : Platform) (evs : List Event)
    (hdirect : ∀ ev ∈ evs, ¬ ev.request.WritesStock) (n : ℕ) :
    stockOf ((server p .full).run (server p .full).init evs).store n =
      stockOf (seed .full) n +
        carried (receivedLines ((server p .full).run (server p .full).init evs).store) n := by
  have hrun := Machine.Along.invariant (M := server p .full)
    (G := fun _ ev => ¬ ev.request.WritesStock)
    (I := fun s => (server p .full).Reachable s ∧
      stockOf s.store n - carried (receivedLines s.store) n = stockOf (seed .full) n)
    (fun s ev hI hev => ⟨hI.1.step ev, (ledger_step (Server.step_spec hI.1 ev) hev n).trans hI.2⟩)
    ⟨(server p .full).reachable_init, ?_⟩ ((server p .full).along_of_forall hdirect _)
  · exact sub_eq_iff_eq_add.mp hrun.2
  · change stockOf (seed .full) n - carried (receivedLines (seed .full)) n = _
    rw [receivedLines_seed]
    simp [carried]

/-- A line of five units is added to the order of the initial setup, which has a line of one
unit, and the order is received. -/
theorem stock_ledger_firstOrder :
    let evs : List Event :=
      [.plain "purchase" "order-records" "POST" ""
          [("orderId", "1"), ("productTypeId", "1"), ("quantity", "5"), ("price", "2")],
        receiptOfFirstOrder]
    let s := (server .plain .full).run (server .plain .full).init evs
    stockOf s.store 1 = 6 ∧
      stockOf s.store 1 = stockOf (seed .full) 1 + carried (receivedLines s.store) 1 :=
  ⟨by decide +kernel, stock_ledger .plain _ (by decide +kernel) 1⟩

end SageStore
