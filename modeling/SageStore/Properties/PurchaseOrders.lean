import SageStore.Server.Steps

/-!
# The life of a purchase order

A purchase order is `Draft` or `Ordered` until it is received, once, and then it is frozen.

* `received_frozen` — the row and the lines of a received order never change again.
* `purchaseOrder_lifecycle` — the statuses that occur, the one way to `Received`, and how
  often an order is received.

Both rest on the guards of `TableStep`: whatever touches an order or a line of it requires
the order to be open (`IsOpen.key_ne`).
-/

namespace SageStore

open Bytes Program BusinessLogic

variable {e : Enforcement} {p : Platform} {now : UtcTime} {req : RequestData}
  {faults : List (Option Exception)} {d d' : Db e} {reply : ResponseData}

/-- The purchase order with key `order` is received. -/
def IsReceived (d : Db e) (order : Cell) : Prop :=
  ∃ o ∈ (d .purchaseOrder).rows, Cell.int o.1 = order ∧ o.2.status = utf8 "Received"

instance (d : Db e) (order : Cell) : Decidable (IsReceived d order) :=
  inferInstanceAs (Decidable (∃ o ∈ (d .purchaseOrder).rows, Cell.int o.1 = order ∧ o.2.status = _))

theorem isReceived_congr (h : d' .purchaseOrder = d .purchaseOrder) (order : Cell) :
    IsReceived d' order ↔ IsReceived d order := by
  unfold IsReceived
  rw [h]

/-- An open order is not received. -/
theorem IsOpen.not_isReceived {order : Cell} (h : IsOpen d order) : ¬ IsReceived d order := by
  obtain ⟨o, ho, hkey, hopen⟩ := h
  rintro ⟨o', ho', hkey', hreceived⟩
  obtain rfl := Table.eq_of_mem_of_key ho ho' hkey hkey'
  exact hopen hreceived

/-- An open order is another one than a received order. -/
theorem IsOpen.key_ne {key order : Cell} (h : IsOpen d key) (horder : IsReceived d order) :
    key ≠ order := by
  rintro rfl
  exact h.not_isReceived horder

/-! ### Frozen orders -/

/-- No request touches the row of a received order. -/
theorem received_row_step (h : TableStep p now req d .purchaseOrder (d' .purchaseOrder))
    {o : ℕ × PurchaseOrderRow} (ho : o ∈ (d .purchaseOrder).rows)
    (hst : o.2.status = utf8 "Received") : o ∈ (d' .purchaseOrder).rows := by
  have hreceived : IsReceived d (.int o.1) := ⟨o, ho, rfl, hst⟩
  generalize d' .purchaseOrder = T at h
  cases h with
  | same => exact ho
  | insert _ x => exact Table.mem_insert.mpr (Or.inl ho)
  | update _ x haddr hmethod hguard =>
    -- only open orders are edited, and this one is received
    exact Table.mem_update.mpr (Or.inl ⟨ho, (hguard.1.key_ne hreceived).symm⟩)
  | delete _ haddr hmethod hguard => exact hguard.elim
  | deletePurchaseOrder hopen =>
    exact Table.mem_delete.mpr ⟨ho, (hopen.key_ne hreceived).symm⟩
  | receiveOrder o' hpost ho' hkey hopen =>
    -- a receipt of this order would have found it open
    refine Table.mem_update.mpr (Or.inl ⟨ho, fun heq => hopen ?_⟩)
    obtain rfl := Table.eq_of_mem_of_key ho ho' heq rfl
    exact hst

/-- No request touches the lines of orders that are not open, or adds one to them. -/
theorem lines_step (h : TableStep p now req d .purchaseOrderRecord (d' .purchaseOrderRecord))
    {q : Cell → Bool} (hq : ∀ key, IsOpen d key → q key = false) :
    ((d' .purchaseOrderRecord).rows.filter fun r => q r.2.orderId) =
      (d .purchaseOrderRecord).rows.filter fun r => q r.2.orderId := by
  generalize d' .purchaseOrderRecord = T at h
  cases h with
  | same => rfl
  | insert _ x haddr hmethod hguard =>
    simp [List.filter_append, hq _ hguard.isOpen]
  | update _ x haddr hmethod hguard =>
    -- the order the line leaves is open, and so is the one it enters
    obtain ⟨⟨r, hr, hkey, hopen⟩, hnew⟩ := hguard
    refine Table.filter_update (fun r' hr' hkey' => ?_) fun i _ => hq _ hnew.isOpen
    obtain rfl := Table.eq_of_mem_of_key hr hr' hkey hkey'
    exact hq _ hopen
  | delete _ haddr hmethod hguard =>
    obtain ⟨r, hr, hkey, hopen⟩ := hguard
    refine Table.filter_delete fun r' hr' hkey' => ?_
    obtain rfl := Table.eq_of_mem_of_key hr hr' hkey hkey'
    exact hq _ hopen
  | losePurchaseLines gone _ hopen hgone hrows =>
    rw [hrows, List.filter_filter]
    refine List.filter_congr fun r _ => ?_
    cases hg : gone r with
    | false => simp
    | true => simp [hgone r hg, hq _ hopen]

/-- The lines of a received order stay in every step. -/
theorem received_lines_step
    (h : TableStep p now req d .purchaseOrderRecord (d' .purchaseOrderRecord)) {order : Cell}
    (hreceived : IsReceived d order) : purchaseLines d' order = purchaseLines d order :=
  lines_step h (q := fun c => c = order) fun _ hopen => decide_eq_false (hopen.key_ne hreceived)

/-- **Received orders are frozen.** In every run of requests from a reachable state, the row
and the lines of an order that is received stay what they are. -/
theorem received_frozen {s : Session (Db .full) Exception}
    (hs : (server p .full).Reachable s) {o : ℕ × PurchaseOrderRow}
    (ho : o ∈ (s.store .purchaseOrder).rows) (hst : o.2.status = utf8 "Received")
    (evs : List Event) :
    o ∈ (((server p .full).run s evs).store .purchaseOrder).rows ∧
      purchaseLines ((server p .full).run s evs).store (.int o.1) =
        purchaseLines s.store (.int o.1) := by
  refine Server.run_invariant
    (I := fun d => o ∈ (d .purchaseOrder).rows ∧
      purchaseLines d (.int o.1) = purchaseLines s.store (.int o.1)) hs ⟨ho, rfl⟩ ?_ evs
  rintro now req d d' - ⟨ho, hlines⟩ hstep
  refine ⟨received_row_step (hstep _) ho hst, ?_⟩
  exact (received_lines_step (hstep _) ⟨o, ho, rfl, hst⟩).trans hlines

/-- The receipt of the order of the initial setup. -/
def receiptOfFirstOrder : Event :=
  .plain "purchase" "receipts" "POST" "" [("id", "1"), ("employeeId", "1")]

/-- The state in which the order of the initial setup is received. -/
def firstOrderReceived : Session (Db .full) Exception :=
  (server .plain .full).run (server .plain .full).init [receiptOfFirstOrder]

/-- The order of the initial setup is frozen once it is received. -/
theorem received_frozen_firstOrder :
    ∃ o ∈ (firstOrderReceived.store .purchaseOrder).rows, o.2.status = utf8 "Received" ∧
      ∀ evs, o ∈ (((server .plain .full).run firstOrderReceived evs).store .purchaseOrder).rows ∧
        purchaseLines ((server .plain .full).run firstOrderReceived evs).store (.int o.1) =
          purchaseLines firstOrderReceived.store (.int o.1) := by
  have hs : (server .plain .full).Reachable firstOrderReceived := ⟨_, rfl⟩
  obtain ⟨o, ho, hst⟩ :
      ∃ o ∈ (firstOrderReceived.store .purchaseOrder).rows, o.2.status = utf8 "Received" := by
    decide +kernel
  exact ⟨o, ho, hst, received_frozen hs ho hst⟩

/-! ### The lifecycle -/

/-- An answered request is a successful receipt of the order with key `order`. -/
def IsReceiptOf (p : Platform) (order : Cell) (h : Event × ResponseData) : Prop :=
  h.1.request.PostsReceipt ∧
    p.cell (getOptionalDatasetValue h.1.request.dataset "id") = order ∧
    utf8 "error" ∉ h.2.dataset

instance (p : Platform) (order : Cell) (h : Event × ResponseData) :
    Decidable (IsReceiptOf p order h) :=
  inferInstanceAs (Decidable (_ ∧ _ ∧ _))

/-- The statuses that are stored. -/
def StatusesKnown (d : Db e) : Prop :=
  ∀ o ∈ (d .purchaseOrder).rows, ManualStatus o.2.status ∨ o.2.status = utf8 "Received"

theorem statusesKnown_seed : StatusesKnown (seed e) := by
  have h : ∀ o ∈ (Table.ofRows (seedRows .purchaseOrder)).rows, o.2.status = utf8 "Ordered" := by
    decide
  exact fun o ho => Or.inl (Or.inr (h o ho))

/-- Every step keeps the statuses known. -/
theorem StatusesKnown.step (hknown : StatusesKnown d)
    (h : TableStep p now req d .purchaseOrder (d' .purchaseOrder)) : StatusesKnown d' := by
  unfold StatusesKnown
  generalize d' .purchaseOrder = T at h
  intro o ho
  cases h with
  | same => exact hknown o ho
  | insert _ x haddr hmethod hguard =>
    rcases Table.mem_insert.mp ho with ho | rfl
    · exact hknown o ho
    · -- a status that a request sets is `Draft` or `Ordered`
      exact Or.inl hguard
  | update _ x haddr hmethod hguard =>
    rcases Table.mem_update.mp ho with ⟨ho, -⟩ | ⟨-, rfl, -⟩
    · exact hknown o ho
    · exact Or.inl hguard.2
  | delete _ haddr hmethod hguard => exact hguard.elim
  | deletePurchaseOrder hopen => exact hknown o (Table.mem_delete.mp ho).1
  | receiveOrder o' hpost ho' hkey hopen =>
    rcases Table.mem_update.mp ho with ⟨ho, -⟩ | ⟨-, hx, -⟩
    · exact hknown o ho
    · exact Or.inr (by rw [hx])

theorem Server.statusesKnown {s : Session (Db e) Exception} (hs : (server p e).Reachable s) :
    StatusesKnown s.store :=
  Server.invariant statusesKnown_seed (fun _ _ _ _ _ h hstep => h.step (hstep _)) hs

theorem ManualStatus.ne_received {status : Bytes} (h : ManualStatus status) :
    status ≠ utf8 "Received" := by
  rcases h with rfl | rfl <;> decide

/-- What stays received: no request takes an order back. -/
theorem IsReceived.step (h : TableStep p now req d .purchaseOrder (d' .purchaseOrder))
    {order : Cell} (horder : IsReceived d order) : IsReceived d' order := by
  obtain ⟨o, ho, hkey, hst⟩ := horder
  exact ⟨o, received_row_step h ho hst, hkey, hst⟩

/-- An order that becomes received is received by a receipt. -/
theorem isReceived_of_step (h : TableStep p now req d .purchaseOrder (d' .purchaseOrder))
    {order : Cell} (horder : IsReceived d' order) : IsReceived d order ∨ (req.PostsReceipt ∧
      p.cell (getOptionalDatasetValue req.dataset "id") = order) := by
  obtain ⟨o, ho, rfl, hst⟩ := horder
  generalize d' .purchaseOrder = T at h ho
  cases h with
  | same => exact Or.inl ⟨o, ho, rfl, hst⟩
  | insert _ x haddr hmethod hguard =>
    rcases Table.mem_insert.mp ho with ho | rfl
    · exact Or.inl ⟨o, ho, rfl, hst⟩
    · exact absurd hst hguard.ne_received
  | update _ x haddr hmethod hguard =>
    rcases Table.mem_update.mp ho with ⟨ho, -⟩ | ⟨-, rfl, -⟩
    · exact Or.inl ⟨o, ho, rfl, hst⟩
    · exact absurd hst hguard.2.ne_received
  | delete _ haddr hmethod hguard => exact hguard.elim
  | deletePurchaseOrder hopen => exact Or.inl ⟨o, (Table.mem_delete.mp ho).1, rfl, hst⟩
  | receiveOrder o' hpost ho' hkey hopen =>
    -- the one order that a receipt updates is the order it names
    rcases Table.mem_update.mp ho with ⟨ho, -⟩ | ⟨heq, -, -⟩
    · exact Or.inl ⟨o, ho, rfl, hst⟩
    · exact Or.inr ⟨hpost, (heq.trans hkey).symm⟩

/-- What the receipt of an order does to the orders that are received. -/
theorem Receives.isReceived_iff {order : Cell} (h : Receives p d order d') (order' : Cell) :
    ¬ IsReceived d order ∧ (IsReceived d' order' ↔ IsReceived d order' ∨ order' = order) := by
  obtain ⟨o, ho, rfl, hopen, hrows⟩ := h.received
  have hopen : IsOpen d (.int o.1) := ⟨o, ho, rfl, hopen⟩
  refine ⟨hopen.not_isReceived, ?_⟩
  unfold IsReceived
  rw [hrows]
  constructor
  · rintro ⟨o', ho', rfl, hst⟩
    rcases Table.mem_update.mp ho' with ⟨ho', -⟩ | ⟨heq, -, -⟩
    · exact Or.inl ⟨o', ho', rfl, hst⟩
    · exact Or.inr heq
  · rintro (⟨o', ho', rfl, hst⟩ | rfl)
    · -- an order that was received is another one, so its row is kept
      refine ⟨o', Table.mem_update.mpr (Or.inl ⟨ho', fun heq => ?_⟩), rfl, hst⟩
      exact hopen.not_isReceived ⟨o', ho', heq, hst⟩
    · exact ⟨_, Table.mem_update_self ho _, rfl, rfl⟩

/-- A successful receipt receives an order that was open. -/
theorem IsReceiptOf.receives {ev : Event} {order : Cell}
    (h : Step p ev.now ev.request ev.faults d reply d')
    (hreceipt : IsReceiptOf p order (ev, reply)) :
    ¬ IsReceived d order ∧ IsReceived d' order := by
  obtain ⟨hpost, rfl, hreply⟩ := hreceipt
  obtain ⟨d₁, -, heffect, haudit⟩ := h.of_no_error hreply
  obtain ⟨hbefore, hafter⟩ := (heffect.receives hpost).isReceived_iff _
  exact ⟨hbefore, (isReceived_congr (haudit.eq_of_ne (by decide)) _).mpr (hafter.mpr (Or.inr rfl))⟩

/-- **One step of the lifecycle**: an order is received afterwards if it was before, or if
the request is a successful receipt of it. -/
theorem isReceived_step {ev : Event} (h : Step p ev.now ev.request ev.faults d reply d')
    (order : Cell) :
    IsReceived d' order ↔ IsReceived d order ∨ IsReceiptOf p order (ev, reply) := by
  constructor
  · intro horder
    have hbefore := isReceived_of_step (h.table _) horder
    cases h with
    | accepted hans => exact hbefore.imp_right fun hpost => ⟨hpost.1, hpost.2, hans.no_error⟩
    | rejected ex hreply hex heq => exact Or.inl (heq ▸ horder)
    | aborted ex hreply hfault habort =>
      exact Or.inl ((isReceived_congr (habort.eq_of_ne (by decide) (by decide)) order).mp horder)
  · rintro (horder | hreceipt)
    · exact horder.step (h.table _)
    · exact (hreceipt.receives h).2

/-- How often an order was received, and whether it is. -/
theorem countP_receipts (evs : List Event) (order : Cell) :
    ((server p e).history (server p e).init evs).countP (fun h => IsReceiptOf p order h) =
      if IsReceived ((server p e).run (server p e).init evs).store order then 1 else 0 := by
  -- along the history: a receipt is counted just when the order turns from open to received
  refine (Machine.history_induction (M := server p e)
    (P := fun h s => (server p e).Reachable s ∧
      h.countP (fun h => IsReceiptOf p order h) = if IsReceived s.store order then 1 else 0)
    ⟨(server p e).reachable_init, ?_⟩ ?_ evs).2
  · have hnot : ¬ IsReceived (seed e) order := by
      rintro ⟨o, ho, -, hst⟩
      have h : ∀ o ∈ (Table.ofRows (seedRows .purchaseOrder)).rows,
        o.2.status ≠ utf8 "Received" := by decide
      exact h o ho hst
    exact (if_neg hnot).symm
  · rintro h s ev ⟨hs, hcount⟩
    refine ⟨hs.step ev, ?_⟩
    have hstep := Server.step_spec hs ev
    have hnow := isReceived_step hstep order
    rw [List.countP_append, hcount, List.countP_singleton]
    by_cases hreceipt : IsReceiptOf p order (ev, ((server p e).step s ev).1)
    · have hbefore := (hreceipt.receives hstep).1
      simp [hnow, hreceipt, hbefore]
    · simp [hnow, hreceipt]

/-- **The life of a purchase order.** After every run of requests: the stored statuses are
`Draft`, `Ordered` and `Received`, and the checks recognise them; the next request makes an
order received only by being a successful receipt of it; and an order is received once if its
status is `Received`, and otherwise never. -/
theorem purchaseOrder_lifecycle (p : Platform) (evs : List Event) :
    let M := server p .full
    let s := M.run M.init evs
    (∀ o ∈ (s.store .purchaseOrder).rows,
      o.2.status ∈ [utf8 "Draft", utf8 "Ordered", utf8 "Received"] ∧
      ∀ order message, order.status = o.2.status →
        PurchaseModule.ensureOrderIsNotReceived order message =
          if o.2.status = utf8 "Received" then .error (.server "PurchaseModule" message)
          else .ok ()) ∧
    (∀ ev, ∀ o ∈ ((M.step s ev).2.store .purchaseOrder).rows, o.2.status = utf8 "Received" →
      IsReceived s.store (.int o.1) ∨ IsReceiptOf p (.int o.1) (ev, (M.step s ev).1)) ∧
    ∀ order, (M.history M.init evs).countP (fun h => IsReceiptOf p order h) ≤ 1 ∧
      ((M.history M.init evs).countP (fun h => IsReceiptOf p order h) = 1 ↔
        IsReceived s.store order) := by
  intro M s
  have hs : M.Reachable s := ⟨evs, rfl⟩
  have hknown := Server.statusesKnown hs
  refine ⟨fun o ho => ⟨?_, fun order message hst => ?_⟩, fun ev o ho hst => ?_, fun order => ?_⟩
  · rcases hknown o ho with (h | h) | h <;> simp [h]
  · rw [PurchaseModule.ensureOrderIsNotReceived, hst,
      PurchaseModule.normalizeOrderStatus_self (hknown o ho)]
    rfl
  · exact (isReceived_step (Server.step_spec hs ev) _).mp ⟨o, ho, rfl, hst⟩
  · -- the receipts of an order are counted by whether it is received
    rw [countP_receipts evs order]
    by_cases horder : IsReceived s.store order
    · simp [s, M, horder]
    · simp [s, M, horder]

end SageStore
