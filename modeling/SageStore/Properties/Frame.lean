import SageStore.Server.Steps

/-!
# The frame of a request

`mutation_frame` names the rows that an accepted request may change, in any table, and leaves
every other row as it was. `Touches` lists them: the row the request creates or addresses, the
lines of an order that is deleted, the order that is received and the stock rows of the
products on its lines, and the new entry of the log.

What a statement leaves alone is said of one key at a time (`Table.SameAt`). A receipt writes
one posting after another, and each posting spares the rows it neither finds nor creates
(`mem_postings_of_mem`).
-/

namespace SageStore

open Bytes Program BusinessLogic

variable {e : Enforcement} {p : Platform} {now : UtcTime} {req : RequestData}
  {faults : List (Option Exception)} {d d' : Db e}

/-- The order that a receipt names. -/
abbrev RequestData.order (p : Platform) (req : RequestData) : Cell :=
  p.cell (getOptionalDatasetValue req.dataset "id")

/-- The rows, by their table and key, that an accepted request may change on the way from `d`
to `d'`. -/
inductive Touches (p : Platform) (req : RequestData) (d d' : Db e) : TableName → ℕ → Prop
  | created (t : TableName) : req.Addresses t → req.method = utf8 "POST" →
    Touches p req d d' t ((d t).seq + 1)
  | addressed (t : TableName) (i : ℕ) : req.Addresses t →
    req.method = utf8 "PUT" ∨ req.method = utf8 "DELETE" → Cell.int i = p.cell req.resourceId →
    Touches p req d d' t i
  | saleLine (r : ℕ × OrderRecordRow) : req.Addresses .saleOrder → req.method = utf8 "DELETE" →
    r ∈ (d .salesOrderRecord).rows → r.2.orderId = p.cell req.resourceId →
    Touches p req d d' .salesOrderRecord r.1
  | purchaseLine (r : ℕ × OrderRecordRow) : req.Addresses .purchaseOrder →
    req.method = utf8 "DELETE" → r ∈ (d .purchaseOrderRecord).rows →
    r.2.orderId = p.cell req.resourceId → Touches p req d d' .purchaseOrderRecord r.1
  | receivedOrder (i : ℕ) : req.PostsReceipt → Cell.int i = req.order p →
    Touches p req d d' .purchaseOrder i
  | receivedStock (r : ℕ × InventoryRow) (line : ℕ × OrderRecordRow) : req.PostsReceipt →
    r ∈ (d .inventory).rows ∨ r ∈ (d' .inventory).rows → line ∈ purchaseLines d (req.order p) →
    r.2.productTypeId = line.2.productTypeId → Touches p req d d' .inventory r.1
  | audit : IsAudited req → Touches p req d d' .log ((d .log).seq + 1)

/-! ### Receipts -/

/-- A posting spares the rows it does not name. -/
theorem Posting.mem_apply_of_mem {employee : Cell} {T : Table InventoryRow} {m : Posting}
    {r : ℕ × InventoryRow} (hr : r ∈ T.rows) (hm : m.row ≠ some r.1) :
    r ∈ (m.apply employee T).rows := by
  obtain ⟨product, row, quantity⟩ := m
  cases row with
  | none => exact Table.mem_insert.mpr (Or.inl hr)
  | some i =>
    refine Table.mem_update.mpr (Or.inl ⟨hr, fun hkey => hm ?_⟩)
    have hi : r.1 = i := by simpa using hkey
    exact congrArg some hi.symm

/-- A receipt spares the stock rows that none of its postings names. -/
theorem mem_postings_of_mem {employee : Cell} (plan : List Posting) {T : Table InventoryRow}
    {r : ℕ × InventoryRow} (hr : r ∈ T.rows) (hplan : ∀ m ∈ plan, m.row ≠ some r.1) :
    r ∈ (plan.foldl (Posting.apply employee) T).rows := by
  induction plan generalizing T with
  | nil => exact hr
  | cons m plan ih =>
    -- the row outlives the first posting, and then the others
    have hr' : r ∈ (m.apply employee T).rows :=
      Posting.mem_apply_of_mem hr (hplan m List.mem_cons_self)
    exact ih hr' fun m' hm' => hplan m' (List.mem_cons_of_mem m hm')

/-- A posting that names a row has found it under its product. -/
theorem Posting.Finds.mem {T : Table InventoryRow} {m : Posting} {i : ℕ} (h : m.Finds T)
    (hi : m.row = some i) : ∃ r ∈ T.rows, r.1 = i ∧ r.2.productTypeId = .int m.product := by
  unfold Posting.Finds at h
  rw [hi] at h
  obtain ⟨r, hr, hkey⟩ := h
  exact ⟨r, List.mem_of_find?_eq_some hr, hkey, by simpa using List.find?_some hr⟩

/-- The stock rows that a receipt changes are about products on the order's lines. -/
theorem Receives.touches_stock (h : Receives p d (req.order p) d') (hpost : req.PostsReceipt)
    {i : ℕ} (hi : ¬ (d .inventory).SameAt (d' .inventory) i) :
    Touches p req d d' .inventory i := by
  obtain ⟨employee, plan, hplan, hstock⟩ := h.stock
  have hline {m : Posting} (hm : m ∈ plan) :
      ∃ line ∈ purchaseLines d (req.order p), line.2.productTypeId = .int m.product :=
    (hplan.covers m.product).mp (List.mem_map_of_mem hm)
  by_contra hnot
  refine hi fun x => ⟨fun hx => ?_, fun hx => ?_⟩
  · -- a row that was not there before is one that a posting has written
    rcases mem_postings plan (hstock ▸ hx) with hx' | ⟨m, hm, heq⟩
    · exact hx'
    · obtain ⟨line, hl, hproduct⟩ := hline hm
      have hsame : x.productTypeId = line.2.productTypeId := by
        rw [hproduct, show x = _ from heq]
      exact absurd (.receivedStock (i, x) line hpost (Or.inr hx) hl hsame) hnot
  · -- a row that is no longer there is one that a posting has found
    rw [hstock]
    refine mem_postings_of_mem plan hx fun m hm hrow => hnot ?_
    obtain ⟨r, hr, hkey, hfound⟩ := (hplan.finds m hm).mem hrow
    obtain rfl : r = (i, x) := Table.eq_of_mem hr hx hkey
    obtain ⟨line, hl, hproduct⟩ := hline hm
    exact .receivedStock (i, x) line hpost (Or.inl hr) hl (hfound.trans hproduct.symm)

/-! ### Effects -/

/-- What a statement on the table `t'` has changed, it has changed in `t'`. -/
theorem eq_of_put {t t' : TableName} {U : Table (Row t')} {i : ℕ} (hok : d.put t' U = .ok d')
    (hi : ¬ (d t).SameAt (d' t) i) : t = t' := by
  by_contra ht
  rw [Database.put_of_ne hok ht] at hi
  exact hi (.refl _ _)

/-- A deletion changes the row it addresses. -/
theorem eq_of_delete {t : TableName} {key : Cell} {i : ℕ} (hok : d.delete t key = .ok d')
    (hi : ¬ (d t).SameAt (d' t) i) : Cell.int i = key := by
  rw [Database.put_self hok] at hi
  by_contra hne
  exact hi (Table.sameAt_delete hne)

/-- What is changed when rows are erased are those rows. -/
theorem Erases.exists_row {t t' : TableName} {gone : ℕ × Row t' → Bool} {i : ℕ}
    (h : Erases d t' gone d') (hi : ¬ (d t).SameAt (d' t) i) :
    t = t' ∧ ∃ r ∈ (d t').rows, gone r = true ∧ r.1 = i := by
  have ht : t = t' := by
    by_contra ht
    rw [h.others t ht] at hi
    exact hi (.refl _ _)
  subst ht
  refine ⟨rfl, ?_⟩
  by_contra hnone
  refine hi (Table.sameAt_of_filter h.rows fun r hr hkey => ?_)
  by_contra hgone
  exact hnone ⟨r, hr, by simpa using hgone, hkey⟩

/-- **What the effect of a request touches.** -/
theorem Effect.touches (h : Effect p req d d') {t : TableName} {i : ℕ}
    (hi : ¬ (d t).SameAt (d' t) i) : Touches p req d d' t i := by
  cases h with
  | read honly => exact absurd (.refl _ _) hi
  | insert t' x haddr hmethod hguard hutf8 hok =>
    obtain rfl := eq_of_put hok hi
    rw [Database.put_self hok] at hi
    obtain rfl : i = (d t).seq + 1 := by
      by_contra hne
      exact hi (Table.sameAt_insert hne x)
    exact .created t haddr hmethod
  | update t' x haddr hmethod hid hguard hutf8 hok =>
    obtain rfl := eq_of_put hok hi
    rw [Database.put_self hok] at hi
    refine .addressed t i haddr (Or.inl hmethod) ?_
    by_contra hne
    exact hi (Table.sameAt_update hne x)
  | delete t' haddr hmethod hid hguard hok =>
    obtain rfl := eq_of_put hok hi
    exact .addressed t i haddr (Or.inr hmethod) (eq_of_delete hok hi)
  | @deleteSaleOrder d₁ _ haddr hmethod hhas herase hok =>
    -- the order's own row goes last, from the table as it was before the lines were erased
    by_cases ht : t = .saleOrder
    · subst ht
      rw [← herase.others _ (show TableName.saleOrder ≠ .salesOrderRecord by decide)] at hi
      exact .addressed _ i haddr (Or.inr hmethod) (eq_of_delete hok hi)
    · rw [Database.put_of_ne hok ht] at hi
      obtain ⟨rfl, r, hr, hgone, rfl⟩ := herase.exists_row hi
      exact .saleLine r haddr hmethod hr (of_decide_eq_true hgone)
  | @deletePurchaseOrder d₁ _ haddr hmethod hopen herase hok =>
    by_cases ht : t = .purchaseOrder
    · subst ht
      rw [← herase.others _ (show TableName.purchaseOrder ≠ .purchaseOrderRecord by decide)] at hi
      exact .addressed _ i haddr (Or.inr hmethod) (eq_of_delete hok hi)
    · rw [Database.put_of_ne hok ht] at hi
      obtain ⟨rfl, r, hr, hgone, rfl⟩ := herase.exists_row hi
      exact .purchaseLine r haddr hmethod hr (of_decide_eq_true hgone)
  | receive hpost hreceives =>
    by_cases hstock : t = .inventory
    · subst hstock
      exact hreceives.touches_stock hpost hi
    by_cases horder : t = .purchaseOrder
    · subst horder
      obtain ⟨o, ho, hkey, hopen, hreceived⟩ := hreceives.received
      rw [hreceived] at hi
      refine .receivedOrder i hpost ?_
      by_contra hne
      exact hi (Table.sameAt_update hne _)
    · rw [hreceives.others t hstock horder] at hi
      exact absurd (.refl _ _) hi

/-- What is touched depends on the later state by its stock rows alone. -/
theorem Touches.congr {d₁ : Db e} {t : TableName} {i : ℕ} (h : Touches p req d d₁ t i)
    (hstock : d' .inventory = d₁ .inventory) : Touches p req d d' t i := by
  cases h with
  | created t haddr hmethod => exact .created t haddr hmethod
  | addressed t i haddr hmethod hkey => exact .addressed t i haddr hmethod hkey
  | saleLine r haddr hmethod hr hline => exact .saleLine r haddr hmethod hr hline
  | purchaseLine r haddr hmethod hr hline => exact .purchaseLine r haddr hmethod hr hline
  | receivedOrder i hpost hkey => exact .receivedOrder i hpost hkey
  | receivedStock r line hpost hr hl hproduct =>
    exact .receivedStock r line hpost (hstock ▸ hr) hl hproduct
  | audit haudited => exact .audit haudited

/-- The effect of a request and its audit entry touch nothing else. -/
theorem BusinessLogic.Audits.touches {d₁ : Db e} (h : Audits p now req faults d₁ d')
    (heffect : Effect p req d d₁) {t : TableName} {i : ℕ} (hi : ¬ (d t).SameAt (d' t) i) :
    Touches p req d d' t i := by
  cases h with
  | none haudited heq => exact heq ▸ heffect.touches (heq ▸ hi)
  | lost haudited hwhy heq => exact heq ▸ heffect.touches (heq ▸ hi)
  | written haudited hok =>
    by_cases ht : t = .log
    · -- an audited request is not to the log, so the entry is all that is new there
      subst ht
      rw [Database.put_self hok, heffect.log_eq haudited.2] at hi
      obtain rfl : i = (d .log).seq + 1 := by
        by_contra hne
        exact hi (Table.sameAt_insert hne _)
      exact .audit haudited
    · rw [Database.put_of_ne hok ht] at hi
      exact (heffect.touches hi).congr (Database.put_of_ne hok (by decide))

/-! ### Deleted orders -/

/-- No row of `orders` has the key `order`, and no row of `lines` refers to it. -/
def OrderGone (d : Db e) (orders lines : TableName) (orderId : Row lines → Cell)
    (order : Cell) : Prop :=
  ¬ (d orders).Has order ∧ ∀ r ∈ (d lines).rows, orderId r.2 ≠ order

section OrderGone

variable {orders lines : TableName} {orderId : Row lines → Cell} {order : Cell}

/-- An order is gone once its lines are erased and its row is deleted. -/
theorem Erases.orderGone {d₁ : Db e} (h : Erases d lines (fun r => orderId r.2 = order) d₁)
    (hok : d₁.delete orders order = .ok d') (hne : lines ≠ orders) :
    OrderGone d' orders lines orderId order := by
  refine ⟨?_, fun r hr => ?_⟩
  · rw [Database.put_self hok, Table.has_delete]
    exact fun hhas => hhas.2 rfl
  · rw [Database.put_of_ne hok hne, h.rows, List.mem_filter] at hr
    simpa using hr.2

theorem OrderGone.congr (h : OrderGone d orders lines orderId order)
    (horders : d' orders = d orders) (hlines : d' lines = d lines) :
    OrderGone d' orders lines orderId order := by
  unfold OrderGone
  rw [horders, hlines]
  exact h

end OrderGone

/-- An accepted deletion of an order deletes it with all its lines. -/
theorem Effect.orderGone (h : Effect p req d d') (hmethod : req.method = utf8 "DELETE") :
    (req.Addresses .saleOrder → OrderGone d' .saleOrder .salesOrderRecord
      OrderRecordRow.orderId (p.cell req.resourceId)) ∧
    (req.Addresses .purchaseOrder → OrderGone d' .purchaseOrder .purchaseOrderRecord
      OrderRecordRow.orderId (p.cell req.resourceId)) := by
  have hget : utf8 "GET" ≠ utf8 "DELETE" := by decide
  have hpost : utf8 "POST" ≠ utf8 "DELETE" := by decide
  have hput : utf8 "PUT" ≠ utf8 "DELETE" := by decide
  cases h with
  | read honly =>
    exact ⟨fun haddr => absurd ((honly.isGet _ haddr).symm.trans hmethod) hget,
      fun haddr => absurd ((honly.isGet _ haddr).symm.trans hmethod) hget⟩
  | insert t x haddr hm => exact absurd (hm.symm.trans hmethod) hpost
  | update t x haddr hm => exact absurd (hm.symm.trans hmethod) hput
  | receive hreceipt => exact absurd (hreceipt.2.2.symm.trans hmethod) hpost
  | delete t haddr hm hid hguard =>
    -- the rows of orders are not deleted by themselves
    refine ⟨fun h => ?_, fun h => ?_⟩
    · obtain rfl := h.unique haddr
      exact hguard.elim
    · obtain rfl := h.unique haddr
      exact hguard.elim
  | deleteSaleOrder haddr hm hhas herase hok =>
    refine ⟨fun _ => herase.orderGone hok (by decide), fun h => ?_⟩
    exact absurd (h.unique haddr) (by decide)
  | deletePurchaseOrder haddr hm hopen herase hok =>
    refine ⟨fun h => ?_, fun _ => herase.orderGone hok (by decide)⟩
    exact absurd (h.unique haddr) (by decide)

/-! ### The frame -/

/-- **The frame of every mutation.** In every reachable state, a request that is answered without
an error changes, in every table, only the rows that it touches, and a `GET` touches none; an
order that it deletes is gone with all its lines. -/
theorem mutation_frame (p : Platform) {s : Session (Db .full) Exception}
    (hs : (server p .full).Reachable s) (ev : Event)
    (hreply : utf8 "error" ∉ ((server p .full).step s ev).1.dataset) :
    let d' := ((server p .full).step s ev).2.store
    (∀ t i, ¬ (s.store t).SameAt (d' t) i → Touches p ev.request s.store d' t i) ∧
    (ev.request.method = utf8 "DELETE" → ev.request.Addresses .saleOrder →
      OrderGone d' .saleOrder .salesOrderRecord OrderRecordRow.orderId
        (p.cell ev.request.resourceId)) ∧
    (ev.request.method = utf8 "DELETE" → ev.request.Addresses .purchaseOrder →
      OrderGone d' .purchaseOrder .purchaseOrderRecord OrderRecordRow.orderId
        (p.cell ev.request.resourceId)) := by
  intro d'
  obtain ⟨d₁, hans, heffect, haudit⟩ := (Server.step_spec hs ev).of_no_error hreply
  -- the audit entry comes after the change of the module, and only adds a row to the log
  refine ⟨fun t i hi => haudit.touches heffect hi, fun hdelete haddr => ?_, fun hdelete haddr => ?_⟩
  · exact ((heffect.orderGone hdelete).1 haddr).congr (haudit.eq_of_ne (by decide))
      (haudit.eq_of_ne (by decide))
  · exact ((heffect.orderGone hdelete).2 haddr).congr (haudit.eq_of_ne (by decide))
      (haudit.eq_of_ne (by decide))

/-- The deletion of the purchase order of the initial setup, by its user. -/
def deletionOfFirstOrder : Event :=
  .plain "purchase" "orders" "DELETE" "1" [("userId", "1")]

/-- Deleting the first purchase order takes its line with it, and touches nothing else but the
log. -/
theorem mutation_frame_firstOrder :
    let s := (server .plain .full).init
    let d' := ((server .plain .full).step s deletionOfFirstOrder).2.store
    (∀ t i, ¬ (s.store t).SameAt (d' t) i →
      Touches .plain deletionOfFirstOrder.request s.store d' t i) ∧
    OrderGone d' .purchaseOrder .purchaseOrderRecord OrderRecordRow.orderId (.int 1) := by
  have hframe := mutation_frame .plain (server .plain .full).reachable_init deletionOfFirstOrder
    (by decide +kernel)
  exact ⟨hframe.1, hframe.2.2 (by decide) (by decide)⟩

end SageStore
