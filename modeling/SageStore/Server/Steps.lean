import SageStore.Server.BusinessLogic

/-!
# The server, table by table

`TableStep` lists what one request can do to one table, whether it is accepted, rejected or
cut short: nothing, one guarded statement, the loss of lines of an order, an entry of a
receipt, or an audit entry (`Step.table`). An invariant of the server is proved by cases on
it (`Server.invariant`), for the tables the invariant speaks about.

The first such invariant is `WellFormed`, under which the specifications of the modules hold.
-/

namespace SageStore

open Bytes Program BusinessLogic

variable {e : Enforcement}

/-- What a request can do to the table `t` of `d`. -/
inductive TableStep (p : Platform) (now : UtcTime) (req : RequestData) (d : Db e) :
    (t : TableName) → Table (Row t) → Prop
  | same (t : TableName) : TableStep p now req d t (d t)
  | insert (t : TableName) (x : Row t) :
    req.Addresses t → req.method = utf8 "POST" → InsertGuard req d t x →
    (req.dataset.IsUtf8 → RowIsUtf8 t x) → TableStep p now req d t ((d t).insert x)
  | update (t : TableName) (x : Row t) :
    req.Addresses t → req.method = utf8 "PUT" →
    UpdateGuard req d (p.cell req.resourceId) t x →
    (TextsUtf8 d → req.dataset.IsUtf8 → RowIsUtf8 t x) → req.resourceId ≠ [] →
    TableStep p now req d t ((d t).update (p.cell req.resourceId) x)
  | delete (t : TableName) :
    req.Addresses t → req.method = utf8 "DELETE" → DeleteGuard d (p.cell req.resourceId) t →
    TableStep p now req d t ((d t).delete (p.cell req.resourceId))
  | deleteSaleOrder : TableStep p now req d .saleOrder
      ((d .saleOrder).delete (p.cell req.resourceId))
  | deletePurchaseOrder : IsOpen d (p.cell req.resourceId) →
    TableStep p now req d .purchaseOrder ((d .purchaseOrder).delete (p.cell req.resourceId))
  | loseSaleLines (gone : ℕ × OrderRecordRow → Bool) (T : Table OrderRecordRow) :
    T.rows = (d .salesOrderRecord).rows.filter (fun r => !gone r) →
    TableStep p now req d .salesOrderRecord T
  | losePurchaseLines (gone : ℕ × OrderRecordRow → Bool) (T : Table OrderRecordRow) :
    IsOpen d (p.cell req.resourceId) →
    (∀ r, gone r = true → r.2.orderId = p.cell req.resourceId) →
    T.rows = (d .purchaseOrderRecord).rows.filter (fun r => !gone r) →
    TableStep p now req d .purchaseOrderRecord T
  | receiveStock (employee : ℕ) (plan : List Posting) (order : Cell) :
    req.PostsReceipt → Plans d (purchaseLines d order) plan → TableStep p now req d .inventory
      (plan.foldl (Posting.apply (.int employee)) (d .inventory))
  | receiveOrder (o : ℕ × PurchaseOrderRow) : req.PostsReceipt →
    o ∈ (d .purchaseOrder).rows →
    Cell.int o.1 = p.cell (getOptionalDatasetValue req.dataset "id") →
    o.2.status ≠ utf8 "Received" →
    TableStep p now req d .purchaseOrder ((d .purchaseOrder).update (.int o.1)
      ⟨p.sqlite.numeric (cstr o.2.date), p.cell o.2.userId.toText, p.cell o.2.supplierId.toText,
        utf8 "Received"⟩)
  | audit : TableStep p now req d .log
      ((d .log).insert (Log.row p (auditEntry now req)))

variable {p : Platform} {now : UtcTime} {req : RequestData} {faults : List (Option Exception)}
  {d d' : Db e} {reply : ResponseData}

/-- An accepted request takes each table a step. -/
theorem Effect.table (h : Effect p req d d') (t : TableName) : TableStep p now req d t (d' t) := by
  cases h with
  | read hread => exact .same t
  | insert t' x haddr hmethod hguard hutf8 hok =>
    by_cases ht : t = t'
    · subst ht
      exact Database.put_self hok ▸ .insert t x haddr hmethod hguard hutf8
    · exact Database.put_of_ne hok ht ▸ .same t
  | update t' x haddr hmethod hne hguard hutf8 hok =>
    by_cases ht : t = t'
    · subst ht
      exact Database.put_self hok ▸ .update t x haddr hmethod hguard hutf8 hne
    · exact Database.put_of_ne hok ht ▸ .same t
  | delete t' haddr hmethod hne hguard hok =>
    by_cases ht : t = t'
    · subst ht
      exact Database.put_self hok ▸ .delete t haddr hmethod hguard
    · exact Database.put_of_ne hok ht ▸ .same t
  | @deleteSaleOrder d₁ _ haddr hmethod hhas herase hok =>
    by_cases ht : t = .saleOrder
    · subst ht
      -- the order's row is deleted from the table as it was before the lines were
      rw [Database.put_self hok, herase.others _ (by decide)]
      exact .deleteSaleOrder
    rw [Database.put_of_ne hok ht]
    by_cases ht : t = .salesOrderRecord
    · subst ht
      exact .loseSaleLines _ _ herase.rows
    · exact herase.others t ht ▸ .same t
  | @deletePurchaseOrder d₁ _ haddr hmethod hopen herase hok =>
    by_cases ht : t = .purchaseOrder
    · subst ht
      rw [Database.put_self hok, herase.others _ (by decide)]
      exact .deletePurchaseOrder hopen
    rw [Database.put_of_ne hok ht]
    by_cases ht : t = .purchaseOrderRecord
    · subst ht
      exact .losePurchaseLines _ _ hopen (fun r hr => of_decide_eq_true hr) herase.rows
    · exact herase.others t ht ▸ .same t
  | receive hpost hreceives =>
    obtain ⟨⟨employee, plan, hplan, hstock⟩, ⟨o, ho, hkey, hopen, hreceived⟩, hothers⟩ :=
      hreceives
    by_cases ht : t = .inventory
    · subst ht
      exact hstock ▸ .receiveStock employee plan _ hpost hplan
    by_cases ht' : t = .purchaseOrder
    · subst ht'
      -- the order is updated under its own key, which is the one the request names
      rw [hreceived, ← hkey]
      exact .receiveOrder o hpost ho hkey hopen
    · exact hothers t ht ht' ▸ .same t

/-- So does a request that stopped halfway. -/
theorem Aborted.table (h : Aborted p req d d') (t : TableName) :
    TableStep p now req d t (d' t) := by
  cases h with
  | deleteSaleOrder gone haddr hmethod hgone herase =>
    by_cases ht : t = .salesOrderRecord
    · subst ht
      exact .loseSaleLines _ _ herase.rows
    · exact herase.others t ht ▸ .same t
  | deletePurchaseOrder gone haddr hmethod hopen hgone herase =>
    by_cases ht : t = .purchaseOrderRecord
    · subst ht
      exact .losePurchaseLines _ _ hopen hgone herase.rows
    · exact herase.others t ht ▸ .same t

/-- A request that is cut short has changed no table but those of lines. -/
theorem Aborted.eq_of_ne (h : Aborted p req d d') {t : TableName} (hsale : t ≠ .salesOrderRecord)
    (hpurchase : t ≠ .purchaseOrderRecord) : d' t = d t := by
  cases h with
  | deleteSaleOrder gone haddr hmethod hgone herase => exact herase.others t hsale
  | deletePurchaseOrder gone haddr hmethod hopen hgone herase => exact herase.others t hpurchase

/-- Only the deletion of an order can stop halfway. -/
theorem Aborted.isDelete (h : Aborted p req d d') : req.method = utf8 "DELETE" := by
  cases h with
  | deleteSaleOrder gone haddr hmethod => exact hmethod
  | deletePurchaseOrder gone haddr hmethod => exact hmethod

/-- A request that deletes nothing and is answered with an error has changed nothing. -/
theorem BusinessLogic.Step.unchanged_of_error (h : Step p now req faults d reply d')
    (hmethod : req.method ≠ utf8 "DELETE") (hreply : utf8 "error" ∈ reply.dataset) : d' = d := by
  cases h with
  | accepted hans => exact absurd hreply hans.no_error
  | rejected ex _ _ heq => exact heq
  | aborted ex _ _ habort => exact absurd habort.isDelete hmethod

/-- The audit entry goes to the log. -/
theorem BusinessLogic.Audits.eq_of_ne (h : Audits p now req faults d d') {t : TableName}
    (ht : t ≠ .log) : d' t = d t := by
  cases h with
  | none _ heq => rw [heq]
  | written _ hok => exact Database.put_of_ne hok ht
  | lost _ _ heq => rw [heq]

/-- A request leaves the tables alone that it does not address, except that a receipt changes
stocks and its order, and that an order is deleted with its lines. -/
theorem Effect.eq_of_not_addresses (h : Effect p req d d') {t : TableName}
    (haddr : ¬ req.Addresses t)
    (ht : t ∉ [.inventory, .purchaseOrder, .purchaseOrderRecord, .salesOrderRecord]) :
    d' t = d t := by
  have hne {t' : TableName} (h : req.Addresses t') : t ≠ t' := fun heq => haddr (heq ▸ h)
  simp only [List.mem_cons, not_or] at ht
  obtain ⟨hstock, horder, hpurchase, hsale, -⟩ := ht
  cases h with
  | read hread => rfl
  | insert t' x h hmethod hguard hutf8 hok => exact Database.put_of_ne hok (hne h)
  | update t' x h hmethod hid hguard hutf8 hok => exact Database.put_of_ne hok (hne h)
  | delete t' h hmethod hid hguard hok => exact Database.put_of_ne hok (hne h)
  | deleteSaleOrder h hmethod hhas herase hok =>
    exact (Database.put_of_ne hok (hne h)).trans (herase.others t hsale)
  | deletePurchaseOrder h hmethod hopen herase hok =>
    exact (Database.put_of_ne hok (hne h)).trans (herase.others t hpurchase)
  | receive hpost hreceives => exact hreceives.others t hstock horder

/-- A request to another module leaves the log alone. -/
theorem Effect.log_eq (h : Effect p req d d') (hmodule : req.module ≠ utf8 "logs") :
    d' .log = d .log :=
  h.eq_of_not_addresses (fun haddr => hmodule haddr.1) (by decide)

/-- **What a request does to a table.** -/
theorem BusinessLogic.Step.table (h : Step p now req faults d reply d') (t : TableName) :
    TableStep p now req d t (d' t) := by
  cases h with
  | rejected ex hreply hex heq => exact heq ▸ .same t
  | aborted ex hreply hfault habort => exact habort.table t
  | accepted hans heffect haudit =>
    -- an audited request is not to the log, so no table sees both its effect and the entry
    cases haudit with
    | none h heq => exact heq ▸ heffect.table t
    | lost h hwhy heq => exact heq ▸ heffect.table t
    | written h hok =>
      by_cases ht : t = .log
      · subst ht
        rw [Database.put_self hok, heffect.log_eq h.2]
        exact .audit
      · exact Database.put_of_ne hok ht ▸ heffect.table t

/-! ### Well-formed tables -/

/-- After a posting a row is an old one or the posted one. -/
theorem Posting.mem_apply {employee : Cell} {T : Table InventoryRow} {m : Posting}
    {r : ℕ × InventoryRow} (h : r ∈ (m.apply employee T).rows) :
    r ∈ T.rows ∨ r.2 = ⟨.int m.product, .int m.quantity, employee⟩ := by
  unfold Posting.apply at h
  split at h
  · exact (Table.mem_insert.mp h).imp_right fun h => by rw [h]
  · exact (Table.mem_update.mp h).imp And.left fun h => h.2.1

/-- Each stock row after a receipt was there before, or is what a posting writes. -/
theorem mem_postings {employee : Cell} (plan : List Posting) {T : Table InventoryRow}
    {r : ℕ × InventoryRow} (h : r ∈ (plan.foldl (Posting.apply employee) T).rows) :
    r ∈ T.rows ∨ ∃ m ∈ plan, r.2 = ⟨.int m.product, .int m.quantity, employee⟩ := by
  -- the table that is left grows with each posting, so it is general in the induction
  induction plan generalizing T with
  | nil => exact Or.inl h
  | cons m plan ih =>
    rcases ih h with h | ⟨m', hm', heq⟩
    · exact (Posting.mem_apply h).imp_right fun heq => ⟨m, List.mem_cons_self, heq⟩
    · exact Or.inr ⟨m', List.mem_cons_of_mem _ hm', heq⟩

/-- The seeded database is well formed. -/
theorem wellFormed_seed : WellFormed (seed e) where
  lines := by
    have h : ∀ r ∈ (Table.ofRows (seedRows .purchaseOrderRecord)).rows,
        r.2.orderId = .int (1 : ℕ) ∧ r.2.productTypeId = .int (1 : ℕ) ∧
          r.2.quantity = .int (1 : ℕ) := by decide
    exact fun r hr => ⟨⟨1, (h r hr).1, by norm_num⟩, ⟨1, (h r hr).2.1, by norm_num⟩,
      1, (h r hr).2.2, by norm_num⟩
  stocks := by
    have h : ∀ r ∈ (Table.ofRows (seedRows .inventory)).rows,
        r.2.productTypeId = .int (1 : ℕ) ∧ r.2.quantityAvailable = .int (0 : ℕ) := by decide
    exact fun r hr => ⟨⟨1, (h r hr).1, by norm_num⟩, 0, (h r hr).2, by norm_num⟩

/-- Every request keeps the tables well-formed. -/
theorem WellFormed.step (hwf : WellFormed d) (h : ∀ t, TableStep p now req d t (d' t)) :
    WellFormed d' where
  lines := by
    have h := h .purchaseOrderRecord
    -- `cases` needs the table after the step to be a variable
    generalize d' .purchaseOrderRecord = T at h
    intro r hr
    cases h with
    | same => exact hwf.lines r hr
    | insert _ x haddr hmethod hguard =>
      rcases Table.mem_insert.mp hr with hr | rfl
      · exact hwf.lines r hr
      · exact ⟨hguard.order, hguard.product, hguard.quantity⟩
    | update _ x haddr hmethod hguard =>
      rcases Table.mem_update.mp hr with ⟨hr, -⟩ | ⟨-, rfl, -⟩
      · exact hwf.lines r hr
      · exact ⟨hguard.2.order, hguard.2.product, hguard.2.quantity⟩
    | delete => exact hwf.lines r (Table.mem_delete.mp hr).1
    | losePurchaseLines gone _ hopen hgone hrows =>
      exact hwf.lines r (List.mem_of_mem_filter (hrows ▸ hr))
  stocks := by
    have h := h .inventory
    generalize d' .inventory = T at h
    intro r hr
    cases h with
    | same => exact hwf.stocks r hr
    | insert _ x haddr hmethod hguard =>
      rcases Table.mem_insert.mp hr with hr | rfl
      · exact hwf.stocks r hr
      · exact ⟨hguard.1, hguard.2.1⟩
    | update _ x haddr hmethod hguard =>
      rcases Table.mem_update.mp hr with ⟨hr, -⟩ | ⟨-, rfl, -⟩
      · exact hwf.stocks r hr
      · exact ⟨hguard.2.1, hguard.2.2.1⟩
    | delete => exact hwf.stocks r (Table.mem_delete.mp hr).1
    | receiveStock employee plan order hpost hplan =>
      rcases mem_postings plan hr with hr | ⟨m, hm, heq⟩
      · exact hwf.stocks r hr
      · have hm := hplan.inRange hwf (List.filter_subset_self _) m hm
        rw [heq]
        exact ⟨⟨_, rfl, hm.product⟩, _, rfl, hm.quantity⟩

/-! ### The machine -/

/-- A request, the time it is executed at, and the calls to the database that fail. -/
structure Event where
  now : UtcTime
  request : RequestData
  faults : List (Option Exception)

/-- The time at which the runs of this development are evaluated. -/
def noon : UtcTime := ⟨2026, 1, 1, 12, 0, 0⟩

/-- A request that is made of literals, executed at noon while no call fails. -/
def Event.plain (module submodule method resourceId : String)
    (fields : List (String × String)) : Event where
  now := noon
  request := ⟨module, submodule, method, resourceId,
    (fields.map fun f => (⟨utf8 f.1, [utf8 f.2]⟩ : Σ _ : Bytes, List Bytes)).toFinmap⟩
  faults := []

/-- The server, on the database that `create_db.sql` leaves. -/
def server (p : Platform) (e : Enforcement) :
    Machine (Session (Db e) Exception) Event ResponseData where
  init := ⟨seed e, none, []⟩
  step s ev := executeTask p ev.now ev.request { s with faults := ev.faults }

namespace Server

variable {s : Session (Db e) Exception}

/-- In every reachable state the tables are well-formed and no transaction is open. -/
theorem wellFormed (h : (server p e).Reachable s) : WellFormed s.store ∧ s.snapshot = none := by
  refine h.invariant (I := fun s => WellFormed s.store ∧ s.snapshot = none)
    ⟨wellFormed_seed, rfl⟩ ?_
  rintro s ev ⟨hwf, hsnap⟩
  -- the faults of the event replace what was left of the last one's
  have hstep := executeTask_spec p ev.now ev.request { s with faults := ev.faults } hwf
  exact ⟨hwf.step hstep.2.table, hstep.1.snapshot_eq.trans hsnap⟩

/-- What one event does. -/
theorem step_spec (h : (server p e).Reachable s) (ev : Event) :
    Step p ev.now ev.request ev.faults s.store ((server p e).step s ev).1
      ((server p e).step s ev).2.store :=
  (executeTask_spec p ev.now ev.request { s with faults := ev.faults } (wellFormed h).1).2

/-- What every request keeps, a run keeps. -/
theorem run_invariant {I : Db e → Prop} (hs : (server p e).Reachable s) (h : I s.store)
    (hstep : ∀ now req d d', WellFormed d → I d → (∀ t, TableStep p now req d t (d' t)) → I d')
    (evs : List Event) : I ((server p e).run s evs).store := by
  -- carried along with reachability, which gives the well-formed tables at each step
  have hrun := Machine.run_invariant (M := server p e)
    (I := fun s => (server p e).Reachable s ∧ I s.store)
    (fun s ev hI => ⟨hI.1.step ev,
      hstep _ _ _ _ (wellFormed hI.1).1 hI.2 (step_spec hI.1 ev).table⟩) ⟨hs, h⟩ evs
  exact hrun.2

/-- What holds initially, and every request keeps, holds in every reachable state. -/
theorem invariant {I : Db e → Prop} (h0 : I (seed e))
    (hstep : ∀ now req d d', WellFormed d → I d → (∀ t, TableStep p now req d t (d' t)) → I d')
    (hs : (server p e).Reachable s) : I s.store := by
  obtain ⟨evs, rfl⟩ := hs
  exact run_invariant (server p e).reachable_init h0 hstep evs

end Server

end SageStore
