import SageStore.Server.Steps

/-!
# Lines belong to orders

Every line names an order that exists (`lines_have_orders`), whichever constraints the engine
enforces and whichever calls fail. A line is written only after its order was looked up
(`line_step`). An order is deleted only after all its lines were (`Effect.order_kept`), and
the deletion finds them by the comparison that the look-up uses.
-/

namespace SageStore

open Bytes Program BusinessLogic

variable {e : Enforcement} {p : Platform} {now : UtcTime} {req : RequestData}
  {faults : List (Option Exception)} {d d' : Db e} {reply : ResponseData}

/-- The columns in which a line names its order. -/
def lineOwners : List (ForeignKey Row) :=
  [⟨.salesOrderRecord, OrderRecordRow.orderId, .saleOrder⟩,
    ⟨.purchaseOrderRecord, OrderRecordRow.orderId, .purchaseOrder⟩]

/-- Every row of the child names a row of the parent; none holds NULL. -/
def NamesParent (fk : ForeignKey Row) (d : Db e) : Prop :=
  ∀ r ∈ (d fk.child).rows, (d fk.parent).Has (fk.column r.2)

/-- Lines refer to the orders of their kind. -/
theorem lineOwners_cases {fk : ForeignKey Row} (h : fk ∈ lineOwners) :
    fk = ⟨.salesOrderRecord, OrderRecordRow.orderId, .saleOrder⟩ ∨
      fk = ⟨.purchaseOrderRecord, OrderRecordRow.orderId, .purchaseOrder⟩ := by
  simpa [lineOwners] using h

/-- A line after a request is one from before it, or the request writes lines of its table, and
the line names an order that was looked up. -/
theorem line_step {fk : ForeignKey Row} (hfk : fk ∈ lineOwners)
    (hstep : TableStep p now req d fk.child (d' fk.child)) :
    ∀ r ∈ (d' fk.child).rows, r ∈ (d fk.child).rows ∨
      (req.Addresses fk.child ∧ (req.method = utf8 "POST" ∨ req.method = utf8 "PUT")) ∧
        (d fk.parent).Has (fk.column r.2) := by
  rcases lineOwners_cases hfk with rfl | rfl
  · dsimp only at hstep ⊢
    generalize d' .salesOrderRecord = T at hstep
    intro r hr
    cases hstep with
    | same => exact Or.inl hr
    | insert _ x haddr hmethod hguard =>
      refine (Table.mem_insert.mp hr).imp_right fun heq => ⟨⟨haddr, Or.inl hmethod⟩, ?_⟩
      rw [heq]
      exact hguard
    | update _ x haddr hmethod hguard =>
      refine (Table.mem_update.mp hr).imp And.left fun hx => ⟨⟨haddr, Or.inr hmethod⟩, ?_⟩
      rw [hx.2.1]
      exact hguard.2
    | delete => exact Or.inl (Table.mem_delete.mp hr).1
    | loseSaleLines gone _ hrows => exact Or.inl (List.mem_of_mem_filter (hrows ▸ hr))
  · dsimp only at hstep ⊢
    generalize d' .purchaseOrderRecord = T at hstep
    -- a purchase line is written to an order that is open, so to one that exists
    have hhas {x : OrderRecordRow} (hguard : PurchaseLineGuard d x) :
        (d .purchaseOrder).Has x.orderId := by
      obtain ⟨o, ho, hkey, -⟩ := hguard.isOpen
      exact ⟨o, ho, hkey⟩
    intro r hr
    cases hstep with
    | same => exact Or.inl hr
    | insert _ x haddr hmethod hguard =>
      refine (Table.mem_insert.mp hr).imp_right fun heq => ⟨⟨haddr, Or.inl hmethod⟩, ?_⟩
      rw [heq]
      exact hhas hguard
    | update _ x haddr hmethod hguard =>
      refine (Table.mem_update.mp hr).imp And.left fun hx => ⟨⟨haddr, Or.inr hmethod⟩, ?_⟩
      rw [hx.2.1]
      exact hhas hguard.2
    | delete => exact Or.inl (Table.mem_delete.mp hr).1
    | losePurchaseLines gone _ hopen hgone hrows =>
      exact Or.inl (List.mem_of_mem_filter (hrows ▸ hr))

/-- An accepted request keeps an order, or leaves no line of it. -/
theorem Effect.order_kept (h : Effect p req d d') {fk : ForeignKey Row} (hfk : fk ∈ lineOwners)
    {key : Cell} (hkey : (d fk.parent).Has key) :
    (d' fk.parent).Has key ∨ ∀ r ∈ (d' fk.child).rows, fk.column r.2 ≠ key := by
  -- what is left of an order table from which the order `key'` is deleted
  have hdeleted {d₁ : Db e} {key' : Cell} {t : TableName} (hparent : fk.parent = t)
      (hsame : d₁ fk.parent = d fk.parent) (hok : d₁.delete t key' = .ok d')
      (hlines : ∀ r ∈ (d' fk.child).rows, fk.column r.2 ≠ key') :
      (d' fk.parent).Has key ∨ ∀ r ∈ (d' fk.child).rows, fk.column r.2 ≠ key := by
    subst hparent
    by_cases heq : key' = key
    · exact Or.inr (heq ▸ hlines)
    · refine Or.inl ?_
      rw [Database.put_self hok, Table.has_delete, hsame]
      exact ⟨hkey, heq⟩
  cases h with
  | read => exact Or.inl hkey
  | insert t x haddr hmethod hguard hutf8 hok =>
    refine Or.inl ?_
    by_cases ht : fk.parent = t
    · subst ht
      rw [Database.put_self hok, Table.has_insert]
      exact Or.inl hkey
    · rwa [Database.put_of_ne hok ht]
  | update t x haddr hmethod hid hguard hutf8 hok =>
    refine Or.inl ?_
    by_cases ht : fk.parent = t
    · subst ht
      rwa [Database.put_self hok, Table.has_update]
    · rwa [Database.put_of_ne hok ht]
  | delete t haddr hmethod hid hguard hok =>
    -- no order is deleted by itself
    have ht : fk.parent ≠ t := by
      rintro rfl
      rcases lineOwners_cases hfk with rfl | rfl <;> exact hguard
    rw [Database.put_of_ne hok ht]
    exact Or.inl hkey
  | @deleteSaleOrder d₁ _ haddr hmethod hhas herase hok =>
    rcases lineOwners_cases hfk with rfl | rfl
    · refine hdeleted rfl (herase.others _ (by decide)) hok fun r hr => ?_
      rw [Database.put_of_ne hok (by decide), herase.rows] at hr
      simpa using List.of_mem_filter hr
    · refine Or.inl ?_
      rwa [Database.put_of_ne hok (by decide), herase.others _ (by decide)]
  | @deletePurchaseOrder d₁ _ haddr hmethod hopen herase hok =>
    rcases lineOwners_cases hfk with rfl | rfl
    · refine Or.inl ?_
      rwa [Database.put_of_ne hok (by decide), herase.others _ (by decide)]
    · refine hdeleted rfl (herase.others _ (by decide)) hok fun r hr => ?_
      rw [Database.put_of_ne hok (by decide), herase.rows] at hr
      simpa using List.of_mem_filter hr
  | receive hpost hreceives =>
    refine Or.inl ?_
    rcases lineOwners_cases hfk with rfl | rfl
    · rwa [hreceives.others _ (by decide) (by decide)]
    · obtain ⟨o, ho, hid, hopen, hreceived⟩ := hreceives.received
      rwa [hreceived, Table.has_update]

/-- Every request leaves each line with its order. -/
theorem NamesParent.step {fk : ForeignKey Row} (h : NamesParent fk d) (hfk : fk ∈ lineOwners)
    (hstep : Step p now req faults d reply d') : NamesParent fk d' := by
  intro r hr
  -- the order was there before the request
  have hbefore : (d fk.parent).Has (fk.column r.2) :=
    (line_step hfk (hstep.table fk.child) r hr).elim (h r) And.right
  have hlog : fk.parent ≠ .log ∧ fk.child ≠ .log ∧ fk.parent ≠ .salesOrderRecord ∧
      fk.parent ≠ .purchaseOrderRecord := by
    rcases lineOwners_cases hfk with rfl | rfl <;> decide
  cases hstep with
  | accepted hans heffect haudit =>
    -- the audit entry touches neither table
    rw [haudit.eq_of_ne hlog.2.1] at hr
    rw [haudit.eq_of_ne hlog.1]
    exact (heffect.order_kept hfk hbefore).resolve_right fun hnone => hnone r hr rfl
  | rejected ex hreply hex heq => rwa [heq]
  | aborted ex hreply hfault habort => rwa [habort.eq_of_ne hlog.2.2.1 hlog.2.2.2]

theorem namesParent_seed {fk : ForeignKey Row} (hfk : fk ∈ lineOwners) :
    NamesParent fk (seed e) := by
  have hall : ∀ fk ∈ lineOwners, ∀ r ∈ (Table.ofRows (seedRows fk.child)).rows,
      (Table.ofRows (seedRows fk.parent)).Has (fk.column r.2) := by decide
  exact hall fk hfk

/-- **No orphan lines.** Whichever constraints the engine enforces, in every reachable state
each purchase line names a purchase order and each sales line names a sales order. -/
theorem lines_have_orders (p : Platform) (e : Enforcement) {s : Session (Db e) Exception}
    (hs : (server p e).Reachable s) :
    (∀ r ∈ (s.store .purchaseOrderRecord).rows, (s.store .purchaseOrder).Has r.2.orderId) ∧
      ∀ r ∈ (s.store .salesOrderRecord).rows, (s.store .saleOrder).Has r.2.orderId := by
  have hall (fk : ForeignKey Row) (hfk : fk ∈ lineOwners) : NamesParent fk s.store := by
    obtain ⟨evs, rfl⟩ := hs
    have hrun := Machine.run_invariant (M := server p e)
      (I := fun s => (server p e).Reachable s ∧ NamesParent fk s.store)
      (fun s ev hI => ⟨hI.1.step ev, hI.2.step hfk (Server.step_spec hI.1 ev)⟩)
      ⟨(server p e).reachable_init, namesParent_seed hfk⟩ evs
    exact hrun.2
  have hsale := hall ⟨.salesOrderRecord, OrderRecordRow.orderId, .saleOrder⟩ List.mem_cons_self
  have hpurchase := hall ⟨.purchaseOrderRecord, OrderRecordRow.orderId, .purchaseOrder⟩
    (List.mem_cons_of_mem _ List.mem_cons_self)
  exact ⟨hpurchase, hsale⟩

/-- A second sales order with a line, after which the order of the initial setup is deleted, by
an engine that enforces no references. -/
def replaceSaleOrder : Session (Db ⟨false, true⟩) Exception :=
  (server .plain _).run (server .plain _).init
    [.plain "sales" "orders" "POST" ""
        [("date", "2024-05-01"), ("userId", "1"), ("contactId", "1"), ("employeeId", "1"),
          ("status", "New")],
      .plain "sales" "order-records" "POST" ""
        [("orderId", "2"), ("productTypeId", "1"), ("quantity", "5"), ("price", "2")],
      .plain "sales" "orders" "DELETE" "01" []]

/-- The line of the deleted order is gone, and the other line has its order. -/
theorem lines_have_orders_replaced :
    (replaceSaleOrder.store .salesOrderRecord).rows.length = 1 ∧
    (∀ r ∈ (replaceSaleOrder.store .purchaseOrderRecord).rows,
      (replaceSaleOrder.store .purchaseOrder).Has r.2.orderId) ∧
    ∀ r ∈ (replaceSaleOrder.store .salesOrderRecord).rows,
      (replaceSaleOrder.store .saleOrder).Has r.2.orderId :=
  ⟨by decide +kernel, lines_have_orders .plain _ ⟨_, rfl⟩⟩

end SageStore
