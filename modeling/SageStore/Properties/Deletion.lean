import SageStore.Foundation.Trace
import SageStore.Properties.PurchaseOrders

/-!
# Deleting an order, call by call

`deleteOrder` of both modules reads the lines of the order, deletes them one by one, and then
deletes the order. Nothing of this runs in a transaction, so a call that fails half-way leaves
the order without some of its lines, or without all of them.

`order_deletion_iff` says at which calls that happens. The deletion has a trace (`Traces`): the
store stays what it is while the module reads, then loses one line with each call
(`traces_deleteEach`), and the order with the last call. The stores between the first and the
last deletion are the ones that are neither the old state nor the wanted one.
-/

namespace SageStore

open Bytes Program BusinessLogic

variable {e : Enforcement} {p : Platform} {d d' : Db e}

/-! ### All or nothing -/

/-- The lines of the order with key `order`. -/
def linesOf (d : Db e) (lines : TableName) (orderId : Row lines → Cell) (order : Cell) :
    List (ℕ × Row lines) :=
  (d lines).rows.filter fun r => orderId r.2 = order

/-- The order and all its lines are gone, and nothing else is changed. -/
structure Deleted (d : Db e) (orders lines : TableName) (orderId : Row lines → Cell)
    (order : Cell) (d' : Db e) : Prop where
  row : d' orders = (d orders).delete order
  rows : (d' lines).rows = (d lines).rows.filter fun r => orderId r.2 ≠ order
  seq : (d' lines).seq = (d lines).seq
  others : ∀ t, t ≠ orders → t ≠ lines → d' t = d t

/-- The order is deleted with all its lines, or nothing is changed. -/
def AllOrNothing (d : Db e) (orders lines : TableName) (orderId : Row lines → Cell)
    (order : Cell) (d' : Db e) : Prop :=
  d' = d ∨ Deleted d orders lines orderId order d'

/-- The stores `ds` lead line by line to the store `d'`: there is one for each line of the
order, none of them is all or nothing, and in `d'` the order is deleted. -/
structure LeadsTo (d : Db e) (orders lines : TableName) (orderId : Row lines → Cell)
    (order : Cell) (ds : List (Db e)) (d' : Db e) : Prop where
  length : ds.length = (linesOf d lines orderId order).length
  between : ∀ (j : ℕ) d₁, ds[j]? = some d₁ → ¬ AllOrNothing d orders lines orderId order d₁
  deleted : Deleted d orders lines orderId order d'

/-- A store in which some lines are gone and the order is not is neither the one before the
deletion nor the one after it. -/
theorem not_allOrNothing {lines orders : TableName} {orderId : Row lines → Cell} {order : Cell}
    {named : List OrderRecord} (h : ErasesNamed d lines named d') (hhas : (d orders).Has order)
    (hne : lines ≠ orders) (hgone : ∃ r ∈ (d lines).rows, decimal r.1 ∈ named.map OrderRecord.id) :
    ¬ AllOrNothing d orders lines orderId order d' := by
  rintro (rfl | hdeleted)
  · obtain ⟨r, hr, hmem⟩ := hgone
    rw [h.rows, List.mem_filter] at hr
    exact absurd hmem (by simpa using hr.2)
  · have horders := hdeleted.row
    rw [h.others orders hne.symm] at horders
    rw [horders, Table.has_delete] at hhas
    exact hhas.2 rfl

/-! ### The trace of a deletion -/

/-- A look-up is one call, which leaves the database. -/
theorem traces_getByField {t : TableName} {E : Type} (r : Repository t E) (c : Column t)
    (v : Bytes) (d : Db e) :
    Traces (r.getByField p c v) d [d] (((d t).rows.filter fun x => c.Matches p v x).map fun x =>
      r.fromCurrentRow x.1 x.2) :=
  Traces.query rfl

/-- A deletion is one call. -/
theorem traces_deleteResource {t : TableName} {E : Type} (r : Repository t E) {id : Bytes}
    (h : d.delete t (p.cell id) = .ok d') : Traces (r.deleteResource p id) d [d'] () := by
  unfold Repository.deleteResource Repository.executeStatement
  refine Traces.statement ?_
  dsimp only
  rw [h]
  rfl

/-- The check that an entity exists is one look-up. -/
theorem traces_ensureEntityExists {t : TableName} {E : Type} (repository : Repository t E)
    {c : Column t} {value : Bytes} (component message : String)
    (h : ∃ r ∈ (d t).rows, c.Matches p value r) :
    Traces (ensureEntityExists p repository c value component message) d [d] () := by
  refine (traces_getByField repository c value d).bind_nil ?_
  obtain ⟨r, hr, hmatch⟩ := h
  rw [if_neg]
  · exact Traces.pure _ _
  · rw [List.isEmpty_iff]
    exact List.ne_nil_of_mem (List.mem_map_of_mem (mem_matching.mpr ⟨hr, hmatch⟩))

/-- Rows that are erased first and rows that are erased then are erased. -/
theorem Erases.trans {t : TableName} {gone gone' : ℕ × Row t → Bool} {d₁ : Db e}
    (h : Erases d t gone d₁) (h' : Erases d₁ t gone' d') :
    Erases d t (fun r => gone r || gone' r) d' where
  rows := by
    rw [h'.rows, h.rows, List.filter_filter]
    refine List.filter_congr fun r _ => ?_
    rw [Bool.not_or, Bool.and_comm]
  seq := h'.seq.trans h.seq
  others t' ht' := (h'.others t' ht').trans (h.others t' ht')

section Erasing

variable {lines orders : TableName} {E : Type} (records : Repository lines OrderRecord)

/-- **Deleting lines one by one**: after `j` calls the first `j` lines are gone. -/
theorem traces_deleteEach (hlines : ∀ fk ∈ references, fk.parent ≠ lines)
    (found : List OrderRecord) (hfound : ∀ x ∈ found, ∃ i < 2 ^ 63, x.id = decimal i)
    (d : Db e) :
    ∃ ds, Traces (forM found fun record => records.deleteResource p record.id) d ds () ∧
      ds.length = found.length ∧
      ∀ j d', (d :: ds)[j]? = some d' → ErasesNamed d lines (found.take j) d' := by
  induction found generalizing d with
  | nil =>
    refine ⟨[], Traces.pure _ _, rfl, fun j d' hj => ?_⟩
    cases j with
    | zero =>
      obtain rfl : d = d' := by simpa using hj
      exact ⟨by simp, rfl, fun _ _ => rfl⟩
    | succ j => simp at hj
  | cons record found ih =>
    obtain ⟨i, hlt, hi⟩ := hfound record List.mem_cons_self
    -- no row refers to a line, so its deletion succeeds
    obtain ⟨d₁, hd₁⟩ : ∃ d₁, d.delete lines (p.cell record.id) = .ok d₁ :=
      Database.delete_isOk fun fk hfk hp => absurd hp (hlines fk (mem_references_of_mem hfk))
    have herase : ErasesNamed d lines [record] d₁ := by
      refine ⟨?_, ?_, fun t ht => Database.put_of_ne hd₁ ht⟩
      · rw [Database.put_self hd₁, Table.delete_rows, hi, p.cell_decimal hlt]
        refine List.filter_congr fun r _ => ?_
        simp [hi, decimal_inj]
      · rw [Database.put_self hd₁, Table.delete_seq]
    obtain ⟨ds, htraces, hlength, hstores⟩ :=
      ih (fun x hx => hfound x (List.mem_cons_of_mem _ hx)) d₁
    refine ⟨d₁ :: ds, ?_, by rw [List.length_cons, List.length_cons, hlength], fun j d' hj => ?_⟩
    · rw [List.forM_cons]
      exact (traces_deleteResource records hd₁).bind htraces
    · cases j with
      | zero =>
        obtain rfl : d = d' := by simpa using hj
        exact ⟨by simp, rfl, fun _ _ => rfl⟩
      | succ j =>
        rw [List.getElem?_cons_succ] at hj
        refine (herase.trans (hstores j d' hj)).congr fun r _ => ?_
        simp [List.take_succ_cons, Bool.decide_or]

/-- **Deleting an order**: one call reads its lines, one call deletes each of them, and one call
deletes the order. -/
theorem traces_eraseOrder (orderId : Row lines → Cell) (repository : Repository orders E)
    (resourceId : Bytes) (hid : ∀ i x, (records.fromCurrentRow i x).id = decimal i)
    (hlines : ∀ fk ∈ references, fk.parent ≠ lines)
    (horders : ∀ fk ∈ references, fk.parent = orders → fk = ⟨lines, orderId, orders⟩)
    (hne : lines ≠ orders) (hhas : (d orders).Has (p.cell resourceId)) :
    ∃ ds d', Traces (eraseOrder p records orderId repository resourceId) d
        (d :: (ds ++ [d'])) () ∧
      LeadsTo d orders lines orderId (p.cell resourceId) ds d' := by
  have hids : ∀ x ∈ (linesOf d lines orderId (p.cell resourceId)).map fun r =>
      records.fromCurrentRow r.1 r.2, ∃ i < 2 ^ 63, x.id = decimal i := by
    intro x hx
    obtain ⟨r, hr, rfl⟩ := List.mem_map.mp hx
    exact ⟨r.1, Database.key_lt (List.mem_of_mem_filter hr), hid r.1 r.2⟩
  obtain ⟨ds, htraces, hlength, hstores⟩ := traces_deleteEach (p := p) records hlines _ hids d
  rw [List.length_map] at hlength
  -- after the last line is deleted, no row is left that refers to the order
  have hlast : Erases d lines (fun r => orderId r.2 = p.cell resourceId) (ds.getLastD d) := by
    have hend := hstores ds.length (ds.getLastD d) ?_
    · rw [hlength, ← List.length_map (f := fun r => records.fromCurrentRow r.1 r.2),
        List.take_length] at hend
      exact hend.erases records orderId hid
    · rw [List.getLastD_eq_getLast?, List.getLast?_eq_getElem?]
      cases ds with
      | nil => rfl
      | cons d₁ ds => simp
  obtain ⟨d', hd'⟩ : ∃ d', (ds.getLastD d).delete orders (p.cell resourceId) = .ok d' := by
    refine Database.delete_isOk fun fk hfk hp row hrow hkey => ?_
    obtain rfl := horders fk (mem_references_of_mem hfk) hp
    rw [hlast.rows, List.mem_filter] at hrow
    have hnot : ¬ orderId row.2 = p.cell resourceId := by simpa using hrow.2
    exact hnot hkey
  refine ⟨ds, d', ?_, hlength, fun j d₁ hj => ?_, ?_⟩
  · refine (traces_getByField records (.integer orderId) resourceId d).bind ?_
    exact htraces.bind (traces_deleteResource repository hd')
  · -- a store between the deletions lacks the first line of the order
    have hlt : j < ds.length := (List.getElem?_eq_some_iff.mp hj).1
    refine not_allOrNothing (hstores (j + 1) d₁ hj) hhas hne ?_
    cases hfound : linesOf d lines orderId (p.cell resourceId) with
    | nil =>
      rw [hlength, hfound] at hlt
      exact absurd hlt (Nat.not_lt_zero j)
    | cons r rest =>
      have hr : r ∈ linesOf d lines orderId (p.cell resourceId) := hfound ▸ List.mem_cons_self
      refine ⟨r, (List.mem_filter.mp hr).1, ?_⟩
      rw [List.map_cons, List.take_succ_cons, List.map_cons, hid]
      exact List.mem_cons_self
  · exact
      { row := by rw [Database.put_self hd', hlast.others _ hne.symm]
        rows := by
          rw [Database.put_of_ne hd' hne, hlast.rows]
          exact List.filter_congr fun r _ => by simp
        seq := by rw [Database.put_of_ne hd' hne, hlast.seq]
        others := fun t horder hline => by
          rw [Database.put_of_ne hd' horder, hlast.others t hline] }

end Erasing

/-! ### Which calls may fail -/

/-- **When a deletion is all or nothing.** A program reads with its first `r` calls, and then
deletes the order line by line. It is all or nothing unless the first call that fails comes
after the first line is deleted and before the order is. -/
theorem allOrNothing_iff {lines orders : TableName} {orderId : Row lines → Cell} {order : Cell}
    {x : Task e Unit} {r : ℕ} {ds : List (Db e)}
    (hx : Traces x d (List.replicate r d ++ (ds ++ [d'])) ())
    (hleads : LeadsTo d orders lines orderId order ds d') (snap : Option (Db e))
    (faults : List (Option Exception)) :
    AllOrNothing d orders lines orderId order (x.exec ⟨d, snap, faults⟩).2.store ↔
      ∀ k, FirstFault faults k → ¬ (r < k ∧ k ≤ r + (linesOf d lines orderId order).length) := by
  rw [← hleads.length]
  have hlength : (List.replicate r d ++ (ds ++ [d'])).length = r + ds.length + 1 := by
    simp [Nat.add_assoc]
  by_cases hfault : ∃ k, FirstFault faults k ∧ k ≤ r + ds.length
  · -- the store is the one before the call that fails first
    obtain ⟨k, hk, hle⟩ := hfault
    have hstore := hx.store_of_firstFault hk (by rw [hlength]; omega) snap
    have honly : (∀ k, FirstFault faults k → ¬ (r < k ∧ k ≤ r + ds.length)) ↔ k ≤ r := by
      constructor
      · intro h
        by_contra hlt
        exact h k hk ⟨by omega, hle⟩
      · intro h k' hk' hbad
        obtain rfl := hk.unique hk'
        omega
    rw [honly]
    rw [← List.cons_append, ← List.replicate_succ] at hstore
    by_cases hkr : k ≤ r
    · -- the call fails while the program still reads, or as it deletes the first line
      rw [List.getElem?_append_left (by simp; omega), List.getElem?_replicate,
        if_pos (by omega)] at hstore
      exact iff_of_true (Or.inl (Option.some.inj hstore).symm) hkr
    · -- some lines are gone, and the order is there
      rw [List.getElem?_append_right (by simp; omega), List.length_replicate,
        List.getElem?_append_left (by omega)] at hstore
      exact iff_of_false (hleads.between _ _ hstore) hkr
  · -- no call of the program fails
    have hno : ∀ k, FirstFault faults k → ¬ k ≤ r + ds.length := fun k hk hle =>
      hfault ⟨k, hk, hle⟩
    have hstore := hx.store_of_noFault
      (fun k hk h => hno k h (by rw [hlength] at hk; omega)) snap
    rw [← List.append_assoc, List.getLastD_concat] at hstore
    rw [hstore]
    exact iff_of_true (Or.inr hleads.deleted) fun k hk hbad => hno k hk hbad.2

/-! ### The modules -/

/-- A look-up by key that finds a row finds that row first. -/
theorem exists_filter_eq_cons {t : TableName} {v : Bytes} {r : ℕ × Row t} (hr : r ∈ (d t).rows)
    (hkey : Cell.int r.1 = p.cell v) :
    ∃ rest, ((d t).rows.filter fun x => Column.id.Matches p v x) = r :: rest := by
  cases hf : (d t).rows.filter fun x => Column.id.Matches p v x with
  | nil =>
    have hmem : r ∈ (d t).rows.filter fun x => Column.id.Matches p v x :=
      mem_matching.mpr ⟨hr, hkey⟩
    rw [hf] at hmem
    exact absurd hmem List.not_mem_nil
  | cons r' rest =>
    obtain ⟨hr', hkey'⟩ := mem_matching.mp (hf ▸ List.mem_cons_self :
      r' ∈ (d t).rows.filter fun x => Column.id.Matches p v x)
    exact ⟨rest, by rw [Table.eq_of_mem_of_key hr' hr hkey' hkey]⟩

/-- A purchase order that may be deleted. -/
def PurchaseModule.Deletable (p : Platform) (d : Db e) (resourceId : Bytes) : Prop :=
  resourceId ≠ [] ∧ IsOpen d (p.cell resourceId)

/-- A sales order that may be deleted. -/
def SalesModule.Deletable (p : Platform) (d : Db e) (resourceId : Bytes) : Prop :=
  resourceId ≠ [] ∧ (d .saleOrder).Has (p.cell resourceId)

/-- An order is read by its identifier in two look-ups. -/
theorem PurchaseModule.traces_getOrderById {orderId : Bytes} {o : ℕ × PurchaseOrderRow}
    (ho : o ∈ (d .purchaseOrder).rows) (hkey : Cell.int o.1 = p.cell orderId) :
    Traces (getOrderById p orderId) d [d, d] (purchaseOrderRepository.fromCurrentRow o.1 o.2) := by
  obtain ⟨rest, hfound⟩ := exists_filter_eq_cons (d := d) ho hkey
  refine (traces_ensureEntityExists purchaseOrderRepository (c := .id) _ _
    ⟨o, ho, hkey⟩).bind ?_
  refine (traces_getByField purchaseOrderRepository .id orderId d).bind_nil ?_
  rw [hfound]
  exact Traces.pure _ _

/-- An open order passes the check. -/
theorem PurchaseModule.ensureOrderIsNotReceived_ok {order : PurchaseOrder} (message : String)
    (hknown : ManualStatus order.status ∨ order.status = utf8 "Received")
    (hopen : order.status ≠ utf8 "Received") :
    ensureOrderIsNotReceived order message = .ok () := by
  unfold ensureOrderIsNotReceived
  rw [normalizeOrderStatus_self hknown]
  exact if_neg hopen

/-- The deletion of an open purchase order reads with three calls, and then erases. -/
theorem PurchaseModule.traces_deleteOrder (hknown : StatusesKnown d) {resourceId : Bytes}
    (h : Deletable p d resourceId) :
    ∃ ds d', Traces (deleteOrder p resourceId) d (List.replicate 3 d ++ (ds ++ [d'])) () ∧
      LeadsTo d .purchaseOrder .purchaseOrderRecord OrderRecordRow.orderId (p.cell resourceId)
        ds d' := by
  obtain ⟨hid, o, ho, hkey, hopen⟩ := h
  obtain ⟨ds, d', htraces, hleads⟩ := traces_eraseOrder (p := p) purchaseOrderRecordRepository
    OrderRecordRow.orderId purchaseOrderRepository resourceId (fun _ _ => rfl)
    (by simp [references]) (by simp [references]) (by decide) ⟨o, ho, hkey⟩
  refine ⟨ds, d', ?_, hleads⟩
  refine Traces.lift_bind (if_neg hid) ?_
  refine (traces_getOrderById ho hkey).bind ?_
  refine Traces.lift_bind (a := ()) ?_ htraces
  exact ensureOrderIsNotReceived_ok _ (hknown o ho) hopen

/-- The deletion of a sales order reads with two calls, and then erases. -/
theorem SalesModule.traces_deleteOrder {resourceId : Bytes} (h : Deletable p d resourceId) :
    ∃ ds d', Traces (deleteOrder p resourceId) d (List.replicate 2 d ++ (ds ++ [d'])) () ∧
      LeadsTo d .saleOrder .salesOrderRecord OrderRecordRow.orderId (p.cell resourceId) ds d' := by
  obtain ⟨hid, hhas⟩ := h
  obtain ⟨ds, d', htraces, hleads⟩ := traces_eraseOrder (p := p) salesOrderRecordRepository
    OrderRecordRow.orderId saleOrderRepository resourceId (fun _ _ => rfl)
    (by simp [references]) (by simp [references]) (by decide) hhas
  refine ⟨ds, d', ?_, hleads⟩
  have hexists : Traces (ensureExisting p saleOrderRepository "SalesModule" "Sales order"
      "Sales order does not exist" resourceId) d [d] () :=
    Traces.lift_bind (if_neg hid)
      (traces_ensureEntityExists saleOrderRepository _ _ hhas)
  exact hexists.bind htraces

/-- **When an order deletion is all or nothing.** In every reachable state, for every order that
may be deleted and every schedule of failing calls: `deleteOrder` deletes the order with all its
lines or changes nothing, if and only if the first call that fails is not one after the deletion
of the first line. The purchase module makes three calls before it deletes the first line, and
the sales module two. -/
theorem order_deletion_iff (p : Platform) {s : Session (Db .full) Exception}
    (hs : (server p .full).Reachable s) (resourceId : Bytes) (faults : List (Option Exception)) :
    (PurchaseModule.Deletable p s.store resourceId →
      (AllOrNothing s.store .purchaseOrder .purchaseOrderRecord OrderRecordRow.orderId
          (p.cell resourceId)
          ((PurchaseModule.deleteOrder p resourceId).exec { s with faults }).2.store ↔
        ∀ k, FirstFault faults k → ¬ (3 < k ∧ k ≤ 3 + (linesOf s.store .purchaseOrderRecord
          OrderRecordRow.orderId (p.cell resourceId)).length))) ∧
    (SalesModule.Deletable p s.store resourceId →
      (AllOrNothing s.store .saleOrder .salesOrderRecord OrderRecordRow.orderId
          (p.cell resourceId)
          ((SalesModule.deleteOrder p resourceId).exec { s with faults }).2.store ↔
        ∀ k, FirstFault faults k → ¬ (2 < k ∧ k ≤ 2 + (linesOf s.store .salesOrderRecord
          OrderRecordRow.orderId (p.cell resourceId)).length))) := by
  have hknown := Server.statusesKnown hs
  -- three reads come before the first deletion of a purchase order, two before that of a sale
  refine ⟨fun h => ?_, fun h => ?_⟩
  · obtain ⟨ds, d', htraces, hleads⟩ := PurchaseModule.traces_deleteOrder hknown h
    exact allOrNothing_iff htraces hleads s.snapshot faults
  · obtain ⟨ds, d', htraces, hleads⟩ := SalesModule.traces_deleteOrder h
    exact allOrNothing_iff htraces hleads s.snapshot faults

/-- The deletion of the purchase order of the initial setup, whose call number `k` fails. -/
def failingDeletion (k : ℕ) : Except Exception Unit × Session (Db .full) Exception :=
  (PurchaseModule.deleteOrder .plain "1" : Task .full Unit).exec
    { (server .plain .full).init with
      faults := List.replicate k none ++ [some (.std "disk I/O error")] }

theorem firstFault_replicate {ε : Type} (k : ℕ) (ex : ε) :
    FirstFault (List.replicate k none ++ [some ex]) k := by
  refine ⟨⟨ex, by simp⟩, fun i hi e => ?_⟩
  rw [List.getElem?_append_left (by simpa using hi), List.getElem?_replicate, if_pos hi]
  simp

/-- When the deletion of its line fails, the first purchase order is as it was. -/
theorem order_deletion_iff_firstOrder :
    AllOrNothing (server .plain .full).init.store .purchaseOrder .purchaseOrderRecord
      OrderRecordRow.orderId (.int 1) (failingDeletion 3).2.store := by
  have hdeletable : PurchaseModule.Deletable .plain (server .plain .full).init.store "1" := by
    refine ⟨by decide, ?_⟩
    exact ⟨_, List.mem_singleton.mpr rfl, by decide, by decide⟩
  refine ((order_deletion_iff .plain (server .plain .full).reachable_init "1" _).1
    hdeletable).mpr fun k hk hbad => ?_
  obtain rfl := hk.unique (firstFault_replicate 3 _)
  exact absurd hbad.1 (lt_irrefl 3)

/-- When the deletion of the order itself fails, the first purchase order, which may be deleted,
is left without its line. -/
theorem orderStripped :
    (server .plain .full).Reachable (server .plain .full).init ∧
    PurchaseModule.Deletable .plain (server .plain .full).init.store "1" ∧
    ¬ AllOrNothing (server .plain .full).init.store .purchaseOrder .purchaseOrderRecord
      OrderRecordRow.orderId (.int 1) (failingDeletion 4).2.store := by
  refine ⟨(server .plain .full).reachable_init, ⟨by decide, ?_⟩, ?_⟩
  · exact ⟨_, List.mem_singleton.mpr rfl, by decide, by decide⟩
  · rintro (heq | hdeleted)
    · -- the line of the initial setup is gone
      have hlines : ((failingDeletion 4).2.store .purchaseOrderRecord).rows.length = 0 := by
        decide +kernel
      rw [heq] at hlines
      exact absurd hlines (by decide)
    · -- and the order is there
      have horders : ((failingDeletion 4).2.store .purchaseOrder).rows.length = 1 := by
        decide +kernel
      rw [hdeleted.row] at horders
      exact absurd horders (by decide)

end SageStore
