import Mathlib.Algebra.Order.BigOperators.Group.List
import SageStore.Foundation.Completion
import SageStore.Properties.Deletion
import SageStore.Properties.Spellings
import SageStore.Server.TextWrites

/-!
# Receipts that can be posted

`Receivable` lists what the receipt of an order needs: an employee, an open order with lines, and
stocks that fit 64 signed bits with what the lines carry. While no call fails, a receipt that has
all this is posted (`receiveOrder_completes`).

Nothing raises, step by step. A line's product exists, since the line refers to it. The quantity of
a product is raised line by line, and stays below the sum of all its lines (`planRecord_completes`).
The planned rows keep the products of stock rows distinct and refer to rows that are there
(`postMutation_completes`). And the order is written back with the user and the supplier that it
refers to already (`OrdersRefer`).
-/

namespace SageStore

open Bytes Program BusinessLogic

variable {e : Enforcement} {p : Platform} {now : UtcTime} {req : RequestData}

/-- Some line of the order is about the product. -/
def IsOrdered (d : Db e) (order product : ℕ) : Prop :=
  ∃ r ∈ purchaseLines d (.int order), r.2.productTypeId = .int product

/-- What the receipt of an order by an employee needs. -/
structure Receivable (d : Db e) (order employee : ℕ) : Prop where
  hasEmployee : (d .employee).Has (.int employee)
  isOpen : IsOpen d (.int order)
  hasLines : purchaseLines d (.int order) ≠ []
  fits : ∀ n : ℕ, IsOrdered d order n →
    stockOf d n + carried (purchaseLines d (.int order)) n ≤ 2 ^ 63 - 1

namespace PurchaseModule

/-! ### Quantities -/

/-- A quantity in range parses. -/
theorem parseNonNegativeQuantity_ok {n : ℕ} (h : n < 2 ^ 63) :
    parseNonNegativeQuantity (decimal n) = .ok (n : ℤ) := by
  unfold parseNonNegativeQuantity
  rw [if_neg (by simp), stoll_of_isDigits (isDigits_decimal n), digitsValue_decimal, if_pos h]
  rfl

/-- Two quantities whose sum fits are added. -/
theorem addQuantities_ok {m n : ℕ} (h : m + n < 2 ^ 63) :
    addQuantities (decimal m) (decimal n) = .ok ((m + n : ℕ) : ℤ) := by
  rw [addQuantities, parseNonNegativeQuantity_ok (by omega), parseNonNegativeQuantity_ok (by omega)]
  refine (if_neg (by omega)).trans ?_
  push_cast
  rfl

/-- A planned stock row can be raised as long as the sum is in range. -/
theorem raiseStock_isOk {employeeId : Bytes} {mutation : PlannedStockMutation} {m q : ℕ}
    (hquantity : mutation.stock.quantityAvailable = decimal m) (h : m + q < 2 ^ 63) :
    ∃ raised, raiseStock employeeId (decimal q) mutation = .ok raised := by
  rw [raiseStock, hquantity, addQuantities_ok h]
  exact ⟨_, rfl⟩

/-- An entry is changed if the change of every entry under its key succeeds. -/
theorem updateEntry_isOk {M : Type} {key : Bytes} {f : M → Except Exception M}
    {plan : List (Bytes × M)} (h : ∀ entry ∈ plan, entry.1 = key → ∃ m, f entry.2 = .ok m) :
    ∃ plan', updateEntry key f plan = .ok plan' := by
  induction plan with
  | nil => exact ⟨[], rfl⟩
  | cons entry plan ih =>
    obtain ⟨k, m⟩ := entry
    unfold updateEntry
    by_cases hk : k = key
    · obtain ⟨m', hm'⟩ := h (k, m) List.mem_cons_self hk
      rw [if_pos hk, show f m = .ok m' from hm']
      exact ⟨_, rfl⟩
    · obtain ⟨rest, hrest⟩ := ih fun entry hentry => h entry (List.mem_cons_of_mem _ hentry)
      rw [if_neg hk, hrest]
      exact ⟨_, rfl⟩

end PurchaseModule

/-! ### The planning loop -/

section Planning

variable {d : Db e} {snap : Option (Db e)}

/-- Lines carry no negative quantity. -/
theorem carried_nonneg (hwf : WellFormed d) {lines : List (ℕ × OrderRecordRow)}
    (hlines : lines ⊆ (d .purchaseOrderRecord).rows) (n : ℕ) : 0 ≤ carried lines n := by
  refine List.sum_nonneg fun q hq => ?_
  obtain ⟨r, hr, rfl⟩ := List.mem_map.mp hq
  obtain ⟨-, -, k, hk, -⟩ := hwf.lines r (hlines (List.mem_of_mem_filter hr))
  rw [hk]
  exact Int.natCast_nonneg k

namespace PurchaseModule

/-- **One turn of the planning loop finishes** when the line's product exists, and its stock fits
with what the lines so far carry. -/
theorem planRecord_completes (hwf : WellFormed d) {employeeId : Bytes}
    {done : List (ℕ × OrderRecordRow)} {ms : List Posting} (h : Plans d done ms)
    {r : ℕ × OrderRecordRow} (hr : r ∈ (d .purchaseOrderRecord).rows)
    (hhas : (d .productType).Has r.2.productTypeId)
    (hfits : ∀ n : ℕ, r.2.productTypeId = .int n →
      stockOf d n + carried (done ++ [r]) n ≤ 2 ^ 63 - 1) :
    Completes d snap
      (planRecord p employeeId (ms.map (entryOf employeeId)) (OrderRecord.fromCurrentRow r.1 r.2))
      fun plan d' => d' = d ∧
        ∃ ms', plan = ms'.map (entryOf employeeId) ∧ Plans d (done ++ [r]) ms' := by
  suffices hfinish : Completes d snap (planRecord p employeeId (ms.map (entryOf employeeId))
      (OrderRecord.fromCurrentRow r.1 r.2)) fun _ _ => True from
    hfinish.reads (planRecord_spec hwf h hr)
  obtain ⟨n, q, hlt, hn, hq, hproduct, hquantity⟩ := WellFormed.line_texts hwf hr
  -- what the lines carry with this one
  have hsum : stockOf d n + (carried done n + q) ≤ 2 ^ 63 - 1 := by
    have hthis : carried [r] n = q := by simp [carried, hn, hq]
    rw [← hthis, ← carried_append]
    exact hfits n hn
  have hexists : ∃ x ∈ (d .productType).rows, Column.id.Matches p (decimal n) x := by
    obtain ⟨x, hx, hkey⟩ := hhas
    exact ⟨x, hx, by rw [Column.Matches, p.cell_decimal hlt, hkey, hn]⟩
  unfold planRecord
  rw [hproduct, hquantity]
  refine (traces_ensureEntityExists productTypeRepository _ _ hexists).bind_completes rfl ?_
  by_cases hmem : n ∈ ms.map Posting.product
  · -- the entry of the product is raised
    rw [if_pos (any_entryOf.mpr hmem)]
    refine (Traces.pure (ms.map (entryOf employeeId)) d).bind_completes rfl ?_
    refine (Completes.lift (updateEntry_isOk fun entry hentry hkey => ?_)).mono fun _ _ _ => trivial
    obtain ⟨m, hm, rfl⟩ := List.mem_map.mp hentry
    obtain rfl : m.product = n := decimal_inj.mp hkey
    refine raiseStock_isOk rfl ?_
    have hm := h.quantity m hm
    omega
  · -- the product starts from its stock, and no line so far was about it
    rw [if_neg fun hc => hmem (any_entryOf.mp hc)]
    have hnone : carried done n = 0 :=
      carried_eq_zero fun r' hr' heq => hmem ((h.covers n).mpr ⟨r', hr', heq⟩)
    obtain ⟨row, k, hstock, htext, -⟩ := initialMutation_spec (p := p) hwf hlt employeeId rfl
    refine Traces.bind_completes ((traces_getByField inventoryRepository
      (.integer InventoryRow.productTypeId) (decimal n) d).bind_nil (Traces.pure _ _)) rfl ?_
    refine (Completes.lift (updateEntry_isOk fun entry hentry hkey => ?_)).mono fun _ _ _ => trivial
    rcases List.mem_append.mp hentry with hentry | hentry
    · obtain ⟨m, hm, rfl⟩ := List.mem_map.mp hentry
      exact absurd (List.mem_map.mpr ⟨m, hm, decimal_inj.mp hkey⟩) hmem
    · obtain rfl := List.mem_singleton.mp hentry
      refine raiseStock_isOk htext ?_
      omega

/-- **The planning loop finishes** when the products of the lines exist, and their stocks fit with
what all the lines carry. -/
theorem plan_completes (hwf : WellFormed d) (employeeId : Bytes)
    {lines : List (ℕ × OrderRecordRow)} (hlines : lines ⊆ (d .purchaseOrderRecord).rows)
    (hhas : ∀ r ∈ lines, (d .productType).Has r.2.productTypeId)
    (hfits : ∀ r ∈ lines, ∀ n : ℕ, r.2.productTypeId = .int n →
      stockOf d n + carried lines n ≤ 2 ^ 63 - 1) :
    Completes d snap
      ((lines.map fun r => OrderRecord.fromCurrentRow r.1 r.2).foldlM (planRecord p employeeId) [])
      fun plan d' => d' = d ∧ ∃ ms, plan = ms.map (entryOf employeeId) ∧ Plans d lines ms := by
  rw [List.foldlM_map]
  refine Completes.foldlM (I := fun done plan =>
    ∃ ms, plan = ms.map (entryOf employeeId) ∧ Plans d done ms) ⟨[], rfl, .nil⟩ ?_
  rintro done r rest _ hsplit ⟨ms, rfl, h⟩
  have hr : r ∈ lines := by
    rw [hsplit]
    exact List.mem_append_right done List.mem_cons_self
  refine planRecord_completes hwf h (hlines hr) (hhas r hr) fun n hn => ?_
  -- the lines that are left only add to what the lines so far carry
  have hrest : 0 ≤ carried rest n := by
    refine carried_nonneg hwf (fun r' hr' => hlines ?_) n
    rw [hsplit]
    exact List.mem_append_right done (List.mem_cons_of_mem r hr')
  have hsum : carried lines n = carried (done ++ [r]) n + carried rest n := by
    rw [← carried_append, hsplit, List.append_assoc]
    rfl
  have hall := hfits r hr n hn
  omega

end PurchaseModule

end Planning

/-! ### The writing loop -/

section Writing

variable {d : Db .full} {snap : Option (Db .full)}

/-- An insertion that the engine accepts finishes. -/
theorem add_completes {t : TableName} {E : Type} {d : Db e} {snap : Option (Db e)}
    (r : Repository t E) {x : E} (h : ∃ d', d.insert t (r.insertRow p x) = .ok d') :
    Completes d snap (r.add p x) fun _ _ => True := by
  obtain ⟨d', hok⟩ := h
  refine ⟨(), d', ?_, trivial⟩
  unfold Repository.add Repository.executeStatement
  rw [exec_statement]
  dsimp only
  rw [hok]
  rfl

/-- An update that the engine accepts finishes. -/
theorem update_completes {t : TableName} {E : Type} {d : Db e} {snap : Option (Db e)}
    (r : Repository t E) {x : E}
    (h : ∃ d', d.update t (p.cell (r.id x)) (r.updateRow p x) = .ok d') :
    Completes d snap (r.update p x) fun _ _ => True := by
  obtain ⟨d', hok⟩ := h
  exact ⟨(), d', exec_update r hok, trivial⟩

/-- The engine accepts a stock row of a product that exists and has none yet, for an employee who
exists, if a key is left for it. -/
theorem insert_stock_isOk {x : InventoryRow} (hkey : (d .inventory).KeysLeft 1)
    (hdistinct : (d .inventory).Distinct InventoryRow.productTypeId)
    (hnew : ∀ r ∈ (d .inventory).rows, r.2.productTypeId ≠ x.productTypeId)
    (hproduct : (d .productType).Has x.productTypeId)
    (hemployee : (d .employee).Has x.employeeId) : ∃ d', d.insert .inventory x = .ok d' := by
  refine Database.insert_isOk hkey (fun u hu ht => stock_unique (hdistinct.insert hnew) hu ht)
    fun fk hfk hc => ?_
  rcases stock_references hfk hc with rfl | rfl
  · exact Or.inr hproduct
  · exact Or.inr hemployee

/-- Each posting of a product without a stock row takes one key. -/
theorem seq_postings (employee : Cell) (ms : List Posting) (T : Table InventoryRow) :
    (ms.foldl (Posting.apply employee) T).seq = T.seq + ms.countP fun m => m.row.isNone := by
  induction ms generalizing T with
  | nil => rfl
  | cons m ms ih =>
    rw [List.foldl_cons, ih, List.countP_cons]
    obtain ⟨product, row, quantity⟩ := m
    cases row with
    | none => simp [Posting.apply, Nat.add_assoc, Nat.add_comm]
    | some i => simp [Posting.apply]

namespace PurchaseModule

/-- **One turn of the writing loop finishes**: the engine accepts the row that a posting writes. -/
theorem postMutation_completes {employeeId : Bytes} {employee : ℕ}
    (hcell : p.cell employeeId = .int employee) {m : Posting} (hm : m.InRange)
    (hfinds : m.Finds (d .inventory)) (hkey : m.row = none → (d .inventory).KeysLeft 1)
    (hdistinct : (d .inventory).Distinct InventoryRow.productTypeId)
    (hproduct : (d .productType).Has (.int m.product))
    (hemployee : (d .employee).Has (.int employee)) :
    Completes d snap (postMutation p (entryOf employeeId m).2) fun _ d' =>
      d' .inventory = m.apply (.int employee) (d .inventory) ∧
        ∀ t, t ≠ .inventory → d' t = d t := by
  suffices hfinish : Completes d snap (postMutation p (entryOf employeeId m).2) fun _ _ => True from
    hfinish.atomic (postMutation_spec hcell hm)
  obtain ⟨product, row, quantity⟩ := m
  have hproductCell : p.cell (decimal product) = .int product := p.cell_decimal hm.product
  have hquantityCell : p.cell (decimal quantity) = .int quantity := p.cell_decimal hm.quantity
  cases row with
  | none =>
    -- the product has no stock row yet, so the engine takes a new one
    have hok := insert_stock_isOk (x := ⟨.int product, .int quantity, .int employee⟩) (hkey rfl)
      hdistinct hfinds hproduct hemployee
    refine add_completes inventoryRepository ?_
    simpa [inventoryRepository, Inventory.row, entryOf, hcell, hproductCell, hquantityCell]
      using hok
  | some i =>
    -- the row keeps its product, so the engine takes the update
    obtain ⟨r, hfound, rfl⟩ := hfinds
    obtain ⟨hr, hown⟩ := stockRow_some hfound
    have hok := (InventoryModule.update_stock_isOk_iff
      (x := ⟨.int product, .int quantity, .int employee⟩) hdistinct hr hown (by simp)).mpr hemployee
    refine update_completes inventoryRepository ?_
    simpa [inventoryRepository, Inventory.row, entryOf, hcell, hproductCell, hquantityCell,
      p.cell_key hr] using hok

/-- **The writing loop finishes**, and applies the postings one after another. -/
theorem postAll_completes {employeeId : Bytes} {employee : ℕ}
    (hcell : p.cell employeeId = .int employee) {ms : List Posting} (hms : ∀ m ∈ ms, m.InRange)
    (hnodup : (ms.map Posting.product).Nodup) (hfinds : ∀ m ∈ ms, m.Finds (d .inventory))
    (hkeys : (d .inventory).KeysLeft (ms.countP fun m => m.row.isNone))
    (hdistinct : (d .inventory).Distinct InventoryRow.productTypeId)
    (hproduct : ∀ m ∈ ms, (d .productType).Has (.int m.product))
    (hemployee : (d .employee).Has (.int employee)) :
    Completes d snap (forM (ms.map (entryOf employeeId)) fun planned => postMutation p planned.2)
      fun _ d' => d' .inventory = ms.foldl (Posting.apply (.int employee)) (d .inventory) ∧
        ∀ t, t ≠ .inventory → d' t = d t := by
  rw [List.forM_map]
  refine Completes.forM (I := fun done (d' : Db .full) =>
    d' .inventory = done.foldl (Posting.apply (.int employee)) (d .inventory) ∧
      ∀ t, t ≠ .inventory → d' t = d t) ⟨rfl, fun _ _ => rfl⟩ ?_
  rintro done m rest d₁ hsplit ⟨hstock, hothers⟩
  have hm : m ∈ ms := by
    rw [hsplit]
    exact List.mem_append_right done List.mem_cons_self
  have hdone : done ⊆ ms := by
    rw [hsplit]
    exact List.subset_append_left done _
  rw [hsplit, List.map_append, List.map_cons] at hnodup
  have hbefore : (done.map Posting.product).Nodup := hnodup.of_append_left
  -- the postings before this one are about other products, so it still finds its row
  have hnotin : m.product ∉ done.map Posting.product := fun hmem =>
    List.disjoint_of_nodup_append hnodup hmem List.mem_cons_self
  have hfound : m.Finds (d₁ .inventory) := by
    rw [Posting.finds_iff, hstock,
      (stockRow_postings _ done hbefore fun m' hm' => hfinds m' (hdone hm')).2 _ hnotin]
    exact Posting.finds_iff.mp (hfinds m hm)
  have hdistinct₁ : (d₁ .inventory).Distinct InventoryRow.productTypeId := by
    rw [hstock]
    exact distinct_postings _ done hdistinct hbefore fun m' hm' => hfinds m' (hdone hm')
  -- the postings before this one have not taken its key
  have hkey : m.row = none → (d₁ .inventory).KeysLeft 1 := by
    intro hrow
    have hcount : (ms.countP fun m => m.row.isNone) =
        (done.countP fun m => m.row.isNone) + ((rest.countP fun m => m.row.isNone) + 1) := by
      rw [hsplit, List.countP_append, List.countP_cons, hrow]
      rfl
    unfold Table.KeysLeft at hkeys ⊢
    rw [hstock, seq_postings]
    omega
  refine (postMutation_completes hcell (hms m hm) hfound hkey hdistinct₁ ?_ ?_).mono fun _ d₂ hd₂ =>
    ⟨?_, fun t ht => ?_⟩
  · rw [hothers _ (by decide)]
    exact hproduct m hm
  · rw [hothers _ (by decide)]
    exact hemployee
  · rw [hd₂.1, hstock, List.foldl_append]
    rfl
  · rw [hd₂.2 t ht, hothers t ht]

end PurchaseModule

end Writing

/-! ### The order -/

/-- Every purchase order refers to a user and to a supplier; neither is NULL. -/
def OrdersRefer (d : Db e) : Prop :=
  ∀ o ∈ (d .purchaseOrder).rows, o.2.userId ≠ .null ∧ o.2.supplierId ≠ .null

theorem ordersRefer_seed : OrdersRefer (seed e) := by
  have h : ∀ o ∈ (Table.ofRows (seedRows .purchaseOrder)).rows,
      o.2.userId ≠ .null ∧ o.2.supplierId ≠ .null := by decide
  exact h

/-- An accepted request writes an order with the user and the supplier that it names. -/
theorem orderWritten {s : Session (Db e) Exception} (haddr : req.Addresses .purchaseOrder)
    (hmethod : req.method = utf8 "POST" ∨ req.method = utf8 "PUT")
    (hreply : utf8 "error" ∉ (executeTask p now req s).1.dataset) :
    RowWritten (t := .purchaseOrder) p req (fun x => x.userId ≠ .null ∧ x.supplierId ≠ .null)
      s.store (executeTask p now req s).2.store := by
  refine (rowMade haddr hmethod hreply).mono fun x hx => ?_
  cases hx with
  | described => exact ⟨p.cell_ne_null _, p.cell_ne_null _⟩

/-- Every request keeps the references of the orders. -/
theorem OrdersRefer.step {s : Session (Db e) Exception} (hs : (server p e).Reachable s)
    (h : OrdersRefer s.store) (ev : Event) : OrdersRefer ((server p e).step s ev).2.store := by
  have hstep := Server.step_spec hs ev
  by_cases hw : ev.request.Addresses .purchaseOrder ∧
      (ev.request.method = utf8 "POST" ∨ ev.request.method = utf8 "PUT")
  · by_cases hreply : utf8 "error" ∈ ((server p e).step s ev).1.dataset
    · -- a write that is not accepted writes nothing
      rwa [hstep.unchanged_of_error (write_ne hw.2).2 hreply]
    · obtain ⟨x, hx, ⟨-, hwritten⟩ | ⟨-, hwritten⟩⟩ :=
        orderWritten (s := { s with faults := ev.faults }) hw.1 hw.2 hreply
      · intro o ho
        rcases Table.mem_insert.mp (hwritten ▸ ho) with ho | rfl
        · exact h o ho
        · exact hx
      · intro o ho
        rcases Table.mem_update.mp (hwritten ▸ ho) with ⟨ho, -⟩ | ⟨-, heq, -⟩
        · exact h o ho
        · rw [heq]
          exact hx
  · have htable := hstep.table .purchaseOrder
    unfold OrdersRefer
    generalize ((server p e).step s ev).2.store .purchaseOrder = T at htable
    intro o ho
    cases htable with
    | same => exact h o ho
    | insert _ x haddr hmethod => exact absurd ⟨haddr, Or.inl hmethod⟩ hw
    | update _ x haddr hmethod => exact absurd ⟨haddr, Or.inr hmethod⟩ hw
    | delete _ haddr hmethod hguard => exact hguard.elim
    | deletePurchaseOrder => exact h o (Table.mem_delete.mp ho).1
    | receiveOrder o' =>
      -- what a receipt writes back is bound as a text, so it is not NULL
      rcases Table.mem_update.mp ho with ⟨ho, -⟩ | ⟨-, heq, -⟩
      · exact h o ho
      · rw [heq]
        exact ⟨p.cell_ne_null _, p.cell_ne_null _⟩

theorem Server.ordersRefer {s : Session (Db e) Exception} (hs : (server p e).Reachable s) :
    OrdersRefer s.store := by
  have hinvariant := hs.invariant
    (I := fun s => (server p e).Reachable s ∧ OrdersRefer s.store)
    ⟨(server p e).reachable_init, ordersRefer_seed⟩ fun s ev hI => ⟨hI.1.step ev, hI.2.step hI.1 ev⟩
  exact hinvariant.2

/-- A key that is read as a text is the same key when the text is bound again. -/
theorem Platform.cell_toText {t : TableName} {d : Db e} {key : Cell} (h : (d t).Has key) :
    p.cell key.toText = key := by
  obtain ⟨r, hr, rfl⟩ := h
  rw [Cell.toText_int, ofInt_natCast, p.cell_key hr]

section Order

variable {d : Db .full} {o : ℕ × PurchaseOrderRow}

/-- The user and the supplier of an order are written back as they were. -/
theorem OrdersRefer.cells (h : OrdersRefer d) (ho : o ∈ (d .purchaseOrder).rows) :
    p.cell o.2.userId.toText = o.2.userId ∧ p.cell o.2.supplierId.toText = o.2.supplierId := by
  have huser : o.2.userId = .null ∨ (d .user).Has o.2.userId :=
    refers ⟨.purchaseOrder, PurchaseOrderRow.userId, .user⟩ (by simp [references]) ho
  have hsupplier : o.2.supplierId = .null ∨ (d .supplier).Has o.2.supplierId :=
    refers ⟨.purchaseOrder, PurchaseOrderRow.supplierId, .supplier⟩ (by simp [references]) ho
  exact ⟨Platform.cell_toText (huser.resolve_left (h o ho).1),
    Platform.cell_toText (hsupplier.resolve_left (h o ho).2)⟩

/-- The engine accepts an order that keeps its user and its supplier. -/
theorem update_order_isOk (ho : o ∈ (d .purchaseOrder).rows) {x : PurchaseOrderRow}
    (huser : x.userId = o.2.userId) (hsupplier : x.supplierId = o.2.supplierId) :
    ∃ d', d.update .purchaseOrder (.int o.1) x = .ok d' := by
  refine Database.update_isOk (fun u hu ht => ?_) fun fk hfk hc => ?_
  · rcases mem_uniqueKeys hu with rfl | rfl <;> cases ht
  · have hrefs : ∀ fk ∈ references, fk.child = .purchaseOrder →
        fk = ⟨.purchaseOrder, PurchaseOrderRow.userId, .user⟩ ∨
          fk = ⟨.purchaseOrder, PurchaseOrderRow.supplierId, .supplier⟩ := by simp [references]
    rcases hrefs fk (mem_references_of_mem hfk) hc with rfl | rfl
    · have href := d.references _ hfk o ho
      dsimp only at href ⊢
      rw [huser]
      exact href
    · have href := d.references _ hfk o ho
      dsimp only at href ⊢
      rw [hsupplier]
      exact href

end Order

/-! ### The receipt -/

/-- A field of the request holds the digits of the positive number `n`, which fits 64 signed
bits. -/
structure HoldsKey (request : Dataset) (field : String) (n : ℕ) : Prop where
  digits : isDigits (getOptionalDatasetValue request field) = true
  value : digitsValue (getOptionalDatasetValue request field) = n
  pos : 0 < n
  lt : n < 2 ^ 63

section Receipt

variable {request : Dataset} {field : String} {n : ℕ}

/-- The field is bound as the key. -/
theorem HoldsKey.cell (h : HoldsKey request field n) :
    p.cell (getOptionalDatasetValue request field) = .int n := by
  rw [p.cell_of_isDigits h.digits (h.value ▸ h.lt), h.value]

theorem HoldsKey.traces (h : HoldsKey request field n) (component : String) (d : Db e) :
    Traces (liftM (getRequiredPositiveInteger request field component) : Task e Bytes) d []
      (getOptionalDatasetValue request field) :=
  Traces.lift (getRequiredPositiveInteger_ok rfl h.digits (h.value ▸ h.pos) (h.value ▸ h.lt)) d

/-- How many stock rows the receipt of the order adds: one for each product on the lines that has
none. -/
def newStocks (d : Db e) (order : ℕ) : ℕ :=
  (((purchaseLines d (.int order)).map fun r => r.2.productTypeId).dedup.filter fun product =>
    (d .inventory).rows.all fun r => r.2.productTypeId ≠ product).length

/-- The postings of a plan that add a stock row are so many. -/
theorem countP_le_newStocks {d : Db e} {order : ℕ} {ms : List Posting}
    (h : Plans d (purchaseLines d (.int order)) ms) :
    (ms.countP fun m => m.row.isNone) ≤ newStocks d order := by
  have hlength : (ms.countP fun m => m.row.isNone) =
      ((ms.filter fun m => m.row.isNone).map fun m => Cell.int m.product).length := by
    rw [List.length_map, List.countP_eq_length_filter]
  rw [hlength, newStocks]
  refine (List.subperm_of_subset ?_ fun product hmem => ?_).length_le
  · -- the products of a plan are distinct, and so are their cells
    have hcells : (ms.map fun m => Cell.int m.product).Nodup := by
      have := h.nodup.map (f := fun n : ℕ => Cell.int n) fun m n heq => by simpa using heq
      rwa [List.map_map] at this
    exact hcells.sublist (List.filter_sublist.map _)
  · obtain ⟨m, hm, rfl⟩ := List.mem_map.mp hmem
    obtain ⟨hm, hrow⟩ := List.mem_filter.mp hm
    obtain ⟨r, hr, heq⟩ := (h.covers m.product).mp (List.mem_map_of_mem hm)
    refine List.mem_filter.mpr ⟨List.mem_dedup.mpr (heq ▸ List.mem_map_of_mem hr), ?_⟩
    -- a posting without a row has found none
    have hnone := h.finds m hm
    unfold Posting.Finds at hnone
    rw [Option.isNone_iff_eq_none.mp hrow] at hnone
    exact List.all_eq_true.mpr fun r hr => decide_eq_true (hnone r hr)

/-- The product of a line exists, since the line refers to it. -/
theorem WellFormed.line_product {d : Db .full} (hwf : WellFormed d) {r : ℕ × OrderRecordRow}
    (hr : r ∈ (d .purchaseOrderRecord).rows) : (d .productType).Has r.2.productTypeId := by
  obtain ⟨-, ⟨n, hn, -⟩, -⟩ := hwf.lines r hr
  have href : r.2.productTypeId = .null ∨ (d .productType).Has r.2.productTypeId :=
    refers ⟨.purchaseOrderRecord, OrderRecordRow.productTypeId, .productType⟩
      (by simp [references]) hr
  exact href.resolve_left (by simp [hn])

/-- **A receipt that can be posted is posted**, while no call fails, that is also for want of a
key. -/
theorem PurchaseModule.receiveOrder_completes {d : Db .full} (hwf : WellFormed d)
    (hknown : StatusesKnown d) (hrefer : OrdersRefer d)
    (hdistinct : (d .inventory).Distinct InventoryRow.productTypeId) {order employee : ℕ}
    (horder : HoldsKey request "id" order) (hemployee : HoldsKey request "employeeId" employee)
    (hkeys : (d .inventory).KeysLeft (newStocks d order)) (h : Receivable d order employee) :
    Completes d none (receiveOrder p request) fun _ _ => True := by
  have hcell := horder.cell (p := p)
  have hproducts : ∀ r ∈ purchaseLines d (.int order), (d .productType).Has r.2.productTypeId :=
    fun r hr => hwf.line_product (List.mem_of_mem_filter hr)
  obtain ⟨o, ho, hkey, hopen⟩ := h.isOpen
  unfold receiveOrder
  refine (horder.traces "PurchaseModule" d).bind_completes rfl ?_
  refine (hemployee.traces "PurchaseModule" d).bind_completes rfl ?_
  refine (traces_ensureEntityExists employeeRepository (c := .id) _ _ ?_).bind_completes rfl ?_
  · obtain ⟨x, hx, hxkey⟩ := h.hasEmployee
    exact ⟨x, hx, hxkey.trans hemployee.cell.symm⟩
  refine (traces_getOrderById ho (hkey.trans hcell.symm)).bind_completes rfl ?_
  refine (Traces.lift (ensureOrderIsNotReceived_ok _ (hknown o ho) hopen) d).bind_completes rfl ?_
  refine (traces_getByField purchaseOrderRecordRepository (.integer OrderRecordRow.orderId) _
    d).bind_completes rfl ?_
  have hrecords : (((d .purchaseOrderRecord).rows.filter fun x =>
      (Column.integer OrderRecordRow.orderId).Matches p (getOptionalDatasetValue request "id")
        x).map fun x => purchaseOrderRecordRepository.fromCurrentRow x.1 x.2) =
      (purchaseLines d (.int order)).map fun r => OrderRecord.fromCurrentRow r.1 r.2 := by
    simp only [Column.Matches, hcell]
    rfl
  rw [hrecords, if_neg (by simpa using h.hasLines)]
  refine (plan_completes hwf _ (List.filter_subset_self _) hproducts fun r hr n hn =>
    h.fits n ⟨r, hr, hn⟩).bind fun plan d₁ hplan => ?_
  obtain ⟨rfl, ms, rfl, hplans⟩ := hplan
  -- inside the transaction: the postings, and then the status
  refine Completes.transaction ?_
  have hms := hplans.inRange hwf (List.filter_subset_self _)
  have hleft : (d₁ .inventory).KeysLeft (ms.countP fun m => m.row.isNone) :=
    Nat.lt_of_le_of_lt (Nat.add_le_add_left (countP_le_newStocks hplans) _) hkeys
  refine (postAll_completes hemployee.cell hms hplans.nodup hplans.finds hleft hdistinct
    (fun m hm => ?_) h.hasEmployee).bind fun _ d₂ hd₂ => ?_
  · obtain ⟨r, hr, hn⟩ := (hplans.covers m.product).mp (List.mem_map_of_mem hm)
    exact hn ▸ hproducts r hr
  have ho₂ : o ∈ (d₂ .purchaseOrder).rows := by
    rw [hd₂.2 _ (by decide)]
    exact ho
  obtain ⟨huser, hsupplier⟩ := hrefer.cells (p := p) ho
  have hok := update_order_isOk ho₂ (x := ⟨p.sqlite.numeric (cstr o.2.date),
    p.cell o.2.userId.toText, p.cell o.2.supplierId.toText, utf8 "Received"⟩) huser hsupplier
  refine update_completes purchaseOrderRepository ?_
  simpa [purchaseOrderRepository, PurchaseOrder.row, p.cell_key ho,
    cstr_status (Or.inr rfl)] using hok

end Receipt

end SageStore
