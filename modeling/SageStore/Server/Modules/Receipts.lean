import SageStore.Server.Modules.Purchase

/-!
# Receipts

The receipt of a purchase order does what `Receives` says. The planning loop keeps that the
plan so far is the list of entries of a list of postings, which plan the lines read so far
(`planRecord_spec`). The writing loop keeps that the stock table is what the postings
written so far make of it (`postAll_spec`), and it runs in a transaction together with the
change of the order's status.
-/

namespace SageStore

open Bytes Program

variable {e : Enforcement}

/-! ### Plans -/

section Plans

variable {d : Db e}

/-- A posting with its quantity raised, if it is about the product. -/
def Posting.raise (product quantity : ℕ) (m : Posting) : Posting :=
  if m.product = product then { m with quantity := m.quantity + quantity } else m

@[simp] theorem Posting.raise_product (product quantity : ℕ) (m : Posting) :
    (Posting.raise product quantity m).product = m.product := by
  unfold raise
  split <;> rfl

/-- Raising a posting leaves the products that are posted. -/
theorem map_raise_product (n q : ℕ) (ms : List Posting) :
    (ms.map (Posting.raise n q)).map Posting.product = ms.map Posting.product := by
  rw [List.map_map]
  exact List.map_congr_left fun m _ => Posting.raise_product n q m

theorem Posting.raise_of_ne {product quantity : ℕ} {m : Posting} (h : m.product ≠ product) :
    Posting.raise product quantity m = m := if_neg h

/-- A product that no posting has is not raised. -/
theorem map_raise_of_notMem {n : ℕ} (q : ℕ) {ms : List Posting}
    (h : n ∉ ms.map Posting.product) : ms.map (Posting.raise n q) = ms := by
  conv_rhs => rw [← List.map_id ms]
  exact List.map_congr_left fun m hm => Posting.raise_of_ne fun heq =>
    h (heq ▸ List.mem_map_of_mem hm)

/-- What lines carry adds up. -/
theorem carried_append (lines lines' : List (ℕ × OrderRecordRow)) (n : ℕ) :
    carried (lines ++ lines') n = carried lines n + carried lines' n := by
  simp [carried, List.filter_append]

/-- Lines of other products carry nothing. -/
theorem carried_eq_zero {lines : List (ℕ × OrderRecordRow)} {n : ℕ}
    (h : ∀ r ∈ lines, r.2.productTypeId ≠ .int n) : carried lines n = 0 := by
  have : (lines.filter fun r => r.2.productTypeId = .int n) = [] :=
    List.filter_eq_nil_iff.mpr fun r hr => by simpa using h r hr
  simp [carried, this]

/-- The empty plan plans no lines. -/
theorem Plans.nil : Plans d [] [] where
  nodup := List.nodup_nil
  covers n := by simp
  finds := by simp
  quantity := by simp
  fits := by simp

/-- Raising the posting of a planned product plans one more line. -/
theorem Plans.raise {done : List (ℕ × OrderRecordRow)} {ms : List Posting}
    (h : Plans d done ms) {r : ℕ × OrderRecordRow} {n q : ℕ}
    (hproduct : r.2.productTypeId = .int n) (hquantity : r.2.quantity = .int q)
    (hn : n ∈ ms.map Posting.product)
    (hfits : ∀ m ∈ ms, m.product = n → m.quantity + q < 2 ^ 63) :
    Plans d (done ++ [r]) (ms.map (Posting.raise n q)) where
  nodup := (map_raise_product n q ms).symm ▸ h.nodup
  covers n' := by
    rw [map_raise_product, h.covers]
    constructor
    · rintro ⟨r', hr', heq⟩
      exact ⟨r', List.mem_append_left _ hr', heq⟩
    · rintro ⟨r', hr', heq⟩
      rcases List.mem_append.mp hr' with hr' | hr'
      · exact ⟨r', hr', heq⟩
      · -- the new line is about a product that is planned already
        obtain rfl := List.mem_singleton.mp hr'
        obtain rfl : n = n' := by simpa [hproduct] using heq
        exact (h.covers n).mp hn
  finds m hm := by
    obtain ⟨m', hm', rfl⟩ := List.mem_map.mp hm
    have := h.finds m' hm'
    unfold Posting.raise
    split
    · exact this
    · exact this
  quantity m hm := by
    obtain ⟨m', hm', rfl⟩ := List.mem_map.mp hm
    rw [Posting.raise_product, carried_append]
    have := h.quantity m' hm'
    -- only the posting of its own product carries the new line
    unfold Posting.raise
    split
    · next heq => simp [carried, hproduct, hquantity, heq] at this ⊢; omega
    · next hne => simp [carried, hproduct, Ne.symm hne] at this ⊢; omega
  fits m hm := by
    obtain ⟨m', hm', rfl⟩ := List.mem_map.mp hm
    unfold Posting.raise
    split
    · next heq => exact hfits m' hm' heq
    · exact h.fits m' hm'

/-- The posting of a product that had no line yet plans one more line. -/
theorem Plans.append {done : List (ℕ × OrderRecordRow)} {ms : List Posting}
    (h : Plans d done ms) {r : ℕ × OrderRecordRow} {m : Posting} {q : ℕ}
    (hproduct : r.2.productTypeId = .int m.product) (hquantity : r.2.quantity = .int q)
    (hn : m.product ∉ ms.map Posting.product) (hfinds : m.Finds (d .inventory))
    (hstock : (m.quantity : ℤ) = stockOf d m.product + q) (hfits : m.quantity < 2 ^ 63) :
    Plans d (done ++ [r]) (ms ++ [m]) where
  nodup := by
    rw [List.map_append, List.map_singleton]
    exact List.nodup_append_comm.mp (List.nodup_cons.mpr ⟨hn, h.nodup⟩)
  covers n := by
    rw [List.map_append, List.mem_append, h.covers]
    simp only [List.map_cons, List.map_nil, List.mem_singleton, List.mem_append, or_and_right,
      exists_or, exists_eq_left, hproduct, Cell.int.injEq, Nat.cast_inj]
    rw [eq_comm (a := n)]
  finds m' hm' := by
    rcases List.mem_append.mp hm' with hm' | hm'
    · exact h.finds m' hm'
    · exact List.mem_singleton.mp hm' ▸ hfinds
  quantity m' hm' := by
    rw [carried_append]
    rcases List.mem_append.mp hm' with hm' | hm'
    · -- an older posting: the new line is about another product
      have hne : m.product ≠ m'.product := fun heq => hn (heq ▸ List.mem_map_of_mem hm')
      have hnone : carried [r] m'.product = 0 :=
        carried_eq_zero fun r' hr' => by
          rw [List.mem_singleton.mp hr', hproduct]
          simpa using hne
      rw [hnone, h.quantity m' hm', add_zero]
    · -- the new posting: no older line is about its product
      obtain rfl := List.mem_singleton.mp hm'
      have hnone : carried done m'.product = 0 :=
        carried_eq_zero fun r' hr' heq => hn ((h.covers _).mpr ⟨r', hr', heq⟩)
      rw [hstock, hnone]
      simp [carried, hproduct, hquantity]
  fits m' hm' := by
    rcases List.mem_append.mp hm' with hm' | hm'
    · exact h.fits m' hm'
    · exact List.mem_singleton.mp hm' ▸ hfits

end Plans

/-- The numbers of a posting fit 64 signed bits, so the engine reads their texts as numbers. -/
structure Posting.InRange (m : Posting) : Prop where
  product : m.product < 2 ^ 63
  row : ∀ i, m.row = some i → i < 2 ^ 63
  quantity : m.quantity < 2 ^ 63

/-- The products of a plan are those of lines, and its rows are rows of the stock. -/
theorem Plans.inRange {lines : List (ℕ × OrderRecordRow)} {ms : List Posting}
    (h : Plans d lines ms) (hwf : WellFormed d) (hlines : lines ⊆ (d .purchaseOrderRecord).rows) :
    ∀ m ∈ ms, m.InRange := by
  intro m hm
  refine ⟨?_, fun i hi => ?_, h.fits m hm⟩
  · obtain ⟨r, hr, heq⟩ := (h.covers m.product).mp (List.mem_map_of_mem hm)
    obtain ⟨n, hn, hlt⟩ := (hwf.lines r (hlines hr)).2.1
    obtain rfl : n = m.product := by simpa using hn.symm.trans heq
    exact hlt
  · have hfinds := h.finds m hm
    unfold Posting.Finds at hfinds
    rw [hi] at hfinds
    obtain ⟨r, hr, rfl⟩ := hfinds
    have hmem : r ∈ (d .inventory).rows := List.mem_of_find?_eq_some hr
    exact Database.key_lt hmem

namespace PurchaseModule

variable {p : Platform} {d : Db e}

/-! ### Quantities -/

/-- A quantity that parses is the number that was stored, and in range. -/
theorem parseNonNegativeQuantity_decimal (n : ℕ) :
    Yields Exception.IsUtf8 (parseNonNegativeQuantity (decimal n))
      fun q => q = (n : ℤ) ∧ n < 2 ^ 63 := by
  unfold parseNonNegativeQuantity
  rw [if_neg (by simp), stoll_of_isDigits (isDigits_decimal n), digitsValue_decimal]
  by_cases h : n < 2 ^ 63
  · rw [if_pos h]
    exact ⟨rfl, h⟩
  · rw [if_neg h]
    exact Yields.throw ⟨.utf8 _, .utf8 _⟩

/-- Adding two stored quantities gives their exact sum, and that fits. -/
theorem addQuantities_decimal (m n : ℕ) :
    Yields Exception.IsUtf8 (addQuantities (decimal m) (decimal n))
      fun sum => sum = ((m + n : ℕ) : ℤ) ∧ m + n < 2 ^ 63 := by
  refine (parseNonNegativeQuantity_decimal m).bind fun current hm => ?_
  refine (parseNonNegativeQuantity_decimal n).bind fun received hn => ?_
  obtain ⟨rfl, hm⟩ := hm
  obtain ⟨rfl, hn⟩ := hn
  refine Yields.ite (fun _ => Yields.throw ⟨.utf8 _, .utf8 _⟩) fun hle => ?_
  exact Yields.pure ⟨by push_cast; rfl, by omega⟩

/-! ### Planning -/

/-- The entry of the plan that stands for a posting. -/
def entryOf (employeeId : Bytes) (m : Posting) : Bytes × PlannedStockMutation :=
  (decimal m.product, ⟨m.row.isNone,
    ⟨(m.row.map decimal).getD [], decimal m.product, decimal m.quantity, employeeId⟩⟩)

/-- A plan has an entry under a product if one of its postings is about the product. -/
theorem any_entryOf {employeeId : Bytes} {ms : List Posting} {n : ℕ} :
    ((ms.map (entryOf employeeId)).any fun planned => planned.1 = decimal n) = true ↔
      n ∈ ms.map Posting.product := by
  simp [entryOf]

/-- A planned stock row is raised by the quantity of the line, if the sum is in range. -/
theorem raiseStock_spec {employeeId : Bytes} (q : ℕ) {mutation : PlannedStockMutation} {m : ℕ}
    (h : mutation.stock.quantityAvailable = decimal m) :
    Yields Exception.IsUtf8 (raiseStock employeeId (decimal q) mutation) fun raised =>
      raised = { mutation with
        stock := { mutation.stock with quantityAvailable := decimal (m + q), employeeId } } ∧
      m + q < 2 ^ 63 := by
  unfold raiseStock
  rw [h]
  refine (addQuantities_decimal m q).bind fun sum hsum => ?_
  obtain ⟨rfl, hlt⟩ := hsum
  exact Yields.pure ⟨by rw [ofInt_natCast], hlt⟩

/-- Raising the entry of a product that is in the plan raises its posting. -/
theorem updateEntry_of_mem {employeeId : Bytes} (n q : ℕ) {ms : List Posting}
    (hnodup : (ms.map Posting.product).Nodup) (hn : n ∈ ms.map Posting.product) :
    Yields Exception.IsUtf8
      (updateEntry (decimal n) (raiseStock employeeId (decimal q)) (ms.map (entryOf employeeId)))
      fun plan => plan = (ms.map (Posting.raise n q)).map (entryOf employeeId) ∧
        ∀ m ∈ ms, m.product = n → m.quantity + q < 2 ^ 63 := by
  induction ms with
  | nil => exact absurd hn List.not_mem_nil
  | cons m ms ih =>
    obtain ⟨hnotin, hnodup⟩ := List.nodup_cons.mp hnodup
    by_cases hm : m.product = n
    · subst hm
      -- the entry is the first one; the products behind it are others
      have hrest := map_raise_of_notMem q hnotin
      unfold updateEntry
      refine Yields.ite (fun _ => ?_) fun hne => absurd rfl hne
      refine (raiseStock_spec q rfl).bind fun raised hraised => ?_
      obtain ⟨rfl, hlt⟩ := hraised
      refine Yields.pure ⟨?_, fun m' hm' heq => ?_⟩
      · rw [List.map_cons, hrest, List.map_cons, Posting.raise, if_pos rfl]
        rfl
      · rcases List.mem_cons.mp hm' with rfl | hm'
        · exact hlt
        · exact absurd (heq ▸ List.mem_map_of_mem hm') hnotin
    · -- the entry is behind this one
      have hn : n ∈ ms.map Posting.product := by
        rcases List.mem_cons.mp hn with h | h
        · exact absurd h.symm hm
        · exact h
      unfold updateEntry
      refine Yields.ite (fun heq => absurd (decimal_inj.mp heq) hm) fun _ => ?_
      refine (ih hnodup hn).bind fun rest hrest => ?_
      obtain ⟨rfl, hlt⟩ := hrest
      refine Yields.pure ⟨?_, fun m' hm' heq => ?_⟩
      · rw [List.map_cons, Posting.raise_of_ne hm, List.map_cons]
        rfl
      · rcases List.mem_cons.mp hm' with rfl | hm'
        · exact absurd heq hm
        · exact hlt m' hm' heq

/-- Raising the entry that was just appended leaves the entries before it alone. -/
theorem updateEntry_append {employeeId : Bytes} (n q : ℕ) {ms : List Posting}
    {mutation : PlannedStockMutation} {m : ℕ} (hn : n ∉ ms.map Posting.product)
    (h : mutation.stock.quantityAvailable = decimal m) :
    Yields Exception.IsUtf8
      (updateEntry (decimal n) (raiseStock employeeId (decimal q))
        (ms.map (entryOf employeeId) ++ [(decimal n, mutation)]))
      fun plan => plan = ms.map (entryOf employeeId) ++ [(decimal n, { mutation with
        stock := { mutation.stock with quantityAvailable := decimal (m + q), employeeId } })] ∧
        m + q < 2 ^ 63 := by
  induction ms with
  | nil =>
    -- the appended entry is the one under the key
    unfold updateEntry
    refine Yields.ite (fun _ => ?_) fun hne => absurd rfl hne
    refine (raiseStock_spec q h).bind fun raised hraised => ?_
    obtain ⟨rfl, hlt⟩ := hraised
    exact Yields.pure ⟨rfl, hlt⟩
  | cons m' ms ih =>
    have hne : m'.product ≠ n := fun heq => hn (heq ▸ List.mem_cons_self)
    rw [List.map_cons, List.cons_append]
    unfold updateEntry
    refine Yields.ite (fun heq => absurd (decimal_inj.mp heq) hne) fun _ => ?_
    refine (ih fun hmem => hn (List.mem_cons_of_mem _ hmem)).bind fun rest hrest => ?_
    obtain ⟨rfl, hlt⟩ := hrest
    exact Yields.pure ⟨rfl, hlt⟩

/-- The stock rows looked up for a product begin with the row its stock is read from. -/
theorem head?_matching {n : ℕ} (hn : n < 2 ^ 63) :
    ((d .inventory).rows.filter fun x =>
      (Column.integer InventoryRow.productTypeId).Matches p (decimal n) x).head? =
      (d .inventory).rows.find? fun r => r.2.productTypeId = .int n := by
  rw [List.head?_filter]
  congr 1
  funext x
  exact decide_eq_decide.mpr (by simp [Column.Matches, p.cell_decimal hn])

/-- A product that is new to the plan starts from its stock. -/
theorem initialMutation_spec (hwf : WellFormed d) {n : ℕ} (hn : n < 2 ^ 63) (employeeId : Bytes)
    {xs : List Inventory}
    (hxs : xs = ((d .inventory).rows.filter fun x =>
      (Column.integer InventoryRow.productTypeId).Matches p (decimal n) x).map fun x =>
        inventoryRepository.fromCurrentRow x.1 x.2) :
    ∃ (row : Option ℕ) (k : ℕ), stockOf d n = k ∧
      (initialMutation (decimal n) employeeId xs).stock.quantityAvailable = decimal k ∧
      ∀ q, Posting.Finds (d .inventory) ⟨n, row, q⟩ ∧
        (decimal n, { initialMutation (decimal n) employeeId xs with
          stock := { (initialMutation (decimal n) employeeId xs).stock with
            quantityAvailable := decimal q, employeeId } }) = entryOf employeeId ⟨n, row, q⟩ := by
  have hhead := head?_matching (p := p) (d := d) hn
  subst hxs
  cases hf : (d .inventory).rows.filter fun x =>
      (Column.integer InventoryRow.productTypeId).Matches p (decimal n) x with
  | nil =>
    -- a product without stock rows: the receipt inserts one
    rw [hf, List.head?_nil] at hhead
    refine ⟨none, 0, ?_, rfl, fun q => ⟨?_, rfl⟩⟩
    · rw [stockOf, ← hhead]
      rfl
    · exact fun r hr => by simpa using List.find?_eq_none.mp hhead.symm r hr
  | cons i rest =>
    -- the first stock row is updated, and its quantity is a count
    rw [hf, List.head?_cons] at hhead
    have hi : i ∈ (d .inventory).rows := List.mem_of_find?_eq_some hhead.symm
    have hproduct : i.2.productTypeId = .int n := by
      simpa using List.find?_some hhead.symm
    obtain ⟨-, k, hk, -⟩ := hwf.stocks i hi
    refine ⟨some i.1, k, ?_, ?_, fun q => ⟨⟨i, hhead.symm, rfl⟩, ?_⟩⟩
    · rw [stockOf, ← hhead]
      simp [hk]
    · simp [initialMutation, inventoryRepository, hk]
    · simp [initialMutation, inventoryRepository, entryOf, hproduct]

/-- A line is read as the decimal texts of its product and of its quantity. -/
theorem WellFormed.line_texts (hwf : WellFormed d) {r : ℕ × OrderRecordRow}
    (hr : r ∈ (d .purchaseOrderRecord).rows) :
    ∃ n q : ℕ, n < 2 ^ 63 ∧ r.2.productTypeId = .int n ∧ r.2.quantity = .int q ∧
      (OrderRecord.fromCurrentRow r.1 r.2).productTypeId = decimal n ∧
      (OrderRecord.fromCurrentRow r.1 r.2).quantity = decimal q := by
  obtain ⟨-, ⟨n, hn, hlt⟩, q, hq, -⟩ := hwf.lines r hr
  exact ⟨n, q, hlt, hn, hq, by simp [OrderRecord.fromCurrentRow, hn],
    by simp [OrderRecord.fromCurrentRow, hq]⟩

/-- **One turn of the planning loop** plans one more line. -/
theorem planRecord_spec (hwf : WellFormed d) {employeeId : Bytes}
    {done : List (ℕ × OrderRecordRow)} {ms : List Posting} (h : Plans d done ms)
    {r : ℕ × OrderRecordRow} (hr : r ∈ (d .purchaseOrderRecord).rows) :
    Reads Exception.IsUtf8 d
      (planRecord p employeeId (ms.map (entryOf employeeId)) (OrderRecord.fromCurrentRow r.1 r.2))
      fun plan => ∃ ms', plan = ms'.map (entryOf employeeId) ∧ Plans d (done ++ [r]) ms' := by
  obtain ⟨n, q, hrange, hn, hq, hproduct, hquantity⟩ := WellFormed.line_texts hwf hr
  unfold planRecord
  rw [hproduct, hquantity]
  refine (ensureEntityExists_spec productTypeRepository .id _ _ _).bindReads fun _ _ => ?_
  by_cases hmem : n ∈ ms.map Posting.product
  · -- the product has an entry: its quantity is raised
    rw [if_pos (any_entryOf.mpr hmem)]
    refine (Reads.pure (Q := fun planned => planned = ms.map (entryOf employeeId)) rfl).bindReads
      fun planned hplanned => ?_
    subst hplanned
    refine (reads_lift (updateEntry_of_mem n q h.nodup hmem)).mono fun plan hplan => ?_
    exact ⟨_, hplan.1, h.raise hn hq hmem hplan.2⟩
  · -- the product is new: its stock is looked up, and its entry goes to the end
    rw [if_neg fun hc => hmem (any_entryOf.mp hc)]
    refine ((getByField_spec inventoryRepository _ _).bindReads fun xs hxs => Reads.pure
      (Q := fun planned => ∃ xs, planned = ms.map (entryOf employeeId) ++
          [(decimal n, initialMutation (decimal n) employeeId xs)] ∧
        xs = ((d .inventory).rows.filter fun x =>
          (Column.integer InventoryRow.productTypeId).Matches p (decimal n) x).map fun x =>
            inventoryRepository.fromCurrentRow x.1 x.2) ⟨xs, rfl, hxs⟩).bindReads
      fun planned hplanned => ?_
    obtain ⟨xs, rfl, hxs⟩ := hplanned
    -- it starts with the quantity of the stock row, or with 0 and no row
    obtain ⟨row, k, hstock, htext, hentry⟩ := initialMutation_spec hwf hrange employeeId hxs
    refine (reads_lift (updateEntry_append n q hmem htext)).mono fun plan hplan => ?_
    obtain ⟨rfl, hlt⟩ := hplan
    obtain ⟨hfinds, heq⟩ := hentry (k + q)
    refine ⟨ms ++ [⟨n, row, k + q⟩], ?_, h.append hn hq hmem hfinds ?_ hlt⟩
    · rw [List.map_append, List.map_singleton, ← heq]
    · rw [hstock]
      push_cast
      rfl

/-- The planning loop plans the lines it is given. -/
theorem plan_spec (hwf : WellFormed d) (employeeId : Bytes) {lines : List (ℕ × OrderRecordRow)}
    (hlines : lines ⊆ (d .purchaseOrderRecord).rows) :
    Reads Exception.IsUtf8 d
      ((lines.map fun r => OrderRecord.fromCurrentRow r.1 r.2).foldlM (planRecord p employeeId) [])
      fun plan => ∃ ms, plan = ms.map (entryOf employeeId) ∧ Plans d lines ms := by
  rw [List.foldlM_map]
  refine Reads.foldlM (I := fun done plan =>
    ∃ ms, plan = ms.map (entryOf employeeId) ∧ Plans d done ms) ⟨[], rfl, .nil⟩ ?_
  rintro done r _ hr ⟨ms, rfl, h⟩
  exact planRecord_spec hwf h (hlines hr)

/-! ### Writing -/

/-- Writing a planned mutation applies its posting, and touches no other table. -/
theorem postMutation_spec {employeeId : Bytes} {employee : ℕ}
    (hemployee : p.cell employeeId = .int employee) {m : Posting} (hm : m.InRange) :
    Atomic Exception.IsUtf8 d (postMutation p (entryOf employeeId m).2) fun _ d' =>
      d' .inventory = m.apply (.int employee) (d .inventory) ∧
        ∀ t, t ≠ .inventory → d' t = d t := by
  obtain ⟨product, row, quantity⟩ := m
  have hproduct : p.cell (decimal product) = .int product := p.cell_decimal hm.product
  have hquantity : p.cell (decimal quantity) = .int quantity := p.cell_decimal hm.quantity
  cases row with
  | none =>
    refine Atomic.mono (add_spec inventoryRepository _) fun _ d' hd' => ⟨?_, fun t ht => ?_⟩
    · rw [Database.put_self hd']
      simp [inventoryRepository, Inventory.row, entryOf, Posting.apply, hemployee, hproduct,
        hquantity]
    · exact Database.put_of_ne hd' ht
  | some i =>
    have hrow : p.cell (decimal i) = .int i := p.cell_decimal (hm.row i rfl)
    refine Atomic.mono (update_spec inventoryRepository _) fun _ d' hd' => ⟨?_, fun t ht => ?_⟩
    · rw [Database.put_self hd']
      simp [inventoryRepository, Inventory.row, entryOf, Posting.apply, hemployee, hproduct,
        hquantity, hrow]
    · exact Database.put_of_ne hd' ht

/-- The writing loop applies the postings one after another. -/
theorem postAll_spec {employeeId : Bytes} {employee : ℕ}
    (hemployee : p.cell employeeId = .int employee) {ms : List Posting}
    (hms : ∀ m ∈ ms, m.InRange) :
    Changes Exception.IsUtf8 d
      (forM (ms.map (entryOf employeeId)) fun planned => postMutation p planned.2) fun _ d' =>
      d' .inventory = ms.foldl (Posting.apply (.int employee)) (d .inventory) ∧
        ∀ t, t ≠ .inventory → d' t = d t := by
  rw [List.forM_map]
  refine Changes.forM (I := fun done (d' : Db e) =>
    d' .inventory = done.foldl (Posting.apply (.int employee)) (d .inventory) ∧
      ∀ t, t ≠ .inventory → d' t = d t) ⟨rfl, fun _ _ => rfl⟩ ?_
  rintro done m rest d' hsplit ⟨hstock, hothers⟩
  have hm : m.InRange := hms m (by rw [hsplit]; exact List.mem_append_right _ List.mem_cons_self)
  refine (postMutation_spec hemployee hm).changes.mono fun _ d'' hd'' => ⟨?_, fun t ht => ?_⟩
  · rw [hd''.1, hstock, List.foldl_append]
    rfl
  · rw [hd''.2 t ht, hothers t ht]

/-- What the receipt of an order by an employee has checked and written: the employee exists, the
order has lines, and the postings are written in the name of the employee. -/
structure ReceivesBy (p : Platform) (d : Db e) (order employee : Cell) (d' : Db e) : Prop where
  hasEmployee : (d .employee).Has employee
  hasLines : purchaseLines d order ≠ []
  postings : ∃ plan, Plans d (purchaseLines d order) plan ∧
    d' .inventory = plan.foldl (Posting.apply employee) (d .inventory)
  receives : Receives p d order d'

/-- **A receipt** is posted as a whole or not at all, by the employee that the request names. -/
theorem receiveOrder_receivesBy (hwf : WellFormed d) (request : Dataset) :
    Atomic Exception.IsUtf8 d (receiveOrder p request) fun _ d' =>
      ReceivesBy p d (p.cell (getOptionalDatasetValue request "id"))
        (p.cell (getOptionalDatasetValue request "employeeId")) d' := by
  -- before the transaction everything only reads
  refine (reads_lift getRequiredPositiveInteger_spec).bindAtomic fun orderId hid => ?_
  refine (reads_lift getRequiredPositiveInteger_spec).bindAtomic fun employeeId hemployee => ?_
  rw [← hid.1, ← hemployee.1]
  have hemployee := p.cell_of_isDigits hemployee.2.1 hemployee.2.2.1
  refine (ensureEntityExists_spec employeeRepository .id _ _ _).bindAtomic fun _ hhas => ?_
  refine (getOrderById_spec orderId).bindAtomic fun order horder => ?_
  obtain ⟨o, ho, hkey, rfl⟩ := horder
  refine (reads_lift (ensureOrderIsNotReceived_spec _ _)).bindAtomic fun _ hopen => ?_
  refine (getByField_spec purchaseOrderRecordRepository _ _).bindAtomic fun records hrecords => ?_
  have hrecords : records = (purchaseLines d (p.cell orderId)).map fun r =>
      OrderRecord.fromCurrentRow r.1 r.2 := hrecords
  refine Outcome.ite (fun _ => Outcome.throw ⟨.utf8 _, .utf8 _⟩) fun hlines => ?_
  rw [hrecords, List.map_eq_nil_iff] at hlines
  rw [hrecords]
  refine (plan_spec hwf employeeId (List.filter_subset_self _)).bindAtomic fun plan hplan => ?_
  obtain ⟨ms, rfl, hplans⟩ := hplan
  refine runInTransaction_spec ?_
  -- inside the transaction: the postings, and then the status
  have hms := hplans.inRange hwf (List.filter_subset_self _)
  refine (postAll_spec hemployee hms).bind fun _ d₁ hd₁ => ?_
  refine Changes.mono (update_spec purchaseOrderRepository _).changes fun _ d' hd' => ?_
  have hstock : d' .inventory =
      ms.foldl (Posting.apply (.int (digitsValue employeeId))) (d .inventory) := by
    rw [Database.put_of_ne hd' (by decide), hd₁.1]
  refine ⟨hhas, hlines, ⟨ms, hplans, by rw [hemployee, hstock]⟩, ?_⟩
  exact
    { stock := ⟨_, ms, hplans, hstock⟩
      received := by
        refine ⟨o, ho, hkey, hopen, ?_⟩
        rw [Database.put_self hd', hd₁.2 _ (by decide)]
        simp [purchaseOrderRepository, PurchaseOrder.row, p.cell_key ho, hkey,
          cstr_status (Or.inr rfl)]
      others := fun t hstock horder => by
        rw [Database.put_of_ne hd' horder, hd₁.2 t hstock] }

/-- **A receipt is all or nothing**: the rows that were planned are posted and the order is
received, in one transaction. -/
theorem receiveOrder_spec (hwf : WellFormed d) {req : RequestData} (hreq : req.PostsReceipt) :
    Atomic Exception.IsUtf8 d (receiveOrder p req.dataset) fun _ d' => Accepts p req d d' := by
  have hmethod : req.method ≠ utf8 "GET" := by
    rw [hreq.2.2]
    decide
  exact (receiveOrder_receivesBy hwf req.dataset).mono fun _ _ h =>
    ⟨.empty hmethod, .receive hreq h.receives⟩

end PurchaseModule

end SageStore
