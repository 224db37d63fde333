import SageStore.Server.Effect

/-!
# Orders and their lines

What `SalesModule` and `PurchaseModule` share: the fields of a line, the listing of lines,
and the deletion of an order, which deletes its lines one by one and then the order. The
deletion runs in no transaction. It is all or nothing all the same when no call fails,
because no row refers to a line, and, once its lines are gone, none to the order
(`eraseOrder_spec`).
-/

namespace SageStore

open Bytes Program

variable {e : Enforcement}

/-- `buildOrderRecord` of the module named `component`. -/
def buildOrderRecordOf (component : String) (p : Platform) (request : Dataset)
    (resourceId : Bytes) : Except Exception OrderRecord := do
  let orderId ← getRequiredPositiveInteger request "orderId" component
  let productTypeId ← getRequiredPositiveInteger request "productTypeId" component
  let quantity ← getRequiredPositiveInteger request "quantity" component
  let price ← getRequiredNumber p request "price" component
  return ⟨resourceId, orderId, productTypeId, quantity, price⟩

/-- The columns of a listing of lines. -/
def orderRecordColumns : List (String × (OrderRecord → Bytes)) :=
  [("id", OrderRecord.id), ("orderId", OrderRecord.orderId),
    ("productTypeId", OrderRecord.productTypeId), ("quantity", OrderRecord.quantity),
    ("price", OrderRecord.price)]

/-- Delete the lines of an order one by one, and then the order. -/
def eraseOrder {lines orders : TableName} {E : Type} (p : Platform)
    (records : Repository lines OrderRecord) (orderId : Row lines → Cell)
    (repository : Repository orders E) (resourceId : Bytes) : Task e Unit := do
  let found ← records.getByField p (.integer orderId) resourceId
  forM found fun record => records.deleteResource p record.id
  repository.deleteResource p resourceId

/-! ### Specifications -/

section Specifications

variable {p : Platform} {req : RequestData} {d : Db e}

/-- The line that is built holds an order, a product and a quantity in range. -/
theorem buildOrderRecordOf_spec (p : Platform) {component : String} {request : Dataset}
    {resourceId : Bytes} :
    Yields Exception.IsUtf8 (buildOrderRecordOf component p request resourceId) fun x =>
      x.id = resourceId ∧ (OrderRecord.row p x).orderId.IsCount ∧
      (OrderRecord.row p x).productTypeId.IsCount ∧
      (OrderRecord.row p x).quantity.IsCount ∧
      (request.IsUtf8 → RowIsUtf8 .purchaseOrderRecord (OrderRecord.row p x)) := by
  refine getRequiredPositiveInteger_spec.bind fun orderId horder => ?_
  refine getRequiredPositiveInteger_spec.bind fun productTypeId hproduct => ?_
  refine getRequiredPositiveInteger_spec.bind fun quantity hquantity => ?_
  refine getRequiredNumber_spec.bind fun price hprice => ?_
  refine Yields.pure ⟨rfl, ⟨_, p.cell_of_isDigits horder.2.1 horder.2.2.1, horder.2.2.1⟩,
    ⟨_, p.cell_of_isDigits hproduct.2.1 hproduct.2.2.1, hproduct.2.2.1⟩,
    ⟨_, p.cell_of_isDigits hquantity.2.1 hquantity.2.2.1, hquantity.2.2.1⟩,
    fun hds => ⟨?_, ?_, ?_, ?_⟩⟩
  · exact p.isUtf8_cell (horder.1 ▸ hds.field _)
  · exact p.isUtf8_cell (hproduct.1 ▸ hds.field _)
  · exact p.isUtf8_cell (hquantity.1 ▸ hds.field _)
  · exact (p.sqlite.real_renders _).isUtf8 (hprice.1 ▸ hds.field _).cstr

/-- A predicate of rows may be replaced by one that agrees with it on the rows there are. -/
theorem Erases.congr {t : TableName} {gone gone' : ℕ × Row t → Bool} {d' : Db e}
    (h : Erases d t gone d') (heq : ∀ r ∈ (d t).rows, gone r = gone' r) :
    Erases d t gone' d' where
  rows := h.rows.trans (List.filter_congr fun r hr => by rw [heq r hr])
  seq := h.seq
  others := h.others

/-- A deletion that no reference stands against fails only by a scheduled fault. -/
theorem deleteResource_sure {t : TableName} {E : Type} (r : Repository t E) {id : Bytes}
    (h : ∀ fk ∈ references, fk.parent = t →
      ∀ row ∈ (d fk.child).rows, fk.column row.2 ≠ p.cell id) :
    Atomic (fun _ => False) d (r.deleteResource p id)
      fun _ d' => d.delete t (p.cell id) = .ok d' := by
  obtain ⟨d', hd'⟩ := Database.delete_isOk fun fk hfk => h fk (mem_references_of_mem hfk)
  have hrun : Atomic (fun _ => False) d (r.deleteResource p id) fun _ d'' =>
      (d.delete t (p.cell id)).mapError databaseError = .ok d'' := by
    unfold Repository.deleteResource Repository.executeStatement
    refine atomic_statement (E := fun _ => False) fun ex hex => ?_
    simp [hd', Except.mapError] at hex
  refine hrun.mono fun _ d'' hok => ?_
  have : d' = d'' := by simpa [hd', Except.mapError] using hok
  exact this ▸ hd'

section EraseOrder

variable {lines orders : TableName} {E : Type} (records : Repository lines OrderRecord)
  (orderId : Row lines → Cell) {resourceId : Bytes}

/-- The rows whose keys the entities name are gone. -/
abbrev ErasesNamed (d : Db e) (lines : TableName) (named : List OrderRecord) (d' : Db e) : Prop :=
  Erases d lines (fun r => decide (decimal r.1 ∈ named.map OrderRecord.id)) d'

/-- Deleting lines one by one deletes them all, unless a scheduled fault stops it; then the
first few are gone. -/
theorem deleteEach_spec (hlines : ∀ fk ∈ references, fk.parent ≠ lines)
    {found : List OrderRecord} (hfound : ∀ x ∈ found, ∃ i < 2 ^ 63, x.id = decimal i) :
    Outcome (fun _ => False) d (forM found fun record => records.deleteResource p record.id)
      (fun _ d' => ErasesNamed d lines found d')
      fun d' => ∃ done, done <+: found ∧ ErasesNamed d lines done d' := by
  refine Outcome.forM (I := fun done d' => ErasesNamed d lines done d')
    ⟨by simp, rfl, fun _ _ => rfl⟩ ?_
  intro done record rest d' hsplit hI
  obtain ⟨i, hlt, hi⟩ := hfound record (hsplit ▸ List.mem_append_right _ List.mem_cons_self)
  refine Atomic.mono (deleteResource_sure records fun fk hfk hp => absurd hp (hlines fk hfk))
    fun _ d'' hd'' => ⟨?_, ?_, fun t' ht' => ?_⟩
  · -- the line that is deleted next is gone together with those deleted before
    rw [Database.put_self hd'', Table.delete_rows, hI.rows, List.filter_filter, hi]
    refine List.filter_congr fun r _ => ?_
    simp only [p.cell_decimal hlt, ne_eq, Cell.int.injEq, Nat.cast_inj, List.map_append,
      List.map_cons, List.map_nil, List.mem_append, List.mem_singleton, hi, decimal_inj]
    by_cases hri : r.1 = i <;> simp [hri]
  · rw [Database.put_self hd'', Table.delete_seq, hI.seq]
  · rw [Database.put_of_ne hd'' ht', hI.others t' ht']

/-- The keys of an order's lines tell them from other lines: a row that one of them names is a line
of the order. -/
theorem line_of_mem_named {order : Cell} {named : List OrderRecord}
    (hid : ∀ i x, (records.fromCurrentRow i x).id = decimal i)
    (hnamed : named ⊆ ((d lines).rows.filter fun r => orderId r.2 = order).map fun r =>
      records.fromCurrentRow r.1 r.2)
    {r : ℕ × Row lines} (hr : r ∈ (d lines).rows)
    (hmem : decimal r.1 ∈ named.map OrderRecord.id) : orderId r.2 = order := by
  obtain ⟨x, hx, hkey⟩ := List.mem_map.mp hmem
  obtain ⟨i, hi, rfl⟩ := List.mem_map.mp (hnamed hx)
  obtain ⟨hi, hline⟩ := List.mem_filter.mp hi
  rw [hid] at hkey
  obtain rfl := Table.eq_of_mem hi hr (decimal_inj.mp hkey)
  exact of_decide_eq_true hline

/-- When the rows that the lines of an order name are gone, the lines of the order are. -/
theorem ErasesNamed.erases {order : Cell} {d' : Db e}
    (hid : ∀ i x, (records.fromCurrentRow i x).id = decimal i)
    (h : ErasesNamed d lines (((d lines).rows.filter fun r => orderId r.2 = order).map fun r =>
      records.fromCurrentRow r.1 r.2) d') :
    Erases d lines (fun r => orderId r.2 = order) d' := by
  refine h.congr fun r hr => decide_eq_decide.mpr
    ⟨line_of_mem_named records orderId hid (List.Subset.refl _) hr, fun hline => ?_⟩
  rw [List.map_map]
  exact List.mem_map.mpr ⟨r, List.mem_filter.mpr ⟨hr, decide_eq_true hline⟩, hid _ _⟩

/-- Deleting the lines of an order and then the order does both, unless a scheduled fault
stops it; then some of the lines, or all of them, are gone. -/
theorem eraseOrder_spec (repository : Repository orders E)
    (hid : ∀ i x, (records.fromCurrentRow i x).id = decimal i)
    (hlines : ∀ fk ∈ references, fk.parent ≠ lines)
    (horders : ∀ fk ∈ references, fk.parent = orders → fk = ⟨lines, orderId, orders⟩) :
    Outcome Exception.IsUtf8 d (eraseOrder p records orderId repository resourceId)
      (fun _ d' => ∃ d₁, Erases d lines (fun r => orderId r.2 = p.cell resourceId) d₁ ∧
        d₁.delete orders (p.cell resourceId) = .ok d')
      fun d' => ∃ gone, (∀ r, gone r = true → orderId r.2 = p.cell resourceId) ∧
        Erases d lines gone d' := by
  refine (getByField_spec records _ _).bind fun found hfound => ?_
  -- the lines that were read are deleted by the identifiers they were read with
  have hids : ∀ x ∈ found, ∃ i < 2 ^ 63, x.id = decimal i := by
    intro x hx
    obtain ⟨r, hr, rfl⟩ := List.mem_map.mp (hfound ▸ hx)
    exact ⟨r.1, Database.key_lt (List.mem_of_mem_filter hr), hid _ _⟩
  have hall : ∀ d₁, ErasesNamed d lines found d₁ →
      Erases d lines (fun r => orderId r.2 = p.cell resourceId) d₁ := by
    rw [hfound]
    exact fun d₁ h => h.erases records orderId hid
  -- a deletion that stops halfway has deleted some of them, and no other row
  have hsome : ∀ named ⊆ found, ∀ d₁, ErasesNamed d lines named d₁ →
      ∃ gone, (∀ r, gone r = true → orderId r.2 = p.cell resourceId) ∧
        Erases d lines gone d₁ := by
    refine fun named hsub d₁ h => ⟨fun r => decide (decimal r.1 ∈ named.map OrderRecord.id) &&
      decide (orderId r.2 = p.cell resourceId), fun r hr => ?_, h.congr fun r hr => ?_⟩
    · exact of_decide_eq_true (Bool.and_eq_true_iff.mp hr).2
    · by_cases hmem : decimal r.1 ∈ named.map OrderRecord.id
      · have hline := line_of_mem_named records orderId hid (hfound ▸ hsub) hr hmem
        rw [decide_eq_true hline, Bool.and_true]
      · rw [decide_eq_false hmem, Bool.false_and]
  refine Outcome.mono (Outcome.bindSure (B := fun _ => False)
    (V := fun _ d' => ∃ d₁, ErasesNamed d lines found d₁ ∧
      d₁.delete orders (p.cell resourceId) = .ok d')
    (deleteEach_spec records hlines hids)
    fun _ d₁ hd₁ => Atomic.mono (deleteResource_sure repository fun fk hfk hp row hrow hkey => ?_)
      fun _ d' hd' => ⟨d₁, hd₁, hd'⟩)
    (fun _ d' ⟨d₁, hd₁, hd'⟩ => ⟨d₁, hall d₁ hd₁, hd'⟩) ?_
  · -- a line that refers to the order would have been deleted
    obtain rfl := horders fk hfk hp
    rw [(hall d₁ hd₁).rows] at hrow
    have hne : ¬ orderId row.2 = p.cell resourceId := by simpa using List.of_mem_filter hrow
    exact hne hkey
  · rintro d'' (⟨named, hnamed, hd''⟩ | ⟨-, d₁, hd₁, rfl | hf⟩)
    · exact hsome named hnamed.subset d'' hd''
    · exact hsome found (fun _ h => h) d'' hd₁
    · exact hf.elim

end EraseOrder

end Specifications

end SageStore
