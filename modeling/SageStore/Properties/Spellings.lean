import SageStore.Properties.Uniqueness

/-!
# Spellings of ids

The database compares the id of a request with keys as numbers, so `01` addresses the row with
key 1. Before an edit the module also looks for other rows with the new code, or the new product,
and tells the edited row from others by its id, as a text. So an edit under another spelling of
the id is refused as a duplicate if it keeps the row's own code or product; every other edit has
the same outcome under all spellings (`edits_agree_iff`).
-/

namespace SageStore

open Bytes Program

variable {e : Enforcement} {p : Platform} {d : Db e}

/-- The database resolves a text to a row: it is the key of the row, as a number. The empty text
addresses nothing. -/
structure Resolves (p : Platform) (d : Db e) (t : TableName) (id : Bytes) (r : ℕ × Row t) :
    Prop where
  ne_nil : id ≠ []
  mem : r ∈ (d t).rows
  cell : p.cell id = .int r.1

/-- Whether a task is accepted, and the database afterwards, while no call fails. -/
def outcome (x : Task e Unit) (d : Db e) : Bool × Db e :=
  ((x.exec ⟨d, none, []⟩).1.isOk, (x.exec ⟨d, none, []⟩).2.store)

/-- A step that reads goes on with what it read. -/
theorem outcome_bind_ok {α : Type} {x : Task e α} {f : α → Task e Unit} {a : α}
    (h : x.exec ⟨d, none, []⟩ = (.ok a, ⟨d, none, []⟩)) :
    outcome (x >>= f) d = outcome (f a) d := by
  rw [outcome, exec_bind_ok h, outcome]

/-- A check goes on if it passes, and else changes nothing. -/
theorem outcome_bind_lift {α : Type} (x : Except Exception α) (f : α → Task e Unit) :
    outcome (liftM x >>= f) d =
      match x with
      | .ok a => outcome (f a) d
      | .error _ => (false, d) := by
  cases x <;> rfl

theorem outcome_eq {x : Task e Unit} {r : Except Exception Unit} {d' : Db e}
    (h : x.exec ⟨d, none, []⟩ = (r, ⟨d', none, []⟩)) : outcome x d = (r.isOk, d') := by
  rw [outcome, h]

/-- The canonical text of a key resolves to its row. -/
theorem resolves_decimal {t : TableName} {r : ℕ × Row t} (h : r ∈ (d t).rows) :
    Resolves p d t (decimal r.1) r :=
  ⟨decimal_ne_nil _, h, p.cell_key h⟩

theorem Resolves.has {t : TableName} {id : Bytes} {r : ℕ × Row t} (h : Resolves p d t id r) :
    (d t).Has (p.cell id) :=
  ⟨r, h.mem, h.cell.symm⟩

/-- The keys of rows that are found, against the id of the edit: another row is found, or the
edited row is, and its id is spelled differently. -/
theorem any_ne_iff {t : TableName} {E : Type} {r : ℕ × Row t} {id : Bytes} (rid : E → Bytes)
    (make : ℕ → Row t → E) (hid : ∀ i x, rid (make i x) = decimal i) (h : Resolves p d t id r)
    (q : ℕ × Row t → Prop) [DecidablePred q] :
    ((((d t).rows.filter fun x => q x).map fun x => make x.1 x.2).any fun existing =>
        rid existing ≠ id) = true ↔
      (∃ x ∈ (d t).rows, q x ∧ x ≠ r) ∨ q r ∧ id ≠ decimal r.1 := by
  rw [List.any_map, List.any_eq_true]
  simp only [List.mem_filter, Function.comp_apply, hid, decide_eq_true_eq]
  -- the text of a key is the id only if the key is that of the edited row
  have hkey (x : ℕ × Row t) (hx : x ∈ (d t).rows) (heq : decimal x.1 = id) : x = r := by
    have hcell := h.cell
    rw [← heq, p.cell_key hx] at hcell
    exact Table.eq_of_mem hx h.mem (Int.ofNat.inj (Cell.int.inj hcell))
  constructor
  · rintro ⟨x, ⟨hx, hq⟩, hne⟩
    by_cases hxr : x = r
    · exact Or.inr ⟨hxr ▸ hq, fun heq => hne (by rw [hxr, heq])⟩
    · exact Or.inl ⟨x, hx, hq, hxr⟩
  · rintro (⟨x, hx, hq, hne⟩ | ⟨hq, hne⟩)
    · exact ⟨x, ⟨hx, hq⟩, fun heq => hne (hkey x hx heq)⟩
    · exact ⟨r, ⟨h.mem, hq⟩, fun heq => hne heq.symm⟩

/-- The outcome of an update is that of its statement. -/
theorem outcome_update {t : TableName} {E : Type} (r : Repository t E) (x : E) :
    outcome (r.update p x) d =
      match d.update t (p.cell (r.id x)) (r.updateRow p x) with
      | .ok d' => (true, d')
      | .error _ => (false, d) := by
  split
  · next d' hok => exact outcome_eq (exec_update r hok)
  · next v herror => exact outcome_eq (exec_update_error r herror)

/-- Two edits of one row that are refused if another row is found, or if the edited row is found
and its id is not canonical. The id of the second is canonical. -/
theorem agree_iff {out out' result : Bool × Db e} {other own : Prop} {id id' canonical : Bytes}
    [Decidable (other ∨ own ∧ id ≠ canonical)] [Decidable (other ∨ own ∧ id' ≠ canonical)]
    (hid' : id' = canonical) (hown : own → ¬ other)
    (hx : out = if other ∨ own ∧ id ≠ canonical then (false, d) else result)
    (hx' : out' = if other ∨ own ∧ id' ≠ canonical then (false, d) else result) :
    out = out' ↔ id = canonical ∨ (own → result = (false, d)) := by
  have hcanonical : ¬ (own ∧ id' ≠ canonical) := fun h => h.2 hid'
  rw [hx, hx']
  by_cases hother : other
  · -- both are refused, and the edited row is not among those found
    rw [if_pos (Or.inl hother), if_pos (Or.inl hother)]
    exact iff_of_true rfl (Or.inr fun h => absurd hother (hown h))
  rw [if_neg (not_or.mpr ⟨hother, hcanonical⟩)]
  by_cases hboth : own ∧ id ≠ canonical
  · -- only the first is refused, so they agree if the second changes nothing
    rw [if_pos (Or.inr hboth)]
    exact ⟨fun heq => Or.inr fun _ => heq.symm, fun h => (h.resolve_left hboth.2 hboth.1).symm⟩
  · rw [if_neg (not_or.mpr ⟨hother, hboth⟩)]
    refine iff_of_true rfl ?_
    by_cases hid : id = canonical
    · exact Or.inl hid
    · exact Or.inr fun h => absurd ⟨h, hid⟩ hboth

namespace InventoryModule

variable {request : Dataset} {id : Bytes}

/-! ### The fields of a request -/

/-- A text is a number of 64 bits, as the fields of a stock row are read. -/
def IsStockNumber (value : Bytes) : Prop := isDigits value = true ∧ digitsValue value < 2 ^ 63

instance (value : Bytes) : Decidable (IsStockNumber value) := inferInstanceAs (Decidable (_ ∧ _))

/-- The fields that a product type must have are given. -/
def GivesProductType (request : Dataset) : Prop :=
  ∀ key ∈ ["code", "name", "unit"], getOptionalDatasetValue request key ≠ []

/-- The fields of a stock row are given, the quantity and the employee as numbers of 64 bits. -/
structure GivesStock (request : Dataset) : Prop where
  productTypeId : getOptionalDatasetValue request "productTypeId" ≠ []
  quantityAvailable : IsStockNumber (getOptionalDatasetValue request "quantityAvailable")
  employeeId : IsStockNumber (getOptionalDatasetValue request "employeeId")
  employeeId_ne : getOptionalDatasetValue request "employeeId" ≠ utf8 "0"

/-- A product type is built of fields that give one. -/
theorem exists_buildProductType (id : Bytes) (h : GivesProductType request) :
    ∃ x, buildProductType request id = .ok x ∧ x.code = getOptionalDatasetValue request "code" := by
  rw [buildProductType, getRequiredDatasetValue_eq (h "code" (by decide)),
    getRequiredDatasetValue_eq (h "name" (by decide)),
    getRequiredDatasetValue_eq (h "unit" (by decide))]
  exact ⟨_, rfl, rfl⟩

/-- Only fields that give a product type are built into one. -/
theorem buildProductType_gives (request : Dataset) (id : Bytes) :
    Yields Exception.IsUtf8 (buildProductType request id) fun x =>
      x.code = getOptionalDatasetValue request "code" ∧ GivesProductType request := by
  refine getRequiredDatasetValue_spec.bind fun code hcode => ?_
  refine getRequiredDatasetValue_spec.bind fun name hname => ?_
  refine getRequiredDatasetValue_spec.bind fun unit hunit => ?_
  refine Yields.pure ⟨hcode.1, ?_⟩
  simp only [GivesProductType, List.forall_mem_cons, List.not_mem_nil, false_imp_iff,
    implies_true, and_true]
  exact ⟨hcode.1 ▸ hcode.2, hname.1 ▸ hname.2, hunit.1 ▸ hunit.2⟩

/-- What is said of the code of the product type that a request describes is said of its field. -/
theorem forall_buildProductType {P : Bytes → Prop} :
    (∀ x, buildProductType request id = .ok x → P x.code) ↔
      (GivesProductType request → P (getOptionalDatasetValue request "code")) := by
  constructor
  · intro h hgives
    obtain ⟨x, hx, hcode⟩ := exists_buildProductType id hgives
    exact hcode ▸ h x hx
  · intro h x hx
    obtain ⟨hcode, hgives⟩ := (buildProductType_gives request id).ok hx
    exact hcode ▸ h hgives

theorem getRequiredNonNegativeInteger_ok {key : String}
    (h : IsStockNumber (getOptionalDatasetValue request key)) :
    getRequiredNonNegativeInteger request key = .ok (getOptionalDatasetValue request key) := by
  obtain ⟨hne, hall⟩ := isDigits_iff.mp h.1
  have hall : (getOptionalDatasetValue request key).all isDigit = true := List.all_eq_true.mpr hall
  have hlt := h.2
  have hfits : ensureIntegerFitsRange (getOptionalDatasetValue request key) key "InventoryModule" =
      .ok () := by
    rw [ensureIntegerFitsRange, stoull_of_isDigits h.1, if_pos (by omega)]
    exact if_neg (by omega)
  rw [getRequiredNonNegativeInteger, getRequiredDatasetValue_eq hne]
  dsimp only [bind, Except.bind]
  rw [if_neg (not_not.mpr hall), hfits]
  rfl

/-- A stock row is built of fields that give one. -/
theorem exists_buildStock (id : Bytes) (h : GivesStock request) :
    ∃ x, buildStock request id = .ok x ∧
      x.productTypeId = getOptionalDatasetValue request "productTypeId" ∧
      x.employeeId = getOptionalDatasetValue request "employeeId" := by
  have hemployee : getRequiredPositiveInteger request "employeeId" =
      .ok (getOptionalDatasetValue request "employeeId") := by
    rw [getRequiredPositiveInteger, getRequiredNonNegativeInteger_ok h.employeeId]
    exact if_neg h.employeeId_ne
  rw [buildStock, getRequiredDatasetValue_eq h.productTypeId,
    getRequiredNonNegativeInteger_ok h.quantityAvailable, hemployee]
  exact ⟨_, rfl, rfl, rfl⟩

/-- Only fields that give a stock row are built into one. -/
theorem buildStock_gives (request : Dataset) (id : Bytes) :
    Yields Exception.IsUtf8 (buildStock request id) fun x =>
      x.productTypeId = getOptionalDatasetValue request "productTypeId" ∧
        x.employeeId = getOptionalDatasetValue request "employeeId" ∧ GivesStock request := by
  refine getRequiredDatasetValue_spec.bind fun productTypeId hproduct => ?_
  refine getRequiredNonNegativeInteger_spec.bind fun quantity hquantity => ?_
  refine getRequiredPositiveInteger_spec.bind fun employeeId hemployee => ?_
  refine Yields.pure ⟨hproduct.1, hemployee.1, hproduct.1 ▸ hproduct.2, hquantity.1 ▸ hquantity.2,
    ?_, hemployee.1 ▸ hemployee.2.2.2⟩
  exact hemployee.1 ▸ ⟨hemployee.2.1, hemployee.2.2.1⟩

/-- What is said of the product and the employee of the stock that a request describes is said of
its fields. -/
theorem forall_buildStock {P : Bytes → Bytes → Prop} :
    (∀ x, buildStock request id = .ok x → P x.productTypeId x.employeeId) ↔
      (GivesStock request → P (getOptionalDatasetValue request "productTypeId")
        (getOptionalDatasetValue request "employeeId")) := by
  constructor
  · intro h hgives
    obtain ⟨x, hx, hproduct, hemployee⟩ := exists_buildStock id hgives
    exact hproduct ▸ hemployee ▸ h x hx
  · intro h x hx
    obtain ⟨hproduct, hemployee, hgives⟩ := (buildStock_gives request id).ok hx
    exact hproduct ▸ hemployee ▸ h hgives

/-! ### Product types -/

/-- The fields of a product type do not depend on its id. -/
theorem buildProductType_eq (request : Dataset) (id : Bytes) :
    buildProductType request id =
      (buildProductType request []).map fun x => { x with id := id } := by
  unfold buildProductType
  cases getRequiredDatasetValue request "code" "InventoryModule" with
  | error ex => rfl
  | ok code =>
    cases getRequiredDatasetValue request "name" "InventoryModule" with
    | error ex => rfl
    | ok name => cases getRequiredDatasetValue request "unit" "InventoryModule" <;> rfl

/-- The outcome of an edit of a product type that is there. -/
theorem outcome_editProductType (request : Dataset) {r : ℕ × ProductTypeRow}
    (h : Resolves p d .productType id r) :
    outcome (editProductType p request id) d =
      match buildProductType request [] with
      | .error _ => (false, d)
      | .ok x =>
        if (∃ y ∈ (d .productType).rows, y.2.code = cstr x.code ∧ y ≠ r) ∨
            r.2.code = cstr x.code ∧ id ≠ decimal r.1 then (false, d)
        else
          match d.update .productType (.int r.1) (ProductType.row p x) with
          | .ok d' => (true, d')
          | .error _ => (false, d) := by
  rw [editProductType, outcome_bind_ok (exec_ensureExisting _ _ _ _ none h.ne_nil h.has),
    outcome_bind_lift, buildProductType_eq]
  match buildProductType request [] with
  | .error ex => rfl
  | .ok x =>
    -- the rows found are compared by their keys as texts with the id as it is spelled
    have hany := any_ne_iff ProductType.id productTypeRepository.fromCurrentRow
      (fun _ _ => rfl) h fun y => (Column.text ProductTypeRow.code).Matches p x.code y
    refine (outcome_bind_ok (exec_getByField productTypeRepository _ _ d none)).trans ?_
    by_cases hfound : (∃ y ∈ (d .productType).rows, y.2.code = cstr x.code ∧ y ≠ r) ∨
        r.2.code = cstr x.code ∧ id ≠ decimal r.1
    · rw [if_pos (hany.mpr hfound)]
      exact (if_pos hfound).symm
    · rw [if_neg fun hc => hfound (hany.mp hc), outcome_update]
      refine Eq.trans ?_ (if_neg hfound).symm
      exact h.cell ▸ rfl

/-- An edit of a product type under another spelling of its id. -/
theorem editProductType_agree_iff (hcodes : (d .productType).Distinct ProductTypeRow.code)
    {r : ℕ × ProductTypeRow} (h : Resolves p d .productType id r) :
    outcome (editProductType p request id) d =
        outcome (editProductType p request (decimal r.1)) d ↔
      id = decimal r.1 ∨
        ∀ x, buildProductType request id = .ok x → r.2.code ≠ cstr x.code := by
  have hcanonical := outcome_editProductType request (resolves_decimal (p := p) h.mem)
  have hedit := outcome_editProductType request h
  rw [buildProductType_eq]
  match hbuild : buildProductType request [] with
  | .error ex =>
    -- the fields are refused under any id
    rw [hbuild] at hcanonical hedit
    rw [hedit, hcanonical]
    exact iff_of_true rfl (Or.inr fun x hx => by cases hx)
  | .ok x =>
    rw [hbuild] at hcanonical hedit
    have hown : r.2.code = cstr x.code →
        ¬ ∃ y ∈ (d .productType).rows, y.2.code = cstr x.code ∧ y ≠ r := by
      rintro hown ⟨y, hy, hcode, hne⟩
      exact hne (Table.eq_of_mem hy h.mem (hcodes y hy r h.mem (hcode.trans hown.symm)))
    refine (agree_iff rfl hown hedit hcanonical).trans (or_congr Iff.rfl ?_)
    -- the engine accepts the update
    obtain ⟨d', hok⟩ : ∃ d', d.update .productType (.int r.1) (ProductType.row p x) = .ok d' := by
      have hchild : ∀ fk ∈ references, fk.child ≠ .productType := by simp [references]
      exact Database.update_isOk
        (fun u hu => by rcases mem_uniqueKeys hu with rfl | rfl <;> intro ht <;> cases ht)
        fun fk hfk hc => absurd hc (hchild fk (mem_references_of_mem hfk))
    rw [hok]
    constructor
    · intro hrefused y hy hcode
      obtain rfl := Except.ok.inj hy
      exact Bool.noConfusion (congrArg Prod.fst (hrefused hcode))
    · intro hne hcode
      exact absurd hcode (hne { x with id := id } rfl)

/-! ### Stock rows -/

/-- The fields of a stock row do not depend on its id. -/
theorem buildStock_eq (request : Dataset) (id : Bytes) :
    buildStock request id = (buildStock request []).map fun x => { x with id := id } := by
  unfold buildStock
  cases getRequiredDatasetValue request "productTypeId" "InventoryModule" with
  | error ex => rfl
  | ok productTypeId =>
    cases getRequiredNonNegativeInteger request "quantityAvailable" with
    | error ex => rfl
    | ok quantity => cases getRequiredPositiveInteger request "employeeId" <;> rfl

/-- The outcome of an edit of a stock row that is there. -/
theorem outcome_editStock (request : Dataset) {r : ℕ × InventoryRow}
    (h : Resolves p d .inventory id r) :
    outcome (editStock p request id) d =
      match buildStock request [] with
      | .error _ => (false, d)
      | .ok x =>
        if ¬ (d .productType).Has (p.cell x.productTypeId) then (false, d)
        else if (∃ y ∈ (d .inventory).rows, y.2.productTypeId = p.cell x.productTypeId ∧ y ≠ r) ∨
            r.2.productTypeId = p.cell x.productTypeId ∧ id ≠ decimal r.1 then (false, d)
        else
          match d.update .inventory (.int r.1) (Inventory.row p x) with
          | .ok d' => (true, d')
          | .error _ => (false, d) := by
  rw [editStock, outcome_bind_ok (exec_ensureExisting _ _ _ _ none h.ne_nil h.has),
    outcome_bind_lift, buildStock_eq]
  match buildStock request [] with
  | .error ex => rfl
  | .ok x =>
    have hcheck := exec_ensureEntityExists productTypeRepository .id x.productTypeId
      "InventoryModule" "Referenced product type does not exist" d none (p := p)
    by_cases hproduct : (d .productType).Has (p.cell x.productTypeId)
    · -- the product exists, so what is left is the search for its rows and the update
      rw [if_pos (show ∃ y ∈ (d .productType).rows, Column.id.Matches p x.productTypeId y from
        hproduct)] at hcheck
      refine Eq.trans ?_ (if_neg (not_not.mpr hproduct)).symm
      refine (outcome_bind_ok hcheck).trans ?_
      -- the code compares the key as a text with the id as it is spelled
      have hany := any_ne_iff Inventory.id inventoryRepository.fromCurrentRow
        (fun _ _ => rfl) h fun y =>
          (Column.integer InventoryRow.productTypeId).Matches p x.productTypeId y
      refine (outcome_bind_ok (exec_getByField inventoryRepository _ _ d none)).trans ?_
      by_cases hfound : (∃ y ∈ (d .inventory).rows,
            y.2.productTypeId = p.cell x.productTypeId ∧ y ≠ r) ∨
          r.2.productTypeId = p.cell x.productTypeId ∧ id ≠ decimal r.1
      · rw [if_pos (hany.mpr hfound)]
        exact (if_pos hfound).symm
      · rw [if_neg fun hc => hfound (hany.mp hc), outcome_update]
        refine Eq.trans ?_ (if_neg hfound).symm
        exact h.cell ▸ rfl
    · rw [if_neg (show ¬ ∃ y ∈ (d .productType).rows, Column.id.Matches p x.productTypeId y from
        hproduct)] at hcheck
      refine Eq.trans ?_ (if_pos hproduct).symm
      exact outcome_eq (exec_bind_error hcheck)

/-- The engine accepts an edit of a stock row that keeps its product, if the employee exists. -/
theorem update_stock_isOk_iff {d : Db .full} (hstocks : (d .inventory).Distinct
    InventoryRow.productTypeId) {r : ℕ × InventoryRow} (hr : r ∈ (d .inventory).rows)
    {x : InventoryRow} (hown : r.2.productTypeId = x.productTypeId)
    (hemployee : x.employeeId ≠ .null) :
    (∃ d', d.update .inventory (.int r.1) x = .ok d') ↔ (d .employee).Has x.employeeId := by
  constructor
  · rintro ⟨d', hok⟩
    have href := Database.references_of_update hok ⟨r, hr, rfl⟩
      ⟨.inventory, InventoryRow.employeeId, .employee⟩
      (show _ ∈ references by simp [references]) rfl
    exact href.resolve_left hemployee
  · intro hhas
    have hdistinct : ((d .inventory).update (.int r.1) x).Distinct InventoryRow.productTypeId :=
      hstocks.update fun _ y hy hproduct => by
        rw [hstocks y hy r hr (hproduct.trans hown.symm)]
    refine Database.update_isOk (fun u hu ht => stock_unique hdistinct hu ht) fun fk hfk hc => ?_
    rcases stock_references hfk hc with rfl | rfl
    · -- the product is the one the row refers to already
      have hproduct := refers _ (mem_references_of_mem hfk) hr
      dsimp only at hproduct
      rw [hown] at hproduct
      exact hproduct
    · exact Or.inr hhas

/-- An edit of a stock row under another spelling of its id. -/
theorem editStock_agree_iff {d : Db .full}
    (hstocks : (d .inventory).Distinct InventoryRow.productTypeId)
    {r : ℕ × InventoryRow} (h : Resolves p d .inventory id r) :
    outcome (editStock p request id) d = outcome (editStock p request (decimal r.1)) d ↔
      id = decimal r.1 ∨ ∀ x, buildStock request id = .ok x →
        r.2.productTypeId = p.cell x.productTypeId → ¬ (d .employee).Has (p.cell x.employeeId) := by
  have hcanonical := outcome_editStock request (resolves_decimal (p := p) h.mem)
  have hedit := outcome_editStock request h
  rw [buildStock_eq]
  match hbuild : buildStock request [] with
  | .error ex =>
    rw [hbuild] at hcanonical hedit
    rw [hedit, hcanonical]
    exact iff_of_true rfl (Or.inr fun x hx => by cases hx)
  | .ok x =>
    rw [hbuild] at hcanonical hedit
    by_cases hproduct : (d .productType).Has (p.cell x.productTypeId)
    · have hedit := hedit.trans (if_neg (not_not.mpr hproduct))
      have hcanonical := hcanonical.trans (if_neg (not_not.mpr hproduct))
      have hown : r.2.productTypeId = p.cell x.productTypeId →
          ¬ ∃ y ∈ (d .inventory).rows, y.2.productTypeId = p.cell x.productTypeId ∧ y ≠ r := by
        rintro hown ⟨y, hy, hsame, hne⟩
        exact hne (Table.eq_of_mem hy h.mem (hstocks y hy r h.mem (hsame.trans hown.symm)))
      refine (agree_iff rfl hown hedit hcanonical).trans (or_congr Iff.rfl ?_)
      have hisOk (hown : r.2.productTypeId = p.cell x.productTypeId) :=
        update_stock_isOk_iff hstocks h.mem (x := Inventory.row p x) hown (p.cell_ne_null _)
      constructor
      · intro hrefused y hy hown hemployee
        obtain rfl := Except.ok.inj hy
        obtain ⟨d', hok⟩ := (hisOk hown).mpr hemployee
        have hrefused := hrefused hown
        rw [hok] at hrefused
        exact Bool.noConfusion (congrArg Prod.fst hrefused)
      · intro hne hown
        -- the engine refuses a row of an employee that does not exist
        match hresult : d.update .inventory (.int r.1) (Inventory.row p x) with
        | .ok d' => exact absurd ((hisOk hown).mp ⟨d', hresult⟩) (hne { x with id := id } rfl hown)
        | .error v => rfl
    · -- a product that does not exist is refused, and it is not the row's own
      rw [hedit.trans (if_pos hproduct), hcanonical.trans (if_pos hproduct)]
      refine iff_of_true rfl (Or.inr fun y hy hown => ?_)
      obtain rfl := Except.ok.inj hy
      have hown : r.2.productTypeId = p.cell x.productTypeId := hown
      have href : r.2.productTypeId = .null ∨ (d .productType).Has r.2.productTypeId :=
        refers ⟨.inventory, InventoryRow.productTypeId, .productType⟩ (by simp [references]) h.mem
      rw [hown] at href
      exact absurd (href.resolve_left (p.cell_ne_null _)) hproduct

end InventoryModule

open InventoryModule

/-- **Ids and spellings.** In every reachable state and for every text that the database resolves
to a row, an edit of a product type has the same outcome as with the canonical id exactly if the
text is canonical, or the fields are refused, or the code is not the row's own; and an edit of a
stock row exactly if the text is canonical, or the fields are refused, or the product is not the
row's own, or the employee does not exist. -/
theorem edits_agree_iff {s : Session (Db .full) Exception} (hs : (server p .full).Reachable s)
    (request : Dataset) (id : Bytes) :
    (∀ r, Resolves p s.store .productType id r →
      (outcome (editProductType p request id) s.store =
          outcome (editProductType p request (decimal r.1)) s.store ↔
        id = decimal r.1 ∨ (GivesProductType request →
          r.2.code ≠ cstr (getOptionalDatasetValue request "code")))) ∧
    ∀ r, Resolves p s.store .inventory id r →
      (outcome (editStock p request id) s.store =
          outcome (editStock p request (decimal r.1)) s.store ↔
        id = decimal r.1 ∨ (GivesStock request →
          r.2.productTypeId = p.cell (getOptionalDatasetValue request "productTypeId") →
            ¬ (s.store .employee).Has
              (p.cell (getOptionalDatasetValue request "employeeId")))) :=
  ⟨fun r hr => (editProductType_agree_iff (Server.productType_codes hs) hr).trans
      (or_congr_right (forall_buildProductType (P := fun code => r.2.code ≠ cstr code))),
    fun r hr => (editStock_agree_iff (Server.stock_products hs) hr).trans
      (or_congr_right (forall_buildStock (P := fun product employee =>
        r.2.productTypeId = p.cell product → ¬ (s.store .employee).Has (p.cell employee))))⟩

/-- The fields of the stock row of the initial setup, with five units. -/
def fiveUnits : Dataset :=
  (Event.plain "inventory" "stocks" "PUT" "1" [("productTypeId", "1"),
    ("quantityAvailable", "5"), ("employeeId", "1")]).request.dataset

/-- Both `1` and `01` address the stock row of the initial setup. -/
theorem resolves_firstStock (id : Bytes) (h : id ∈ [utf8 "1", utf8 "01"]) :
    Resolves .plain (seed .full) .inventory id (1, ⟨.int 1, .int 0, .int 1⟩) := by
  simp only [List.mem_cons, List.not_mem_nil, or_false] at h
  rcases h with rfl | rfl <;> exact ⟨by decide, by decide, by decide⟩

/-- An edit under `01` that gives the stock row to an employee who does not exist is refused as it
is under `1`. -/
theorem edits_agree_iff_noEmployee :
    outcome (editStock .plain (Event.plain "inventory" "stocks" "PUT" "01"
        [("productTypeId", "1"), ("quantityAvailable", "5"),
          ("employeeId", "7")]).request.dataset (utf8 "01")) (seed .full) =
      outcome (editStock .plain (Event.plain "inventory" "stocks" "PUT" "01"
        [("productTypeId", "1"), ("quantityAvailable", "5"),
          ("employeeId", "7")]).request.dataset (decimal 1)) (seed .full) := by
  refine ((edits_agree_iff (server .plain .full).reachable_init _ _).2 _
    (resolves_firstStock _ (by decide))).mpr (Or.inr fun _ _ => ?_)
  have hemployee : ¬ (seed .full .employee).Has (Platform.plain.cell (utf8 "7")) := by decide
  exact hemployee

/-- Edits of the first product type and of the first stock row that keep the code and the product
are accepted under `1` and refused under `01`. -/
theorem edits_disagree :
    (server .plain .full).Reachable (server .plain .full).init ∧
      (∃ r, Resolves .plain (seed .full) .productType (utf8 "01") r) ∧
      (outcome (editProductType .plain editDefaultProduct.request.dataset (utf8 "1"))
        (seed .full)).1 = true ∧
      (outcome (editProductType .plain editDefaultProduct.request.dataset (utf8 "01"))
        (seed .full)).1 = false ∧
      Resolves .plain (seed .full) .inventory (utf8 "01") (1, ⟨.int 1, .int 0, .int 1⟩) ∧
      (outcome (editStock .plain fiveUnits (utf8 "1")) (seed .full)).1 = true ∧
      (outcome (editStock .plain fiveUnits (utf8 "01")) (seed .full)).1 = false := by
  refine ⟨(server .plain .full).reachable_init, ⟨_, by decide, List.mem_cons_self, by decide⟩,
    by decide +kernel, by decide +kernel, resolves_firstStock _ (by decide), by decide +kernel,
    by decide +kernel⟩

end SageStore
