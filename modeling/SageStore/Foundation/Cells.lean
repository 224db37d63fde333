import Mathlib.Data.List.DropRight

/-!
# Stripped cells

A list is stripped by removing from both ends the elements that satisfy a predicate, and split
into cells at a separator. When the separator is not itself stripped, the list may as well be
stripped before it is split: the stripped cells are the same (`map_strip_splitOn`). The first of
several cells keeps what stands behind it, though (`head?_splitOn_strip`).
-/

namespace Cells

variable {α β : Type*} {p : α → Bool}

/-- The list without the elements at its ends that satisfy `p`. -/
def strip (p : α → Bool) (t : List α) : List α := (t.dropWhile p).rdropWhile p

theorem rdropWhile_append_of_pos {r : List α} (hr : ∀ x ∈ r, p x = true) (t : List α) :
    (t ++ r).rdropWhile p = t.rdropWhile p := by
  rw [List.rdropWhile, List.reverse_append, List.dropWhile_append_of_pos (by simpa using hr)]
  rfl

/-- What is stripped off a list satisfies the predicate. -/
theorem exists_strip (p : α → Bool) (t : List α) : ∃ l r, (∀ x ∈ l, p x = true) ∧
    (∀ x ∈ r, p x = true) ∧ t = l ++ (strip p t ++ r) := by
  refine ⟨t.takeWhile p, (t.dropWhile p).rtakeWhile p,
    fun x hx => List.mem_takeWhile_imp hx, fun x hx => List.mem_rtakeWhile_imp hx, ?_⟩
  rw [strip, List.rdropWhile_append_rtakeWhile, List.takeWhile_append_dropWhile]

theorem rdropWhile_eq_self {t : List α} (hlast : ∀ x ∈ t.getLast?, p x = false) :
    t.rdropWhile p = t := by
  rw [List.rdropWhile_eq_self_iff]
  intro hne
  rw [hlast _ (List.getLast_mem_getLast? hne)]
  exact Bool.false_ne_true

theorem dropWhile_eq_self {t : List α} (hhead : ∀ x ∈ t.head?, p x = false) :
    t.dropWhile p = t := by
  cases t with
  | nil => rfl
  | cons x t => exact List.dropWhile_cons_of_neg (by simp [hhead x rfl])

/-- A list that neither begins nor ends with such an element is left as it is. -/
theorem strip_eq_self {t : List α} (hhead : ∀ x ∈ t.head?, p x = false)
    (hlast : ∀ x ∈ t.getLast?, p x = false) : strip p t = t := by
  rw [strip, dropWhile_eq_self hhead, rdropWhile_eq_self hlast]

/-- Such elements around a list make no difference. -/
theorem strip_pad {l t r : List α} (hl : ∀ x ∈ l, p x = true) (hr : ∀ x ∈ r, p x = true) :
    strip p (l ++ (t ++ r)) = strip p t := by
  rw [strip, List.dropWhile_append_of_pos hl, List.dropWhile_append]
  split
  · next hempty =>
    -- the list satisfies the predicate altogether, and so does what stands behind it
    have hnil : t.dropWhile p = [] := List.isEmpty_iff.mp hempty
    rw [strip, hnil]
    exact List.rdropWhile_eq_nil_iff.mpr fun x hx => hr x ((List.dropWhile_sublist p).mem hx)
  · exact rdropWhile_append_of_pos hr _

/-- Only a text of nothing but padding is stripped to nothing. -/
theorem strip_eq_nil_iff {t : List α} : strip p t = [] ↔ ∀ x ∈ t, p x = true := by
  constructor
  · intro h
    obtain ⟨l, r, hl, hr, heq⟩ := exists_strip p t
    rw [h, List.nil_append] at heq
    intro x hx
    rw [heq] at hx
    exact (List.mem_append.mp hx).elim (hl x) (hr x)
  · intro h
    rw [strip, List.dropWhile_eq_nil_iff.mpr h]
    rfl

theorem strip_dropWhile (t : List α) : strip p (t.dropWhile p) = strip p t := by
  have h : strip p (t.takeWhile p ++ (t.dropWhile p ++ [])) = strip p (t.dropWhile p) :=
    strip_pad (fun x hx => List.mem_takeWhile_imp hx) fun x hx => absurd hx List.not_mem_nil
  rwa [List.append_nil, List.takeWhile_append_dropWhile, eq_comm] at h

theorem strip_rdropWhile (t : List α) : strip p (t.rdropWhile p) = strip p t := by
  have h : strip p ([] ++ (t.rdropWhile p ++ t.rtakeWhile p)) = strip p (t.rdropWhile p) :=
    strip_pad (fun x hx => absurd hx List.not_mem_nil) fun x hx => List.mem_rtakeWhile_imp hx
  rwa [List.nil_append, List.rdropWhile_append_rtakeWhile, eq_comm] at h

/-! ### Around a separator -/

section

variable {a : α}

/-- Stripping the front stops at an element that stays. -/
theorem dropWhile_append_cons (ha : p a = false) (u v : List α) :
    (u ++ a :: v).dropWhile p = u.dropWhile p ++ a :: v := by
  rw [List.dropWhile_append]
  split
  · next hempty =>
    rw [List.isEmpty_iff.mp hempty, List.dropWhile_cons_of_neg (by simp [ha])]
    rfl
  · rfl

/-- Stripping the back stops there as well. -/
theorem rdropWhile_append_cons (ha : p a = false) (u v : List α) :
    (u ++ a :: v).rdropWhile p = u ++ a :: v.rdropWhile p := by
  rw [List.rdropWhile, List.reverse_append, List.reverse_cons, List.append_assoc,
    List.singleton_append, dropWhile_append_cons ha, List.reverse_append, List.reverse_cons,
    List.reverse_reverse, List.append_assoc]
  rfl

variable [DecidableEq α]

/-- What stands in front of the first cell can be removed before the list is split. -/
theorem map_splitOn_dropWhile (ha : p a = false) {f : List α → β}
    (hf : ∀ t, f (t.dropWhile p) = f t) (t : List α) :
    ((t.dropWhile p).splitOn a).map f = (t.splitOn a).map f := by
  by_cases hmem : a ∈ t
  · obtain ⟨u, v, rfl, hu⟩ := List.eq_append_cons_of_mem hmem
    have hu' : a ∉ u.dropWhile p := fun h => hu ((List.dropWhile_sublist p).mem h)
    rw [dropWhile_append_cons ha, List.splitOn_append_cons_self, List.splitOn_append_cons_self,
      List.splitOn_eq_singleton hu, List.splitOn_eq_singleton hu', List.map_append,
      List.map_append, List.map_singleton, List.map_singleton, hf]
  · have hmem' : a ∉ t.dropWhile p := fun h => hmem ((List.dropWhile_sublist p).mem h)
    rw [List.splitOn_eq_singleton hmem, List.splitOn_eq_singleton hmem', List.map_singleton,
      List.map_singleton, hf]

/-- And what stands behind the last cell. -/
theorem map_splitOn_rdropWhile (ha : p a = false) {f : List α → β}
    (hf : ∀ t, f (t.rdropWhile p) = f t) (t : List α) :
    ((t.rdropWhile p).splitOn a).map f = (t.splitOn a).map f := by
  by_cases hmem : a ∈ t
  · -- the last cell stands behind the last separator
    obtain ⟨w, u, heq, hw⟩ := List.eq_append_cons_of_mem (List.mem_reverse.mpr hmem)
    obtain ⟨v, rfl⟩ : ∃ v, w = v.reverse := ⟨w.reverse, (List.reverse_reverse w).symm⟩
    have ht : t = u.reverse ++ a :: v := by
      rw [← t.reverse_reverse, heq, List.reverse_append, List.reverse_cons, List.reverse_reverse,
        List.append_assoc, List.singleton_append]
    have hv : a ∉ v := fun h => hw (List.mem_reverse.mpr h)
    have hv' : a ∉ v.rdropWhile p := fun h => hv ((List.rdropWhile_prefix p _).subset h)
    rw [ht, rdropWhile_append_cons ha, List.splitOn_append_cons_self,
      List.splitOn_append_cons_self, List.splitOn_eq_singleton hv, List.splitOn_eq_singleton hv',
      List.map_append, List.map_append, List.map_singleton, List.map_singleton, hf]
  · have hmem' : a ∉ t.rdropWhile p := fun h => hmem ((List.rdropWhile_prefix p _).subset h)
    rw [List.splitOn_eq_singleton hmem, List.splitOn_eq_singleton hmem', List.map_singleton,
      List.map_singleton, hf]

/-- The stripped cells of a list are those of the stripped list. -/
theorem map_strip_splitOn (ha : p a = false) (t : List α) :
    ((strip p t).splitOn a).map (strip p) = (t.splitOn a).map (strip p) := by
  rw [strip, map_splitOn_rdropWhile ha strip_rdropWhile, map_splitOn_dropWhile ha strip_dropWhile]

/-- Stripping leaves the number of cells if the separator is no padding. -/
theorem length_splitOn_strip (ha : p a = false) (t : List α) :
    ((strip p t).splitOn a).length = (t.splitOn a).length := by
  simpa using congrArg List.length (map_strip_splitOn ha t)

/-- The first of several cells keeps what stands behind it. -/
theorem head?_splitOn_strip (ha : p a = false) {t : List α} (hmem : a ∈ t) :
    ((strip p t).splitOn a).head? = (t.splitOn a).head?.map (List.dropWhile p) := by
  obtain ⟨u, v, rfl, hu⟩ := List.eq_append_cons_of_mem hmem
  have hu' : a ∉ u.dropWhile p := fun h => hu ((List.dropWhile_sublist p).mem h)
  rw [strip, dropWhile_append_cons ha, rdropWhile_append_cons ha,
    List.splitOn_append_cons_self_of_not_mem hu', List.splitOn_append_cons_self_of_not_mem hu]
  rfl

/-- More than one cell needs a separator. -/
theorem mem_of_splitOn {t : List α} (h : 1 < (t.splitOn a).length) : a ∈ t := by
  by_contra hmem
  rw [List.splitOn_eq_singleton hmem] at h
  exact absurd h (lt_irrefl 1)

end

/-! ### Lists up to an element -/

/-- The list up to and with the first element that satisfies `p`. -/
def through (p : α → Bool) : List α → List α
  | [] => []
  | x :: xs => if p x then [x] else x :: through p xs

theorem through_prefix (p : α → Bool) (xs : List α) : through p xs <+: xs := by
  induction xs with
  | nil => exact List.prefix_rfl
  | cons x xs ih =>
    unfold through
    split
    · exact List.cons_prefix_cons.mpr ⟨rfl, List.nil_prefix⟩
    · exact List.cons_prefix_cons.mpr ⟨rfl, ih⟩

/-- What does not stop is passed over. -/
theorem through_append_of_forall {xs : List α} (h : ∀ x ∈ xs, p x = false) (ys : List α) :
    through p (xs ++ ys) = xs ++ through p ys := by
  induction xs with
  | nil => rfl
  | cons x xs ih =>
    rw [List.cons_append, through, h x List.mem_cons_self, if_neg Bool.false_ne_true,
      ih fun y hy => h y (List.mem_cons_of_mem _ hy)]
    rfl

/-- Nothing is read behind what stops. -/
theorem through_append_of_exists {xs : List α} (h : ∃ x ∈ xs, p x = true) (ys : List α) :
    through p (xs ++ ys) = through p xs := by
  induction xs with
  | nil => simp at h
  | cons x xs ih =>
    rw [List.cons_append, through, through]
    cases hx : p x with
    | true => rfl
    | false =>
      obtain ⟨y, hy, hp⟩ := h
      rcases List.mem_cons.mp hy with rfl | hy
      · exact absurd hp (hx ▸ Bool.false_ne_true)
      · rw [ih ⟨y, hy, hp⟩]

/-- Nothing is left out if at most the last element satisfies `p`. -/
theorem through_eq_self_iff {xs : List α} :
    through p xs = xs ↔ ∀ x ∈ xs.dropLast, p x = false := by
  induction xs with
  | nil => simp [through]
  | cons x xs ih =>
    cases xs with
    | nil =>
      refine iff_of_true ?_ (by simp)
      unfold through
      split <;> rfl
    | cons y ys =>
      rw [List.dropLast_cons_cons, List.forall_mem_cons, through]
      cases hx : p x with
      | true => simp
      | false =>
        rw [if_neg Bool.false_ne_true, List.cons_eq_cons]
        simp only [true_and, ih]

section FilterMap

variable {f g : α → Option β}

theorem length_filterMap_le (hle : ∀ x, g x = none ∨ f x = g x) (xs : List α) :
    (xs.filterMap g).length ≤ (xs.filterMap f).length := by
  induction xs with
  | nil => exact le_rfl
  | cons x xs ih =>
    rw [List.filterMap_cons, List.filterMap_cons]
    rcases hle x with hnone | heq
    · rw [hnone]
      cases f x with
      | none => exact ih
      | some b => exact Nat.le_succ_of_le ih
    · rw [heq]
      cases g x with
      | none => exact ih
      | some b => exact Nat.succ_le_succ ih

/-- A reading that takes more than another takes exactly the same of a list when no element is
taken by it alone. -/
theorem filterMap_eq_iff (hle : ∀ x, g x = none ∨ f x = g x) (xs : List α) :
    xs.filterMap f = xs.filterMap g ↔ ∀ x ∈ xs, f x = g x := by
  refine ⟨fun h => ?_, List.filterMap_congr⟩
  induction xs with
  | nil => exact fun _ hx => absurd hx List.not_mem_nil
  | cons x xs ih =>
    rw [List.filterMap_cons, List.filterMap_cons] at h
    have hx : f x = g x := by
      rcases hle x with hnone | heq
      · -- were `x` taken by `f` alone, `f` would take more of the list
        rw [hnone] at h ⊢
        cases hf : f x with
        | none => rfl
        | some b =>
          rw [hf] at h
          have hsucc : (xs.filterMap f).length + 1 = (xs.filterMap g).length :=
            congrArg List.length h
          have hle := length_filterMap_le hle xs
          omega
      · exact heq
    refine List.forall_mem_cons.mpr ⟨hx, ih ?_⟩
    -- both take the same of `x`, so the rest is the same as well
    rw [hx] at h
    cases hg : g x with
    | none => rwa [hg] at h
    | some b =>
      rw [hg] at h
      exact List.tail_eq_of_cons_eq h

end FilterMap

end Cells
