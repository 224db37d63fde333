import Mathlib.Algebra.BigOperators.Group.List.Basic
import Mathlib.Algebra.GroupWithZero.Nat
import Mathlib.Data.List.Nodup
import Mathlib.Data.List.Perm.Basic

/-!
# Elements sorted into buckets

An index assigns to some elements of a list the bucket they belong to. A loop over the list that
updates, for each element, the bucket of its index leaves in every bucket what the elements of
that bucket alone make of it (`getElem?_dispatch`), so that counters hold what `List.countP`
says, and together count the elements whose index is in range (`sum_countP_index`).

A list of preferred keys puts the keys of a collection into two buckets: the preferred ones, in
the order of the preference, and the others (`perm_preferred_append`).
-/

namespace Buckets

variable {α β κ : Type*}

/-- The bucket of `x` is updated, if it has one. -/
def place (index : α → Option ℕ) (update : α → β → β) (buckets : List β) (x : α) : List β :=
  match index x with
  | none => buckets
  | some i => buckets.modify i (update x)

/-- The elements are sorted into the buckets one after another. -/
def dispatch (index : α → Option ℕ) (update : α → β → β) (buckets : List β) (xs : List α) :
    List β :=
  xs.foldl (place index update) buckets

section

variable {index : α → Option ℕ} {update : α → β → β} {buckets : List β}

@[simp] theorem length_place (x : α) :
    (place index update buckets x).length = buckets.length := by
  unfold place
  split
  · rfl
  · exact List.length_modify ..

/-- Placing an element updates its bucket and keeps the others. -/
theorem getElem?_place (x : α) (j : ℕ) : (place index update buckets x)[j]? =
    buckets[j]?.map fun b => if index x = some j then update x b else b := by
  unfold place
  split
  next hnone =>
    simp only [hnone, reduceCtorEq, if_false, Option.map_id']
  next i hi =>
    simp only [List.getElem?_modify, hi, Option.some.injEq]
    cases buckets[j]? <;> rfl

@[simp] theorem length_dispatch (xs : List α) :
    (dispatch index update buckets xs).length = buckets.length := by
  induction xs generalizing buckets with
  | nil => rfl
  | cons x xs ih =>
    change (dispatch index update (place index update buckets x) xs).length = _
    rw [ih, length_place]

/-- What is in a bucket is what the elements of its index make of it. -/
theorem getElem?_dispatch (xs : List α) (j : ℕ) : (dispatch index update buckets xs)[j]? =
    buckets[j]?.map fun b => (xs.filter (index · = some j)).foldl (fun b x => update x b) b := by
  induction xs generalizing buckets with
  | nil => exact (Option.map_id' ..).symm
  | cons x xs ih =>
    change (dispatch index update (place index update buckets x) xs)[j]? = _
    rw [ih, getElem?_place, Option.map_map]
    congr 1
    funext b
    rw [Function.comp_apply, List.filter_cons]
    by_cases hx : index x = some j
    · rw [if_pos hx, if_pos (decide_eq_true hx), List.foldl_cons]
    · rw [if_neg hx, if_neg (by rwa [decide_eq_true_iff])]

/-- Where the updates of a bucket commute, the order of the elements does not matter. -/
theorem dispatch_perm (hcomm : ∀ x y b, update x (update y b) = update y (update x b))
    {xs ys : List α} (h : xs.Perm ys) :
    dispatch index update buckets xs = dispatch index update buckets ys := by
  refine List.ext_getElem? fun j => ?_
  rw [getElem?_dispatch, getElem?_dispatch]
  congr 1
  funext b
  exact (h.filter _).foldl_eq' (fun x _ y _ b => hcomm y x b) b

end

/-- The elements of the first `n + 1` buckets are those of the first `n` and those of the next. -/
theorem countP_index_succ (index : α → Option ℕ) (xs : List α) (n : ℕ) :
    xs.countP (fun x => (index x).any (· < n + 1)) =
      xs.countP (fun x => (index x).any (· < n)) + xs.countP (index · = some n) := by
  induction xs with
  | nil => rfl
  | cons x xs ih =>
    simp only [List.countP_cons, ih]
    cases index x with
    | none => simp only [Option.any_none, reduceCtorEq, decide_false, Bool.false_eq_true, if_false,
        Nat.add_zero]
    | some i =>
      -- an index below `n + 1` is either below `n` or is `n`
      simp only [Option.any_some, decide_eq_true_eq, Option.some.injEq]
      split_ifs <;> omega

/-- The counts of the first `n` buckets add up to the number of elements that have an index
below `n`. -/
theorem sum_countP_index (index : α → Option ℕ) (xs : List α) (n : ℕ) :
    ((List.range n).map fun j => xs.countP (index · = some j)).sum =
      xs.countP fun x => (index x).any (· < n) := by
  induction n with
  | zero => simp
  | succ n ih =>
    rw [List.range_succ, List.map_append, List.sum_append, ih, List.map_singleton,
      List.sum_singleton, countP_index_succ]

/-! ### Preferred keys -/

section Preferred

variable {keys preferred : List κ} {present extra : κ → Bool}

/-- Preferred keys that are present, and the keys that are not preferred: each key once. -/
theorem perm_preferred_append (hkeys : keys.Nodup) (hpreferred : preferred.Nodup)
    (hpresent : ∀ key, present key = true ↔ key ∈ keys)
    (hextra : ∀ key, extra key = true ↔ key ∉ preferred) :
    (preferred.filter present ++ keys.filter extra).Perm keys := by
  refine (List.perm_ext_iff_of_nodup ?_ hkeys).mpr fun key => ?_
  · refine List.Nodup.append (hpreferred.filter _) (hkeys.filter _) fun key hl hr => ?_
    exact (hextra key).mp (List.mem_filter.mp hr).2 (List.mem_filter.mp hl).1
  · rw [List.mem_append, List.mem_filter, List.mem_filter, hpresent, hextra]
    tauto

end Preferred

end Buckets
