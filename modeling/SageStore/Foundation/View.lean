import Mathlib.Data.List.Find
import SageStore.Foundation.Database
import SageStore.Foundation.Lockstep

/-!
# Databases seen through a view

A view `f` blanks out part of each row. Two databases are `Alike f` when every table is the
same after `f`. When the constraints do not read what `f` blanks out (`Constraints.Overlook`),
a statement on one of two such databases fails exactly when it fails on the other, with the
same violation, and otherwise leaves two databases that are alike again
(`Database.Alike.insert`, `Database.Alike.update`, `Database.Alike.delete`).
-/

namespace Table

variable {R S : Type}

/-- The table with each row read through `f`. -/
def map (f : R → S) (T : Table R) : Table S where
  rows := T.rows.map fun r => (r.1, f r.2)
  seq := T.seq
  sorted := by
    rw [List.map_map]
    exact T.sorted
  le_seq := by
    intro r hr
    obtain ⟨r', hr', rfl⟩ := List.mem_map.mp hr
    exact T.le_seq r' hr'

@[simp] theorem map_rows (f : R → S) (T : Table R) :
    (T.map f).rows = T.rows.map fun r => (r.1, f r.2) := rfl

@[simp] theorem map_seq (f : R → S) (T : Table R) : (T.map f).seq = T.seq := rfl

/-- A view that blanks out nothing leaves the table as it is. -/
theorem map_eq_self {f : R → R} (hf : ∀ x, f x = x) (T : Table R) : T.map f = T := by
  refine Table.ext ?_ rfl
  have hrow : (fun r : ℕ × R => (r.1, f r.2)) = id := funext fun r => Prod.ext rfl (hf r.2)
  rw [map_rows, hrow, List.map_id]

@[simp] theorem map_insert (f : R → S) (T : Table R) (x : R) :
    (T.insert x).map f = (T.map f).insert (f x) := by
  refine Table.ext ?_ rfl
  rw [map_rows, insert_rows, List.map_append]
  rfl

@[simp] theorem map_update (f : R → S) (T : Table R) (key : Cell) (x : R) :
    (T.update key x).map f = (T.map f).update key (f x) := by
  refine Table.ext ?_ rfl
  change (T.rows.map _).map _ = (T.rows.map _).map _
  rw [List.map_map, List.map_map]
  refine List.map_congr_left fun r _ => ?_
  dsimp only [Function.comp_apply]
  split <;> rfl

@[simp] theorem map_delete (f : R → S) (T : Table R) (key : Cell) :
    (T.delete key).map f = (T.map f).delete key := by
  refine Table.ext ?_ rfl
  rw [map_rows, delete_rows, delete_rows, map_rows, List.filter_map]
  rfl

/-- The keys in use are the same through every view. -/
@[simp] theorem has_map {f : R → S} {T : Table R} {key : Cell} :
    (T.map f).Has key ↔ T.Has key := by
  constructor
  · rintro ⟨r, hr, hkey⟩
    obtain ⟨r', hr', rfl⟩ := List.mem_map.mp hr
    exact ⟨r', hr', hkey⟩
  · rintro ⟨r, hr, hkey⟩
    exact ⟨_, List.mem_map_of_mem hr, hkey⟩

end Table

variable {τ : Type} {Row : τ → Type}

/-- The constraints do not read what the view `f` blanks out. -/
structure Constraints.Overlook (c : Constraints Row) (f : ∀ t, Row t → Row t) : Prop where
  unique : ∀ u ∈ c.uniqueKeys, ∀ x, u.column (f u.tab x) = u.column x
  references : ∀ fk ∈ c.foreignKeys, ∀ x, fk.column (f fk.child x) = fk.column x

section Overlook

variable {f : ∀ t, Row t → Row t} {T : ∀ t, Table (Row t)}

/-- A view that keeps the key's column does not change whether the key holds. -/
theorem UniqueKey.holds_map {u : UniqueKey Row} (hu : ∀ x, u.column (f u.tab x) = u.column x) :
    (u.Holds fun t => (T t).map (f t)) ↔ u.Holds T := by
  unfold UniqueKey.Holds
  simp only [Table.map_rows, List.forall_mem_map, hu]

/-- A view that keeps the reference does not change whether it is met. -/
theorem ForeignKey.holds_map {fk : ForeignKey Row}
    (hfk : ∀ x, fk.column (f fk.child x) = fk.column x) :
    (fk.Holds fun t => (T t).map (f t)) ↔ fk.Holds T := by
  unfold ForeignKey.Holds
  simp only [Table.map_rows, List.forall_mem_map, Table.has_map, hfk]

end Overlook

namespace Database

variable {c : Constraints Row} {f : ∀ t, Row t → Row t}

/-- The two databases are the same through the view `f`. -/
def Alike (f : ∀ t, Row t → Row t) (db db' : Database c) : Prop :=
  ∀ t, (db t).map (f t) = (db' t).map (f t)

/-- Tables that are the same through the view are accepted together, or refused for the same
reason. -/
theorem agree_check (hc : c.Overlook f) {T T' : ∀ t, Table (Row t)}
    {hk : ∀ t, (T t).seq < 2 ^ 63} {hk' : ∀ t, (T' t).seq < 2 ^ 63}
    (h : ∀ t, (T t).map (f t) = (T' t).map (f t)) :
    Except.Agree (Alike f) (check c T hk) (check c T' hk') := by
  have hview : (fun t => (T t).map (f t)) = fun t => (T' t).map (f t) := funext h
  have hunique (u : UniqueKey Row) (hu : u ∈ c.uniqueKeys) : u.Holds T ↔ u.Holds T' := by
    rw [← UniqueKey.holds_map (hc.unique u hu), hview, UniqueKey.holds_map (hc.unique u hu)]
  have hreferences (fk : ForeignKey Row) (hfk : fk ∈ c.foreignKeys) :
      fk.Holds T ↔ fk.Holds T' := by
    rw [← ForeignKey.holds_map (hc.references fk hfk), hview,
      ForeignKey.holds_map (hc.references fk hfk)]
  unfold check
  by_cases hu : ∀ u ∈ c.uniqueKeys, u.Holds T
  · have hu' : ∀ u ∈ c.uniqueKeys, u.Holds T' := fun u hmem => (hunique u hmem).mp (hu u hmem)
    rw [dif_pos hu, dif_pos hu']
    by_cases hf : ∀ fk ∈ c.foreignKeys, fk.Holds T
    · have hf' : ∀ fk ∈ c.foreignKeys, fk.Holds T' := fun fk hmem =>
        (hreferences fk hmem).mp (hf fk hmem)
      rw [dif_pos hf, dif_pos hf']
      exact .ok h
    · have hf' : ¬ ∀ fk ∈ c.foreignKeys, fk.Holds T' := fun hf' =>
        hf fun fk hmem => (hreferences fk hmem).mpr (hf' fk hmem)
      rw [dif_neg hf, dif_neg hf']
      exact .error _
  · have hu' : ¬ ∀ u ∈ c.uniqueKeys, u.Holds T' := fun hu' =>
      hu fun u hmem => (hunique u hmem).mpr (hu' u hmem)
    rw [dif_neg hu, dif_neg hu']
    -- the first key that is violated is the same one
    have hfind : (c.uniqueKeys.find? fun u => ¬ u.Holds T) =
        c.uniqueKeys.find? fun u => ¬ u.Holds T' :=
      List.find?_congr fun u hmem => by simp only [hunique u hmem]
    rw [hfind]
    exact .error _

section Statements

variable [DecidableEq τ] {db db' : Database c} {t : τ}

/-- Databases that look alike accept and refuse the same tables, as long as the constraints overlook
what the view hides. -/
theorem Alike.put (h : Alike f db db') (hc : c.Overlook f) {U U' : Table (Row t)}
    (hU : U.map (f t) = U'.map (f t)) : Except.Agree (Alike f) (db.put t U) (db'.put t U') := by
  have hseq := congrArg Table.seq hU
  rw [Table.map_seq, Table.map_seq] at hseq
  unfold Database.put
  by_cases hk : U.seq < 2 ^ 63
  case neg =>
    rw [dif_neg hk, dif_neg (hseq ▸ hk)]
    exact .error _
  rw [dif_pos hk, dif_pos (hseq ▸ hk)]
  refine agree_check hc fun t' => ?_
  by_cases ht : t' = t
  · subst ht
    rwa [Function.update_self, Function.update_self]
  · rw [Function.update_of_ne ht, Function.update_of_ne ht]
    exact h t'

theorem Alike.insert (h : Alike f db db') (hc : c.Overlook f) {x x' : Row t}
    (hx : f t x = f t x') : Except.Agree (Alike f) (db.insert t x) (db'.insert t x') :=
  h.put hc (by rw [Table.map_insert, Table.map_insert, h t, hx])

theorem Alike.update (h : Alike f db db') (hc : c.Overlook f) (key : Cell) {x x' : Row t}
    (hx : f t x = f t x') :
    Except.Agree (Alike f) (db.update t key x) (db'.update t key x') :=
  h.put hc (by rw [Table.map_update, Table.map_update, h t, hx])

theorem Alike.delete (h : Alike f db db') (hc : c.Overlook f) (t : τ) (key : Cell) :
    Except.Agree (Alike f) (db.delete t key) (db'.delete t key) :=
  h.put hc (by rw [Table.map_delete, Table.map_delete, h t])

end Statements

end Database
