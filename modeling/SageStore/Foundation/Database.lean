import Mathlib.Logic.Function.Basic
import SageStore.Foundation.Table

/-!
# Databases with uniqueness and reference constraints

A database is a family of tables that meets its constraints. The constraints are part of
the type (`Database c`), so a violating state cannot be built, and every statement decides
by `Database.check` whether the tables it would produce are a database: it either takes
effect as a whole or fails with no effect at all.

Keys are 64-bit integers. A table whose last key has been given out takes no more rows: the
insertion fails, so the keys of a database fit (`Database.key_lt`).

`ForeignKey.Holds` says of a referencing column that each row holds NULL or the key of a
row of the parent table; `UniqueKey.Holds` that no two rows agree on a column unless they
hold NULL there.
-/

variable {τ : Type} {Row : τ → Type}

/-- A column of `child` whose values are keys of `parent`. -/
structure ForeignKey (Row : τ → Type) where
  child : τ
  column : Row child → Cell
  parent : τ

/-- A column of `tab` that no two rows agree on. The name is the one the engine reports. -/
structure UniqueKey (Row : τ → Type) where
  name : Bytes
  tab : τ
  column : Row tab → Cell

/-- The constraints of a schema. -/
structure Constraints (Row : τ → Type) where
  uniqueKeys : List (UniqueKey Row)
  foreignKeys : List (ForeignKey Row)

/-- Why a statement failed. The table is full when its last key has been given out. -/
inductive Violation where
  | full
  | unique (name : Bytes)
  | foreignKey
deriving DecidableEq

namespace ForeignKey

/-- Every row of the child holds NULL, or the key of a row of the parent. -/
def Holds (fk : ForeignKey Row) (T : ∀ t, Table (Row t)) : Prop :=
  ∀ r ∈ (T fk.child).rows, fk.column r.2 = .null ∨ (T fk.parent).Has (fk.column r.2)

instance (fk : ForeignKey Row) (T : ∀ t, Table (Row t)) : Decidable (fk.Holds T) :=
  inferInstanceAs (Decidable (∀ r ∈ (T fk.child).rows, _))

end ForeignKey

namespace UniqueKey

/-- Two rows that hold the same value hold NULL, or are one row. -/
def Holds (u : UniqueKey Row) (T : ∀ t, Table (Row t)) : Prop :=
  ∀ r ∈ (T u.tab).rows, ∀ r' ∈ (T u.tab).rows,
    u.column r.2 = u.column r'.2 → u.column r.2 ≠ .null → r.1 = r'.1

instance (u : UniqueKey Row) (T : ∀ t, Table (Row t)) : Decidable (u.Holds T) :=
  inferInstanceAs (Decidable (∀ r ∈ (T u.tab).rows, ∀ r' ∈ (T u.tab).rows, _))

end UniqueKey

/-- A family of tables that meets the constraints `c`. -/
structure Database (c : Constraints Row) where
  tables : ∀ t, Table (Row t)
  keys_fit : ∀ t, (tables t).seq < 2 ^ 63
  unique : ∀ u ∈ c.uniqueKeys, u.Holds tables
  references : ∀ fk ∈ c.foreignKeys, fk.Holds tables

namespace Database

variable {c : Constraints Row}

instance : CoeFun (Database c) fun _ => ∀ t, Table (Row t) := ⟨Database.tables⟩

@[ext] theorem ext {db db' : Database c} (h : ∀ t, db t = db' t) : db = db' := by
  obtain ⟨T, hk, hu, hf⟩ := db
  obtain ⟨T', hk', hu', hf'⟩ := db'
  obtain rfl : T = T' := funext h
  rfl

/-- The key of a row fits 64 signed bits. -/
theorem key_lt {db : Database c} {t : τ} {r : ℕ × Row t} (hr : r ∈ (db t).rows) :
    r.1 < 2 ^ 63 :=
  Nat.lt_of_le_of_lt ((db t).le_seq r hr) (db.keys_fit t)

/-- A key that is in use fits 64 signed bits. -/
theorem isCount_of_has {db : Database c} {t : τ} {key : Cell} (h : (db t).Has key) :
    key.IsCount := by
  obtain ⟨r, hr, rfl⟩ := h
  exact ⟨r.1, rfl, key_lt hr⟩

/-- Accept the tables `T` if they meet the constraints. Uniqueness is reported first, and a
reference only when the statement is complete. -/
def check (c : Constraints Row) (T : ∀ t, Table (Row t)) (hk : ∀ t, (T t).seq < 2 ^ 63) :
    Except Violation (Database c) :=
  if hu : ∀ u ∈ c.uniqueKeys, u.Holds T then
    if hf : ∀ fk ∈ c.foreignKeys, fk.Holds T then
      .ok ⟨T, hk, hu, hf⟩
    else
      .error .foreignKey
  else
    .error (.unique (((c.uniqueKeys.find? fun u => ¬ u.Holds T).map UniqueKey.name).getD []))

section Check

variable {T : ∀ t, Table (Row t)} {hk : ∀ t, (T t).seq < 2 ^ 63}

/-- What is checked is what is stored. -/
theorem check_ok {db : Database c} (h : check c T hk = .ok db) : db.tables = T := by
  unfold check at h
  split at h
  · split at h
    · exact congrArg Database.tables (Except.ok.inj h).symm
    · cases h
  · cases h

/-- Tables that meet the constraints are accepted. -/
theorem check_eq_ok (hu : ∀ u ∈ c.uniqueKeys, u.Holds T)
    (hf : ∀ fk ∈ c.foreignKeys, fk.Holds T) : check c T hk = .ok ⟨T, hk, hu, hf⟩ := by
  rw [check, dif_pos hu, dif_pos hf]

/-- A uniqueness violation names one of the constraints, or nothing. -/
theorem check_error_unique {name : Bytes} (h : check c T hk = .error (.unique name)) :
    name = [] ∨ ∃ u ∈ c.uniqueKeys, u.name = name := by
  unfold check at h
  split at h
  · split at h <;> simp at h
  · have hname := Violation.unique.inj (Except.error.inj h)
    generalize hu : (c.uniqueKeys.find? fun u => decide ¬ u.Holds T) = found at hname
    cases found with
    | none => exact Or.inl hname.symm
    | some u => exact Or.inr ⟨u, List.mem_of_find?_eq_some hu, hname⟩

end Check

/-! ### Statements -/

section Statements

variable [DecidableEq τ]

/-- A table whose keys fit may take the place of another. -/
theorem keys_fit_update (db : Database c) {t : τ} {U : Table (Row t)} (hU : U.seq < 2 ^ 63)
    (t' : τ) : (Function.update db.tables t U t').seq < 2 ^ 63 := by
  by_cases h : t' = t
  · subst h
    rwa [Function.update_self]
  · rw [Function.update_of_ne h]
    exact db.keys_fit t'

/-- Put the table `U` in the place of `t`. A table without a key for its last row is refused before
the constraints are checked. -/
def put (db : Database c) (t : τ) (U : Table (Row t)) : Except Violation (Database c) :=
  if hU : U.seq < 2 ^ 63 then
    check c (Function.update db.tables t U) (db.keys_fit_update hU)
  else
    .error .full

/-- `INSERT INTO t VALUES x`. -/
def insert (db : Database c) (t : τ) (x : Row t) : Except Violation (Database c) :=
  db.put t ((db t).insert x)

/-- `UPDATE t SET x WHERE id = key`. -/
def update (db : Database c) (t : τ) (key : Cell) (x : Row t) : Except Violation (Database c) :=
  db.put t ((db t).update key x)

/-- `DELETE FROM t WHERE id = key`. -/
def delete (db : Database c) (t : τ) (key : Cell) : Except Violation (Database c) :=
  db.put t ((db t).delete key)

variable {db db' : Database c} {t t' : τ} {U : Table (Row t)}

/-- A table that is put takes the place of the old one, and nothing else changes. -/
theorem put_ok (h : db.put t U = .ok db') : db'.tables = Function.update db.tables t U := by
  unfold put at h
  split at h
  · exact check_ok h
  · cases h

/-- A table whose keys fit is accepted if the constraints are met with it. -/
theorem put_eq_ok (hk : U.seq < 2 ^ 63)
    (hu : ∀ u ∈ c.uniqueKeys, u.Holds (Function.update db.tables t U))
    (hf : ∀ fk ∈ c.foreignKeys, fk.Holds (Function.update db.tables t U)) :
    db.put t U = .ok ⟨Function.update db.tables t U, db.keys_fit_update hk, hu, hf⟩ := by
  rw [put, dif_pos hk, check_eq_ok hu hf]

/-- A violated unique key is one of the schema. -/
theorem put_error_unique {name : Bytes} (h : db.put t U = .error (.unique name)) :
    name = [] ∨ ∃ u ∈ c.uniqueKeys, u.name = name := by
  unfold put at h
  split at h
  · exact check_error_unique h
  · cases h

/-- The table a statement writes is the one it was given. -/
theorem put_self (h : db.put t U = .ok db') : db' t = U := by
  rw [put_ok h, Function.update_self]

/-- A statement leaves the other tables alone. -/
theorem put_of_ne (h : db.put t U = .ok db') (hne : t' ≠ t) : db' t' = db t' := by
  rw [put_ok h, Function.update_of_ne hne]

/-- Writing back the table that is there changes nothing. -/
@[simp] theorem put_eq_self (db : Database c) (t : τ) : db.put t (db t) = .ok db := by
  have htables : Function.update db.tables t (db t) = db.tables := Function.update_eq_self ..
  have hunique : ∀ u ∈ c.uniqueKeys, u.Holds (Function.update db.tables t (db t)) := by
    rw [htables]
    exact db.unique
  have hreferences : ∀ fk ∈ c.foreignKeys, fk.Holds (Function.update db.tables t (db t)) := by
    rw [htables]
    exact db.references
  rw [put_eq_ok (db.keys_fit t) hunique hreferences]
  exact congrArg Except.ok (Database.ext (congrFun htables))

/-- An update that addresses no row succeeds and changes nothing. -/
theorem update_of_not_has {key : Cell} (h : ¬ (db t).Has key) (x : Row t) :
    db.update t key x = .ok db := by
  rw [update, Table.update_of_not_has h, put_eq_self]

/-- A deletion that addresses no row succeeds and changes nothing. -/
theorem delete_of_not_has {key : Cell} (h : ¬ (db t).Has key) : db.delete t key = .ok db := by
  rw [delete, Table.delete_of_not_has h, put_eq_self]

/-- A table that only loses rows keeps the uniqueness constraints. -/
theorem unique_of_subset (hsub : ∀ r ∈ U.rows, r ∈ (db t).rows) :
    ∀ u ∈ c.uniqueKeys, u.Holds (Function.update db.tables t U) := by
  intro u hu r hr r' hr'
  have hold : ∀ r ∈ (Function.update db.tables t U u.tab).rows, r ∈ (db u.tab).rows := by
    by_cases ht : u.tab = t
    · subst ht
      simpa [Function.update_self] using hsub
    · intro r hr
      rwa [Function.update_of_ne ht] at hr
  exact db.unique u hu r (hold r hr) r' (hold r' hr')

/-- **When a deletion succeeds.** A deletion fails only for a row, in a table that refers to
`t`, that holds the deleted key. -/
theorem delete_isOk {key : Cell}
    (h : ∀ fk ∈ c.foreignKeys, fk.parent = t → ∀ r ∈ (db fk.child).rows, fk.column r.2 ≠ key) :
    ∃ db', db.delete t key = .ok db' := by
  have hsub : ∀ r ∈ ((db t).delete key).rows, r ∈ (db t).rows :=
    fun r hr => (Table.mem_delete.mp hr).1
  refine ⟨_, put_eq_ok (U := (db t).delete key) (db.keys_fit t) (unique_of_subset hsub)
    fun fk hfk r hr => ?_⟩
  -- the row that refers was there before, and so was the row it refers to
  have hr' : r ∈ (db fk.child).rows := by
    by_cases hc : fk.child = t
    · subst hc
      rw [Function.update_self] at hr
      exact hsub r hr
    · rwa [Function.update_of_ne hc] at hr
  refine (db.references fk hfk r hr').imp_right fun hhas => ?_
  by_cases hp : fk.parent = t
  · -- that row is kept, as it is not the deleted one
    subst hp
    obtain ⟨p, hp, hkey⟩ := hhas
    rw [Function.update_self]
    refine ⟨p, Table.mem_delete.mpr ⟨hp, ?_⟩, hkey⟩
    rw [hkey]
    exact h fk hfk rfl r hr'
  · rwa [Function.update_of_ne hp]

/-- **When an insertion succeeds.** An insertion succeeds if a key is left and the tables it
produces keep the constraints of the table it inserts into; no other table can be disturbed by
it. -/
theorem insert_eq_ok_iff {x : Row t} :
    (∃ db', db.insert t x = .ok db') ↔ (db t).KeysLeft 1 ∧
      (∀ u ∈ c.uniqueKeys, u.tab = t →
        u.Holds (Function.update db.tables t ((db t).insert x))) ∧
      ∀ fk ∈ c.foreignKeys, fk.child = t →
        fk.Holds (Function.update db.tables t ((db t).insert x)) := by
  constructor
  · -- what succeeds is a database, so it keeps all constraints
    rintro ⟨db', h⟩
    have htab := put_ok h
    have hkey := db'.keys_fit t
    rw [put_self h] at hkey
    exact ⟨hkey, fun u hu _ => htab ▸ db'.unique u hu, fun fk hfk _ => htab ▸ db'.references fk hfk⟩
  · rintro ⟨hkey, hu, hf⟩
    refine ⟨_, put_eq_ok (U := (db t).insert x) hkey (fun u hmem => ?_) fun fk hmem => ?_⟩
    · by_cases ht : u.tab = t
      · exact hu u hmem ht
      · intro r hr r' hr'
        rw [Function.update_of_ne ht] at hr hr'
        exact db.unique u hmem r hr r' hr'
    · by_cases ht : fk.child = t
      · exact hf fk hmem ht
      · -- a row of another table still finds the row it refers to: none is lost
        intro r hr
        rw [Function.update_of_ne ht] at hr
        refine (db.references fk hmem r hr).imp_right fun hhas => ?_
        by_cases hp : fk.parent = t
        · subst hp
          obtain ⟨p, hp, hkey⟩ := hhas
          rw [Function.update_self]
          exact ⟨p, Table.mem_insert.mpr (Or.inl hp), hkey⟩
        · rwa [Function.update_of_ne hp]

/-- An insertion succeeds if a key is left, the table it leaves keeps the uniqueness constraints,
and the new row refers to rows that are there. -/
theorem insert_isOk {x : Row t} (hkey : (db t).KeysLeft 1)
    (hu : ∀ u ∈ c.uniqueKeys, u.tab = t →
      u.Holds (Function.update db.tables t ((db t).insert x)))
    (hf : ∀ fk ∈ c.foreignKeys, ∀ h : fk.child = t,
      fk.column (h ▸ x) = .null ∨ (db fk.parent).Has (fk.column (h ▸ x))) :
    ∃ db', db.insert t x = .ok db' := by
  refine insert_eq_ok_iff.mpr ⟨hkey, hu, fun fk hmem hc r hr => ?_⟩
  -- the row refers to a row that was there, and the insertion has lost none
  have hold : fk.column r.2 = .null ∨ (db fk.parent).Has (fk.column r.2) := by
    have hwritten := hf fk hmem hc
    subst hc
    rw [Function.update_self] at hr
    rcases Table.mem_insert.mp hr with hr | rfl
    · exact db.references fk hmem r hr
    · exact hwritten
  refine hold.imp_right fun hhas => ?_
  by_cases hp : fk.parent = t
  · subst hp
    rw [Function.update_self]
    exact Table.has_insert.mpr (Or.inl hhas)
  · rwa [Function.update_of_ne hp]

/-- **When an update succeeds.** An update keeps the keys that other tables refer to. So it
succeeds if the table it leaves keeps the uniqueness constraints, and the row it writes refers to
rows that are there. -/
theorem update_isOk {key : Cell} {x : Row t}
    (hu : ∀ u ∈ c.uniqueKeys, u.tab = t →
      u.Holds (Function.update db.tables t ((db t).update key x)))
    (hf : ∀ fk ∈ c.foreignKeys, ∀ h : fk.child = t,
      fk.column (h ▸ x) = .null ∨ (db fk.parent).Has (fk.column (h ▸ x))) :
    ∃ db', db.update t key x = .ok db' := by
  refine ⟨_, put_eq_ok (U := (db t).update key x) (db.keys_fit t) (fun u hmem => ?_)
    fun fk hmem r hr => ?_⟩
  · by_cases ht : u.tab = t
    · exact hu u hmem ht
    · intro r hr r' hr'
      rw [Function.update_of_ne ht] at hr hr'
      exact db.unique u hmem r hr r' hr'
  · -- the row refers to a row that was there, and the update has kept its key
    have hold : fk.column r.2 = .null ∨ (db fk.parent).Has (fk.column r.2) := by
      by_cases hc : fk.child = t
      · have hwritten := hf fk hmem hc
        subst hc
        rw [Function.update_self] at hr
        rcases Table.mem_update.mp hr with ⟨hr, -⟩ | ⟨-, heq, -⟩
        · exact db.references fk hmem r hr
        · exact heq ▸ hwritten
      · rw [Function.update_of_ne hc] at hr
        exact db.references fk hmem r hr
    refine hold.imp_right fun hhas => ?_
    by_cases hp : fk.parent = t
    · subst hp
      rwa [Function.update_self, Table.has_update]
    · rwa [Function.update_of_ne hp]

/-- An update that succeeds has written a row that refers to rows that are there. -/
theorem references_of_update {key : Cell} {x : Row t} (h : db.update t key x = .ok db')
    (hhas : (db t).Has key) (fk : ForeignKey Row) (hfk : fk ∈ c.foreignKeys)
    (hc : fk.child = t) :
    fk.column (hc ▸ x) = .null ∨ (db fk.parent).Has (fk.column (hc ▸ x)) := by
  subst hc
  obtain ⟨r, hr, rfl⟩ := hhas
  have hwritten := db'.references fk hfk (r.1, x) (by
    rw [put_self h]
    exact Table.mem_update_self hr x)
  refine hwritten.imp_right fun hhas => ?_
  by_cases hp : fk.parent = fk.child
  · -- a table that refers to itself: an update keeps its keys
    have htab : db' fk.parent = Function.update db.tables fk.child ((db fk.child).update _ x) _ :=
      congrFun (put_ok h) _
    rw [htab] at hhas
    generalize fk.column x = key at hhas
    generalize fk.parent = parent at hp hhas
    subst hp
    rwa [Function.update_self, Table.has_update] at hhas
  · rwa [put_of_ne h hp] at hhas

end Statements

end Database
