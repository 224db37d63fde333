import Mathlib.Data.List.Basic
import SageStore.Foundation.Text

/-!
# Tables with an automatic integer key

A `Table` is a list of rows in key order, together with the largest key it ever gave out.
Both facts are fields: the keys increase along the list, and none exceeds the counter. So a
key names at most one row (`Table.eq_of_mem`), and a new row gets a key no row had before.

The value of a column is a `Cell`. Statements address rows by comparing the key with a
cell, so a cell that is no integer, or an integer no row has, addresses nothing.
-/

/-- The value of a column: NULL, an integer, or a text. -/
inductive Cell where
  | null
  | int (n : ℤ)
  | text (t : Bytes)
deriving DecidableEq

/-- The text a column's value is read back as. NULL reads as the empty text. -/
def Cell.toText : Cell → Bytes
  | .null => []
  | .int n => Bytes.ofInt n
  | .text t => t

/-- The integer a cell holds, and zero for every other cell. -/
def Cell.toInt : Cell → ℤ
  | .int n => n
  | _ => 0

@[simp] theorem Cell.toInt_int (n : ℤ) : (Cell.int n).toInt = n := rfl

/-- A cell holds an integer that is not negative and fits 64 signed bits. -/
def Cell.IsCount (c : Cell) : Prop := ∃ n : ℕ, c = .int n ∧ n < 2 ^ 63

@[simp] theorem Cell.toText_int (n : ℤ) : (Cell.int n).toText = Bytes.ofInt n := rfl

/-- A table of rows of type `R`, keyed by an integer that is assigned automatically. -/
structure Table (R : Type) where
  rows : List (ℕ × R)
  /-- The largest key given out so far. -/
  seq : ℕ
  sorted : (rows.map Prod.fst).Pairwise (· < ·)
  le_seq : ∀ r ∈ rows, r.1 ≤ seq

namespace Table

variable {R : Type}

/-- So many keys are left for new rows, since a key fits 64 signed bits. -/
def KeysLeft (T : Table R) (n : ℕ) : Prop := T.seq + n < 2 ^ 63

instance (T : Table R) (n : ℕ) : Decidable (T.KeysLeft n) :=
  inferInstanceAs (Decidable (_ < _))

@[ext] theorem ext {T U : Table R} (hrows : T.rows = U.rows) (hseq : T.seq = U.seq) : T = U := by
  cases T
  cases U
  obtain rfl : _ = _ := hrows
  obtain rfl : _ = _ := hseq
  rfl

/-! ### The three statements -/

/-- The table without rows, whose next key is `1`. -/
def empty : Table R := ⟨[], 0, List.Pairwise.nil, by simp⟩

/-- Append a row under the next key. -/
def insert (T : Table R) (x : R) : Table R where
  rows := T.rows ++ [(T.seq + 1, x)]
  seq := T.seq + 1
  sorted := by
    rw [List.map_append, List.pairwise_append]
    refine ⟨T.sorted, List.pairwise_singleton _ _, ?_⟩
    -- no key in use exceeds the counter
    rintro i hi _ hj
    obtain ⟨r, hr, rfl⟩ := List.mem_map.mp hi
    obtain rfl := List.mem_singleton.mp hj
    exact Nat.lt_succ_of_le (T.le_seq r hr)
  le_seq := by
    intro r hr
    rcases List.mem_append.mp hr with h | h
    · exact Nat.le_succ_of_le (T.le_seq r h)
    · obtain rfl := List.mem_singleton.mp h
      exact le_rfl

/-- Replace the row whose key is `key`, if there is one. -/
def update (T : Table R) (key : Cell) (x : R) : Table R where
  rows := T.rows.map fun r => if Cell.int r.1 = key then (r.1, x) else r
  seq := T.seq
  sorted := by
    rw [List.map_map]
    convert T.sorted using 1
    refine List.map_congr_left fun r _ => ?_
    dsimp only [Function.comp_apply]
    split <;> rfl
  le_seq := by
    intro r hr
    obtain ⟨r', hr', rfl⟩ := List.mem_map.mp hr
    split
    · exact T.le_seq r' hr'
    · exact T.le_seq r' hr'

/-- Remove the row whose key is `key`, if there is one. -/
def delete (T : Table R) (key : Cell) : Table R where
  rows := T.rows.filter fun r => Cell.int r.1 ≠ key
  seq := T.seq
  sorted := T.sorted.sublist (List.filter_sublist.map _)
  le_seq r hr := T.le_seq r (List.mem_of_mem_filter hr)

/-- The table that holds the rows of a list, inserted in order. -/
def ofRows (xs : List R) : Table R := xs.foldl insert empty

/-- Some row has the key `key`. -/
def Has (T : Table R) (key : Cell) : Prop := ∃ r ∈ T.rows, Cell.int r.1 = key

instance (T : Table R) (key : Cell) : Decidable (T.Has key) :=
  inferInstanceAs (Decidable (∃ r ∈ T.rows, Cell.int r.1 = key))

/-! ### What they do to the rows -/

/-- A key names at most one row. -/
theorem eq_of_mem {T : Table R} {r r' : ℕ × R} (hr : r ∈ T.rows) (hr' : r' ∈ T.rows)
    (h : r.1 = r'.1) : r = r' := by
  have hinj : (T.rows.map Prod.fst).Nodup := T.sorted.imp fun hlt => hlt.ne
  exact List.inj_on_of_nodup_map hinj hr hr' h

/-- A key has one row. -/
theorem eq_of_mem_of_key {T : Table R} {r r' : ℕ × R} {key : Cell} (hr : r ∈ T.rows)
    (hr' : r' ∈ T.rows) (h : Cell.int r.1 = key) (h' : Cell.int r'.1 = key) : r = r' := by
  refine eq_of_mem hr hr' ?_
  have := h.trans h'.symm
  simpa using this

@[simp] theorem insert_rows (T : Table R) (x : R) :
    (T.insert x).rows = T.rows ++ [(T.seq + 1, x)] := rfl

@[simp] theorem insert_seq (T : Table R) (x : R) : (T.insert x).seq = T.seq + 1 := rfl

@[simp] theorem delete_rows (T : Table R) (key : Cell) :
    (T.delete key).rows = T.rows.filter fun r => Cell.int r.1 ≠ key := rfl

@[simp] theorem update_seq (T : Table R) (key : Cell) (x : R) :
    (T.update key x).seq = T.seq := rfl

@[simp] theorem delete_seq (T : Table R) (key : Cell) : (T.delete key).seq = T.seq := rfl

/-- After an insertion a row is an old one or the inserted one. -/
theorem mem_insert {T : Table R} {x : R} {r : ℕ × R} :
    r ∈ (T.insert x).rows ↔ r ∈ T.rows ∨ r = (T.seq + 1, x) := by
  rw [insert_rows, List.mem_append, List.mem_singleton]

theorem mem_update {T : Table R} {key : Cell} {x : R} {r : ℕ × R} :
    r ∈ (T.update key x).rows ↔
      (r ∈ T.rows ∧ Cell.int r.1 ≠ key) ∨ (Cell.int r.1 = key ∧ r.2 = x ∧ T.Has key) := by
  constructor
  · intro hr
    obtain ⟨r', hr', rfl⟩ := List.mem_map.mp hr
    split
    · next h => exact Or.inr ⟨h, rfl, r', hr', h⟩
    · next h => exact Or.inl ⟨hr', h⟩
  · rintro (⟨hr, hne⟩ | ⟨hkey, hx, r', hr', hkey'⟩)
    · exact List.mem_map.mpr ⟨r, hr, if_neg hne⟩
    · -- the row `r` comes from the row that had its key
      refine List.mem_map.mpr ⟨r', hr', ?_⟩
      have hid : r'.1 = r.1 := by simpa using hkey'.trans hkey.symm
      rw [if_pos hkey', hid, ← hx]

/-- The updated row is there. -/
theorem mem_update_self {T : Table R} {r : ℕ × R} (hr : r ∈ T.rows) (x : R) :
    (r.1, x) ∈ (T.update (.int r.1) x).rows :=
  mem_update.mpr (Or.inr ⟨rfl, rfl, r, hr, rfl⟩)

theorem mem_delete {T : Table R} {key : Cell} {r : ℕ × R} :
    r ∈ (T.delete key).rows ↔ r ∈ T.rows ∧ Cell.int r.1 ≠ key := by
  simp [delete, List.mem_filter]

/-- The rows of the table made of a list are on the list. -/
theorem mem_ofRows {xs : List R} {r : ℕ × R} (h : r ∈ (ofRows xs).rows) : r.2 ∈ xs := by
  -- the fold starts at the empty table; its rows are those it started with and new ones
  suffices hfold : ∀ T : Table R, r ∈ (xs.foldl insert T).rows → r ∈ T.rows ∨ r.2 ∈ xs from
    (hfold empty h).resolve_left List.not_mem_nil
  clear h
  induction xs with
  | nil => exact fun T hr => Or.inl hr
  | cons x xs ih =>
    intro T hr
    rcases ih (T.insert x) hr with hr | hr
    · rcases mem_insert.mp hr with hr | rfl
      · exact Or.inl hr
      · exact Or.inr List.mem_cons_self
    · exact Or.inr (List.mem_cons_of_mem x hr)

/-- Updating a key no row has changes nothing. -/
theorem update_of_not_has {T : Table R} {key : Cell} (h : ¬ T.Has key) (x : R) :
    T.update key x = T := by
  refine Table.ext ?_ rfl
  exact (List.map_congr_left fun r hr => if_neg fun hk => h ⟨r, hr, hk⟩).trans (List.map_id _)

/-- Deleting a key no row has changes nothing. -/
theorem delete_of_not_has {T : Table R} {key : Cell} (h : ¬ T.Has key) : T.delete key = T := by
  refine Table.ext ?_ rfl
  exact List.filter_eq_self.mpr fun r hr => by simpa using fun hk => h ⟨r, hr, hk⟩

/-- A key is in use after an update exactly when it was before. -/
theorem has_update {T : Table R} {key key' : Cell} {x : R} :
    (T.update key x).Has key' ↔ T.Has key' := by
  constructor
  · rintro ⟨r, hr, hk⟩
    rcases mem_update.mp hr with ⟨hr, -⟩ | ⟨hkey, -, hhas⟩
    · exact ⟨r, hr, hk⟩
    · rwa [← hk, hkey]
  · rintro ⟨r, hr, hk⟩
    by_cases hkey : Cell.int r.1 = key
    · exact ⟨(r.1, x), mem_update.mpr (Or.inr ⟨hkey, rfl, r, hr, hkey⟩), hk⟩
    · exact ⟨r, mem_update.mpr (Or.inl ⟨hr, hkey⟩), hk⟩

/-- A key is in use after an insertion if it was before, or is the new one. -/
theorem has_insert {T : Table R} {key : Cell} {x : R} :
    (T.insert x).Has key ↔ T.Has key ∨ key = .int (T.seq + 1 : ℕ) := by
  constructor
  · rintro ⟨r, hr, hk⟩
    rcases mem_insert.mp hr with hr | rfl
    · exact Or.inl ⟨r, hr, hk⟩
    · exact Or.inr hk.symm
  · rintro (⟨r, hr, hk⟩ | rfl)
    · exact ⟨r, mem_insert.mpr (Or.inl hr), hk⟩
    · exact ⟨_, mem_insert.mpr (Or.inr rfl), rfl⟩

/-- A key is in use after a deletion if it was before, and is another one. -/
theorem has_delete {T : Table R} {key key' : Cell} :
    (T.delete key).Has key' ↔ T.Has key' ∧ key ≠ key' := by
  constructor
  · rintro ⟨r, hr, rfl⟩
    exact ⟨⟨r, (mem_delete.mp hr).1, rfl⟩, (mem_delete.mp hr).2.symm⟩
  · rintro ⟨⟨r, hr, rfl⟩, hne⟩
    exact ⟨r, mem_delete.mpr ⟨hr, hne.symm⟩, rfl⟩

/-- An insertion adds a row. -/
theorem ne_insert (T : Table R) (x : R) : T ≠ T.insert x :=
  fun h => absurd (congrArg seq h) (by simp)

/-- The inserted row can be read off the table. -/
theorem insert_inj {T : Table R} {x y : R} : T.insert x = T.insert y ↔ x = y := by
  refine ⟨fun h => ?_, fun h => h ▸ rfl⟩
  have hrows := List.append_cancel_left (congrArg rows h)
  exact congrArg Prod.snd (List.singleton_inj.mp hrows)

/-! ### What they leave alone -/

/-- Under the key `i` the two tables hold the same: one row, or none. -/
def SameAt (T T' : Table R) (i : ℕ) : Prop := ∀ x, (i, x) ∈ T'.rows ↔ (i, x) ∈ T.rows

theorem SameAt.refl (T : Table R) (i : ℕ) : T.SameAt T i := fun _ => Iff.rfl

/-- An insertion leaves every key alone but the new one. -/
theorem sameAt_insert {T : Table R} {i : ℕ} (h : i ≠ T.seq + 1) (x : R) :
    T.SameAt (T.insert x) i := by
  intro y
  rw [mem_insert]
  refine or_iff_left fun heq => h ?_
  exact congrArg Prod.fst heq

/-- An update leaves every key alone but its own. -/
theorem sameAt_update {T : Table R} {key : Cell} {i : ℕ} (h : Cell.int i ≠ key) (x : R) :
    T.SameAt (T.update key x) i := by
  intro y
  rw [mem_update]
  constructor
  · rintro (⟨hy, -⟩ | ⟨hkey, -⟩)
    · exact hy
    · exact absurd hkey h
  · intro hy
    exact Or.inl ⟨hy, h⟩

/-- A deletion leaves every key alone but its own. -/
theorem sameAt_delete {T : Table R} {key : Cell} {i : ℕ} (h : Cell.int i ≠ key) :
    T.SameAt (T.delete key) i := by
  intro y
  rw [mem_delete]
  exact and_iff_left h

/-- A table that loses rows is the same under the keys of the others. -/
theorem sameAt_of_filter {T T' : Table R} {gone : ℕ × R → Bool} {i : ℕ}
    (hrows : T'.rows = T.rows.filter fun r => !gone r)
    (h : ∀ r ∈ T.rows, r.1 = i → gone r = false) : T.SameAt T' i := by
  intro y
  rw [hrows, List.mem_filter]
  refine and_iff_left_of_imp fun hy => ?_
  rw [h _ hy rfl]
  rfl

/-! ### Writing one row -/

/-- The row `x` is written, and every other row is left as it is. -/
structure Puts (T : Table R) (x : R) (T' : Table R) : Prop where
  only : ∀ r ∈ T'.rows, r ∈ T.rows ∨ r.2 = x
  there : ∃ r ∈ T'.rows, r.2 = x

theorem puts_insert (T : Table R) (x : R) : T.Puts x (T.insert x) where
  only r hr := (mem_insert.mp hr).imp_right fun heq => by rw [heq]
  there := ⟨_, mem_insert.mpr (Or.inr rfl), rfl⟩

theorem puts_update {T : Table R} {key : Cell} (h : T.Has key) (x : R) :
    T.Puts x (T.update key x) where
  only r hr := (mem_update.mp hr).imp And.left fun h => h.2.1
  there := by
    obtain ⟨r, hr, rfl⟩ := h
    exact ⟨_, mem_update_self hr x, rfl⟩

/-! ### Selections a statement does not disturb -/

/-- A selection that drops the updated row, before and after, is unchanged. -/
theorem filter_update {T : Table R} {key : Cell} {x : R} {q : ℕ × R → Bool}
    (hold : ∀ r ∈ T.rows, Cell.int r.1 = key → q r = false)
    (hnew : ∀ i : ℕ, Cell.int i = key → q (i, x) = false) :
    (T.update key x).rows.filter q = T.rows.filter q := by
  suffices h : ∀ rs : List (ℕ × R), (∀ r ∈ rs, r ∈ T.rows) →
      (rs.map fun r => if Cell.int r.1 = key then (r.1, x) else r).filter q = rs.filter q from
    h T.rows fun _ hr => hr
  intro rs hrs
  induction rs with
  | nil => rfl
  | cons r rs ih =>
    have ih := ih fun r' hr' => hrs r' (List.mem_cons_of_mem r hr')
    rw [List.map_cons]
    by_cases hk : Cell.int r.1 = key
    · -- the updated row is dropped on both sides
      rw [if_pos hk, List.filter_cons_of_neg (by simp [hnew r.1 hk]),
        List.filter_cons_of_neg (by simp [hold r (hrs r List.mem_cons_self) hk]), ih]
    · rw [if_neg hk, List.filter_cons, List.filter_cons, ih]

/-- A selection that drops the deleted row is unchanged. -/
theorem filter_delete {T : Table R} {key : Cell} {q : ℕ × R → Bool}
    (h : ∀ r ∈ T.rows, Cell.int r.1 = key → q r = false) :
    (T.delete key).rows.filter q = T.rows.filter q := by
  simp only [delete, List.filter_filter]
  refine List.filter_congr fun r hr => ?_
  by_cases hk : Cell.int r.1 = key
  · simp [hk, h r hr hk]
  · simp [hk]

/-- A selection that one row alone meets is that row. -/
theorem filter_eq_singleton {T : Table R} {r : ℕ × R} {q : ℕ × R → Bool} (hr : r ∈ T.rows)
    (hq : q r = true) (honly : ∀ r' ∈ T.rows, q r' = true → r' = r) : T.rows.filter q = [r] := by
  have hnodup : T.rows.Nodup := List.Nodup.of_map Prod.fst (T.sorted.imp fun hlt => hlt.ne)
  refine List.perm_singleton.mp ?_
  refine (List.perm_ext_iff_of_nodup (hnodup.filter q) (List.nodup_singleton r)).mpr fun r' => ?_
  rw [List.mem_filter, List.mem_singleton]
  constructor
  · rintro ⟨hr', hq'⟩
    exact honly r' hr' hq'
  · rintro rfl
    exact ⟨hr, hq⟩

/-! ### Columns without repetition -/

/-- No two rows agree on the column `f`. -/
def Distinct {α : Type} (T : Table R) (f : R → α) : Prop :=
  ∀ r ∈ T.rows, ∀ r' ∈ T.rows, f r.2 = f r'.2 → r.1 = r'.1

section Distinct

variable {α : Type} {f : R → α} {T : Table R}

instance [DecidableEq α] (T : Table R) (f : R → α) : Decidable (T.Distinct f) :=
  inferInstanceAs (Decidable (∀ r ∈ T.rows, ∀ r' ∈ T.rows, _))

/-- Inserting a value that no row has keeps the values distinct. -/
theorem Distinct.insert {x : R} (h : T.Distinct f) (hx : ∀ r ∈ T.rows, f r.2 ≠ f x) :
    (T.insert x).Distinct f := by
  intro r hr r' hr' heq
  rcases mem_insert.mp hr with hr | rfl <;> rcases mem_insert.mp hr' with hr' | rfl
  · exact h r hr r' hr' heq
  · exact absurd heq (hx r hr)
  · exact absurd heq.symm (hx r' hr')
  · rfl

/-- Writing a value that no other row has keeps the values distinct. -/
theorem Distinct.update {key : Cell} {x : R} (h : T.Distinct f)
    (hx : T.Has key → ∀ r ∈ T.rows, f r.2 = f x → Cell.int r.1 = key) :
    (T.update key x).Distinct f := by
  intro r hr r' hr' heq
  -- each of the two rows is an old one, or the one that is written
  rcases mem_update.mp hr with ⟨hr, hne⟩ | ⟨hkey, rfl, hhas⟩ <;>
    rcases mem_update.mp hr' with ⟨hr', hne'⟩ | ⟨hkey', hx', hhas'⟩
  · exact h r hr r' hr' heq
  · exact absurd (hx hhas' r hr (hx' ▸ heq)) hne
  · exact absurd (hx hhas r' hr' heq.symm) hne'
  · simpa using hkey.trans hkey'.symm

/-- Writing a value that another row has makes the two rows agree. -/
theorem not_distinct_update {x : R} {r r' : ℕ × R} (hr : r ∈ T.rows) (hr' : r' ∈ T.rows)
    (hne : r'.1 ≠ r.1) (heq : f r'.2 = f x) : ¬ (T.update (.int r.1) x).Distinct f := by
  intro h
  have hkept : r' ∈ (T.update (.int r.1) x).rows :=
    mem_update.mpr (Or.inl ⟨hr', by simpa using hne⟩)
  exact hne (h r' hkept (r.1, x) (mem_update_self hr x) heq)

/-- A deletion keeps values distinct. -/
theorem Distinct.delete {key : Cell} (h : T.Distinct f) : (T.delete key).Distinct f :=
  fun r hr r' hr' => h r (mem_delete.mp hr).1 r' (mem_delete.mp hr').1

end Distinct

/-! ### Tables later on -/

/-- `T'` can be what `T` has become: the counter has not gone back, and a key that it had reached
before is not given out again. -/
structure Follows (T T' : Table R) : Prop where
  seq_le : T.seq ≤ T'.seq
  old_or_new : ∀ r' ∈ T'.rows, T.seq < r'.1 ∨ ∃ r ∈ T.rows, r.1 = r'.1

namespace Follows

variable {T T' T'' : Table R}

theorem refl (T : Table R) : T.Follows T := ⟨le_rfl, fun r hr => Or.inr ⟨r, hr, rfl⟩⟩

theorem trans (h : T.Follows T') (h' : T'.Follows T'') : T.Follows T'' where
  seq_le := h.seq_le.trans h'.seq_le
  old_or_new r'' hr'' := by
    rcases h'.old_or_new r'' hr'' with hlt | ⟨r', hr', heq⟩
    · exact Or.inl (Nat.lt_of_le_of_lt h.seq_le hlt)
    · rw [← heq]
      exact h.old_or_new r' hr'

theorem insert (T : Table R) (x : R) : T.Follows (T.insert x) where
  seq_le := Nat.le_succ T.seq
  old_or_new r hr := by
    rcases mem_insert.mp hr with hr | rfl
    · exact Or.inr ⟨r, hr, rfl⟩
    · exact Or.inl (Nat.lt_succ_self T.seq)

theorem update (T : Table R) (key : Cell) (x : R) : T.Follows (T.update key x) where
  seq_le := le_rfl
  old_or_new r hr := by
    rcases mem_update.mp hr with ⟨hr, -⟩ | ⟨hkey, -, r₀, hr₀, hkey₀⟩
    · exact Or.inr ⟨r, hr, rfl⟩
    · exact Or.inr ⟨r₀, hr₀, by simpa using hkey₀.trans hkey.symm⟩

/-- A table that has lost rows. -/
theorem of_subset (hseq : T'.seq = T.seq) (h : ∀ r ∈ T'.rows, r ∈ T.rows) : T.Follows T' :=
  ⟨hseq.ge, fun r hr => Or.inr ⟨r, h r hr, rfl⟩⟩

theorem delete (T : Table R) (key : Cell) : T.Follows (T.delete key) :=
  of_subset rfl fun _ hr => (mem_delete.mp hr).1

/-- **Keys are not used again**: a key that was given out and is in use now has been in use
before. -/
theorem has (h : T.Follows T') {k : ℕ} (hk : k ≤ T.seq) (hhas : T'.Has (.int k)) :
    T.Has (.int k) := by
  obtain ⟨r', hr', hkey⟩ := hhas
  have hr'k : r'.1 = k := by simpa using hkey
  rcases h.old_or_new r' hr' with hlt | ⟨r, hr, heq⟩
  · omega
  · exact ⟨r, hr, by rw [heq, hkey]⟩

end Follows

/-! ### Reading a table row by row -/

section MapRows

variable {S : Type} (f : ℕ → R → S) (T : Table R)

/-- The table of what each row is read as, under the same keys. -/
def mapRows : Table S where
  rows := T.rows.map fun r => (r.1, f r.1 r.2)
  seq := T.seq
  sorted := by
    rw [List.map_map]
    exact T.sorted
  le_seq r hr := by
    obtain ⟨r', hr', rfl⟩ := List.mem_map.mp hr
    exact T.le_seq r' hr'

@[simp] theorem mapRows_rows : (T.mapRows f).rows = T.rows.map fun r => (r.1, f r.1 r.2) := rfl

/-- A view of the rows with their keys follows the operations. -/
theorem mapRows_insert (x : R) :
    (T.insert x).mapRows f = (T.mapRows f).insert (f (T.seq + 1) x) := by
  ext1
  · simp only [mapRows_rows, insert_rows, List.map_append, List.map_cons, List.map_nil]
    rfl
  · rfl

/-- The row that is replaced has the key that addresses it. -/
theorem mapRows_update (key : Cell) (x : R) :
    (T.update key x).mapRows f = (T.mapRows f).update key (f key.toInt.toNat x) := by
  ext1
  · unfold update mapRows
    simp only [List.map_map]
    refine List.map_congr_left fun r _ => ?_
    dsimp only [Function.comp_apply]
    split
    · next hkey =>
      subst hkey
      simp
    · rfl
  · rfl

theorem mapRows_delete (key : Cell) : (T.delete key).mapRows f = (T.mapRows f).delete key := by
  ext1
  · simp only [mapRows_rows, delete_rows, List.filter_map]
    rfl
  · rfl

end MapRows

end Table
