import SageStore.Foundation.Lockstep

/-!
# The stores a program passes through

`Traces x d ds a` says what the calls of a program are: started on the store `d`, the program
`x` makes one call for each store of `ds`, has reached that store after the call, and finishes
with `a`. A trace says at once what every schedule of faults leaves behind. If the call number
`k` is the first that fails, the store is the one after the `k` calls before it
(`Traces.store_of_firstFault`); if none of the calls fails, it is the last one
(`Traces.store_of_noFault`).

Traces compose along the program, by appending the stores (`Traces.bind`).
-/

namespace Program

variable {D ε α β : Type}

/-! ### Schedules -/

/-- The call number `k`, counted from zero, is the first that the schedule makes fail. -/
def FirstFault (fs : List (Option ε)) (k : ℕ) : Prop :=
  (∃ e, fs[k]? = some (some e)) ∧ ∀ i < k, ∀ e, fs[i]? ≠ some (some e)

/-- When the next call passes, the first fault is one of the calls after it. -/
theorem firstFault_succ {fs : List (Option ε)} (h : ∀ e, fs[0]? ≠ some (some e)) {k : ℕ} :
    FirstFault fs (k + 1) ↔ FirstFault fs.tail k := by
  unfold FirstFault
  simp only [List.getElem?_tail]
  refine and_congr_right fun _ => ⟨fun hbefore i hi e => ?_, fun hbefore i hi e => ?_⟩
  · exact hbefore (i + 1) (Nat.succ_lt_succ hi) e
  · cases i with
    | zero => exact h e
    | succ i => exact hbefore i (Nat.lt_of_succ_lt_succ hi) e

/-- A schedule has one first fault at most. -/
theorem FirstFault.unique {fs : List (Option ε)} {k k' : ℕ} (h : FirstFault fs k)
    (h' : FirstFault fs k') : k = k' := by
  obtain ⟨⟨e, he⟩, hbefore⟩ := h
  obtain ⟨⟨e', he'⟩, hbefore'⟩ := h'
  rcases Nat.lt_trichotomy k k' with hlt | heq | hgt
  · exact absurd he (hbefore' k hlt e)
  · exact heq
  · exact absurd he' (hbefore k' hgt e')

/-! ### Traces -/

/-- What a program that passes through the stores `ds` comes to: the result, the store it
leaves, and the faults still scheduled. -/
def follow (a : α) : D → List D → List (Option ε) → Except ε α × D × List (Option ε)
  | d, [], fs => (.ok a, d, fs)
  | d, _ :: _, some e :: fs => (.error e, d, fs)
  | _, d' :: ds, fs => follow a d' ds fs.tail

/-- **The trace of a program**: started on `d` it passes through the stores `ds`, one for each
call, and finishes with `a`, unless a call is made to fail. -/
def Traces (x : Program D ε α) (d : D) (ds : List D) (a : α) : Prop :=
  ∀ snap fs, x.exec ⟨d, snap, fs⟩ =
    ((follow a d ds fs).1, ⟨(follow a d ds fs).2.1, snap, (follow a d ds fs).2.2⟩)

/-- A call that passes leads to the next store. -/
theorem follow_cons {a : α} {d d' : D} {ds : List D} {fs : List (Option ε)}
    (h : ∀ e, fs[0]? ≠ some (some e)) : follow a d (d' :: ds) fs = follow a d' ds fs.tail := by
  match fs with
  | [] => rfl
  | none :: rest => rfl
  | some e :: rest => exact absurd rfl (h e)

/-- A trace in two parts is followed part by part. -/
theorem follow_append {a : α} {b : β} (d : D) (ds ds' : List D) (fs : List (Option ε)) :
    follow b d (ds ++ ds') fs =
      match follow a d ds fs with
      | (.ok _, d', fs') => follow b d' ds' fs'
      | (.error e, r) => (.error e, r) := by
  induction ds generalizing d fs with
  | nil => rfl
  | cons d₁ ds ih =>
    match fs with
    | some e :: rest => rfl
    | [] => exact ih d₁ []
    | none :: rest => exact ih d₁ rest

/-- A trace that finishes has reached its last store. -/
theorem follow_ok {a b : α} {d d' : D} {ds : List D} {fs fs' : List (Option ε)}
    (h : follow a d ds fs = (.ok b, d', fs')) : b = a ∧ d' = ds.getLastD d := by
  induction ds generalizing d fs with
  | nil =>
    obtain ⟨hb, hd, -⟩ : Except.ok a = Except.ok (ε := ε) b ∧ d = d' ∧ fs = fs' := by
      simpa [follow] using h
    exact ⟨(Except.ok.inj hb).symm, hd.symm⟩
  | cons d₁ ds ih =>
    rw [List.getLastD_cons]
    match fs with
    | some e :: rest => cases h
    | [] => exact ih h
    | none :: rest => exact ih h

section Rules

variable {x : Program D ε α} {d : D} {ds : List D} {a : α}

theorem Traces.pure (a : α) (d : D) : Traces (pure a : Program D ε α) d [] a :=
  fun _ _ => rfl

theorem Traces.lift {y : Except ε α} (h : y = .ok a) (d : D) :
    Traces (liftM y : Program D ε α) d [] a := by
  subst h
  exact Traces.pure a d

/-- A call that succeeds when no fault stops it. -/
theorem Traces.call {f : Session D ε → Except ε (α × Session D ε)} {d' : D}
    (h : ∀ snap fs, f ⟨d, snap, fs⟩ = .ok (a, ⟨d', snap, fs⟩)) :
    Traces (call f) d [d'] a := by
  intro snap fs
  have hrun (fs : List (Option ε)) : attempt f ⟨d, snap, fs⟩ = (.ok a, ⟨d', snap, fs⟩) := by
    rw [attempt, h snap fs]
  match fs with
  | [] => exact hrun []
  | none :: rest =>
    rw [exec_call_none, hrun]
    rfl
  | some e :: rest =>
    rw [exec_call_some]
    rfl

/-- A query is one call, which leaves the store. -/
theorem Traces.query {f : D → Except ε α} (h : f d = .ok a) : Traces (query f) d [d] a :=
  Traces.call fun _ _ => by rw [h]; rfl

/-- A statement is one call, which leaves the new store. -/
theorem Traces.statement {f : D → Except ε D} {d' : D} (h : f d = .ok d') :
    Traces (statement f) d [d'] () :=
  Traces.call fun _ _ => by rw [h]; rfl

/-- One program after another: the second starts on the last store of the first. -/
theorem Traces.bind {f : α → Program D ε β} {ds' : List D} {b : β} (hx : Traces x d ds a)
    (hf : Traces (f a) (ds.getLastD d) ds' b) : Traces (x >>= f) d (ds ++ ds') b := by
  intro snap fs
  rw [exec_bind, hx snap fs, follow_append (a := a)]
  match hfollow : follow a d ds fs with
  | (.error e, r) => rfl
  | (.ok a', d', fs') =>
    obtain ⟨rfl, rfl⟩ := follow_ok hfollow
    exact hf snap fs'

/-- A program, and then one that makes no call. -/
theorem Traces.bind_nil {f : α → Program D ε β} {b : β} (hx : Traces x d ds a)
    (hf : Traces (f a) (ds.getLastD d) [] b) : Traces (x >>= f) d ds b := by
  have h := hx.bind hf
  rwa [List.append_nil] at h

/-- A computation without a store, and then a program. -/
theorem Traces.lift_bind {y : Except ε α} {f : α → Program D ε β} {b : β} (h : y = .ok a)
    (hf : Traces (f a) d ds b) : Traces (liftM y >>= f) d ds b :=
  (Traces.lift h d).bind hf

end Rules

/-! ### What a fault leaves behind -/

section Stores

variable {x : Program D ε α} {d : D} {ds : List D} {a : α} {fs : List (Option ε)} {k : ℕ}

/-- With the first fault at call `k` the store is the one before that call. -/
theorem follow_of_firstFault (h : FirstFault fs k) (hk : k < ds.length) :
    (d :: ds)[k]? = some (follow a d ds fs).2.1 := by
  induction ds generalizing d fs k with
  | nil => exact absurd hk (Nat.not_lt_zero k)
  | cons d₁ ds ih =>
    cases k with
    | zero =>
      -- the very first call fails, on the store the program starts on
      obtain ⟨⟨e, he⟩, -⟩ := h
      match fs with
      | some e :: rest => rfl
      | none :: rest => cases he
      | [] => cases he
    | succ k =>
      have hpass : ∀ e, fs[0]? ≠ some (some e) := h.2 0 (Nat.succ_pos k)
      rw [follow_cons hpass, List.getElem?_cons_succ]
      exact ih ((firstFault_succ hpass).mp h) (Nat.lt_of_succ_lt_succ hk)

/-- Without a fault the store is the last of the trace. -/
theorem follow_of_noFault (h : ∀ k < ds.length, ¬ FirstFault fs k) :
    (follow a d ds fs).2.1 = ds.getLastD d := by
  induction ds generalizing d fs with
  | nil => rfl
  | cons d₁ ds ih =>
    have hpass : ∀ e, fs[0]? ≠ some (some e) := fun e he =>
      h 0 (Nat.succ_pos _) ⟨⟨e, he⟩, fun _ hi => absurd hi (Nat.not_lt_zero _)⟩
    rw [follow_cons hpass, List.getLastD_cons]
    refine ih fun k hk hfault => ?_
    exact h (k + 1) (Nat.succ_lt_succ hk) ((firstFault_succ hpass).mpr hfault)

/-- A program whose call number `k` is the first to fail leaves the store as the calls before
it have left it. -/
theorem Traces.store_of_firstFault (hx : Traces x d ds a) (h : FirstFault fs k)
    (hk : k < ds.length) (snap : Option D) :
    (d :: ds)[k]? = some (x.exec ⟨d, snap, fs⟩).2.store := by
  rw [hx snap fs]
  exact follow_of_firstFault h hk

/-- A program none of whose calls fails leaves its last store. -/
theorem Traces.store_of_noFault (hx : Traces x d ds a) (h : ∀ k < ds.length, ¬ FirstFault fs k)
    (snap : Option D) : (x.exec ⟨d, snap, fs⟩).2.store = ds.getLastD d := by
  rw [hx snap fs]
  exact follow_of_noFault h

end Stores

end Program
