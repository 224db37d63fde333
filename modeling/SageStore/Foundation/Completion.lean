import SageStore.Foundation.Trace

/-!
# Programs that finish

`Changes` says what a program does if it finishes. `Completes d snap x W` says that it finishes:
started on the store `d` while no call fails, the program `x` reaches its end, with `W`.

What a program does and that it finishes are proved apart and then put together
(`Completes.and_outcome`), so a proof of `Completes` only has to say why nothing raises. The
loops carry an invariant of the items done, and may use which items are left
(`Completes.foldlM`, `Completes.forM`). A transaction completes when its body does
(`Completes.transaction`).
-/

namespace Program

variable {D ε α β ι : Type}

/-- **While no call fails the program finishes**: started on `d`, it leaves a result and a store
that `W` allows, and the transaction as it was. -/
def Completes (d : D) (snap : Option D) (x : Program D ε α) (W : α → D → Prop) : Prop :=
  ∃ a d', x.exec ⟨d, snap, []⟩ = (.ok a, ⟨d', snap, []⟩) ∧ W a d'

/-- A trace that no fault stops is followed to its end. -/
theorem follow_nil (a : α) (d : D) (ds : List D) :
    follow a d ds ([] : List (Option ε)) = (.ok a, ds.getLastD d, []) := by
  induction ds generalizing d with
  | nil => rfl
  | cons d₁ ds ih =>
    rw [List.getLastD_cons]
    exact ih d₁

section Rules

variable {x : Program D ε α} {d : D} {snap : Option D} {W V : α → D → Prop}

theorem Completes.pure {a : α} (h : W a d) : Completes d snap (pure a : Program D ε α) W :=
  ⟨a, d, rfl, h⟩

/-- A computation without a store finishes if it has a result. -/
theorem Completes.lift {y : Except ε α} (h : ∃ a, y = .ok a) :
    Completes d snap (liftM y : Program D ε α) fun a d' => d' = d ∧ y = .ok a := by
  obtain ⟨a, rfl⟩ := h
  exact Completes.pure ⟨rfl, rfl⟩

/-- A program with a trace finishes, on the last store of the trace. -/
theorem Traces.completes {ds : List D} {a : α} (h : Traces x d ds a) (snap : Option D) :
    Completes d snap x fun a' d' => a' = a ∧ d' = ds.getLastD d := by
  refine ⟨a, ds.getLastD d, ?_, rfl, rfl⟩
  rw [h snap [], follow_nil]

theorem Completes.mono (h : Completes d snap x W) (hW : ∀ a d', W a d' → V a d') :
    Completes d snap x V := by
  obtain ⟨a, d', hrun, ha⟩ := h
  exact ⟨a, d', hrun, hW a d' ha⟩

/-- What a program does when it finishes, it does when no call fails. -/
theorem Completes.and_outcome {E : ε → Prop} {A : D → Prop} (h : Completes d snap x W)
    (h' : Outcome E d x V A) : Completes d snap x fun a d' => W a d' ∧ V a d' := by
  obtain ⟨a, d', hrun, ha⟩ := h
  have hdone := h' ⟨d, snap, []⟩ rfl
  rw [hrun] at hdone
  exact ⟨a, d', hrun, ha, hdone.2⟩

/-- What completes and is atomic has both conclusions. -/
theorem Completes.atomic {E : ε → Prop} (h : Completes d snap x W) (h' : Atomic E d x V) :
    Completes d snap x V :=
  (h.and_outcome h').mono fun _ _ hdone => hdone.2

theorem Completes.reads {E : ε → Prop} {Q : α → Prop} (h : Completes d snap x W)
    (h' : Reads E d x Q) : Completes d snap x fun a d' => d' = d ∧ Q a :=
  h.atomic h'

/-- Completions compose. -/
theorem Completes.bind {f : α → Program D ε β} {V : β → D → Prop} (hx : Completes d snap x W)
    (hf : ∀ a d', W a d' → Completes d' snap (f a) V) : Completes d snap (x >>= f) V := by
  obtain ⟨a, d', hrun, ha⟩ := hx
  obtain ⟨b, d'', hrun', hb⟩ := hf a d' ha
  refine ⟨b, d'', ?_, hb⟩
  rw [exec_bind_ok hrun, hrun']

/-- After a program with a trace that only reads, the rest goes on with what it has found. -/
theorem Traces.bind_completes {f : α → Program D ε β} {V : β → D → Prop} {ds : List D} {a : α}
    (hx : Traces x d ds a) (hd : ds.getLastD d = d) (hf : Completes d snap (f a) V) :
    Completes d snap (x >>= f) V := by
  refine (hx.completes snap).bind fun a' d' h => ?_
  obtain ⟨rfl, rfl⟩ := h
  rw [hd]
  exact hf

/-- A loop that only reads finishes when every turn does. The turns keep an invariant of the
items done and the accumulator, and each knows which items are left. -/
theorem Completes.foldlM {f : β → ι → Program D ε β} {I : List ι → β → Prop} {is : List ι} {b : β}
    (h0 : I [] b)
    (hstep : ∀ done i rest b, is = done ++ i :: rest → I done b →
      Completes d snap (f b i) fun b' d' => d' = d ∧ I (done ++ [i]) b') :
    Completes d snap (is.foldlM f b) fun b' d' => d' = d ∧ I is b' := by
  -- induction on the items left; the invariant speaks of the items done
  suffices h : ∀ (rest done : List ι) (b : β), is = done ++ rest → I done b →
      Completes d snap (rest.foldlM f b) fun b' d' => d' = d ∧ I is b' from h is [] b rfl h0
  intro rest
  induction rest with
  | nil =>
    intro done b his hI
    rw [List.append_nil] at his
    exact Completes.pure ⟨rfl, his ▸ hI⟩
  | cons i rest ih =>
    intro done b his hI
    rw [List.foldlM_cons]
    refine (hstep done i rest b his hI).bind fun b' d' hb' => ?_
    obtain ⟨rfl, hb'⟩ := hb'
    exact ih (done ++ [i]) b' (by rw [his, List.append_cons]) hb'

/-- A loop of changes finishes when every turn does, on the store the turns before it leave. -/
theorem Completes.forM {f : ι → Program D ε PUnit} {I : List ι → D → Prop} {is : List ι}
    (h0 : I [] d)
    (hstep : ∀ done i rest d', is = done ++ i :: rest → I done d' →
      Completes d' snap (f i) fun _ d'' => I (done ++ [i]) d'') :
    Completes d snap (ForM.forM is f) fun _ d' => I is d' := by
  -- as for `foldlM`, with the store in the place of the accumulator
  suffices h : ∀ (rest done : List ι) (d : D), is = done ++ rest → I done d →
      Completes d snap (ForM.forM rest f) fun _ d' => I is d' from h is [] d rfl h0
  intro rest
  induction rest with
  | nil =>
    intro done d his hI
    rw [List.append_nil] at his
    exact Completes.pure (his ▸ hI)
  | cons i rest ih =>
    intro done d his hI
    rw [List.forM_cons]
    refine (hstep done i rest d his hI).bind fun _ d' hd' => ?_
    exact ih (done ++ [i]) d' (by rw [his, List.append_cons]) hd'

/-- **A transaction completes** when none is open and its body does: it is begun, and its
changes are kept. -/
theorem Completes.transaction {alreadyOpen notOpen : ε} {x : Program D ε PUnit}
    {W : PUnit → D → Prop} (h : Completes d (some d) x W) :
    Completes d none (transaction alreadyOpen notOpen x) W := by
  obtain ⟨a, d', hrun, ha⟩ := h
  refine ⟨a, d', ?_, ha⟩
  have hbegin : (begin alreadyOpen : Program D ε Unit).exec ⟨d, none, []⟩ =
      (.ok (), ⟨d, some d, []⟩) := rfl
  have hcommit : (commit notOpen : Program D ε Unit).exec ⟨d', some d, []⟩ =
      (.ok (), ⟨d', none, []⟩) := rfl
  -- the body and the commit finish, so the handler of errors is not reached
  rw [Program.transaction, exec_bind_ok hbegin, exec_tryCatch, exec_bind_ok hrun, hcommit]

end Rules

end Program
