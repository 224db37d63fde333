import Mathlib.Data.Option.Defs
import SageStore.Foundation.Session

/-!
# Two runs in lockstep

`Lockstep R x y V` compares a run of `x` with a run of `y` from stores that `R` relates, under
one schedule of faults: **both raise the same error, or both finish, with values that `V`
relates**; and in either case `R` relates the stores they end in. It is proved along the text
of the two programs, by one rule for each way a program is composed.

A program that is in lockstep with itself and gives equal values is `Blind R`: whatever `R`
leaves open about the store, neither its result nor its error depends on it.
-/

/-- The same error, or values that `V` relates. -/
inductive Except.Agree {ε α β : Type} (V : α → β → Prop) : Except ε α → Except ε β → Prop
  | ok {a : α} {b : β} : V a b → Except.Agree V (.ok a) (.ok b)
  | error (e : ε) : Except.Agree V (.error e) (.error e)

namespace Except.Agree

variable {ε ε' α α' β β' : Type} {V : α → β → Prop} {x : Except ε α} {y : Except ε β}

theorem mono {W : α → β → Prop} (h : Except.Agree V x y) (hVW : ∀ a b, V a b → W a b) :
    Except.Agree W x y := by
  cases h with
  | error e => exact .error e
  | ok hab => exact .ok (hVW _ _ hab)

theorem map {W : α' → β' → Prop} {f : α → α'} {g : β → β'} (h : Except.Agree V x y)
    (hfg : ∀ a b, V a b → W (f a) (g b)) : Except.Agree W (x.map f) (y.map g) := by
  cases h with
  | error e => exact .error e
  | ok hab => exact .ok (hfg _ _ hab)

theorem mapError (h : Except.Agree V x y) (f : ε → ε') :
    Except.Agree V (x.mapError f) (y.mapError f) := by
  cases h with
  | error e => exact .error (f e)
  | ok hab => exact .ok hab

end Except.Agree

namespace Session

variable {D D' ε : Type}

/-- Two sessions at the same point of the same schedule, over stores that `R` relates. -/
structure Twins (R : D → D' → Prop) (s : Session D ε) (s' : Session D' ε) : Prop where
  store : R s.store s'.store
  snapshot : Option.Rel R s.snapshot s'.snapshot
  faults : s.faults = s'.faults

end Session

namespace Program

variable {D D' ε α α' β β' ι : Type} {R : D → D' → Prop}

/-- **Two programs in lockstep**: from stores that `R` relates, both raise the same error or
both finish with values that `V` relates, and `R` relates the stores they leave. -/
def Lockstep (R : D → D' → Prop) (x : Program D ε α) (y : Program D' ε β) (V : α → β → Prop) :
    Prop :=
  ∀ (s : Session D ε) (s' : Session D' ε), s.Twins R s' →
    Except.Agree V (x.exec s).1 (y.exec s').1 ∧ (x.exec s).2.Twins R (y.exec s').2

section Lockstep

variable {x : Program D ε α} {y : Program D' ε β} {V : α → β → Prop}

theorem Lockstep.pure {a : α} {b : β} (h : V a b) :
    Lockstep R (pure a : Program D ε α) (pure b : Program D' ε β) V :=
  fun _ _ hs => ⟨.ok h, hs⟩

theorem Lockstep.throw (e : ε) :
    Lockstep R (throw e : Program D ε α) (throw e : Program D' ε β) V :=
  fun _ _ hs => ⟨.error e, hs⟩

theorem Lockstep.mono {W : α → β → Prop} (h : Lockstep R x y V) (hVW : ∀ a b, V a b → W a b) :
    Lockstep R x y W := by
  intro s s' hs
  obtain ⟨hres, hend⟩ := h s s' hs
  exact ⟨hres.mono hVW, hend⟩

/-- Lockstep is kept by sequences, which continue with related values. -/
theorem Lockstep.bind {W : α' → β' → Prop} {f : α → Program D ε α'} {g : β → Program D' ε β'}
    (hxy : Lockstep R x y V) (hfg : ∀ a b, V a b → Lockstep R (f a) (g b) W) :
    Lockstep R (x >>= f) (y >>= g) W := by
  intro s s' hs
  have h := hxy s s' hs
  rw [exec_bind, exec_bind]
  generalize x.exec s = r at h ⊢
  generalize y.exec s' = r' at h ⊢
  obtain ⟨a, s₁⟩ := r
  obtain ⟨b, s₁'⟩ := r'
  obtain ⟨hres, hend⟩ := h
  cases hres with
  -- an error skips the rest on both sides
  | error e => exact ⟨.error e, hend⟩
  | ok hab => exact hfg _ _ hab s₁ s₁' hend

/-- A computation without a store. -/
theorem Lockstep.lift {x : Except ε α} {V : α → α → Prop} (h : ∀ a, x = .ok a → V a a) :
    Lockstep R (liftM x : Program D ε α) (liftM x : Program D' ε α) V := by
  cases x with
  | error e => exact Lockstep.throw e
  | ok a => exact Lockstep.pure (h a rfl)

theorem Lockstep.ite {c : Prop} [Decidable c] {x' : Program D ε α} {y' : Program D' ε β}
    (hx : c → Lockstep R x y V) (hy : ¬ c → Lockstep R x' y' V) :
    Lockstep R (if c then x else x') (if c then y else y') V := by
  by_cases h : c
  · rw [if_pos h, if_pos h]
    exact hx h
  · rw [if_neg h, if_neg h]
    exact hy h

/-- A handler that is entered on one side is entered on the other, with the same error. -/
theorem Lockstep.tryCatch {h : ε → Program D ε α} {k : ε → Program D' ε β}
    (hxy : Lockstep R x y V) (hhk : ∀ e, Lockstep R (h e) (k e) V) :
    Lockstep R (tryCatch x h) (tryCatch y k) V := by
  intro s s' hs
  have hrun := hxy s s' hs
  rw [exec_tryCatch, exec_tryCatch]
  generalize x.exec s = r at hrun ⊢
  generalize y.exec s' = r' at hrun ⊢
  obtain ⟨a, s₁⟩ := r
  obtain ⟨b, s₁'⟩ := r'
  obtain ⟨hres, hend⟩ := hrun
  cases hres with
  | ok hab => exact ⟨.ok hab, hend⟩
  -- both handlers get the same error
  | error e => exact hhk e s₁ s₁' hend

/-! ### Calls -/

/-- What a call comes to when no fault stops it. -/
def attempt (f : Session D ε → Except ε (α × Session D ε)) (s : Session D ε) :
    Except ε α × Session D ε :=
  match f s with
  | .ok (a, s') => (.ok a, s')
  | .error e => (.error e, s)

/-- A call that is not disturbed is attempted. -/
theorem exec_call_none (f : Session D ε → Except ε (α × Session D ε)) (d : D)
    (snap : Option D) (fs : List (Option ε)) :
    (call f).exec ⟨d, snap, none :: fs⟩ = attempt f ⟨d, snap, fs⟩ := rfl

/-- A call that fails changes nothing and uses up its fault. -/
theorem exec_call_some (f : Session D ε → Except ε (α × Session D ε)) (d : D)
    (snap : Option D) (e : ε) (fs : List (Option ε)) :
    (call f).exec ⟨d, snap, some e :: fs⟩ = (.error e, ⟨d, snap, fs⟩) := rfl

/-- Two calls at the same point of a schedule: both are made to fail, or both run. -/
theorem Lockstep.call {f : Session D ε → Except ε (α × Session D ε)}
    {g : Session D' ε → Except ε (β × Session D' ε)}
    (h : ∀ s s', s.Twins R s' →
      Except.Agree (fun r r' => V r.1 r'.1 ∧ r.2.Twins R r'.2) (f s) (g s')) :
    Lockstep R (call f) (call g) V := by
  -- what two calls come to that both run
  have hrun (s : Session D ε) (s' : Session D' ε) (hs : s.Twins R s') :
      Except.Agree V (attempt f s).1 (attempt g s').1 ∧
        (attempt f s).2.Twins R (attempt g s').2 := by
    have hres := h s s' hs
    unfold attempt
    generalize f s = r at hres ⊢
    generalize g s' = r' at hres ⊢
    cases hres with
    | error e => exact ⟨.error e, hs⟩
    | ok hab => exact ⟨.ok hab.1, hab.2⟩
  rintro ⟨d, snap, fs⟩ ⟨d', snap', fs'⟩ ⟨hstore, hsnap, rfl⟩
  match fs with
  | [] => exact hrun ⟨d, snap, []⟩ ⟨d', snap', []⟩ ⟨hstore, hsnap, rfl⟩
  | none :: rest =>
    rw [exec_call_none, exec_call_none]
    exact hrun _ _ ⟨hstore, hsnap, rfl⟩
  | some e :: rest =>
    rw [exec_call_some, exec_call_some]
    exact ⟨.error e, hstore, hsnap, rfl⟩

/-- A query whose answers agree on related stores is in lockstep. -/
theorem Lockstep.query {f : D → Except ε α} {g : D' → Except ε β}
    (h : ∀ d d', R d d' → Except.Agree V (f d) (g d')) : Lockstep R (query f) (query g) V :=
  .call fun s s' hs => (h s.store s'.store hs.store).map fun _ _ hab => ⟨hab, hs⟩

/-- So is a statement that keeps stores related. -/
theorem Lockstep.statement {f : D → Except ε D} {g : D' → Except ε D'}
    (h : ∀ d d', R d d' → Except.Agree R (f d) (g d')) :
    Lockstep R (statement f) (statement g) fun _ _ => True :=
  .call fun s s' hs => (h s.store s'.store hs.store).map fun _ _ hd =>
    ⟨trivial, hd, hs.snapshot, hs.faults⟩

/-- Transactions begin, commit and roll back in lockstep: their snapshots are related. -/
theorem Lockstep.begin (e : ε) :
    Lockstep R (begin e : Program D ε Unit) (begin e : Program D' ε Unit) fun _ _ => True := by
  refine .call fun s s' hs => ?_
  obtain ⟨d, snap, fs⟩ := s
  obtain ⟨d', snap', fs'⟩ := s'
  obtain ⟨hstore, hsnap, hfaults⟩ := hs
  cases hsnap with
  | none => exact .ok ⟨trivial, hstore, .some hstore, hfaults⟩
  | some _ => exact .error e

theorem Lockstep.commit (e : ε) :
    Lockstep R (commit e : Program D ε Unit) (commit e : Program D' ε Unit)
      fun _ _ => True := by
  refine .call fun s s' hs => ?_
  obtain ⟨d, snap, fs⟩ := s
  obtain ⟨d', snap', fs'⟩ := s'
  obtain ⟨hstore, hsnap, hfaults⟩ := hs
  cases hsnap with
  | none => exact .error e
  | some _ => exact .ok ⟨trivial, hstore, .none, hfaults⟩

theorem Lockstep.rollback (e : ε) :
    Lockstep R (rollback e : Program D ε Unit) (rollback e : Program D' ε Unit)
      fun _ _ => True := by
  rintro ⟨d, snap, fs⟩ ⟨d', snap', fs'⟩ ⟨hstore, hsnap, hfaults⟩
  cases hsnap with
  | none => exact ⟨.error e, hstore, .none, hfaults⟩
  | some hold => exact ⟨.ok trivial, hold, .none, hfaults⟩

/-- Two transactions whose bodies are in lockstep commit together, or roll back to the stores
they began with. -/
theorem Lockstep.transaction {alreadyOpen notOpen : ε} {x : Program D ε PUnit}
    {y : Program D' ε PUnit} (h : Lockstep R x y fun _ _ => True) :
    Lockstep R (transaction alreadyOpen notOpen x) (transaction alreadyOpen notOpen y)
      fun _ _ => True := by
  refine (Lockstep.begin alreadyOpen).bind fun _ _ _ => ?_
  refine Lockstep.tryCatch (h.bind fun _ _ _ => Lockstep.commit notOpen) fun e => ?_
  refine Lockstep.bind (Lockstep.tryCatch (Lockstep.rollback notOpen) fun _ => ?_) fun _ _ _ => ?_
  · exact Lockstep.pure trivial
  · exact Lockstep.throw e

end Lockstep

/-! ### Programs that do not see a difference -/

/-- The program is in lockstep with itself, and its results are equal. -/
def Blind (R : D → D → Prop) (x : Program D ε α) : Prop := Lockstep R x x Eq

section Blind

variable {R : D → D → Prop} {x : Program D ε α}

theorem Blind.pure (a : α) : Blind R (pure a : Program D ε α) := Lockstep.pure rfl

theorem Blind.throw (e : ε) : Blind R (throw e : Program D ε α) := Lockstep.throw e

theorem Blind.lift (x : Except ε α) : Blind R (liftM x : Program D ε α) :=
  Lockstep.lift fun _ _ => rfl

/-- A program that cannot tell related stores apart goes on so. -/
theorem Blind.bind {f : α → Program D ε β} (hx : Blind R x) (hf : ∀ a, Blind R (f a)) :
    Blind R (x >>= f) := by
  refine Lockstep.bind hx ?_
  rintro a _ rfl
  exact hf a

/-- A program whose results carry nothing. -/
theorem Lockstep.blind {x : Program D ε PUnit} (h : Lockstep R x x fun _ _ => True) :
    Blind R x :=
  Lockstep.mono h fun _ _ _ => rfl

/-- A transaction is blind if what it runs is. -/
theorem Blind.transaction {alreadyOpen notOpen : ε} {x : Program D ε PUnit} (h : Blind R x) :
    Blind R (transaction alreadyOpen notOpen x) :=
  (Lockstep.transaction (Lockstep.mono h fun _ _ _ => trivial)).blind

end Blind

end Program
