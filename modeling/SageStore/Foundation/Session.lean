import Mathlib.Data.List.Infix
import Mathlib.Control.Monad.Basic

/-!
# Programs over a store that can fail at any call

A `Program` runs in a `Session`: a store, the snapshot a transaction took of it, and a
schedule of faults. It reaches the store through calls only (`Program.call`); each call
consumes one entry of the schedule, and an entry `some e` makes it raise `e` instead of
running. An exhausted schedule injects nothing, so `faults = []` is a session whose calls
fail only by themselves. **A program that raises keeps the session it reached**: nothing is
undone unless the program undoes it.

`Outcome E d x W A` is the specification every program gets: run on the store `d`, `x`
finishes with `W`, or it raises an `E` having changed nothing, or it raises a scheduled fault
having changed nothing or done `A`. `Atomic` is the case without `A`, and `Reads` the case
that changes nothing in any event. Programs are verified by `Reads.bind`, which hands what a
reading part learnt to the rest as a hypothesis. `Changes` says what a program does when it
finishes and leaves open what it leaves behind when it raises; `Changes.transaction` makes it
`Atomic`. `Yields` is the specification of a computation that needs no store.

`Surfaces` says of a single scheduled fault that a program which consumes it raises it.
-/

theorem Except.map_eq_ok_iff {ε α β : Type} {f : α → β} {x : Except ε α} {b : β} :
    x.map f = .ok b ↔ ∃ a, x = .ok a ∧ f a = b := by
  cases x <;> simp [Except.map]

theorem Except.map_eq_error_iff {ε α β : Type} {f : α → β} {x : Except ε α} {e : ε} :
    x.map f = .error e ↔ x = .error e := by
  cases x <;> simp [Except.map]

/-- A store, the snapshot of an open transaction, and the faults still scheduled. -/
structure Session (D ε : Type) where
  store : D
  snapshot : Option D
  faults : List (Option ε)

namespace Session

variable {D ε : Type}

/-- What no program changes: the transaction is as it was, and faults are only consumed. -/
structure Frame (s s' : Session D ε) : Prop where
  snapshot_eq : s'.snapshot = s.snapshot
  faults_suffix : s'.faults <:+ s.faults

theorem Frame.refl (s : Session D ε) : s.Frame s := ⟨rfl, List.suffix_refl _⟩

theorem Frame.trans {s s' s'' : Session D ε} (h : s.Frame s') (h' : s'.Frame s'') :
    s.Frame s'' :=
  ⟨h'.snapshot_eq.trans h.snapshot_eq, h'.faults_suffix.trans h.faults_suffix⟩

/-- A fault still scheduled afterwards was scheduled before. -/
theorem Frame.mem_faults {s s' : Session D ε} {e : ε} (h : s.Frame s')
    (he : some e ∈ s'.faults) : some e ∈ s.faults :=
  h.faults_suffix.subset he

end Session

/-- A program over a store of type `D` that may raise an `ε`. -/
abbrev Program (D ε α : Type) := ExceptT ε (StateM (Session D ε)) α

namespace Program

variable {D ε α β ι : Type}

/-- Run a program: its result, and the session it reached. -/
def exec (x : Program D ε α) (s : Session D ε) : Except ε α × Session D ε :=
  Id.run (StateT.run (ExceptT.run x) s)

/-! ### Calls to the store -/

/-- One call: a scheduled fault is raised in its place; otherwise `f` runs, and leaves the
session as it was when it fails. -/
def call (f : Session D ε → Except ε (α × Session D ε)) : Program D ε α :=
  ExceptT.mk fun s =>
    match s.faults with
    | some e :: fs => (.error e, { s with faults := fs })
    | fs =>
      -- the schedule is exhausted, or lets this call pass
      match f { s with faults := fs.tail } with
      | .ok (a, s') => (.ok a, s')
      | .error e => (.error e, { s with faults := fs.tail })

/-- Read the store. -/
def query (f : D → Except ε α) : Program D ε α :=
  call fun s => (f s.store).map fun a => (a, s)

/-- Change the store, or fail. -/
def statement (f : D → Except ε D) : Program D ε Unit :=
  call fun s => (f s.store).map fun d => ((), { s with store := d })

/-- Open a transaction; only one can be open. -/
def begin (alreadyOpen : ε) : Program D ε Unit :=
  call fun s =>
    match s.snapshot with
    | none => .ok ((), { s with snapshot := some s.store })
    | some _ => .error alreadyOpen

/-- Close the transaction, keeping its changes. -/
def commit (notOpen : ε) : Program D ε Unit :=
  call fun s =>
    match s.snapshot with
    | some _ => .ok ((), { s with snapshot := none })
    | none => .error notOpen

/-- Close the transaction, undoing its changes. A rollback is never made to fail. -/
def rollback (notOpen : ε) : Program D ε Unit :=
  ExceptT.mk fun s =>
    match s.snapshot with
    | some d => (.ok (), { s with store := d, snapshot := none })
    | none => (.error notOpen, s)

/-- Run `x` in a transaction: begin, run, commit. If the body or the commit raises, roll
back, ignoring what the rollback itself may raise, and raise the original error again. -/
def transaction (alreadyOpen notOpen : ε) (x : Program D ε PUnit) : Program D ε PUnit := do
  begin alreadyOpen
  tryCatch (do x; commit notOpen) fun e => do
    tryCatch (rollback notOpen) fun _ => pure ()
    throw e

/-! ### Running -/

@[simp] theorem exec_pure (a : α) (s : Session D ε) :
    (pure a : Program D ε α).exec s = (.ok a, s) := rfl

@[simp] theorem exec_throw (e : ε) (s : Session D ε) :
    (throw e : Program D ε α).exec s = (.error e, s) := rfl

/-- A sequence executes its parts one after the other, up to the first error. -/
theorem exec_bind (x : Program D ε α) (f : α → Program D ε β) (s : Session D ε) :
    (x >>= f).exec s =
      match x.exec s with
      | (.ok a, s') => (f a).exec s'
      | (.error e, s') => (.error e, s') := by
  simp only [exec, bind, ExceptT.bind, ExceptT.mk, ExceptT.run, StateT.bind, StateT.run, Id.run]
  rcases x s with ⟨a | e, s'⟩ <;> rfl

/-- After a program that finishes the rest runs. -/
theorem exec_bind_ok {x : Program D ε α} {f : α → Program D ε β} {s s' : Session D ε} {a : α}
    (h : x.exec s = (.ok a, s')) : (x >>= f).exec s = (f a).exec s' := by
  rw [exec_bind, h]

/-- After a program that raises nothing runs. -/
theorem exec_bind_error {x : Program D ε α} {f : α → Program D ε β} {s s' : Session D ε} {e : ε}
    (h : x.exec s = (.error e, s')) : (x >>= f).exec s = (.error e, s') := by
  rw [exec_bind, h]

theorem exec_tryCatch (x : Program D ε α) (h : ε → Program D ε α) (s : Session D ε) :
    (tryCatch x h).exec s =
      match x.exec s with
      | (.ok a, s') => (.ok a, s')
      | (.error e, s') => (h e).exec s' := by
  simp only [exec, tryCatch, tryCatchThe, MonadExceptOf.tryCatch, ExceptT.tryCatch, ExceptT.mk,
    ExceptT.run, bind, StateT.bind, StateT.run, Id.run]
  rcases x s with ⟨a | e, s'⟩ <;> rfl

/-- A call either raises, by a scheduled fault or by itself, leaving all but the schedule as
it was, or runs. -/
theorem exec_call (f : Session D ε → Except ε (α × Session D ε)) (s : Session D ε) :
    (∃ e fs, fs <:+ s.faults ∧ (some e ∈ s.faults ∨ f { s with faults := fs } = .error e) ∧
      (call f).exec s = (.error e, { s with faults := fs })) ∨
    ∃ a s' fs, fs <:+ s.faults ∧ f { s with faults := fs } = .ok (a, s') ∧
      (call f).exec s = (.ok a, s') := by
  have hexec : (call f).exec s =
      match s.faults with
      | some e :: fs => (.error e, { s with faults := fs })
      | fs =>
        match f { s with faults := fs.tail } with
        | .ok (a, s') => (.ok a, s')
        | .error e => (.error e, { s with faults := fs.tail }) := rfl
  rw [hexec]
  split
  · -- a fault is scheduled for this call
    next e fs hs =>
    exact Or.inl ⟨e, fs, hs ▸ List.suffix_cons _ _, Or.inl (hs ▸ List.mem_cons_self), rfl⟩
  · split
    · next a s' hf => exact Or.inr ⟨a, s', _, List.tail_suffix _, hf, rfl⟩
    · next e hf => exact Or.inl ⟨e, _, List.tail_suffix _, Or.inr hf, rfl⟩

theorem exec_begin (alreadyOpen : ε) (s : Session D ε) :
    (∃ e fs, fs <:+ s.faults ∧ (some e ∈ s.faults ∨ e = alreadyOpen) ∧
      (begin alreadyOpen).exec s = (.error e, { s with faults := fs })) ∨
    ∃ fs, fs <:+ s.faults ∧ s.snapshot = none ∧
      (begin alreadyOpen).exec s = (.ok (), ⟨s.store, some s.store, fs⟩) := by
  rcases exec_call (fun s => match s.snapshot with
      | none => .ok ((), { s with snapshot := some s.store })
      | some _ => .error alreadyOpen) s with
    ⟨e, fs, hfs, hcause, hrun⟩ | ⟨a, s', fs, hfs, hok, hrun⟩
  · refine Or.inl ⟨e, fs, hfs, hcause.imp_right fun he => ?_, hrun⟩
    split at he
    · cases he
    · exact (Except.error.inj he).symm
  · -- a call that succeeds has found no open transaction
    split at hok
    · next hnone =>
      obtain ⟨-, rfl⟩ := Prod.mk.inj (Except.ok.inj hok)
      exact Or.inr ⟨fs, hfs, hnone, hrun⟩
    · cases hok

theorem exec_commit (notOpen : ε) (s : Session D ε) :
    (∃ e fs, fs <:+ s.faults ∧ (some e ∈ s.faults ∨ e = notOpen) ∧
      (commit notOpen).exec s = (.error e, { s with faults := fs })) ∨
    ∃ fs, fs <:+ s.faults ∧ (commit notOpen).exec s = (.ok (), ⟨s.store, none, fs⟩) := by
  rcases exec_call (fun s => match s.snapshot with
      | some _ => .ok ((), { s with snapshot := none })
      | none => .error notOpen) s with
    ⟨e, fs, hfs, hcause, hrun⟩ | ⟨a, s', fs, hfs, hok, hrun⟩
  · refine Or.inl ⟨e, fs, hfs, hcause.imp_right fun he => ?_, hrun⟩
    split at he
    · cases he
    · exact (Except.error.inj he).symm
  · split at hok
    · obtain ⟨-, rfl⟩ := Prod.mk.inj (Except.ok.inj hok)
      exact Or.inr ⟨fs, hfs, hrun⟩
    · cases hok

/-- Without scheduled faults a call just runs. -/
theorem exec_call_nil (f : Session D ε → Except ε (α × Session D ε)) (d : D) (snap : Option D) :
    (call f).exec ⟨d, snap, []⟩ =
      match f ⟨d, snap, []⟩ with
      | .ok (a, s') => (.ok a, s')
      | .error e => (.error e, ⟨d, snap, []⟩) := rfl

theorem exec_query (f : D → Except ε α) (d : D) (snap : Option D) :
    (query f).exec ⟨d, snap, []⟩ = (f d, ⟨d, snap, []⟩) := by
  rw [query, exec_call_nil]
  cases f d <;> rfl

theorem exec_statement (f : D → Except ε D) (d : D) (snap : Option D) :
    (statement f).exec ⟨d, snap, []⟩ =
      match f d with
      | .ok d' => (.ok (), ⟨d', snap, []⟩)
      | .error e => (.error e, ⟨d, snap, []⟩) := by
  rw [statement, exec_call_nil]
  cases f d <;> rfl

/-- A statement raises because it fails, or because a fault is scheduled. -/
theorem statement_error {f : D → Except ε D} {s s' : Session D ε} {e : ε}
    (h : (statement f).exec s = (.error e, s')) : f s.store = .error e ∨ s.faults ≠ [] := by
  by_cases hs : s.faults = []
  · obtain ⟨d, snap, fs⟩ := s
    obtain rfl : fs = [] := hs
    rw [exec_statement] at h
    split at h
    · exact absurd (Prod.mk.inj h).1 (by simp)
    · next e' he =>
      obtain rfl := Except.error.inj (Prod.mk.inj h).1
      exact Or.inl he
  · exact Or.inr hs

/-! ### Computations without a store -/

/-- A computation that needs no store: its result meets `Q`, or it raises an `E`. -/
def Yields (E : ε → Prop) (x : Except ε α) (Q : α → Prop) : Prop :=
  match x with
  | .ok a => Q a
  | .error e => E e

section Yields

variable {E : ε → Prop} {Q : α → Prop} {R : β → Prop}

theorem Yields.pure {a : α} (h : Q a) : Yields E (pure a) Q := h

theorem Yields.throw {e : ε} (h : E e) : Yields E (throw e) Q := h

theorem Yields.ok {x : Except ε α} {a : α} (h : Yields E x Q) (hx : x = .ok a) : Q a := by
  subst hx
  exact h

/-- A computation yields what it returns. -/
theorem Yields.eq_ok {x : Except ε α} (h : Yields E x Q) : Yields E x fun a => x = .ok a := by
  cases x with
  | error e => exact h
  | ok a => exact rfl

theorem Yields.mono {x : Except ε α} {Q' : α → Prop} (h : Yields E x Q)
    (hQ : ∀ a, Q a → Q' a) : Yields E x Q' := by
  cases x with
  | error e => exact h
  | ok a => exact hQ a h

/-- What a computation yields carries over to the next. -/
theorem Yields.bind {x : Except ε α} {f : α → Except ε β} (hx : Yields E x Q)
    (hf : ∀ a, Q a → Yields E (f a) R) : Yields E (x >>= f) R := by
  cases x with
  | error e => exact hx
  | ok a => exact hf a hx

theorem Yields.ite {p : Prop} [Decidable p] {x y : Except ε α} (hx : p → Yields E x Q)
    (hy : ¬ p → Yields E y Q) : Yields E (if p then x else y) Q := by
  split
  · next h => exact hx h
  · next h => exact hy h

end Yields

/-! ### Specifications -/

/-- **What a program does to the store `d`.** It finishes with `W`; or it raises an `E` and
has changed nothing; or it raises a scheduled fault, and has changed nothing or done `A`. -/
def Outcome (E : ε → Prop) (d : D) (x : Program D ε α) (W : α → D → Prop) (A : D → Prop) :
    Prop :=
  ∀ s : Session D ε, s.store = d →
    match x.exec s with
    | (.ok a, s') => s.Frame s' ∧ W a s'.store
    | (.error e, s') =>
      s.Frame s' ∧ (s'.store = d ∧ E e ∨ some e ∈ s.faults ∧ (s'.store = d ∨ A s'.store))

/-- A program that does `W` or raises having changed nothing, whatever fails. -/
def Atomic (E : ε → Prop) (d : D) (x : Program D ε α) (W : α → D → Prop) : Prop :=
  Outcome E d x W fun _ => False

/-- A program that changes nothing, and finishes only with a result that `Q` allows. -/
def Reads (E : ε → Prop) (d : D) (x : Program D ε α) (Q : α → Prop) : Prop :=
  Atomic E d x fun a d' => d' = d ∧ Q a

/-- A program that does `W` when it finishes. What it leaves behind when it raises is open:
this is the specification of the inside of a transaction. -/
def Changes (E : ε → Prop) (d : D) (x : Program D ε α) (W : α → D → Prop) : Prop :=
  ∀ s : Session D ε, s.store = d →
    match x.exec s with
    | (.ok a, s') => s.Frame s' ∧ W a s'.store
    | (.error e, s') => s.Frame s' ∧ (E e ∨ some e ∈ s.faults)

section Specifications

variable {E : ε → Prop} {d : D} {x : Program D ε α} {W W' : α → D → Prop} {A A' : D → Prop}
  {Q Q' : α → Prop}

/-- An outcome may be weakened. -/
theorem Outcome.mono (h : Outcome E d x W A) (hW : ∀ a d', W a d' → W' a d')
    (hA : ∀ d', A d' → A' d') : Outcome E d x W' A' := by
  intro s hs
  have := h s hs
  split at this
  · exact ⟨this.1, hW _ _ this.2⟩
  · exact ⟨this.1, this.2.imp_right fun ha => ⟨ha.1, ha.2.imp_right (hA _)⟩⟩

/-- A program may be said to raise more than it does. -/
theorem Outcome.weaken {E' : ε → Prop} (h : Outcome E d x W A) (hE : ∀ e, E e → E' e) :
    Outcome E' d x W A := by
  intro s hs
  have := h s hs
  split at this
  · exact this
  · exact ⟨this.1, this.2.imp_left fun ha => ⟨ha.1, hE _ ha.2⟩⟩

/-- What is atomic never stops halfway. -/
theorem Atomic.outcome (h : Atomic E d x W) : Outcome E d x W A :=
  Outcome.mono h (fun _ _ hw => hw) fun _ hf => hf.elim

theorem Atomic.mono (h : Atomic E d x W) (hW : ∀ a d', W a d' → W' a d') : Atomic E d x W' :=
  Outcome.mono h hW fun _ hf => hf

/-- An atomic program that raises has changed nothing. -/
theorem Atomic.unchanged {s : Session D ε} {e : ε} (h : Atomic E s.store x W)
    (he : (x.exec s).1 = .error e) : s.Frame (x.exec s).2 ∧ (x.exec s).2.store = s.store := by
  have h := h s rfl
  match hrun : x.exec s with
  | (.ok a, s') =>
    rw [hrun] at he
    cases he
  | (.error e', s') =>
    rw [hrun] at h
    exact ⟨h.1, h.2.elim And.left fun hf => hf.2.resolve_right fun hf : False => hf⟩

theorem Reads.mono (h : Reads E d x Q) (hQ : ∀ a, Q a → Q' a) : Reads E d x Q' :=
  Atomic.mono h fun _ _ hw => ⟨hw.1, hQ _ hw.2⟩

theorem Reads.pure {a : α} (h : Q a) : Reads E d (pure a) Q :=
  fun s hs => ⟨.refl s, hs, h⟩

theorem Outcome.throw {e : ε} (h : E e) : Outcome E d (throw e : Program D ε α) W A :=
  fun s hs => ⟨.refl s, Or.inl ⟨hs, h⟩⟩

theorem Reads.throw {e : ε} (h : E e) : Reads E d (throw e : Program D ε α) Q :=
  fun s hs => ⟨.refl s, Or.inl ⟨hs, h⟩⟩

/-- Sequencing after a reading program: the rest may use what the reading established. -/
theorem Reads.bind {f : α → Program D ε β} {W : β → D → Prop} (hx : Reads E d x Q)
    (hf : ∀ a, Q a → Outcome E d (f a) W A) : Outcome E d (x >>= f) W A := by
  intro s hs
  rw [exec_bind]
  have h := hx s hs
  match hrun : x.exec s with
  | (.error e, s') =>
    rw [hrun] at h
    exact ⟨h.1, h.2.imp_right fun ha => ⟨ha.1, ha.2.imp_right fun hf : False => hf.elim⟩⟩
  | (.ok a, s') =>
    rw [hrun] at h
    obtain ⟨hframe, hstore, hq⟩ := h
    have h' := hf a hq s' hstore
    split at h' <;> rename_i heq <;> simp only [heq]
    · exact ⟨hframe.trans h'.1, h'.2⟩
    · -- a fault still scheduled after the reading part was scheduled before it
      exact ⟨hframe.trans h'.1, h'.2.imp_right fun ha => ⟨hframe.mem_faults ha.1, ha.2⟩⟩

/-- A program that first reads is atomic if the rest is. -/
theorem Reads.bindAtomic {f : α → Program D ε β} {W : β → D → Prop} (hx : Reads E d x Q)
    (hf : ∀ a, Q a → Atomic E d (f a) W) : Atomic E d (x >>= f) W :=
  Reads.bind hx hf

theorem Reads.bindReads {f : α → Program D ε β} {R : β → Prop} (hx : Reads E d x Q)
    (hf : ∀ a, Q a → Reads E d (f a) R) : Reads E d (x >>= f) R :=
  hx.bindAtomic fun a hq => (hf a hq : Atomic E d (f a) fun b d' => d' = d ∧ R b)

/-- A change, followed by a result that needs no call. -/
theorem Outcome.bindPure {f : α → β} {V : β → D → Prop}
    (hx : Outcome E d x (fun a d' => V (f a) d') A) :
    Outcome E d (x >>= fun a => Pure.pure (f a)) V A := by
  intro s hs
  rw [exec_bind]
  have h := hx s hs
  match hrun : x.exec s with
  | (.error e, s') => rw [hrun] at h; exact h
  | (.ok a, s') => rw [hrun] at h; exact h

theorem Outcome.ite {p : Prop} [Decidable p] {x y : Program D ε α}
    (hx : p → Outcome E d x W A) (hy : ¬ p → Outcome E d y W A) :
    Outcome E d (if p then x else y) W A := by
  split
  · next h => exact hx h
  · next h => exact hy h

theorem Reads.ite {p : Prop} [Decidable p] {x y : Program D ε α}
    (hx : p → Reads E d x Q) (hy : ¬ p → Reads E d y Q) : Reads E d (if p then x else y) Q := by
  split
  · next h => exact hx h
  · next h => exact hy h

/-- A computation without a store, used as a step of a program. -/
theorem reads_lift {x : Except ε α} (h : Yields E x Q) :
    Reads E d (liftM x : Program D ε α) Q := by
  intro s hs
  cases x with
  | error e => exact ⟨.refl s, Or.inl ⟨hs, h⟩⟩
  | ok a => exact ⟨.refl s, hs, h⟩

/-- A query only reads. -/
theorem reads_query {f : D → Except ε α} (hE : ∀ e, f d = .error e → E e) :
    Reads E d (query f) fun a => f d = .ok a := by
  intro s hs
  subst hs
  rcases exec_call (fun s => (f s.store).map fun a => (a, s)) s with
    ⟨e, fs, hfs, hcause, hrun⟩ | ⟨a, s', fs, hfs, hok, hrun⟩
  · rw [query, hrun]
    refine ⟨⟨rfl, hfs⟩, ?_⟩
    rcases hcause with hmem | herr
    · exact Or.inr ⟨hmem, Or.inl rfl⟩
    · exact Or.inl ⟨rfl, hE e (Except.map_eq_error_iff.mp herr)⟩
  · rw [query, hrun]
    obtain ⟨b, hb, heq⟩ := Except.map_eq_ok_iff.mp hok
    obtain ⟨rfl, rfl⟩ := Prod.mk.inj heq
    exact ⟨⟨rfl, hfs⟩, rfl, hb⟩

/-- A single statement is atomic. -/
theorem atomic_statement {f : D → Except ε D} (hE : ∀ e, f d = .error e → E e) :
    Atomic E d (statement f) fun _ d' => f d = .ok d' := by
  intro s hs
  subst hs
  rcases exec_call (fun s => (f s.store).map fun d => ((), { s with store := d })) s with
    ⟨e, fs, hfs, hcause, hrun⟩ | ⟨a, s', fs, hfs, hok, hrun⟩
  · rw [statement, hrun]
    refine ⟨⟨rfl, hfs⟩, ?_⟩
    rcases hcause with hmem | herr
    · exact Or.inr ⟨hmem, Or.inl rfl⟩
    · exact Or.inl ⟨rfl, hE e (Except.map_eq_error_iff.mp herr)⟩
  · rw [statement, hrun]
    obtain ⟨d, hd, heq⟩ := Except.map_eq_ok_iff.mp hok
    obtain ⟨-, rfl⟩ := Prod.mk.inj heq
    exact ⟨⟨rfl, hfs⟩, hd⟩

/-- A loop that only reads keeps an invariant of the items done and the accumulator. -/
theorem Reads.foldlM {f : β → ι → Program D ε β} {I : List ι → β → Prop} {is : List ι} {b : β}
    (h0 : I [] b)
    (hstep : ∀ done i b, i ∈ is → I done b → Reads E d (f b i) fun b' => I (done ++ [i]) b') :
    Reads E d (is.foldlM f b) fun b' => I is b' := by
  -- by induction on the items that are left, for any accumulator the items done lead to
  suffices h : ∀ (rest done : List ι) (b : β), rest ⊆ is → I done b →
      Reads E d (rest.foldlM f b) fun b' => I (done ++ rest) b' from h is [] b (fun _ h => h) h0
  intro rest
  induction rest with
  | nil =>
    intro done b _ hI
    exact Reads.pure (by rwa [List.append_nil])
  | cons i rest ih =>
    intro done b hsub hI
    rw [List.foldlM_cons]
    refine (hstep done i b (hsub List.mem_cons_self) hI).bindReads fun b' hb' => ?_
    rw [List.append_cons]
    exact ih (done ++ [i]) b' (fun _ h => hsub (List.mem_cons_of_mem _ h)) hb'

/-! ### Changes that only a scheduled fault can stop -/

/-- Sequencing of two programs that raise nothing but scheduled faults. What a fault leaves
behind is what the first had done, or all of it and what the second had done. -/
theorem Outcome.bindSure {f : α → Program D ε β} {V : β → D → Prop} {B : D → Prop}
    (hx : Outcome (fun _ => False) d x W A)
    (hf : ∀ a d', W a d' → Outcome (fun _ => False) d' (f a) V B) :
    Outcome E d (x >>= f) V fun d'' => A d'' ∨ ∃ a d', W a d' ∧ (d'' = d' ∨ B d'') := by
  intro s hs
  rw [exec_bind]
  have h := hx s hs
  match hrun : x.exec s with
  | (.error e, s') =>
    -- the first program was stopped, by a fault
    rw [hrun] at h
    refine ⟨h.1, Or.inr ?_⟩
    rcases h.2 with ⟨-, hf⟩ | ⟨hmem, hd⟩
    · exact hf.elim
    · exact ⟨hmem, hd.imp_right Or.inl⟩
  | (.ok a, s') =>
    rw [hrun] at h
    have h' := hf a _ h.2 s' rfl
    split at h' <;> rename_i heq <;> simp only [heq]
    · exact ⟨h.1.trans h'.1, h'.2⟩
    · -- the second program was stopped, after all that the first one does
      refine ⟨h.1.trans h'.1, Or.inr ?_⟩
      rcases h'.2 with ⟨-, hf⟩ | ⟨hmem, hd⟩
      · exact hf.elim
      · exact ⟨h.1.mem_faults hmem, Or.inr (Or.inr ⟨a, _, h.2, hd⟩)⟩

/-- A loop of changes that only a scheduled fault can stop: it stops between two items. -/
theorem Outcome.forM {f : ι → Program D ε PUnit} {I : List ι → D → Prop} {is : List ι}
    (h0 : I [] d)
    (hstep : ∀ done i rest d', is = done ++ i :: rest → I done d' →
      Atomic (fun _ => False) d' (f i) fun _ d'' => I (done ++ [i]) d'') :
    Outcome (fun _ => False) d (ForM.forM is f) (fun _ d' => I is d')
      fun d' => ∃ done, done <+: is ∧ I done d' := by
  suffices h : ∀ (rest done : List ι) (d : D), is = done ++ rest → I done d →
      Outcome (fun _ => False) d (ForM.forM rest f) (fun _ d' => I is d')
        fun d' => ∃ done, done <+: is ∧ I done d' from h is [] d rfl h0
  intro rest
  induction rest with
  | nil =>
    intro done d his hI s hs
    rw [List.append_nil] at his
    exact ⟨.refl s, his ▸ hs ▸ hI⟩
  | cons i rest ih =>
    intro done d his hI
    rw [List.forM_cons]
    refine Outcome.mono (Outcome.bindSure (hstep done i rest d his hI) fun _ d' hd' =>
      ih (done ++ [i]) d' (by rw [his, List.append_cons]) hd') (fun _ _ h => h) ?_
    rintro d'' (hf | ⟨-, d', hd', rfl | hB⟩)
    · exact hf.elim
    · -- stopped right after this item
      exact ⟨done ++ [i], ⟨rest, by rw [his, List.append_assoc]; rfl⟩, hd'⟩
    · exact hB

/-! ### Inside a transaction -/

theorem Atomic.changes (h : Atomic E d x W) : Changes E d x W := by
  intro s hs
  have := h s hs
  split at this
  · exact this
  · exact ⟨this.1, this.2.elim (fun ha => Or.inl ha.2) fun ha => Or.inr ha.1⟩

theorem Changes.mono (h : Changes E d x W) (hW : ∀ a d', W a d' → W' a d') :
    Changes E d x W' := by
  intro s hs
  have := h s hs
  split at this
  · exact ⟨this.1, hW _ _ this.2⟩
  · exact this

theorem Changes.pure {a : α} (h : W a d) : Changes E d (pure a) W := by
  rintro s rfl
  exact ⟨.refl s, h⟩

/-- Changes add up; a failure may come between them. -/
theorem Changes.bind {f : α → Program D ε β} {V : β → D → Prop} (hx : Changes E d x W)
    (hf : ∀ a d', W a d' → Changes E d' (f a) V) : Changes E d (x >>= f) V := by
  intro s hs
  rw [exec_bind]
  have h := hx s hs
  match hrun : x.exec s with
  | (.error e, s') => rw [hrun] at h; exact h
  | (.ok a, s') =>
    rw [hrun] at h
    have h' := hf a _ h.2 s' rfl
    split at h' <;> rename_i heq <;> simp only [heq]
    · exact ⟨h.1.trans h'.1, h'.2⟩
    · exact ⟨h.1.trans h'.1, h'.2.imp_right h.1.mem_faults⟩

/-- A loop of changes keeps an invariant of the items done and the store. -/
theorem Changes.forM {f : ι → Program D ε PUnit} {I : List ι → D → Prop} {is : List ι}
    (h0 : I [] d)
    (hstep : ∀ done i rest d', is = done ++ i :: rest → I done d' →
      Changes E d' (f i) fun _ d'' => I (done ++ [i]) d'') :
    Changes E d (ForM.forM is f) fun _ d' => I is d' := by
  suffices h : ∀ (rest done : List ι) (d : D), is = done ++ rest → I done d →
      Changes E d (ForM.forM rest f) fun _ d' => I is d' from h is [] d rfl h0
  intro rest
  induction rest with
  | nil =>
    intro done d his hI
    rw [List.append_nil] at his
    exact Changes.pure (his ▸ hI)
  | cons i rest ih =>
    intro done d his hI
    rw [List.forM_cons]
    refine (hstep done i rest d his hI).bind fun _ d' hd' => ?_
    exact ih (done ++ [i]) d' (by rw [his, List.append_cons]) hd'

/-- **A transaction is atomic**: whatever its body does before it raises, and whether it is
the body or the commit that raises, nothing of it is left. -/
theorem Changes.transaction {alreadyOpen notOpen : ε} {x : Program D ε PUnit}
    {W : PUnit → D → Prop} (h : Changes E d x W) (hopen : E alreadyOpen) (hnot : E notOpen) :
    Atomic E d (transaction alreadyOpen notOpen x) W := by
  intro s hs
  subst hs
  rw [transaction, exec_bind]
  rcases exec_begin alreadyOpen s with ⟨e, fs, hfs, hcause, hrun⟩ | ⟨fs, hfs, hclosed, hrun⟩
  · -- the transaction was never begun
    rw [hrun]
    refine ⟨⟨rfl, hfs⟩, ?_⟩
    rcases hcause with hmem | rfl
    · exact Or.inr ⟨hmem, Or.inl rfl⟩
    · exact Or.inl ⟨rfl, hopen⟩
  simp only [hrun]
  have hx := h ⟨s.store, some s.store, fs⟩ rfl
  -- the handler of the body's errors and of the commit's: roll back, and raise again
  have hrescue (e : ε) (fs' : List (Option ε)) (d' : D) (hfs' : fs' <:+ s.faults)
      (he : E e ∨ some e ∈ s.faults) :
      match ((do tryCatch (rollback notOpen) (fun _ => Pure.pure ()); throw e :
          Program D ε PUnit).exec ⟨d', some s.store, fs'⟩) with
      | (.ok a, s') => s.Frame s' ∧ W a s'.store
      | (.error e, s') => s.Frame s' ∧
          (s'.store = s.store ∧ E e ∨ some e ∈ s.faults ∧ (s'.store = s.store ∨ False)) :=
    ⟨⟨hclosed.symm, hfs'⟩, he.elim (fun he => Or.inl ⟨rfl, he⟩)
      fun he => Or.inr ⟨he, Or.inl rfl⟩⟩
  rw [exec_tryCatch, exec_bind]
  match hbody : x.exec ⟨s.store, some s.store, fs⟩ with
  | (.error e, s') =>
    -- the body keeps the snapshot, so the rollback finds the store the transaction began with
    rw [hbody] at hx
    obtain ⟨d', snap', fs'⟩ := s'
    obtain ⟨⟨rfl, hsuf⟩, he⟩ := hx
    exact hrescue e fs' d' (hsuf.trans hfs) (he.imp_right fun hm => hfs.subset hm)
  | (.ok a, s') =>
    rw [hbody] at hx
    obtain ⟨d', snap', fs'⟩ := s'
    obtain ⟨⟨rfl, hsuf⟩, hw⟩ := hx
    rcases exec_commit notOpen ⟨d', some s.store, fs'⟩ with
      ⟨e, fs'', hfs'', hcause, hrun'⟩ | ⟨fs'', hfs'', hrun'⟩
    · -- the body finished, and the commit raised
      simp only [hrun']
      have hsuf' := (hfs''.trans hsuf).trans hfs
      refine hrescue e fs'' d' hsuf' (hcause.elim (fun hm => Or.inr ?_) fun he => Or.inl ?_)
      · exact (hsuf.trans hfs).subset hm
      · exact he ▸ hnot
    · simp only [hrun']
      exact ⟨⟨hclosed.symm, (hfs''.trans hsuf).trans hfs⟩, hw⟩

end Specifications

/-! ### Faults come to the surface -/

/-- A program that consumes the one scheduled fault raises it. -/
def Surfaces (x : Program D ε α) : Prop :=
  ∀ (s : Session D ε) (k : ℕ) (e : ε), s.faults = List.replicate k none ++ [some e] →
    (∃ j, (x.exec s).2.faults = List.replicate j none ++ [some e]) ∨
      (x.exec s).1 = .error e ∧ (x.exec s).2.faults = []

theorem Surfaces.pure (a : α) : Surfaces (pure a : Program D ε α) :=
  fun _ k _ hs => Or.inl ⟨k, hs⟩

theorem Surfaces.throw (e : ε) : Surfaces (throw e : Program D ε α) :=
  fun _ k _ hs => Or.inl ⟨k, hs⟩

/-- A program surfaces its faults if its parts do. -/
theorem Surfaces.bind {f : α → Program D ε β} (hx : Surfaces x) (hf : ∀ a, Surfaces (f a)) :
    Surfaces (x >>= f) := by
  intro s k e hs
  rw [exec_bind]
  have h := hx s k e hs
  match hrun : x.exec s with
  | (.ok a, s') =>
    -- the fault is still scheduled, so it is one of the rest's
    rw [hrun] at h
    rcases h with ⟨j, hj⟩ | ⟨habs, -⟩
    · exact hf a s' j e hj
    · cases habs
  | (.error e', s') =>
    rw [hrun] at h
    exact h.imp_right fun ⟨he, hnil⟩ => ⟨congrArg _ (Except.error.inj he), hnil⟩

theorem Surfaces.ite {p : Prop} [Decidable p] {x y : Program D ε α} (hx : Surfaces x)
    (hy : Surfaces y) : Surfaces (if p then x else y) := by
  split
  · exact hx
  · exact hy

/-- A call that does not touch the schedule surfaces its fault. -/
theorem Surfaces.call {f : Session D ε → Except ε (α × Session D ε)}
    (hf : ∀ s a s', f s = .ok (a, s') → s'.faults = s.faults) : Surfaces (call f) := by
  intro s k e hs
  cases k with
  | zero =>
    -- it is this call that fails
    have hrun : (Program.call f).exec s = (.error e, { s with faults := [] }) := by
      change (match s.faults with
        | some e :: fs => (.error e, { s with faults := fs })
        | fs => _ : Except ε α × Session D ε) = _
      rw [hs]
      rfl
    rw [hrun]
    exact Or.inr ⟨rfl, rfl⟩
  | succ k =>
    refine Or.inl ⟨k, ?_⟩
    have hrun : (Program.call f).exec s =
        match f { s with faults := List.replicate k none ++ [some e] } with
        | .ok (a, s') => (.ok a, s')
        | .error e' => (.error e', { s with faults := List.replicate k none ++ [some e] }) := by
      change (match s.faults with
        | some e :: fs => (.error e, { s with faults := fs })
        | fs => _ : Except ε α × Session D ε) = _
      rw [hs]
      rfl
    rw [hrun]
    split
    · next a s' hok => exact hf _ a s' hok
    · rfl

theorem Surfaces.query (f : D → Except ε α) : Surfaces (query f) := by
  refine .call fun s a s' h => ?_
  obtain ⟨b, -, heq⟩ := Except.map_eq_ok_iff.mp h
  rw [← (Prod.mk.inj heq).2]

theorem Surfaces.statement (f : D → Except ε D) : Surfaces (statement f) := by
  refine .call fun s a s' h => ?_
  obtain ⟨d, -, heq⟩ := Except.map_eq_ok_iff.mp h
  rw [← (Prod.mk.inj heq).2]

theorem Surfaces.begin (e : ε) : Surfaces (begin e : Program D ε Unit) := by
  refine .call fun s a s' h => ?_
  split at h
  · rw [← (Prod.mk.inj (Except.ok.inj h)).2]
  · cases h

theorem Surfaces.commit (e : ε) : Surfaces (commit e : Program D ε Unit) := by
  refine .call fun s a s' h => ?_
  split at h
  · rw [← (Prod.mk.inj (Except.ok.inj h)).2]
  · cases h

/-- A transaction raises the error that stopped it, not one of the rollback. -/
theorem Surfaces.transaction {alreadyOpen notOpen : ε} {x : Program D ε PUnit}
    (hx : Surfaces x) : Surfaces (transaction alreadyOpen notOpen x) := by
  refine (Surfaces.begin alreadyOpen).bind fun _ s k e hs => ?_
  have h := hx.bind (fun _ => Surfaces.commit notOpen) s k e hs
  rw [exec_tryCatch]
  match hrun : (do x; Program.commit notOpen : Program D ε PUnit).exec s with
  | (.ok a, s') => rw [hrun] at h; exact h
  | (.error e', s') =>
    rw [hrun] at h
    -- the rollback makes no call that a fault could stop, and the error is raised again
    have hrescue : ((do tryCatch (rollback notOpen) (fun _ => Pure.pure ())
                        MonadExcept.throw e' : Program D ε PUnit).exec s') =
          (.error e', { s' with store := s'.snapshot.getD s'.store, snapshot := none }) := by
      obtain ⟨d', snap', fs'⟩ := s'
      cases snap' <;> rfl
    dsimp only
    rw [hrescue]
    exact h

end Program
