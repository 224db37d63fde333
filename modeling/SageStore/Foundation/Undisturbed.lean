import SageStore.Foundation.Session

/-!
# Programs that finish in spite of a schedule

A program under a schedule of faults either raises or finishes. A program is `Undisturbed` if,
whenever it finishes, it finishes as it would without any fault: with the same value, the same
store and the same open transaction. It is proved along the text of a program, by one rule for
each way it is composed; a program that catches the faults of its calls is none.
-/

namespace Session

variable {D ε : Type}

/-- The session with no fault scheduled. -/
def calm (s : Session D ε) : Session D ε := { s with faults := [] }

end Session

namespace Program

variable {D ε α β ι : Type} {x : Program D ε α}

/-- **What a program finishes with does not depend on the schedule.** -/
def Undisturbed (x : Program D ε α) : Prop :=
  ∀ (s s' : Session D ε) (a : α), x.exec s = (.ok a, s') → x.exec s.calm = (.ok a, s'.calm)

theorem Undisturbed.pure (a : α) : Undisturbed (pure a : Program D ε α) := by
  intro s s' b h
  obtain ⟨hb, rfl⟩ := Prod.mk.inj h
  exact congrArg (·, _) hb

theorem Undisturbed.throw (e : ε) : Undisturbed (throw e : Program D ε α) := by
  intro s s' b h
  cases (Prod.mk.inj h).1

/-- A program is undisturbed if its parts are. -/
theorem Undisturbed.bind {f : α → Program D ε β} (hx : Undisturbed x)
    (hf : ∀ a, Undisturbed (f a)) : Undisturbed (x >>= f) := by
  intro s s' b h
  rw [exec_bind] at h
  match hrun : x.exec s with
  | (.error e, s₁) =>
    rw [hrun] at h
    cases (Prod.mk.inj h).1
  | (.ok a, s₁) =>
    rw [hrun] at h
    rw [exec_bind_ok (hx s s₁ a hrun)]
    exact hf a s₁ s' b h

/-- A call finishes only if no fault is scheduled for it, and what it does does not depend on
the faults of later calls. -/
theorem Undisturbed.call {f : Session D ε → Except ε (α × Session D ε)}
    (hf : ∀ s a s', f s = .ok (a, s') → f s.calm = .ok (a, s'.calm)) :
    Undisturbed (call f) := by
  intro s s' a h
  rcases exec_call f s with ⟨e, fs, -, -, hrun⟩ | ⟨b, s₁, fs, -, hok, hrun⟩
  · rw [hrun] at h
    cases (Prod.mk.inj h).1
  · rw [hrun] at h
    obtain ⟨hb, rfl⟩ := Prod.mk.inj h
    obtain rfl := Except.ok.inj hb
    have hcalm := hf _ _ _ hok
    unfold Session.calm at hcalm ⊢
    rw [exec_call_nil, hcalm]

theorem Undisturbed.query (f : D → Except ε α) : Undisturbed (query f) := by
  refine .call fun s a s' h => ?_
  obtain ⟨b, hb, heq⟩ := Except.map_eq_ok_iff.mp h
  obtain ⟨rfl, rfl⟩ := Prod.mk.inj heq
  exact Except.map_eq_ok_iff.mpr ⟨b, hb, rfl⟩

theorem Undisturbed.statement (f : D → Except ε D) : Undisturbed (statement f) := by
  refine .call fun s a s' h => ?_
  obtain ⟨d, hd, heq⟩ := Except.map_eq_ok_iff.mp h
  obtain ⟨rfl, rfl⟩ := Prod.mk.inj heq
  exact Except.map_eq_ok_iff.mpr ⟨d, hd, rfl⟩

theorem Undisturbed.begin (e : ε) : Undisturbed (begin e : Program D ε Unit) := by
  refine .call fun s a s' h => ?_
  obtain ⟨d, snap, fs⟩ := s
  cases snap with
  | none =>
    obtain ⟨-, rfl⟩ := Prod.mk.inj (Except.ok.inj h)
    rfl
  | some d' => cases h

theorem Undisturbed.commit (e : ε) : Undisturbed (commit e : Program D ε Unit) := by
  refine .call fun s a s' h => ?_
  obtain ⟨d, snap, fs⟩ := s
  cases snap with
  | none => cases h
  | some d' =>
    obtain ⟨-, rfl⟩ := Prod.mk.inj (Except.ok.inj h)
    rfl

/-- A transaction that is rolled back raises, so one that finishes was committed. -/
theorem Undisturbed.transaction {alreadyOpen notOpen : ε} {x : Program D ε PUnit}
    (hx : Undisturbed x) : Undisturbed (transaction alreadyOpen notOpen x) := by
  refine (Undisturbed.begin alreadyOpen).bind fun _ s s' a h => ?_
  have hbody := hx.bind fun _ => Undisturbed.commit notOpen
  rw [exec_tryCatch] at h ⊢
  match hrun : (do x; Program.commit notOpen : Program D ε PUnit).exec s with
  | (.ok b, s₁) =>
    rw [hrun] at h
    rw [hbody s s₁ b hrun]
    obtain ⟨hb, rfl⟩ := Prod.mk.inj h
    exact congrArg (·, _) hb
  | (.error e, s₁) =>
    rw [hrun] at h
    -- the rollback ends with the error that caused it
    obtain ⟨d, snap, fs⟩ := s₁
    cases snap <;> cases (Prod.mk.inj h).1

end Program
