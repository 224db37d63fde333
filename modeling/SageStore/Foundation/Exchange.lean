import Mathlib.Data.List.Perm.Basic
import SageStore.Foundation.Machine

/-!
# Clients with requests in flight

An `Exchange` is a client that sends requests and takes replies to them. Between the two a
request is in flight, and the replies to the requests in flight may be delivered in any order:
the machine of an exchange has one input for each thing the client can do, and one for each
position among the requests in flight whose reply is delivered next.

Whatever the order, the requests that were sent are the ones that were answered and the ones in
flight (`sent_perm`); when replies are delivered in the order of their requests, they are so in
that order (`sent_eq_of_inOrder`).
-/

/-- A client of a server: its state, what it does (`α`), what it requests (`ρ`), and what a reply
depends on besides the request (`β`). What it does, and what it does with a reply, may send
requests. -/
structure Exchange (σ α ρ β : Type) where
  init : σ
  act : σ → α → σ × List ρ
  receive : σ → ρ → β → σ × List ρ

namespace Exchange

/-- The inputs of an exchange: something the client does, or the delivery of the reply to the
`i`-th of the requests in flight. -/
inductive Event (α β : Type) where
  | act (a : α)
  | deliver (i : ℕ) (b : β)

/-- The requests that a step sends, and the one it answers. -/
structure Traffic (ρ : Type) where
  sent : List ρ
  answered : Option ρ

variable {σ α ρ β : Type} (X : Exchange σ α ρ β)

/-- The client with its requests in flight, oldest first. -/
def machine : Machine (σ × List ρ) (Event α β) (Traffic ρ) where
  init := (X.init, [])
  step s
    | .act a => (⟨(X.act s.1 a).2, none⟩, (X.act s.1 a).1, s.2 ++ (X.act s.1 a).2)
    | .deliver i b =>
      match s.2[i]? with
      | none => (⟨[], none⟩, s)
      | some r =>
        (⟨(X.receive s.1 r b).2, some r⟩, (X.receive s.1 r b).1,
          s.2.eraseIdx i ++ (X.receive s.1 r b).2)

/-- The requests that a run sent, in their order. -/
def sent (h : List (Event α β × Traffic ρ)) : List ρ := h.flatMap fun x => x.2.sent

/-- The requests that a run answered, in the order of their replies. -/
def answered (h : List (Event α β × Traffic ρ)) : List ρ := h.filterMap fun x => x.2.answered

/-- A delivery takes the reply to the oldest request in flight. -/
def Event.InOrder : Event α β → Prop
  | .act _ => True
  | .deliver i _ => i = 0

@[simp] theorem sent_nil : sent ([] : List (Event α β × Traffic ρ)) = [] := rfl

@[simp] theorem answered_nil : answered ([] : List (Event α β × Traffic ρ)) = [] := rfl

@[simp] theorem sent_append_singleton (h : List (Event α β × Traffic ρ))
    (x : Event α β × Traffic ρ) : sent (h ++ [x]) = sent h ++ x.2.sent := by
  rw [sent, List.flatMap_append, List.flatMap_singleton]
  rfl

@[simp] theorem answered_append_singleton (h : List (Event α β × Traffic ρ))
    (x : Event α β × Traffic ρ) : answered (h ++ [x]) = answered h ++ x.2.answered.toList := by
  simp only [answered, List.filterMap_append, List.filterMap_cons, List.filterMap_nil]
  cases x.2.answered <;> rfl

/-- What a step of the machine can do: nothing, if there is no such request in flight. -/
theorem step_cases (s : σ × List ρ) (ev : Event α β) :
    (∃ a, ev = .act a ∧ X.machine.step s ev =
      (⟨(X.act s.1 a).2, none⟩, (X.act s.1 a).1, s.2 ++ (X.act s.1 a).2)) ∨
    (∃ i b, ev = .deliver i b ∧ s.2[i]? = none ∧ X.machine.step s ev = (⟨[], none⟩, s)) ∨
    ∃ i b, ev = .deliver i b ∧ ∃ hi : i < s.2.length, X.machine.step s ev =
      (⟨(X.receive s.1 s.2[i] b).2, some s.2[i]⟩, (X.receive s.1 s.2[i] b).1,
        s.2.eraseIdx i ++ (X.receive s.1 s.2[i] b).2) := by
  cases ev with
  | act a => exact Or.inl ⟨a, rfl, rfl⟩
  | deliver i b =>
    refine Or.inr ?_
    by_cases hi : i < s.2.length
    · refine Or.inr ⟨i, b, rfl, hi, ?_⟩
      show (match s.2[i]? with | none => _ | some r => _) = _
      rw [List.getElem?_eq_getElem hi]
    · have hnone : s.2[i]? = none := List.getElem?_eq_none (Nat.le_of_not_lt hi)
      refine Or.inl ⟨i, b, rfl, hnone, ?_⟩
      show (match s.2[i]? with | none => _ | some r => _) = _
      rw [hnone]

/-- **No request is lost or answered twice.** -/
theorem sent_perm (es : List (Event α β)) :
    (sent (X.machine.history X.machine.init es)).Perm
      (answered (X.machine.history X.machine.init es) ++
        (X.machine.run X.machine.init es).2) := by
  refine Machine.history_induction (M := X.machine)
    (P := fun h (s : σ × List ρ) => (sent h).Perm (answered h ++ s.2)) (List.Perm.refl _) ?_ es
  intro h s ev ih
  rw [sent_append_singleton, answered_append_singleton]
  obtain ⟨a, -, heq⟩ | ⟨i, b, -, -, heq⟩ | ⟨i, b, -, hi, heq⟩ := X.step_cases s ev
  · rw [heq]
    show (sent h ++ (X.act s.1 a).2).Perm (answered h ++ [] ++ (s.2 ++ (X.act s.1 a).2))
    rw [List.append_nil, ← List.append_assoc]
    exact ih.append_right _
  · rw [heq]
    show (sent h ++ []).Perm (answered h ++ [] ++ s.2)
    rw [List.append_nil, List.append_nil]
    exact ih
  · rw [heq]
    show (sent h ++ (X.receive s.1 s.2[i] b).2).Perm
      (answered h ++ [s.2[i]] ++ (s.2.eraseIdx i ++ (X.receive s.1 s.2[i] b).2))
    rw [← List.append_assoc]
    refine List.Perm.append_right _ (ih.trans ?_)
    -- the request that is answered moves from those in flight to those answered
    rw [List.append_assoc]
    exact (List.getElem_cons_eraseIdx_perm hi).symm.append_left _

/-- **Replies in the order of the requests** answer the requests in the order they were sent. -/
theorem sent_eq_of_inOrder {es : List (Event α β)} (hes : ∀ ev ∈ es, ev.InOrder) :
    sent (X.machine.history X.machine.init es) =
      answered (X.machine.history X.machine.init es) ++
        (X.machine.run X.machine.init es).2 := by
  refine Machine.history_induction_of_forall (M := X.machine)
    (P := fun h (s : σ × List ρ) => sent h = answered h ++ s.2) rfl ?_ hes
  intro h s ev hev ih
  rw [sent_append_singleton, answered_append_singleton]
  obtain ⟨a, -, heq⟩ | ⟨i, b, -, -, heq⟩ | ⟨i, b, rfl, hi, heq⟩ := X.step_cases s ev
  · -- a request that is sent is the last one in flight
    rw [heq]
    show sent h ++ (X.act s.1 a).2 = answered h ++ [] ++ (s.2 ++ (X.act s.1 a).2)
    rw [ih, List.append_nil, List.append_assoc]
  · -- nothing is sent or answered when there is nothing to deliver
    rw [heq]
    show sent h ++ [] = answered h ++ [] ++ s.2
    rw [ih, List.append_nil, List.append_nil]
  · -- the request that is answered is the first one in flight
    have h0 : i = 0 := hev
    subst h0
    rw [heq]
    show sent h ++ (X.receive s.1 s.2[0] b).2 =
      answered h ++ [s.2[0]] ++ (s.2.eraseIdx 0 ++ (X.receive s.1 s.2[0] b).2)
    have hcons : s.2 = s.2[0] :: s.2.eraseIdx 0 := by
      rw [List.eraseIdx_zero, List.getElem_zero]
      exact (List.cons_head_tail _).symm
    rw [ih]
    nth_rewrite 1 [hcons]
    rw [← List.append_assoc, List.append_assoc (answered h) [s.2[0]]]
    rfl

end Exchange
