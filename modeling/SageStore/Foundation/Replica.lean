import SageStore.Foundation.Network

/-!
# When a client's copy is up to date

A client keeps a copy of something the server has (`view`). It asks for it, a reply to that
carries it, and a reply that announces a change makes the client ask again.

While nobody else changes what is copied, nothing of the client's is lost, and the replies to it
arrive in the order they were computed (`Replica.Quiet`), the newest copy that is on its way or
has arrived is the present one, or another one is still to come (`Replica.Fresh`). So once
nothing of the client's is under way its copy is the present one (`Replica.settled`).
-/

namespace Network

variable {κ σ γ ι α ρ ω β δ : Type} [DecidableEq κ]

/-- A copy of `view` that the clients of a network keep, and how they obtain it. -/
structure Replica (N : Network σ γ ι α ρ ω β) (δ : Type) where
  view : σ → δ
  held : γ → δ
  /-- What is so of every client. -/
  Sound : γ → Prop
  /-- The client keeps a copy; one that does not never looks at it. -/
  Keeps : γ → Prop
  /-- The request asks for a copy. -/
  Asks : ρ → Prop
  /-- The copy that a reply carries. -/
  carried : ρ → β → Option δ
  /-- The reply announces a change, and the client is to ask again. -/
  Announces : ρ → β → Prop
  sound_init : Sound N.client.init
  sound_act : ∀ {g} a, Sound g → Sound (N.client.act g a).1
  sound_receive : ∀ {g r b}, Sound g → Sound (N.client.receive g r b).1
  /-- A client that begins to keep a copy, or drops the one it has, asks for one. -/
  held_act : ∀ {g} a, Sound g → Keeps (N.client.act g a).1 →
    Keeps g ∧ held (N.client.act g a).1 = held g ∨ ∃ r ∈ (N.client.act g a).2, Asks r
  keeps_receive : ∀ {g r b}, Keeps (N.client.receive g r b).1 → Keeps g
  held_receive : ∀ {g r b}, Sound g → Keeps g →
    held (N.client.receive g r b).1 = (carried r b).getD (held g)
  asks_again : ∀ {g r b}, Sound g → Keeps g → Announces r b →
    ∃ r' ∈ (N.client.receive g r b).2, Asks r'

namespace Replica

variable {N : Network σ γ ι α ρ ω β} (R : N.Replica δ) (c : κ)

/-- The copies on their way to a client, in the order they were computed. -/
def inFlight (s : State κ σ γ ρ β) : List δ :=
  s.replies.filterMap fun x => if x.1 = c then R.carried x.2.1 x.2.2 else none

/-- The copy that the client has when those on their way have arrived. -/
def newest (s : State κ σ γ ρ β) : δ :=
  (R.inFlight c s).getLast?.getD (R.held (s.client c))

/-- The newest copy is the present one, or another one is still to come: the client has asked
for it, or will when a change is announced to it. -/
def Fresh (s : State κ σ γ ρ β) : Prop :=
  R.Keeps (s.client c) → R.newest c s = R.view s.server ∨ (∃ r, (c, r) ∈ s.requests ∧ R.Asks r) ∨
    ∃ r b, (c, r, b) ∈ s.replies ∧ R.Announces r b

/-- A step in which nobody but the client changes what is copied, its own changes are
announced, what it asks for it gets, and nothing of it is lost or overtaken. -/
def Quiet (s : State κ σ γ ρ β) : Input κ ι α ω → Prop
  | .act _ _ => True
  | .execute i w => ∀ c' r, s.requests[i]? = some (c', r) →
    (R.view (N.server.step s.server (N.event r w)).2 = R.view s.server ∨
      c' = c ∧ R.Announces r (N.server.step s.server (N.event r w)).1) ∧
    (c' = c → R.Asks r → R.carried r (N.server.step s.server (N.event r w)).1 =
      some (R.view (N.server.step s.server (N.event r w)).2)) ∧
    (c' = c → ¬ R.Asks r → R.carried r (N.server.step s.server (N.event r w)).1 = none)
  | .loseRequest i => ∀ r, s.requests[i]? ≠ some (c, r)
  | .loseReply i => ∀ x, s.replies[i]? ≠ some (c, x)
  | .deliver i => ∀ x, s.replies[i]? = some (c, x) → ∀ j < i, ∀ y, s.replies[j]? ≠ some (c, y)
  | .other ev => R.view (N.server.step s.server ev).2 = R.view s.server

variable {R c} {s : State κ σ γ ρ β}

variable (R) in
/-- Clients stay sound. -/
theorem sound_after (is : List (Input κ ι α ω)) (c : κ) : R.Sound ((N.after is).client c) := by
  have hrule : N.ClientRule (fun _ _ g => R.Sound g) fun _ _ _ => True :=
    ClientRule.of_invariant N (fun _ h => h) (fun _ => R.sound_init) (fun a => R.sound_act a)
      fun _ h _ => R.sound_receive h
  exact (hrule.holds is).client c

omit [DecidableEq κ] in
/-- Removing an element that a partial function does not see. -/
theorem filterMap_eraseIdx_of_none {τ υ : Type} {f : τ → Option υ} {xs : List τ} {i : ℕ} {x : τ}
    (hx : xs[i]? = some x) (hf : f x = none) :
    (xs.eraseIdx i).filterMap f = xs.filterMap f := by
  obtain ⟨hi, rfl⟩ := List.getElem?_eq_some_iff.mp hx
  have hsplit : xs = xs.take i ++ xs[i] :: xs.drop (i + 1) := by
    rw [List.getElem_cons_drop, List.take_append_drop]
  calc (xs.eraseIdx i).filterMap f
      = (xs.take i).filterMap f ++ (xs.drop (i + 1)).filterMap f := by
        rw [List.eraseIdx_eq_take_drop_succ, List.filterMap_append]
    _ = (xs.take i).filterMap f ++ (xs[i] :: xs.drop (i + 1)).filterMap f := by
        rw [List.filterMap_cons_none hf]
    _ = xs.filterMap f := by rw [← List.filterMap_append, ← hsplit]

omit [DecidableEq κ] in
/-- Removing the first element that a partial function sees. -/
theorem filterMap_eq_cons_eraseIdx {τ υ : Type} {f : τ → Option υ} {xs : List τ} {i : ℕ} {x : τ}
    {v : υ} (hx : xs[i]? = some x) (hf : f x = some v)
    (hfirst : ∀ j < i, ∀ y, xs[j]? = some y → f y = none) :
    xs.filterMap f = v :: (xs.eraseIdx i).filterMap f := by
  obtain ⟨hi, rfl⟩ := List.getElem?_eq_some_iff.mp hx
  have hbefore : (xs.take i).filterMap f = [] := by
    refine List.filterMap_eq_nil_iff.mpr fun y hy => ?_
    obtain ⟨j, hj, rfl⟩ := List.mem_iff_getElem.mp hy
    have hji : j < i := Nat.lt_of_lt_of_le hj (List.length_take_le _ _)
    refine hfirst j hji _ ?_
    rw [List.getElem_take]
    exact List.getElem?_eq_getElem _
  have hsplit : xs = xs.take i ++ xs[i] :: xs.drop (i + 1) := by
    rw [List.getElem_cons_drop, List.take_append_drop]
  calc xs.filterMap f
      = (xs.take i).filterMap f ++ (xs[i] :: xs.drop (i + 1)).filterMap f := by
        rw [← List.filterMap_append, ← hsplit]
    _ = v :: ((xs.take i).filterMap f ++ (xs.drop (i + 1)).filterMap f) := by
        rw [hbefore, List.filterMap_cons_some hf, List.nil_append, List.nil_append]
    _ = v :: (xs.eraseIdx i).filterMap f := by
        rw [List.eraseIdx_eq_take_drop_succ, List.filterMap_append]

omit [DecidableEq κ] in
/-- Replacing an element that a partial function does not see by another such. -/
theorem filterMap_set_of_none {τ υ : Type} {f : τ → Option υ} {xs : List τ} {i : ℕ} {x y : τ}
    (hx : xs[i]? = some x) (hfx : f x = none) (hfy : f y = none) :
    (xs.set i y).filterMap f = xs.filterMap f := by
  obtain ⟨hi, rfl⟩ := List.getElem?_eq_some_iff.mp hx
  rw [List.set_eq_take_append_cons_drop, if_pos hi, List.filterMap_append,
    List.filterMap_cons_none hfy, ← filterMap_eraseIdx_of_none hx hfx,
    List.eraseIdx_eq_take_drop_succ, List.filterMap_append]

/-! ### Steps -/

/-- A step that the client has no part in, or that changes nothing it looks at. -/
theorem Fresh.mono {s' : State κ σ γ ρ β} (hs : R.Fresh c s)
    (hkeeps : R.Keeps (s'.client c) → R.Keeps (s.client c))
    (hnewest : R.Keeps (s.client c) → R.newest c s' = R.newest c s)
    (hview : R.view s'.server = R.view s.server)
    (hrequests : ∀ r, (c, r) ∈ s.requests → R.Asks r → (c, r) ∈ s'.requests)
    (hreplies : ∀ r b, (c, r, b) ∈ s.replies → R.Announces r b → (c, r, b) ∈ s'.replies) :
    R.Fresh c s' := by
  intro hkeeps'
  rcases hs (hkeeps hkeeps') with h | ⟨r, hr, hasks⟩ | ⟨r, b, hb, hann⟩
  · exact Or.inl ((hnewest (hkeeps hkeeps')).trans (h.trans hview.symm))
  · exact Or.inr (Or.inl ⟨r, hrequests r hr hasks, hasks⟩)
  · exact Or.inr (Or.inr ⟨r, b, hreplies r b hb hann, hann⟩)

theorem newest_congr {s' : State κ σ γ ρ β} (hflight : R.inFlight c s' = R.inFlight c s)
    (hheld : R.held (s'.client c) = R.held (s.client c)) : R.newest c s' = R.newest c s := by
  rw [newest, hflight, hheld, newest]

/-- A reply that is computed goes to the end of those on their way. -/
theorem inFlight_append {s' : State κ σ γ ρ β} {c' : κ} {r : ρ} {b : β}
    (h : s'.replies = s.replies ++ [(c', r, b)]) :
    R.inFlight c s' = R.inFlight c s ++ (if c' = c then R.carried r b else none).toList := by
  rw [inFlight, h, List.filterMap_append, List.filterMap_cons, List.filterMap_nil, inFlight]
  cases if c' = c then R.carried r b else none <;> rfl

omit [DecidableEq κ] in
/-- A request or a reply stays where another one is removed. -/
theorem mem_eraseIdx_of_ne {τ : Type} {xs : List τ} {i : ℕ} {x y : τ} (hx : xs[i]? = some x)
    (hy : y ∈ xs) (hne : y ≠ x) : y ∈ xs.eraseIdx i := by
  obtain ⟨j, hj⟩ := List.mem_iff_getElem?.mp hy
  refine List.mem_eraseIdx_iff_getElem?.mpr ⟨j, ?_, hj⟩
  rintro rfl
  exact hne (Option.some.inj (hj.symm.trans hx))

/-- An action of the client itself. -/
theorem Fresh.act_self (hs : R.Fresh c s) (hsound : R.Sound (s.client c)) (a : α) :
    R.Fresh c (s.put c (N.client.act (s.client c) a)) := by
  by_cases hask : ∃ r ∈ (N.client.act (s.client c) a).2, R.Asks r
  · obtain ⟨r, hr, hasks⟩ := hask
    exact fun _ => Or.inr (Or.inl ⟨r, mem_put_requests.mpr (Or.inr ⟨rfl, hr⟩), hasks⟩)
  -- an action that asks for nothing leaves the copy as it is
  intro hkeeps
  rw [put_client_self] at hkeeps
  obtain ⟨hkept, hheld⟩ := (R.held_act a hsound hkeeps).resolve_right hask
  refine hs.mono (fun _ => hkept) (fun _ => newest_congr rfl ?_) rfl
    (fun r hr _ => mem_put_requests.mpr (Or.inl hr)) (fun _ _ hb _ => hb) ?_
  · rw [put_client_self, hheld]
  · rw [put_client_self]
    exact hkeeps

/-- Something happens to another client. -/
theorem Fresh.put_of_ne (hs : R.Fresh c s) {c' : κ} (hc : c' ≠ c) (x : γ × List ρ) :
    R.Fresh c (s.put c' x) := by
  have hsame := put_client_of_ne (s := s) (x := x) (Ne.symm hc)
  refine hs.mono (fun h => hsame ▸ h) (fun _ => newest_congr rfl (congrArg R.held hsame)) rfl
    (fun r hr _ => mem_put_requests.mpr (Or.inl hr)) fun _ _ hb _ => hb

/-- A request is executed: one of the client's, or another one that changes nothing copied. -/
theorem Fresh.execute (hs : R.Fresh c s) {i : ℕ} {w : ω} {c' : κ} {r : ρ}
    (hr : s.requests[i]? = some (c', r)) (hi : R.Quiet c s (.execute i w)) :
    R.Fresh c { s with
      server := (N.server.step s.server (N.event r w)).2
      requests := s.requests.eraseIdx i
      replies := s.replies ++ [(c', r, (N.server.step s.server (N.event r w)).1)] } := by
  obtain ⟨hview, hgets, hnot⟩ := hi c' r hr
  generalize N.server.step s.server (N.event r w) = x at hview hgets hnot ⊢
  obtain ⟨b, server⟩ := x
  dsimp only at hview hgets hnot ⊢
  by_cases hann : c' = c ∧ R.Announces r b
  · -- the client will hear of the change, and ask again
    obtain ⟨rfl, hann⟩ := hann
    exact fun _ => Or.inr (Or.inr ⟨r, b, List.mem_append_right _ List.mem_cons_self, hann⟩)
  have hview := hview.resolve_right hann
  by_cases hask : c' = c ∧ R.Asks r
  · -- the reply carries the present copy, and is the last one on its way
    obtain ⟨rfl, hasks⟩ := hask
    intro _
    refine Or.inl ?_
    rw [newest, inFlight_append (s := s) rfl, if_pos rfl, hgets rfl hasks]
    simp
  -- any other reply carries no copy, and what was on its way stays so
  have hcarried : (if c' = c then R.carried r b else none) = none := by
    split
    · next hc => exact hnot hc fun h => hask ⟨hc, h⟩
    · rfl
  refine hs.mono id (fun _ => newest_congr ?_ rfl) hview (fun r' hr' hasks => ?_)
    fun r' b' hb' _ => List.mem_append_left _ hb'
  · rw [inFlight_append (s := s) rfl, hcarried]
    exact List.append_nil _
  · refine mem_eraseIdx_of_ne hr hr' fun heq => ?_
    obtain ⟨rfl, rfl⟩ := Prod.mk.inj heq
    exact hask ⟨rfl, hasks⟩

/-- A request of another client is lost. -/
theorem Fresh.loseRequest (hs : R.Fresh c s) {i : ℕ} {c' : κ} {r : ρ}
    (hr : s.requests[i]? = some (c', r)) (hc : c' ≠ c) :
    R.Fresh c { s with
      requests := s.requests.eraseIdx i, replies := s.replies ++ [(c', r, N.lost)] } := by
  refine hs.mono id (fun _ => newest_congr ?_ rfl) rfl (fun r' hr' _ => ?_)
    fun r' b' hb' _ => List.mem_append_left _ hb'
  · rw [inFlight_append (s := s) rfl, if_neg hc]
    exact List.append_nil _
  · exact mem_eraseIdx_of_ne hr hr' fun heq => hc (congrArg Prod.fst heq).symm

/-- A reply to another client is lost. -/
theorem Fresh.loseReply (hs : R.Fresh c s) {i : ℕ} {c' : κ} {r : ρ} {b : β}
    (hb : s.replies[i]? = some (c', r, b)) (hc : c' ≠ c) :
    R.Fresh c { s with replies := s.replies.set i (c', r, N.lost) } := by
  refine hs.mono id (fun _ => newest_congr ?_ rfl) rfl (fun _ hr _ => hr) fun r' b' hb' _ => ?_
  · exact filterMap_set_of_none hb (if_neg hc) (if_neg hc)
  · obtain ⟨j, hj⟩ := List.mem_iff_getElem?.mp hb'
    have hne : i ≠ j := by
      rintro rfl
      exact hc (congrArg Prod.fst (Option.some.inj (hb.symm.trans hj)))
    refine List.mem_of_getElem? (i := j) ?_
    rw [List.getElem?_set_ne hne]
    exact hj

/-- A reply is delivered to the client, before the later ones. -/
theorem Fresh.deliver_self (hs : R.Fresh c s) (hsound : R.Sound (s.client c)) {i : ℕ} {r : ρ}
    {b : β} (hb : s.replies[i]? = some (c, r, b))
    (hfirst : ∀ j < i, ∀ y, s.replies[j]? ≠ some (c, y)) :
    R.Fresh c ({ s with replies := s.replies.eraseIdx i }.put c
      (N.client.receive (s.client c) r b)) := by
  intro hkeeps
  have hkept : R.Keeps (s.client c) := by
    rw [put_client_self] at hkeeps
    exact R.keeps_receive hkeeps
  by_cases hann : R.Announces r b
  · obtain ⟨r', hr', hasks⟩ := R.asks_again hsound hkept hann
    exact Or.inr (Or.inl ⟨r', mem_put_requests.mpr (Or.inr ⟨rfl, hr'⟩), hasks⟩)
  refine hs.mono (fun _ => hkept) (fun _ => ?_) rfl
    (fun r' hr' _ => mem_put_requests.mpr (Or.inl hr')) (fun r' b' hb' hann' => ?_) hkeeps
  · rw [newest, put_client_self, R.held_receive hsound hkept, newest]
    show ((s.replies.eraseIdx i).filterMap _).getLast?.getD _ =
      (s.replies.filterMap _).getLast?.getD _
    cases hcarried : R.carried r b with
    | none =>
      rw [filterMap_eraseIdx_of_none hb ((if_pos rfl).trans hcarried)]
      rfl
    | some v =>
      -- the copy moves from the replies into the client
      have hfirst : ∀ j < i, ∀ y, s.replies[j]? = some y →
          (if y.1 = c then R.carried y.2.1 y.2.2 else none) = none := by
        intro j hj y hy
        refine if_neg fun hc => hfirst j hj y.2 ?_
        rw [← hc]
        exact hy
      rw [filterMap_eq_cons_eraseIdx hb ((if_pos rfl).trans hcarried) hfirst, List.getLast?_cons]
      rfl
  · refine mem_eraseIdx_of_ne hb hb' fun heq => hann ?_
    obtain ⟨-, heq⟩ := Prod.mk.inj heq
    obtain ⟨rfl, rfl⟩ := Prod.mk.inj heq
    exact hann'

/-- **A quiet step keeps the copy fresh.** -/
theorem Fresh.step (hs : R.Fresh c s) (hsound : R.Sound (s.client c)) {i : Input κ ι α ω}
    (hi : R.Quiet c s i) : R.Fresh c (N.step s i) := by
  have hmoves := N.moves s i
  generalize N.step s i = s' at hmoves ⊢
  cases hmoves with
  | idle i => exact hs
  | act c' a =>
    by_cases hc : c' = c
    · subst hc
      exact hs.act_self hsound a
    · exact hs.put_of_ne hc _
  | execute i w c' r hr => exact hs.execute hr hi
  | loseRequest i c' r hr => exact hs.loseRequest hr fun hc => hi r (hc ▸ hr)
  | loseReply i c' r b hb => exact hs.loseReply hb fun hc => hi (r, b) (hc ▸ hb)
  | deliver i c' r b hb =>
    by_cases hc : c' = c
    · subst hc
      exact hs.deliver_self hsound hb (hi (r, b) hb)
    · -- a reply to somebody else is none of what the client waits for
      refine Fresh.put_of_ne (s := { s with replies := s.replies.eraseIdx i }) ?_ hc _
      refine hs.mono id (fun _ => newest_congr ?_ rfl) rfl (fun _ hr _ => hr) fun r' b' hb' _ => ?_
      · exact filterMap_eraseIdx_of_none hb (if_neg hc)
      · exact mem_eraseIdx_of_ne hb hb' fun heq => hc (congrArg Prod.fst heq).symm
  | other ev =>
    have hview : R.view (N.server.step s.server ev).2 = R.view s.server := hi
    exact hs.mono id (fun _ => newest_congr rfl rfl) hview (fun _ hr _ => hr) fun _ _ hb _ => hb

/-- **Quiet runs keep the copy fresh**, where a guard `G` says what is quiet. -/
theorem Fresh.run {G : State κ σ γ ρ β → Input κ ι α ω → Prop}
    (hG : ∀ is i, G (N.after is) i → R.Quiet c (N.after is) i) {is js : List (Input κ ι α ω)}
    (hs : R.Fresh c (N.after is)) (hquiet : (N.machine κ).Along G (N.after is) js) :
    R.Fresh c (N.after (is ++ js)) := by
  induction js using List.reverseRecOn with
  | nil => rwa [List.append_nil]
  | append_singleton js i ih =>
    obtain ⟨hbefore, hi⟩ := (N.machine κ).along_append.mp hquiet
    rw [after, ← Machine.run_append] at hi
    rw [← List.append_assoc, after_append_singleton]
    exact (ih hbefore).step (R.sound_after _ c) (hG _ i hi.1)

/-- **A fresh copy is the present one** when nothing of the client's is under way. -/
theorem Fresh.settled (hs : R.Fresh c s) (hkeeps : R.Keeps (s.client c))
    (hrequests : ∀ r, (c, r) ∉ s.requests) (hreplies : ∀ x, (c, x) ∉ s.replies) :
    R.held (s.client c) = R.view s.server := by
  have hflight : R.inFlight c s = [] := by
    refine List.filterMap_eq_nil_iff.mpr fun x hx => if_neg fun hc => hreplies x.2 ?_
    rw [← hc]
    exact hx
  rcases hs hkeeps with h | ⟨r, hr, -⟩ | ⟨r, b, hb, -⟩
  · rw [← h, newest, hflight]
    rfl
  · exact absurd hr (hrequests r)
  · exact absurd hb (hreplies (r, b))

end Replica

end Network
