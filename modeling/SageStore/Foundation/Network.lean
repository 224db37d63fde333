import SageStore.Foundation.Exchange

/-!
# Clients of one server

A `Network` is one server, a `Machine` that executes one request after another, and any number
of clients, `Exchange`s that send requests and take replies. Requests are executed in any order,
replies are delivered in any order, and either may be lost; a loss is reported to the client as
a reply of its own. Other programs may have the server execute anything at any time.

What a client knows of the server is what replies told it, and a reply tells of the moment its
request was executed. So the invariant of a client is stated relative to the states that the
server went through (`Visited`), and it is enough to check it against replies computed from such
states (`ClientRule.holds`).
-/

/-- A server, and its clients. -/
structure Network (σ γ ι α ρ ω β : Type) where
  server : Machine σ ι β
  client : Exchange γ α ρ β
  /-- The input of the server for a request, in the circumstances of its execution. -/
  event : ρ → ω → ι
  /-- What a client gets in place of a reply that is lost. -/
  lost : β

namespace Network

/-- A step of a network: a client acts; the request at a position is executed or lost; the reply
at a position is lost or delivered; or another program has the server do something. -/
inductive Input (κ ι α ω : Type) where
  | act (c : κ) (a : α)
  | execute (i : ℕ) (w : ω)
  | loseRequest (i : ℕ)
  | loseReply (i : ℕ)
  | deliver (i : ℕ)
  | other (ev : ι)

/-- The server, the clients, the requests that were sent, and the replies to those executed. -/
structure State (κ σ γ ρ β : Type) where
  server : σ
  client : κ → γ
  requests : List (κ × ρ)
  replies : List (κ × ρ × β)

variable {κ σ γ ι α ρ ω β : Type} [DecidableEq κ] (N : Network σ γ ι α ρ ω β)

/-- The state after the client `c` has become `x.1` and sent `x.2`. -/
def State.put (s : State κ σ γ ρ β) (c : κ) (x : γ × List ρ) : State κ σ γ ρ β :=
  { s with
    client := Function.update s.client c x.1
    requests := s.requests ++ x.2.map fun r => (c, r) }

def step (s : State κ σ γ ρ β) : Input κ ι α ω → State κ σ γ ρ β
  | .act c a => s.put c (N.client.act (s.client c) a)
  | .execute i w =>
    match s.requests[i]? with
    | none => s
    | some (c, r) =>
      { s with
        server := (N.server.step s.server (N.event r w)).2
        requests := s.requests.eraseIdx i
        replies := s.replies ++ [(c, r, (N.server.step s.server (N.event r w)).1)] }
  | .loseRequest i =>
    match s.requests[i]? with
    | none => s
    | some (c, r) =>
      { s with requests := s.requests.eraseIdx i, replies := s.replies ++ [(c, r, N.lost)] }
  | .loseReply i =>
    match s.replies[i]? with
    | none => s
    | some (c, r, _) => { s with replies := s.replies.set i (c, r, N.lost) }
  | .deliver i =>
    match s.replies[i]? with
    | none => s
    | some (c, r, b) =>
      { s with replies := s.replies.eraseIdx i }.put c (N.client.receive (s.client c) r b)
  | .other ev => { s with server := (N.server.step s.server ev).2 }

/-- The runs of a network: every client starts alike, and nothing is under way. -/
def machine (κ : Type) [DecidableEq κ] : Machine (State κ σ γ ρ β) (Input κ ι α ω) Unit where
  init := ⟨N.server.init, fun _ => N.client.init, [], []⟩
  step s i := ((), N.step s i)

/-- The state after a run. -/
abbrev after (is : List (Input κ ι α ω)) : State κ σ γ ρ β :=
  (N.machine κ).run (N.machine κ).init is

theorem after_append_singleton (is : List (Input κ ι α ω)) (i : Input κ ι α ω) :
    N.after (is ++ [i]) = N.step (N.after is) i := by
  rw [after, Machine.run_append]
  rfl

/-! ### What a step does -/

section Steps

variable {N} {s : State κ σ γ ρ β} {i : ℕ} {c : κ} {r : ρ} {b : β}

/-- The server executes a request in flight and sends its answer. -/
theorem step_execute (h : s.requests[i]? = some (c, r)) (w : ω) :
    N.step s (.execute i w) = { s with
      server := (N.server.step s.server (N.event r w)).2
      requests := s.requests.eraseIdx i
      replies := s.replies ++ [(c, r, (N.server.step s.server (N.event r w)).1)] } := by
  simp only [step, h]

/-- A request that is lost is answered by the loss. -/
theorem step_loseRequest (h : s.requests[i]? = some (c, r)) :
    N.step s (.loseRequest i) =
      { s with requests := s.requests.eraseIdx i, replies := s.replies ++ [(c, r, N.lost)] } := by
  simp only [step, h]

/-- A reply that is lost arrives as the loss. -/
theorem step_loseReply (h : s.replies[i]? = some (c, r, b)) :
    N.step s (.loseReply i) = { s with replies := s.replies.set i (c, r, N.lost) } := by
  simp only [step, h]

/-- A reply is delivered to the client that waits for it. -/
theorem step_deliver (h : s.replies[i]? = some (c, r, b)) :
    N.step s (.deliver i) =
      { s with replies := s.replies.eraseIdx i }.put c (N.client.receive (s.client c) r b) := by
  simp only [step, h]

end Steps

/-- What a step can do. -/
inductive Moves (s : State κ σ γ ρ β) : Input κ ι α ω → State κ σ γ ρ β → Prop
  | idle (i : Input κ ι α ω) : Moves s i s
  | act (c : κ) (a : α) : Moves s (.act c a) (s.put c (N.client.act (s.client c) a))
  | execute (i : ℕ) (w : ω) (c : κ) (r : ρ) : s.requests[i]? = some (c, r) →
    Moves s (.execute i w)
      { s with
        server := (N.server.step s.server (N.event r w)).2
        requests := s.requests.eraseIdx i
        replies := s.replies ++ [(c, r, (N.server.step s.server (N.event r w)).1)] }
  | loseRequest (i : ℕ) (c : κ) (r : ρ) : s.requests[i]? = some (c, r) →
    Moves s (.loseRequest i)
      { s with requests := s.requests.eraseIdx i, replies := s.replies ++ [(c, r, N.lost)] }
  | loseReply (i : ℕ) (c : κ) (r : ρ) (b : β) : s.replies[i]? = some (c, r, b) →
    Moves s (.loseReply i) { s with replies := s.replies.set i (c, r, N.lost) }
  | deliver (i : ℕ) (c : κ) (r : ρ) (b : β) : s.replies[i]? = some (c, r, b) →
    Moves s (.deliver i)
      ({ s with replies := s.replies.eraseIdx i }.put c (N.client.receive (s.client c) r b))
  | other (ev : ι) : Moves s (.other ev) { s with server := (N.server.step s.server ev).2 }

/-- Every step is one of these moves; on a message that is not there it is idle. -/
theorem moves (s : State κ σ γ ρ β) (i : Input κ ι α ω) : N.Moves s i (N.step s i) := by
  cases i with
  | act c a => exact .act c a
  | other ev => exact .other ev
  | execute i w =>
    simp only [step]
    split
    · exact .idle _
    · next c r hr => exact .execute i w c r hr
  | loseRequest i =>
    simp only [step]
    split
    · exact .idle _
    · next c r hr => exact .loseRequest i c r hr
  | loseReply i =>
    simp only [step]
    split
    · exact .idle _
    · next c r b hr => exact .loseReply i c r b hr
  | deliver i =>
    simp only [step]
    split
    · exact .idle _
    · next c r b hr => exact .deliver i c r b hr

section Put

variable {s : State κ σ γ ρ β} {c : κ} {x : γ × List ρ}

@[simp] theorem put_server : (s.put c x).server = s.server := rfl

@[simp] theorem put_replies : (s.put c x).replies = s.replies := rfl

theorem put_client_self : (s.put c x).client c = x.1 := Function.update_self ..

theorem put_client_of_ne {c' : κ} (h : c' ≠ c) : (s.put c x).client c' = s.client c' :=
  Function.update_of_ne h ..

theorem mem_put_requests {y : κ × ρ} :
    y ∈ (s.put c x).requests ↔ y ∈ s.requests ∨ y.1 = c ∧ y.2 ∈ x.2 := by
  obtain ⟨c', r⟩ := y
  show (c', r) ∈ s.requests ++ x.2.map (fun r => (c, r)) ↔ _
  rw [List.mem_append, List.mem_map]
  refine or_congr_right ⟨?_, ?_⟩
  · rintro ⟨r', hr', heq⟩
    obtain ⟨rfl, rfl⟩ := Prod.mk.inj heq
    exact ⟨rfl, hr'⟩
  · rintro ⟨rfl, hr⟩
    exact ⟨r, hr, rfl⟩

end Put

/-! ### The states the server went through -/

/-- The server was in the state `s` at some moment of the run. -/
def Visited (is : List (Input κ ι α ω)) (s : σ) : Prop :=
  ∃ js, js <+: is ∧ (N.after js).server = s

variable {N}

theorem visited_after (is : List (Input κ ι α ω)) : N.Visited is (N.after is).server :=
  ⟨is, List.prefix_rfl, rfl⟩

/-- A visited state of the server stays visited. -/
theorem Visited.append {is : List (Input κ ι α ω)} {s : σ} (h : N.Visited is s)
    (js : List (Input κ ι α ω)) : N.Visited (is ++ js) s := by
  obtain ⟨ks, hks, rfl⟩ := h
  exact ⟨ks, hks.trans (List.prefix_append is js), rfl⟩

/-- The server of a network is in a state that requests lead it to. -/
theorem server_reachable (is : List (Input κ ι α ω)) :
    N.server.Reachable (N.after is).server := by
  refine Machine.run_invariant (M := N.machine κ) (I := fun s => N.server.Reachable s.server)
    (fun s i hs => ?_) N.server.reachable_init is
  have hmoves := N.moves s i
  show N.server.Reachable (N.step s i).server
  generalize N.step s i = s' at hmoves ⊢
  cases hmoves with
  | execute i w c r hr => exact hs.step _
  | other ev => exact hs.step _
  | _ => exact hs

/-- Visited states are reachable. -/
theorem Visited.reachable {is : List (Input κ ι α ω)} {s : σ} (h : N.Visited is s) :
    N.server.Reachable s := by
  obtain ⟨js, -, rfl⟩ := h
  exact server_reachable js

/-- What relates the server to itself after each of its steps relates it to itself later on. -/
theorem server_later {R : σ → σ → Prop} (hrefl : ∀ s, R s s)
    (htrans : ∀ {s s' s''}, R s s' → R s' s'' → R s s'')
    (hstep : ∀ s ev, N.server.Reachable s → R s (N.server.step s ev).2)
    {js is : List (Input κ ι α ω)} (h : js <+: is) : R (N.after js).server (N.after is).server := by
  obtain ⟨ks, rfl⟩ := h
  induction ks using List.reverseRecOn with
  | nil => rw [List.append_nil]; exact hrefl _
  | append_singleton ks i ih =>
    refine htrans ih ?_
    have hreach := server_reachable (N := N) (js ++ ks)
    have hmoves := N.moves (N.after (js ++ ks)) i
    rw [← List.append_assoc, after_append_singleton]
    generalize N.step (N.after (js ++ ks)) i = s' at hmoves ⊢
    cases hmoves with
    | execute i w c r hr => exact hstep _ _ hreach
    | other ev => exact hstep _ ev hreach
    | _ => exact hrefl _

/-- What the client `c` did in a run. -/
def Did (is : List (Input κ ι α ω)) (c : κ) (a : α) : Prop := .act c a ∈ is

/-! ### Invariants of clients -/

variable (N) in
/-- What a client can get for a request, if the server went through the states of `V`. -/
def Answer (V : σ → Prop) (r : ρ) (b : β) : Prop :=
  b = N.lost ∨ ∃ s w, V s ∧ b = (N.server.step s (N.event r w)).1

theorem Answer.mono {V V' : σ → Prop} {r : ρ} {b : β} (h : N.Answer V r b)
    (hV : ∀ s, V s → V' s) : N.Answer V' r b := by
  obtain hlost | ⟨s, w, hs, hb⟩ := h
  · exact Or.inl hlost
  · exact Or.inr ⟨s, w, hV s hs, hb⟩

variable (N) in
/-- An invariant `I` of a client, relative to the states `V` that the server went through and to
what the client did, `A`; and what holds of the client and of each request it has sent, `Q`. -/
structure ClientRule (I : (σ → Prop) → (α → Prop) → γ → Prop) (Q : (α → Prop) → γ → ρ → Prop) :
    Prop where
  mono : ∀ {V V' A A' g}, (∀ s, V s → V' s) → (∀ a, A a → A' a) → I V A g → I V' A' g
  sent_mono : ∀ {A A' g r}, (∀ a, A a → A' a) → Q A g r → Q A' g r
  init : ∀ V A, I V A N.client.init
  act : ∀ {V A g a}, A a → I V A g → I V A (N.client.act g a).1
  act_sent : ∀ {V A g a}, A a → I V A g → ∀ r ∈ (N.client.act g a).2, Q A (N.client.act g a).1 r
  act_stable : ∀ {A g} a {r}, Q A g r → Q A (N.client.act g a).1 r
  receive : ∀ {V A g r b}, (∀ s, V s → N.server.Reachable s) → I V A g → Q A g r →
    N.Answer V r b → I V A (N.client.receive g r b).1
  receive_sent : ∀ {V A g r b}, (∀ s, V s → N.server.Reachable s) → I V A g → Q A g r →
    N.Answer V r b → ∀ r' ∈ (N.client.receive g r b).2, Q A (N.client.receive g r b).1 r'
  receive_stable : ∀ {A g r b r'}, Q A g r' → Q A (N.client.receive g r b).1 r'

variable (N) in
/-- An invariant of the clients that speaks about the server only. -/
theorem ClientRule.of_invariant {I : (σ → Prop) → γ → Prop}
    (mono : ∀ {V V' : σ → Prop} {g}, (∀ s, V s → V' s) → I V g → I V' g)
    (init : ∀ V, I V N.client.init) (act : ∀ {V g} a, I V g → I V (N.client.act g a).1)
    (receive : ∀ {V g r b}, (∀ s, V s → N.server.Reachable s) → I V g → N.Answer V r b →
      I V (N.client.receive g r b).1) :
    N.ClientRule (fun V _ g => I V g) fun _ _ _ => True where
  mono hV _ := mono hV
  sent_mono _ _ := trivial
  init V _ := init V
  act _ := act _
  act_sent _ _ _ _ := trivial
  act_stable _ _ _ := trivial
  receive hV hI _ := receive hV hI
  receive_sent _ _ _ _ _ _ := trivial
  receive_stable _ := trivial

/-- The invariant holds of every client, and each request has what is known of it; replies were
computed at states that the server went through. -/
structure Holds (N : Network σ γ ι α ρ ω β) (I : (σ → Prop) → (α → Prop) → γ → Prop)
    (Q : (α → Prop) → γ → ρ → Prop) (V : σ → Prop) (A : κ → α → Prop)
    (s : State κ σ γ ρ β) : Prop where
  client : ∀ c, I V (A c) (s.client c)
  requests : ∀ x ∈ s.requests, Q (A x.1) (s.client x.1) x.2
  replies : ∀ x ∈ s.replies, Q (A x.1) (s.client x.1) x.2.1 ∧ N.Answer V x.2.1 x.2.2

section ClientRule

variable {I : (σ → Prop) → (α → Prop) → γ → Prop} {Q : (α → Prop) → γ → ρ → Prop}
  {V V' : σ → Prop} {A A' : κ → α → Prop} {s : State κ σ γ ρ β}

omit [DecidableEq κ] in
/-- The invariant is kept when more is visited and more has been done. -/
theorem Holds.mono (hrule : N.ClientRule I Q) (hs : Holds N I Q V A s) (hV : ∀ s, V s → V' s)
    (hA : ∀ c a, A c a → A' c a) : Holds N I Q V' A' s where
  client c := hrule.mono hV (hA c) (hs.client c)
  requests x hx := hrule.sent_mono (hA x.1) (hs.requests x hx)
  replies x hx :=
    (hs.replies x hx).imp (hrule.sent_mono (hA x.1)) fun h => h.mono hV

/-- A client that changes so that what is known of its requests stays known. -/
theorem Holds.put (hs : Holds N I Q V A s) {c : κ} {x : γ × List ρ} (hclient : I V (A c) x.1)
    (hsent : ∀ r ∈ x.2, Q (A c) x.1 r) (hstable : ∀ r, Q (A c) (s.client c) r → Q (A c) x.1 r) :
    Holds N I Q V A (s.put c x) := by
  have hkeep {c' : κ} {r : ρ} (h : Q (A c') (s.client c') r) :
      Q (A c') ((s.put c x).client c') r := by
    by_cases hc : c' = c
    · subst hc
      rw [put_client_self]
      exact hstable r h
    · rw [put_client_of_ne hc]
      exact h
  refine ⟨fun c' => ?_, fun y hy => ?_, fun y hy => (hs.replies y hy).imp_left hkeep⟩
  · by_cases hc : c' = c
    · subst hc
      rw [put_client_self]
      exact hclient
    · rw [put_client_of_ne hc]
      exact hs.client c'
  · rcases mem_put_requests.mp hy with hy | ⟨hc, hy⟩
    · exact hkeep (hs.requests y hy)
    · rw [hc, put_client_self]
      exact hsent _ hy

/-- One step keeps the invariant, if the present state of the server counts as visited and the
action, if it is one, as done. -/
theorem Holds.step (hrule : N.ClientRule I Q) (hreach : ∀ s, V s → N.server.Reachable s)
    (hs : Holds N I Q V A s) (hV : V s.server) {i : Input κ ι α ω}
    (hA : ∀ c a, i = .act c a → A c a) : Holds N I Q V A (N.step s i) := by
  have hmoves := N.moves s i
  generalize N.step s i = s' at hmoves ⊢
  cases hmoves with
  | idle i => exact hs
  | act c a =>
    have hdone := hA c a rfl
    exact hs.put (hrule.act hdone (hs.client c)) (hrule.act_sent hdone (hs.client c))
      fun r => hrule.act_stable a
  | execute i w c r hr =>
    refine ⟨hs.client, fun x hx => hs.requests x (List.mem_of_mem_eraseIdx hx), fun x hx => ?_⟩
    -- the reply was computed at the present state of the server
    rcases List.mem_append.mp hx with hx | hx
    · exact hs.replies x hx
    · obtain rfl := List.mem_singleton.mp hx
      exact ⟨hs.requests _ (List.mem_of_getElem? hr), Or.inr ⟨s.server, w, hV, rfl⟩⟩
  | loseRequest i c r hr =>
    refine ⟨hs.client, fun x hx => hs.requests x (List.mem_of_mem_eraseIdx hx), fun x hx => ?_⟩
    rcases List.mem_append.mp hx with hx | hx
    · exact hs.replies x hx
    · obtain rfl := List.mem_singleton.mp hx
      exact ⟨hs.requests _ (List.mem_of_getElem? hr), Or.inl rfl⟩
  | loseReply i c r b hr =>
    refine ⟨hs.client, hs.requests, fun x hx => ?_⟩
    rcases List.mem_or_eq_of_mem_set hx with hx | rfl
    · exact hs.replies x hx
    · exact ⟨(hs.replies _ (List.mem_of_getElem? hr)).1, Or.inl rfl⟩
  | deliver i c r b hr =>
    obtain ⟨hQ, hb⟩ := hs.replies _ (List.mem_of_getElem? hr)
    have herased : Holds N I Q V A { s with replies := s.replies.eraseIdx i } :=
      ⟨hs.client, hs.requests, fun x hx => hs.replies x (List.mem_of_mem_eraseIdx hx)⟩
    exact herased.put (hrule.receive hreach (hs.client c) hQ hb)
      (hrule.receive_sent hreach (hs.client c) hQ hb) fun r' => hrule.receive_stable
  | other ev => exact ⟨hs.client, hs.requests, hs.replies⟩

/-- **What holds of a client in every run**, whatever the order of execution and of delivery,
and whatever is lost. -/
theorem ClientRule.holds (hrule : N.ClientRule I Q) (is : List (Input κ ι α ω)) :
    Holds N I Q (N.Visited is) (Did is) (N.after is) := by
  induction is using List.reverseRecOn with
  | nil => exact ⟨fun _ => hrule.init _ _, fun _ h => absurd h List.not_mem_nil,
      fun _ h => absurd h List.not_mem_nil⟩
  | append_singleton is i ih =>
    -- the invariant before the step, about what counts after it
    have hbefore : Holds N I Q (N.Visited (is ++ [i])) (Did (is ++ [i])) (N.after is) :=
      ih.mono hrule (fun s hs => hs.append [i]) fun c a h => List.mem_append_left [i] h
    rw [after_append_singleton]
    refine hbefore.step hrule (fun s hs => hs.reachable) ((visited_after is).append [i]) ?_
    rintro c a rfl
    exact List.mem_append_right is List.mem_cons_self

/-- **What the server keeps in a run**, when it keeps it at every request of a client, given what
is known of the requests, and at what other programs have it do. -/
theorem ClientRule.visited (hrule : N.ClientRule I Q) {is : List (Input κ ι α ω)} {J : σ → Prop}
    (hinit : J N.server.init)
    (hexecute : ∀ {s c g r} w, N.server.Reachable s → J s → Q (Did is c) g r →
      J (N.server.step s (N.event r w)).2)
    (hother : ∀ ev, .other ev ∈ is → ∀ s, N.server.Reachable s → J s → J (N.server.step s ev).2)
    {s : σ} (hs : N.Visited is s) : J s := by
  obtain ⟨js, hbegins, rfl⟩ := hs
  induction js using List.reverseRecOn with
  | nil => exact hinit
  | append_singleton js i ih =>
    have hbefore := ih ((List.prefix_append js [i]).trans hbegins)
    have hreach := server_reachable (N := N) js
    have hholds := hrule.holds js
    have hmoves := N.moves (N.after js) i
    rw [after_append_singleton]
    generalize N.step (N.after js) i = s' at hmoves ⊢
    -- the server takes a step only as it executes a request, or for other programs
    cases hmoves with
    | execute i w c r hr =>
      have hsent : Q (Did is c) ((N.after js).client c) r :=
        hrule.sent_mono (fun a ha => hbegins.subset (List.mem_append_left _ ha))
          (hholds.requests _ (List.mem_of_getElem? hr))
      exact hexecute w hreach hbefore hsent
    | other ev =>
      exact hother ev (hbegins.subset (List.mem_append_right _ List.mem_cons_self)) _ hreach hbefore
    | _ => exact hbefore

end ClientRule

end Network
