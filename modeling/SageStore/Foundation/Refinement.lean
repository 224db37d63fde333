import SageStore.Foundation.Network

/-!
# One network in terms of another

A network whose messages are encoded can be described by one whose messages are what they mean.
A `Refinement` says what the requests, the replies and the inputs of the first network mean in the
second, and relates the states of the two servers. It is enough that the servers stay related when
they execute a request and its meaning, with the same reply but for its meaning, and that the
clients treat a message as they treat its meaning (`Refinement.run`): then every run of the first
network is one of the second, in which every client does the same.
-/

namespace Network

variable {κ σ σ' γ ι ι' α ρ ρ' ω β β' : Type}

/-- What the messages of `N` mean in `N'`. -/
structure Refinement (N : Network σ γ ι α ρ ω β) (N' : Network σ' γ ι' α ρ' ω β') where
  /-- The servers are in related states. -/
  Related : σ → σ' → Prop
  input : ι → ι'
  request : ρ → ρ'
  reply : ρ → β → β'
  related_init : Related N.server.init N'.server.init
  related_step : ∀ {s s'} ev, Related s s' →
    Related (N.server.step s ev).2 (N'.server.step s' (input ev)).2
  /-- A request is executed as what it means. -/
  execute : ∀ {s s'} r w, Related s s' →
    reply r (N.server.step s (N.event r w)).1 =
        (N'.server.step s' (N'.event (request r) w)).1 ∧
      Related (N.server.step s (N.event r w)).2 (N'.server.step s' (N'.event (request r) w)).2
  reply_lost : ∀ r, reply r N.lost = N'.lost
  client_init : N.client.init = N'.client.init
  act : ∀ g a, N'.client.act g a = ((N.client.act g a).1, (N.client.act g a).2.map request)
  receive : ∀ g r b, N'.client.receive g (request r) (reply r b) =
    ((N.client.receive g r b).1, (N.client.receive g r b).2.map request)

namespace Refinement

variable {N : Network σ γ ι α ρ ω β} {N' : Network σ' γ ι' α ρ' ω β'} (R : N.Refinement N')

/-- What a step of `N` is in `N'`: the same, but for what other programs do. -/
def meaning : Input κ ι α ω → Input κ ι' α ω
  | .act c a => .act c a
  | .execute i w => .execute i w
  | .loseRequest i => .loseRequest i
  | .loseReply i => .loseReply i
  | .deliver i => .deliver i
  | .other ev => .other (R.input ev)

/-- The clients are the same, and what is under way means the same. -/
structure Matches (s : State κ σ γ ρ β) (s' : State κ σ' γ ρ' β') : Prop where
  server : R.Related s.server s'.server
  client : s'.client = s.client
  requests : s'.requests = s.requests.map fun x => (x.1, R.request x.2)
  replies : s'.replies = s.replies.map fun x => (x.1, R.request x.2.1, R.reply x.2.1 x.2.2)

variable {R} [DecidableEq κ] {s : State κ σ γ ρ β} {s' : State κ σ' γ ρ' β'}

/-- A client that changes in the one network changes so in the other. -/
theorem Matches.put (h : R.Matches s s') (c : κ) (x : γ × List ρ) :
    R.Matches (s.put c x) (s'.put c (x.1, x.2.map R.request)) where
  server := h.server
  client := by
    show Function.update s'.client c x.1 = Function.update s.client c x.1
    rw [h.client]
  requests := by
    show s'.requests ++ (x.2.map R.request).map (fun r => (c, r)) =
      (s.requests ++ x.2.map fun r => (c, r)).map fun x => (x.1, R.request x.2)
    rw [h.requests, List.map_append, List.map_map, List.map_map]
    rfl
  replies := h.replies

omit [DecidableEq κ] in
/-- The requests in flight match one by one. -/
theorem Matches.getElem?_requests (h : R.Matches s s') (i : ℕ) :
    s'.requests[i]? = s.requests[i]?.map fun x => (x.1, R.request x.2) := by
  rw [h.requests, List.getElem?_map]

omit [DecidableEq κ] in
/-- So do the replies. -/
theorem Matches.getElem?_replies (h : R.Matches s s') (i : ℕ) :
    s'.replies[i]? =
      s.replies[i]?.map fun x => (x.1, R.request x.2.1, R.reply x.2.1 x.2.2) := by
  rw [h.replies, List.getElem?_map]

/-- **One step** of the first network is one of the second. -/
theorem Matches.step (h : R.Matches s s') (i : Input κ ι α ω) :
    R.Matches (N.step s i) (N'.step s' (R.meaning i)) := by
  -- a step on a message that is not there is none on either side
  cases i with
  | act c a =>
    show R.Matches (s.put c (N.client.act (s.client c) a))
      (s'.put c (N'.client.act (s'.client c) a))
    rw [h.client, R.act]
    exact h.put c _
  | other ev => exact ⟨R.related_step ev h.server, h.client, h.requests, h.replies⟩
  | execute i w =>
    have hget := h.getElem?_requests i
    cases hr : s.requests[i]? with
    | none =>
      rw [hr, Option.map_none] at hget
      simp only [meaning, Network.step, hr, hget]
      exact h
    | some x =>
      rw [hr, Option.map_some] at hget
      -- the servers stay related, and the replies say the same
      obtain ⟨hreply, hrelated⟩ := R.execute x.2 w h.server
      rw [meaning, step_execute hr, step_execute hget]
      refine ⟨hrelated, h.client, ?_, ?_⟩
      · simp only [h.requests, List.eraseIdx_map]
      · simp only [h.replies, List.map_append, List.map_cons, List.map_nil, hreply]
  | loseRequest i =>
    have hget := h.getElem?_requests i
    cases hr : s.requests[i]? with
    | none =>
      rw [hr, Option.map_none] at hget
      simp only [meaning, Network.step, hr, hget]
      exact h
    | some x =>
      rw [hr, Option.map_some] at hget
      rw [meaning, step_loseRequest hr, step_loseRequest hget]
      refine ⟨h.server, h.client, ?_, ?_⟩
      · simp only [h.requests, List.eraseIdx_map]
      · simp only [h.replies, List.map_append, List.map_cons, List.map_nil, R.reply_lost]
  | loseReply i =>
    have hget := h.getElem?_replies i
    cases hb : s.replies[i]? with
    | none =>
      rw [hb, Option.map_none] at hget
      simp only [meaning, Network.step, hb, hget]
      exact h
    | some x =>
      rw [hb, Option.map_some] at hget
      rw [meaning, step_loseReply hb, step_loseReply hget]
      refine ⟨h.server, h.client, h.requests, ?_⟩
      simp only [h.replies, List.map_set, R.reply_lost]
  | deliver i =>
    have hget := h.getElem?_replies i
    cases hb : s.replies[i]? with
    | none =>
      rw [hb, Option.map_none] at hget
      simp only [meaning, Network.step, hb, hget]
      exact h
    | some x =>
      rw [hb, Option.map_some] at hget
      rw [meaning, step_deliver hb, step_deliver hget, h.client, R.receive]
      -- once the reply is gone from both, the clients take the same step
      have herased : R.Matches { s with replies := s.replies.eraseIdx i }
          { s' with client := s.client, replies := s'.replies.eraseIdx i } :=
        ⟨h.server, rfl, h.requests, by simp only [h.replies, List.eraseIdx_map]⟩
      exact herased.put x.1 _

variable (R)

/-- **Every run** of the first network is one of the second. -/
theorem run (is : List (Input κ ι α ω)) :
    R.Matches (N.after is) (N'.after (is.map R.meaning)) := by
  induction is using List.reverseRecOn with
  | nil => exact ⟨R.related_init, funext fun _ => R.client_init.symm, rfl, rfl⟩
  | append_singleton is i ih =>
    rw [List.map_append, List.map_singleton, after_append_singleton, after_append_singleton]
    exact ih.step i

/-- The states of the second server are those that the states of the first one mean. -/
theorem visited {is : List (Input κ ι α ω)} {s : σ} (h : N.Visited is s) :
    ∃ s', N'.Visited (is.map R.meaning) s' ∧ R.Related s s' := by
  obtain ⟨js, hbegins, rfl⟩ := h
  exact ⟨_, ⟨_, hbegins.map R.meaning, rfl⟩, (R.run js).server⟩

omit [DecidableEq κ] in
/-- The clients do the same. -/
theorem did_meaning {is : List (Input κ ι α ω)} {c : κ} {a : α} :
    Did (is.map R.meaning) c a ↔ Did is c a := by
  refine ⟨fun h => ?_, List.mem_map_of_mem⟩
  obtain ⟨i, hi, heq⟩ := List.mem_map.mp h
  cases i <;> cases heq
  exact hi

end Refinement

end Network
