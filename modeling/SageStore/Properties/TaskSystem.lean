import SageStore.Foundation.Refinement
import SageStore.Properties.Replies

/-!
# The system without its transport

Between the server and its clients are URLs, HTTP and JSON. `taskSystem` is the same system
without HTTP messages and JSON bodies: a client hands the server the tasks that the URLs of its
requests name, and gets the dataset of the reply, or nothing if it is lost or no text. The deployed
system refines it (`system_refines`): in every run, whatever is lost or reordered, every client does
what it would do there, and the database is one that tasks lead to. So what is proved of all states
of `server` holds of the server behind its HTTP front.

What the transport does to a request is part of `taskSystem`. The id of a task is what the server
finds in the target, which is the id percent-encoded and cut at its first slash
(`ClientRequest.task`); an id of plain bytes is handed over as it is. A request whose texts are not
valid UTF-8 cannot be encoded and is dropped (`Client.encodable`), and a reply with such a text does
not arrive (`ResponseData.arrived`).
-/

namespace SageStore

open Bytes Program BusinessLogic

variable {e : Enforcement} {p : Platform} {J : Json} {url : QUrl} {sha256 : Sha256}

instance (ds : Dataset) : Decidable ds.IsUtf8 :=
  decidable_of_iff (∀ key ∈ ds.keys, IsUtf8 key ∧ ∀ t ∈ (ds.lookup key).getD [], IsUtf8 t) <| by
    refine ⟨fun h key texts hl => ?_, fun h key hkey => ?_⟩
    · have hkey := h key (Finmap.mem_keys.mpr (Finmap.mem_of_lookup_eq_some hl))
      rwa [hl] at hkey
    · obtain ⟨texts, hl⟩ := Finmap.mem_iff.mp (Finmap.mem_keys.mp hkey)
      rw [hl]
      exact h key texts hl

/-! ### Tasks in place of HTTP requests -/

/-- The task that a request over HTTP names, if it names one. -/
def HttpTransaction.task? (J : Json) (r : HttpRequest) : Option RequestData :=
  match parseEndpoint r.target with
  | root :: module :: submodule :: rest =>
    if root ≠ utf8 "api" then none else some (requestData J r module submodule rest)
  | _ => none

/-- What arrives of a reply. -/
def ResponseData.arrived (data : ResponseData) : Option Dataset :=
  if data.dataset.IsUtf8 then some data.dataset else none

/-- The server, as it executes tasks. What names no task does nothing. -/
def taskServer (p : Platform) (e : Enforcement) :
    Machine (Session (Db e) Exception) (Option Event) (Option Dataset) where
  init := (server p e).init
  step s
    | none => (none, s)
    | some ev => (((server p e).step s ev).1.arrived, ((server p e).step s ev).2)

namespace Client

/-- The requests that can be encoded. -/
def encodable (x : Client × List ClientRequest) : Client × List ClientRequest :=
  (x.1, x.2.filter fun r => r.dataset.IsUtf8)

/-- The client, as it handles datasets. -/
def taskExchange (sha256 : Sha256) : Exchange Client Action ClientRequest (Option Dataset) where
  init := start
  act client a := encodable (client.act sha256 a)
  receive client r reply :=
    match reply.bind (ApiManager.handleReply r.endpoint r.method) with
    | none => (client, [])
    | some signal => encodable (client.onSignal signal)

end Client

/-- The server and its clients, without HTTP messages and JSON bodies. A request is handed over as
the task that its URL names. -/
def taskSystem (p : Platform) (url : QUrl) (sha256 : Sha256) (e : Enforcement) :
    Network (Session (Db e) Exception) Client (Option Event) Action ClientRequest Circumstances
      (Option Dataset) where
  server := taskServer p e
  client := Client.taskExchange sha256
  event r w := some ⟨w.now, r.task url, w.faults⟩
  lost := none

/-! ### The refinement -/

/-- A request that leaves is one that can be encoded. -/
theorem map_request_send (x : Client × List ClientRequest) :
    ((Client.send J url x).1, (Client.send J url x).2.map SentRequest.request) =
      Client.encodable x := by
  have hsend (r : ClientRequest) : (r.send J url).map SentRequest.request =
      if r.dataset.IsUtf8 then some r else none := by
    have hsome : (NetworkService.sendRequest J url r).isSome ↔ r.dataset.IsUtf8 := by
      rw [NetworkService.sendRequest, Option.isSome_map, JsonSerializer.serialize_isSome]
    unfold ClientRequest.send
    split
    · next hnone =>
      rw [hnone] at hsome
      rw [if_neg fun h => Bool.false_ne_true (hsome.mpr h)]
      rfl
    · next http hhttp =>
      rw [hhttp] at hsome
      rw [if_pos (hsome.mp rfl)]
      rfl
  unfold Client.send Client.encodable
  dsimp only
  rw [List.map_filterMap, ← List.filterMap_eq_filter]
  congr 1
  refine congrArg (List.filterMap · x.2) (funext fun r => ?_)
  rw [hsend, Option.guard]
  by_cases h : r.dataset.IsUtf8 <;> simp [h]

/-- Requests in valid UTF-8 are sent, and no others. -/
theorem mem_map_send {x : Client × List ClientRequest} {r : ClientRequest} :
    r ∈ (Client.send J url x).2.map SentRequest.request ↔ r ∈ x.2 ∧ r.dataset.IsUtf8 := by
  have hsent : (Client.send J url x).2.map SentRequest.request = (Client.encodable x).2 :=
    congrArg Prod.snd (map_request_send x)
  rw [hsent, Client.encodable, List.mem_filter, decide_eq_true_iff]

/-- What a client reads of the body that the server sends. -/
theorem onNetworkReply_doResponse_eq (hJ : J.RoundTrips) (data : ResponseData) :
    NetworkService.onNetworkReply J (HttpTransaction.doResponse J data) = data.arrived := by
  unfold ResponseData.arrived
  split
  · next h => exact onNetworkReply_doResponse hJ h
  · next h => exact onNetworkReply_doResponse_of_not h

/-- The sessions differ in the faults that are left over. -/
def SameStore (s s' : Session (Db e) Exception) : Prop :=
  s.store = s'.store ∧ s.snapshot = s'.snapshot

/-- Left-over faults are replaced before a task is executed. -/
theorem SameStore.faults {s s' : Session (Db e) Exception} (h : SameStore s s')
    (faults : List (Option Exception)) :
    ({ s with faults := faults } : Session (Db e) Exception) = { s' with faults := faults } := by
  rw [Session.mk.injEq]
  exact ⟨h.1, h.2, rfl⟩

/-- A request over HTTP leaves the session alone, or executes the task it names. -/
theorem handleRequest_task? (p : Platform) (J : Json) (now : UtcTime) (r : HttpRequest)
    (s : Session (Db e) Exception) : (HttpTransaction.handleRequest p J now r s).2 =
      match HttpTransaction.task? J r with
      | none => s
      | some req => (executeTask p now req s).2 := by
  unfold HttpTransaction.handleRequest HttpTransaction.task?
  generalize HttpTransaction.parseEndpoint r.target = segments
  match segments with
  | [] => rfl
  | [_] => rfl
  | [_, _] => rfl
  | root :: module :: submodule :: rest =>
    dsimp only
    split <;> rfl

/-- The task server executes the task that a request names. -/
theorem taskSystem_step (r : ClientRequest) (w : Circumstances) (s : Session (Db e) Exception) :
    (taskSystem p url sha256 e).server.step s ((taskSystem p url sha256 e).event r w) =
      ((executeTask p w.now (r.task url) { s with faults := w.faults }).1.arrived,
        (executeTask p w.now (r.task url) { s with faults := w.faults }).2) :=
  rfl

/-- **The deployed system, in terms of tasks.** -/
def taskRefinement (hJ : J.RoundTrips) (p : Platform) (url : QUrl) (sha256 : Sha256)
    (e : Enforcement) : (system p J url sha256 e).Refinement (taskSystem p url sha256 e) where
  Related := SameStore
  input ev := (HttpTransaction.task? J ev.request).map fun req => ⟨ev.now, req, ev.faults⟩
  request := SentRequest.request
  reply _ b := NetworkService.onNetworkReply J b
  related_init := ⟨rfl, rfl⟩
  related_step {s s'} ev h := by
    show SameStore (HttpTransaction.handleRequest p J ev.now ev.request
      { s with faults := ev.faults }).2 _
    rw [handleRequest_task?]
    cases HttpTransaction.task? J ev.request with
    | none => exact h
    | some req =>
      show SameStore (executeTask p ev.now req { s with faults := ev.faults }).2
        (executeTask p ev.now req { s' with faults := ev.faults }).2
      rw [h.faults]
      exact ⟨rfl, rfl⟩
  execute {s s'} r w h := by
    have hstep :
        (system p J url sha256 e).server.step s ((system p J url sha256 e).event r w) = _ :=
      step_sent hJ r w s
    rw [hstep, taskSystem_step, onNetworkReply_doResponse_eq hJ, replyAt, h.faults]
    dsimp only
    exact ⟨rfl, rfl, rfl⟩
  reply_lost _ := rfl
  client_init := rfl
  act client a := (map_request_send (client.act sha256 a)).symm
  receive client r b := by
    show (Client.taskExchange sha256).receive client r.request
      (NetworkService.onNetworkReply J b) = _
    unfold Client.taskExchange system Client.exchange ApiManager.onOutcome
    dsimp only
    cases (NetworkService.onNetworkReply J b).bind
      (ApiManager.handleReply r.request.endpoint r.request.method) with
    | none => rfl
    | some signal => exact (map_request_send (client.onSignal signal)).symm

/-- What leads the task server to a state leads `server` there. -/
theorem reachable_of_taskServer {s : Session (Db e) Exception}
    (h : (taskServer p e).Reachable s) : (server p e).Reachable s := by
  have hinit : (server p e).Reachable (taskServer p e).init := (server p e).reachable_init
  refine h.invariant (I := (server p e).Reachable) hinit fun s ev hs => ?_
  cases ev with
  | none => exact hs
  | some ev => exact hs.step ev

/-- The server of the deployed system is in a state of `server`, and executes a request as that
does. -/
theorem exists_reachable {κ : Type} [DecidableEq κ] (hJ : J.RoundTrips) (p : Platform)
    (url : QUrl) (sha256 : Sha256) (e : Enforcement)
    (is : List (Network.Input κ HttpEvent Action Circumstances)) :
    ∃ s, (server p e).Reachable s ∧ s.store = ((system p J url sha256 e).after is).server.store ∧
      ∀ (r : SentRequest J url) (w : Circumstances),
        (httpServer p J e).step ((system p J url sha256 e).after is).server
            ⟨w.now, r.http, w.faults⟩ =
          (HttpTransaction.doResponse J
              ((server p e).step s ⟨w.now, r.request.task url, w.faults⟩).1,
            ((server p e).step s ⟨w.now, r.request.task url, w.faults⟩).2) := by
  have hsame := ((taskRefinement hJ p url sha256 e).run is).server
  refine ⟨_, reachable_of_taskServer (Network.server_reachable (N := taskSystem p url sha256 e)
    (is.map (taskRefinement hJ p url sha256 e).meaning)), hsame.1.symm, fun r w => ?_⟩
  rw [step_sent hJ, replyAt, hsame.faults]
  rfl

/-- A request of the task system is under way in the deployed one. -/
theorem exists_sent {κ : Type} [DecidableEq κ] (hJ : J.RoundTrips) (p : Platform)
    (url : QUrl) (sha256 : Sha256) (e : Enforcement)
    (is : List (Network.Input κ HttpEvent Action Circumstances)) {i : ℕ} {c : κ}
    {request : ClientRequest}
    (h : ((taskSystem p url sha256 e).after
      (is.map (taskRefinement hJ p url sha256 e).meaning)).requests[i]? = some (c, request)) :
    ∃ r, ((system p J url sha256 e).after is).requests[i]? = some (c, r) ∧ r.request = request := by
  rw [((taskRefinement hJ p url sha256 e).run is).getElem?_requests] at h
  obtain ⟨⟨c', r⟩, hr, heq⟩ := Option.map_eq_some_iff.mp h
  obtain ⟨rfl, rfl⟩ := Prod.mk.inj heq
  exact ⟨r, hr, rfl⟩

/-- A client of the deployed system is the one of the run in terms of tasks. -/
theorem client_after {κ : Type} [DecidableEq κ] (hJ : J.RoundTrips)
    (is : List (Network.Input κ HttpEvent Action Circumstances)) (c : κ) :
    ((system p J url sha256 e).after is).client c =
      ((taskSystem p url sha256 e).after
        (is.map (taskRefinement hJ p url sha256 e).meaning)).client c :=
  congrFun ((taskRefinement hJ p url sha256 e).run is).client.symm c

/-- The database of the deployed system is the one of the run in terms of tasks. -/
theorem store_after {κ : Type} [DecidableEq κ] (hJ : J.RoundTrips)
    (is : List (Network.Input κ HttpEvent Action Circumstances)) :
    ((system p J url sha256 e).after is).server.store =
      ((taskSystem p url sha256 e).after
        (is.map (taskRefinement hJ p url sha256 e).meaning)).server.store :=
  ((taskRefinement hJ p url sha256 e).run is).server.1

/-- **The transport is transparent up to the URLs.** In every run of the deployed system, with any
number of clients, every client is where it would be if its requests, as far as they can be encoded,
were handed to the server as the tasks that their URLs name and the replies handed back as they are.
Its requests under way are the same, and so is what its replies say; the database is one that
`server` reaches. The task of a request with an id of plain bytes has that id. -/
theorem system_refines {κ : Type} [DecidableEq κ] (hJ : J.RoundTrips) (p : Platform) (url : QUrl)
    (sha256 : Sha256) (e : Enforcement)
    (is : List (Network.Input κ HttpEvent Action Circumstances)) :
    let s := (system p J url sha256 e).after is
    let s' := (taskSystem p url sha256 e).after
      (is.map (taskRefinement hJ p url sha256 e).meaning)
    s'.client = s.client ∧
      s'.requests = s.requests.map (fun x => (x.1, x.2.request)) ∧
      s'.replies = s.replies.map (fun x =>
        (x.1, x.2.1.request, NetworkService.onNetworkReply J x.2.2)) ∧
      s'.server.store = s.server.store ∧ (server p e).Reachable s'.server ∧
      ∀ r : ClientRequest, (∀ b ∈ r.resourceId, isPlainPathByte b = true) →
        (47 : UInt8) ∉ r.resourceId → (r.task url).resourceId = r.resourceId := by
  intro s s'
  have hmatches := (taskRefinement hJ p url sha256 e).run is
  exact ⟨hmatches.client, hmatches.requests, hmatches.replies, hmatches.server.1.symm,
    reachable_of_taskServer (Network.server_reachable (N := taskSystem p url sha256 e) _),
    fun r => task_resourceId⟩

/-- The administrator logs in. -/
def loginRun : List (Network.Input Unit HttpEvent Action Circumstances) :=
  [.act () (.login "admin" "admin123"), .execute 0 ⟨noon, []⟩, .deliver 0]

/-- The log-in is requested, executed and answered over HTTP as it is without. -/
theorem system_refines_login :
    let s := (system .plain .arrays .percent .ofSetup .full).after loginRun
    (s.client ()).isAuthenticated = true ∧ s.requests.length = 0 ∧ s.replies.length = 0 := by
  intro s
  obtain ⟨hclient, hrequests, hreplies, -⟩ :=
    system_refines Json.arrays_roundTrips .plain .percent .ofSetup .full loginRun
  have hrequests := congrArg List.length hrequests
  have hreplies := congrArg List.length hreplies
  rw [List.length_map] at hrequests hreplies
  rw [← hclient, ← hrequests, ← hreplies]
  decide +kernel

end SageStore
