import SageStore.Client.Models
import SageStore.Foundation.Network
import SageStore.Properties.Answered
import SageStore.Properties.Faults
import SageStore.Properties.Listings

/-!
# What a client makes of a reply

Server and clients as one `Network`. A reply is the outcome of the task that its request names,
executed at some state that the server went through (`answer_cases`). So a list that a client is
handed is the listing of its resource at such a state (`onOutcome_list`), whichever calls to the
database failed meanwhile: a listing is complete, or it is an error.
-/

namespace SageStore

open Bytes Program BusinessLogic

variable {e : Enforcement} {p : Platform} {J : Json} {url : QUrl} {sha256 : Sha256}

/-- The time a request is executed at, and the calls to the database that fail. -/
structure Circumstances where
  now : UtcTime
  faults : List (Option Exception)

/-- The server and its clients. A lost reply is no reply to the client. -/
def system (p : Platform) (J : Json) (url : QUrl) (sha256 : Sha256) (e : Enforcement) :
    Network (Session (Db e) Exception) Client HttpEvent Action (SentRequest J url) Circumstances
      HttpOutcome where
  server := httpServer p J e
  client := Client.exchange J url sha256
  event r w := ⟨w.now, r.http, w.faults⟩
  lost := .dropped

/-- The listing of a resource, as a client that asks for it gets it. -/
def shown (p : Platform) (resourceId : Bytes) (d : Db e) (t : TableName) : List (Entity t) :=
  (listedRows p resourceId d t).map fun r => received t (entityOf t r.1 r.2)

/-- The reply to a task, at a state of the server. -/
def replyAt (p : Platform) (w : Circumstances) (req : RequestData) (s : Session (Db e) Exception) :
    ResponseData :=
  (executeTask p w.now req { s with faults := w.faults }).1

/-- The figures that a task of the analytics computes, while no call fails. -/
def figures (task : Task e ResponseData) (s : Session (Db e) Exception) : Metrics :=
  match (task.exec s.calm).1 with
  | .ok reply => ApiManager.buildAnalyticsMetrics reply.dataset
  | .error _ => fun _ => none

/-! ### Replies -/

/-- The states of a run are well-formed. -/
theorem wellFormed_of_reachable {V : Session (Db e) Exception → Prop}
    (hV : ∀ s, V s → (httpServer p J e).Reachable s) (s : Session (Db e) Exception) (hs : V s) :
    WellFormed s.store :=
  (httpServer_valid (hV s hs)).1

section Replies

variable {V : Session (Db e) Exception → Prop} {r : SentRequest J url} {b : HttpOutcome}

/-- The server executes the task that a request names. -/
theorem step_sent (hJ : J.RoundTrips) (r : SentRequest J url) (w : Circumstances)
    (s : Session (Db e) Exception) :
    (httpServer p J e).step s ⟨w.now, r.http, w.faults⟩ =
      (HttpTransaction.doResponse J (replyAt p w (r.request.task url) s),
        (executeTask p w.now (r.request.task url) { s with faults := w.faults }).2) :=
  handleRequest_sendRequest hJ r.sent w.now { s with faults := w.faults }

/-- A client hears nothing, or handles the reply to its task at a state that the server went
through. -/
theorem answer_cases (hJ : J.RoundTrips) (h : (system p J url sha256 e).Answer V r b) :
    ApiManager.onOutcome J r.request b = none ∨ ∃ s w, V s ∧
      ApiManager.onOutcome J r.request b = ApiManager.handleReply r.request.endpoint
        r.request.method (replyAt p w (r.request.task url) s).dataset := by
  obtain rfl | ⟨s, w, hs, hb⟩ := h
  · exact Or.inl rfl
  have hstep : b = HttpTransaction.doResponse J (replyAt p w (r.request.task url) s) :=
    hb.trans (congrArg Prod.fst (step_sent hJ r w s))
  rw [hstep]
  by_cases hvalid : (replyAt p w (r.request.task url) s).dataset.IsUtf8
  · refine Or.inr ⟨s, w, hs, ?_⟩
    rw [ApiManager.onOutcome, onNetworkReply_doResponse hJ hvalid]
    rfl
  · refine Or.inl ?_
    rw [ApiManager.onOutcome, onNetworkReply_doResponse_of_not hvalid]
    rfl

/-- The error key of a reply is reported, whatever was requested. -/
theorem handleReply_errorReply (endpoint : Endpoint) (method : Method) (ex : Exception) :
    ∃ message, ApiManager.handleReply endpoint method (errorReply ex).dataset =
      some (.resource (.errorOccurred message)) := by
  have hmessage : ApiManager.errorMessage (errorReply ex).dataset ≠ [] := by
    have hline : utf8 "\n" ≠ [] := by decide
    cases ex <;> simp [errorReply, ApiManager.errorMessage, column, hline]
  exact ⟨_, if_neg hmessage⟩

/-- A reply has the error key, and is reported as an error, or is handled. -/
theorem handleReply_replyAt {s : Session (Db e) Exception} (hwf : WellFormed s.store)
    (w : Circumstances) (req : RequestData) (endpoint : Endpoint) (method : Method) :
    (∃ message, ApiManager.handleReply endpoint method (replyAt p w req s).dataset =
      some (.resource (.errorOccurred message))) ∨
      utf8 "error" ∉ (replyAt p w req s).dataset ∧
      ApiManager.handleReply endpoint method (replyAt p w req s).dataset =
        ApiManager.handler endpoint method (replyAt p w req s).dataset := by
  have hstep := (executeTask_spec p w.now req { s with faults := w.faults } hwf).2
  cases hstep with
  | accepted hans =>
    exact Or.inr ⟨hans.no_error, ApiManager.handleReply_of_no_error hans.no_error⟩
  | rejected ex hreply =>
    refine Or.inl ?_
    rw [replyAt, hreply]
    exact handleReply_errorReply endpoint method ex
  | aborted ex hreply =>
    refine Or.inl ?_
    rw [replyAt, hreply]
    exact handleReply_errorReply endpoint method ex

/-- **A listing is complete or an error**, whatever calls fail. -/
theorem replyAt_get {t : TableName} {req : RequestData} (haddr : req.Addresses t)
    (hget : req.method = utf8 "GET") (w : Circumstances) (s : Session (Db e) Exception)
    (hreply : utf8 "error" ∉ (replyAt p w req s).dataset) :
    replyAt p w req s = listing (listColumns t)
      ((listedRows p req.resourceId s.store t).map fun r => entityOf t r.1 r.2) := by
  have hcalm := reply_calm (s := { s with faults := w.faults }) hreply
  exact hcalm.symm.trans (get_reply p w.now haddr hget s.store s.snapshot)

/-- What is handled of an accepted listing is the list. -/
theorem handler_get {t : TableName} {req : RequestData} (haddr : req.Addresses t)
    (hget : req.method = utf8 "GET") (w : Circumstances) (s : Session (Db e) Exception)
    (hreply : utf8 "error" ∉ (replyAt p w req s).dataset) :
    ApiManager.handler (.resource t) .get (replyAt p w req s).dataset =
      some (.resource (ApiManager.listSignal t (shown p req.resourceId s.store t))) := by
  rw [← ApiManager.handleReply_of_no_error hreply, ApiManager.handleReply_resource,
    replyAt_get haddr hget w s hreply, handleResponse_listing, List.map_map]
  rfl

/-- A client that gets a signal gets an error, or what is handled of an accepted reply at a state
that the server went through. -/
theorem onOutcome_cases (hJ : J.RoundTrips) (hV : ∀ s, V s → WellFormed s.store)
    (h : (system p J url sha256 e).Answer V r b) {signal : ApiSignal}
    (hsignal : ApiManager.onOutcome J r.request b = some signal) :
    (∃ message, signal = ApiManager.handleError message) ∨ ∃ s w, V s ∧
      utf8 "error" ∉ (replyAt p w (r.request.task url) s).dataset ∧
      ApiManager.Handles r.request.method (replyAt p w (r.request.task url) s).dataset
        r.request.endpoint signal := by
  rcases answer_cases hJ h with hnone | ⟨s, w, hs, heq⟩
  · rw [hnone] at hsignal
    cases hsignal
  rw [heq] at hsignal
  rcases handleReply_replyAt (hV s hs) w (r.request.task url) r.request.endpoint
    r.request.method with ⟨message, herror⟩ | ⟨hreply, hhandled⟩
  · exact Or.inl ⟨message, Option.some.inj (hsignal.symm.trans herror)⟩
  · exact Or.inr ⟨s, w, hs, hreply, ApiManager.handles_of_handler (hhandled ▸ hsignal)⟩

/-- Only the reply to a request for a list is handled as a list. -/
theorem asks_of_handles {method : Method} {dataset : Dataset} {endpoint : Endpoint}
    {signal : Signal} {t : TableName} {entities : List (Entity t)}
    (h : ApiManager.Handles method dataset endpoint (.resource signal))
    (hlist : signal.list? = some ⟨t, entities⟩) :
    endpoint = .resource t ∧ method = .get ∧ ApiManager.handle t .get dataset = some signal := by
  generalize hsig : ApiSignal.resource signal = signal' at h
  cases h with
  | login =>
    -- what the log-in reports is an error
    rcases ApiManager.handleLoginResponse_cases dataset with
      ⟨id, roleId, heq⟩ | ⟨message, heq⟩
    · cases hsig.trans heq
    · obtain rfl := ApiSignal.resource.inj (hsig.trans heq)
      cases hlist
  | receipts => cases hsig
  | salesAnalytics => cases hsig
  | inventoryAnalytics => cases hsig
  | resource t' signal' hhandle =>
    obtain rfl := ApiSignal.resource.inj hsig
    cases method with
    | get =>
      have hhandled := hhandle
      unfold ApiManager.handle at hhandle
      dsimp only at hhandle
      split at hhandle
      · obtain rfl := Option.some.inj hhandle
        rw [list?_listSignal] at hlist
        obtain ⟨rfl, -⟩ := Sigma.mk.inj (Option.some.inj hlist)
        exact ⟨rfl, rfl, hhandled⟩
      · obtain rfl := Option.some.inj hhandle
        cases hlist
    | _ =>
      -- a row was created, edited or deleted
      obtain ⟨-, heq⟩ := Option.ite_none_left_eq_some.mp hhandle
      obtain rfl := Option.some.inj heq
      cases hlist

/-- Of what is handled of accepted replies, only listings are lists. -/
theorem list_of_handles {request : ClientRequest} {w : Circumstances}
    {s : Session (Db e) Exception} {signal : Signal} {t : TableName} {entities : List (Entity t)}
    (hreply : utf8 "error" ∉ (replyAt p w (request.task url) s).dataset)
    (h : ApiManager.Handles request.method (replyAt p w (request.task url) s).dataset
      request.endpoint (.resource signal)) (hlist : signal.list? = some ⟨t, entities⟩) :
    entities = shown p (request.task url).resourceId s.store t := by
  obtain ⟨hend, hmethod, hhandle⟩ := asks_of_handles h hlist
  have hverb : (request.task url).method = utf8 "GET" := by
    rw [task_method, hmethod]
    rfl
  have hget := handler_get (task_addresses url request hend) hverb w s hreply
  obtain ⟨x, hx, heq⟩ := Option.map_eq_some_iff.mp hget
  obtain rfl := ApiSignal.resource.inj heq
  obtain rfl := Option.some.inj (hhandle.symm.trans hx)
  rw [list?_listSignal] at hlist
  exact (eq_of_heq (Sigma.mk.inj (Option.some.inj hlist)).2).symm

/-- **A list that a client is handed is the listing of its resource** at a state that the
server went through. -/
theorem onOutcome_list (hJ : J.RoundTrips) (hV : ∀ s, V s → WellFormed s.store)
    (h : (system p J url sha256 e).Answer V r b) {signal : Signal} {t : TableName}
    {entities : List (Entity t)}
    (hsignal : ApiManager.onOutcome J r.request b = some (.resource signal))
    (hlist : signal.list? = some ⟨t, entities⟩) :
    ∃ s, V s ∧ entities = shown p (r.request.task url).resourceId s.store t := by
  rcases onOutcome_cases hJ hV h hsignal with ⟨message, heq⟩ | ⟨s, w, hs, hreply, hhandles⟩
  · obtain rfl := ApiSignal.resource.inj heq
    cases hlist
  · exact ⟨s, hs, list_of_handles hreply hhandles hlist⟩

/-! ### Figures -/

/-- Figures that are handled are those of the task, at the state the request was executed in. -/
theorem metrics_eq_figures {req : RequestData} {task : Task e ResponseData}
    (htask : moduleTask p req = task) (w : Circumstances) (s : Session (Db e) Exception)
    (hreply : utf8 "error" ∉ (replyAt p w req s).dataset) :
    ApiManager.buildAnalyticsMetrics (replyAt p w req s).dataset = figures task s := by
  have hcalm : (executeTask p w.now req s.calm).1 = replyAt p w req s :=
    reply_calm (s := { s with faults := w.faults }) hreply
  rw [← hcalm] at hreply ⊢
  obtain ⟨s₁, hrun, -⟩ := moduleTask_of_no_error hreply
  rw [htask] at hrun
  rw [figures, hrun]

theorem moduleTask_salesAnalytics (p : Platform) {req : RequestData}
    (hmodule : req.module = utf8 "analytics") (hsub : req.submodule = utf8 "sales")
    (hmethod : req.method = utf8 "GET") :
    (moduleTask p req : Task e ResponseData) = AnalyticsModule.getSalesAnalytics p := by
  have htask : (moduleTask p req : Task e ResponseData) = AnalyticsModule.executeTask p req := by
    unfold moduleTask
    rw [hmodule]
    rfl
  rw [htask, AnalyticsModule.executeTask, if_neg (not_not.mpr hmethod), if_pos hsub]

theorem moduleTask_inventoryAnalytics (p : Platform) {req : RequestData}
    (hmodule : req.module = utf8 "analytics") (hsub : req.submodule = utf8 "inventory")
    (hmethod : req.method = utf8 "GET") :
    (moduleTask p req : Task e ResponseData) = AnalyticsModule.getInventoryAnalytics p := by
  have htask : (moduleTask p req : Task e ResponseData) = AnalyticsModule.executeTask p req := by
    unfold moduleTask
    rw [hmodule]
    rfl
  have hsales : req.submodule ≠ utf8 "sales" := by
    rw [hsub]
    decide
  rw [htask, AnalyticsModule.executeTask, if_neg (not_not.mpr hmethod), if_neg hsales,
    if_pos hsub]

/-- Only the figures of sales are handed on as such. -/
theorem salesMetrics_of_handles {request : ClientRequest} {w : Circumstances}
    {s : Session (Db e) Exception} {metrics : Metrics}
    (hreply : utf8 "error" ∉ (replyAt p w (request.task url) s).dataset)
    (h : ApiManager.Handles request.method (replyAt p w (request.task url) s).dataset
      request.endpoint (.salesAnalyticsReady metrics)) :
    metrics = figures (AnalyticsModule.getSalesAnalytics p) s := by
  obtain ⟨endpoint, method, dataset, resourceId⟩ := request
  dsimp only at h
  generalize hsig : ApiSignal.salesAnalyticsReady metrics = signal' at h
  cases h with
  | salesAnalytics hmethod =>
    subst hmethod
    obtain rfl := ApiSignal.salesAnalyticsReady.inj hsig
    exact metrics_eq_figures (moduleTask_salesAnalytics p (task_module ..) (task_submodule ..)
      (task_method ..)) w s hreply
  | login =>
    rcases ApiManager.handleLoginResponse_cases (replyAt p w _ s).dataset with
      ⟨id, roleId, heq⟩ | ⟨message, heq⟩ <;> cases hsig.trans heq
  | _ => cases hsig

/-- Only the figures of the inventory are handed on as such. -/
theorem inventoryMetrics_of_handles {request : ClientRequest} {w : Circumstances}
    {s : Session (Db e) Exception} {metrics : Metrics}
    (hreply : utf8 "error" ∉ (replyAt p w (request.task url) s).dataset)
    (h : ApiManager.Handles request.method (replyAt p w (request.task url) s).dataset
      request.endpoint (.inventoryAnalyticsReady metrics)) :
    metrics = figures (AnalyticsModule.getInventoryAnalytics p) s := by
  obtain ⟨endpoint, method, dataset, resourceId⟩ := request
  dsimp only at h
  generalize hsig : ApiSignal.inventoryAnalyticsReady metrics = signal' at h
  cases h with
  | inventoryAnalytics hmethod =>
    subst hmethod
    obtain rfl := ApiSignal.inventoryAnalyticsReady.inj hsig
    exact metrics_eq_figures (moduleTask_inventoryAnalytics p (task_module ..)
      (task_submodule ..) (task_method ..)) w s hreply
  | login =>
    rcases ApiManager.handleLoginResponse_cases (replyAt p w _ s).dataset with
      ⟨id, roleId, heq⟩ | ⟨message, heq⟩ <;> cases hsig.trans heq
  | _ => cases hsig

/-- **The figures that a client is handed are those of one state** that the server went
through. -/
theorem onOutcome_metrics (hJ : J.RoundTrips) (hV : ∀ s, V s → WellFormed s.store)
    (h : (system p J url sha256 e).Answer V r b) {signal : ApiSignal}
    (hsignal : ApiManager.onOutcome J r.request b = some signal) :
    (∀ metrics, signal = .salesAnalyticsReady metrics →
      ∃ s, V s ∧ metrics = figures (AnalyticsModule.getSalesAnalytics p) s) ∧
    ∀ metrics, signal = .inventoryAnalyticsReady metrics →
      ∃ s, V s ∧ metrics = figures (AnalyticsModule.getInventoryAnalytics p) s := by
  rcases onOutcome_cases hJ hV h hsignal with ⟨message, rfl⟩ | ⟨s, w, hs, hreply, hhandles⟩
  · refine ⟨?_, ?_⟩ <;> rintro metrics ⟨⟩
  · refine ⟨?_, ?_⟩
    · rintro metrics rfl
      exact ⟨s, hs, salesMetrics_of_handles hreply hhandles⟩
    · rintro metrics rfl
      exact ⟨s, hs, inventoryMetrics_of_handles hreply hhandles⟩

end Replies

end SageStore
