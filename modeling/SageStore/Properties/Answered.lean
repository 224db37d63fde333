import SageStore.Server.Http

/-!
# Which requests are answered

A request to the API is answered if its reply can be encoded, that is, if the reply is valid
UTF-8. Bodies are decoded from JSON, so the texts of a request are valid UTF-8, and with
them every stored text (`TextsUtf8.step`) but one: the audit entry quotes the target of the
request, which may hold any bytes. So there are two ways to go wrong: an error reply that
quotes the name of an unknown module, and a listing of the log with such an entry in it
(`api_answered_iff`).
-/

namespace SageStore

open Bytes Program BusinessLogic

variable {e : Enforcement} {p : Platform} {J : Json} {now : UtcTime} {req : RequestData}
  {faults : List (Option Exception)} {d d' : Db e} {reply : ResponseData}

/-! ### Stored texts -/

theorem textsUtf8_seed : TextsUtf8 (seed e) := by
  have h (t : TableName) : ∀ x ∈ seedRows t, RowIsUtf8 t x := by
    cases t <;> simp [seedRows, RowIsUtf8]
  exact fun t r hr => h t r.2 (Table.mem_ofRows hr)

/-- A request with valid texts stores valid texts. -/
theorem TextsUtf8.step (hd : TextsUtf8 d) (hds : req.dataset.IsUtf8)
    (h : ∀ t, TableStep p now req d t (d' t)) : TextsUtf8 d' := by
  intro t
  have h := h t
  generalize d' t = T at h
  intro r hr
  cases h with
  | same => exact hd t r hr
  | insert _ x haddr hmethod hguard hutf8 =>
    rcases Table.mem_insert.mp hr with hr | rfl
    · exact hd t r hr
    · exact hutf8 hds
  | update _ x haddr hmethod hguard hutf8 =>
    rcases Table.mem_update.mp hr with ⟨hr, -⟩ | ⟨-, rfl, -⟩
    · exact hd t r hr
    · exact hutf8 hd hds
  | delete => exact hd t r (Table.mem_delete.mp hr).1
  | deleteSaleOrder => exact hd _ r (Table.mem_delete.mp hr).1
  | deletePurchaseOrder => exact hd _ r (Table.mem_delete.mp hr).1
  | loseSaleLines gone _ hrows => exact hd _ r (List.mem_of_mem_filter (hrows ▸ hr))
  | losePurchaseLines gone _ hopen hgone hrows =>
    exact hd _ r (List.mem_of_mem_filter (hrows ▸ hr))
  | receiveStock employee plan order hpost hplan =>
    rcases mem_postings plan hr with hr | ⟨m, hm, heq⟩
    · exact hd .inventory r hr
    · rw [heq]
      exact ⟨by simp, by simp, by simp⟩
  | receiveOrder o hpost ho hkey hopen =>
    rcases Table.mem_update.mp hr with ⟨hr, -⟩ | ⟨-, hx, -⟩
    · exact hd .purchaseOrder r hr
    -- the order is written back as it was read, with another status
    · obtain ⟨hdate, huser, hsupplier, -⟩ := hd .purchaseOrder o ho
      rw [hx]
      exact ⟨(p.sqlite.numeric_renders _).isUtf8 hdate.cstr, p.isUtf8_cell huser,
        p.isUtf8_cell hsupplier, .utf8 _⟩
  | audit =>
    rcases Table.mem_insert.mp hr with hr | rfl
    · exact hd .log r hr
    · refine ⟨?_, (p.sqlite.numeric_renders _).isUtf8 (isUtf8_currentTimestamp now).cstr⟩
      -- the action is the one text that `RowIsUtf8` leaves out
      dsimp only [Log.row]
      split
      · exact .nil
      · exact p.isUtf8_cell (hds.field _)

/-- In every state reachable over HTTP the tables are well-formed and the texts valid. -/
theorem httpServer_valid {s : Session (Db e) Exception} (h : (httpServer p J e).Reachable s) :
    WellFormed s.store ∧ TextsUtf8 s.store := by
  refine h.invariant (I := fun s => WellFormed s.store ∧ TextsUtf8 s.store)
    ⟨wellFormed_seed, textsUtf8_seed⟩ ?_
  rintro s ev ⟨hwf, htexts⟩
  rcases HttpTransaction.handleRequest_cases p J ev.now ev.request { s with faults := ev.faults }
    with heq | ⟨req, hds, heq⟩
  · exact (congrArg (fun s => WellFormed s.store ∧ TextsUtf8 s.store) heq).mpr ⟨hwf, htexts⟩
  · have hstep := (executeTask_spec p ev.now req { s with faults := ev.faults } hwf).2.table
    exact (congrArg (fun s => WellFormed s.store ∧ TextsUtf8 s.store) heq).mpr
      ⟨hwf.step hstep, htexts.step hds hstep⟩

/-! ### Replies -/

/-- The reply to a request that raised is valid UTF-8 when the exception is. -/
theorem isUtf8_errorReply {ex : Exception} (h : ex.IsUtf8) : (errorReply ex).dataset.IsUtf8 := by
  cases ex with
  | server componentName message =>
    exact Dataset.isUtf8_singleton.mpr ⟨.utf8 _, by simp [h.1.cstr, h.2.cstr]⟩
  | std what => exact Dataset.isUtf8_singleton.mpr ⟨.utf8 _, by simp [IsUtf8.cstr h]⟩

/-- The reply that names an unknown module is valid UTF-8 only when the name is. -/
theorem not_isUtf8_unrecognizedModule {module : Bytes} (h0 : (0 : UInt8) ∉ module)
    (h : ¬ IsUtf8 module) : ¬ (errorReply (unrecognizedModule module)).dataset.IsUtf8 := by
  intro hreply
  have hmessage := (Dataset.isUtf8_singleton.mp hreply).2
    (cstr (utf8 "Unrecognized module: " ++ module)) (by simp)
  rw [cstr_append_of_notMem (by decide), cstr_eq_self h0] at hmessage
  exact h ((isUtf8_utf8_append _ _).mp hmessage)

/-- A request that lists the log is accepted while no call fails. -/
theorem no_error_of_listsLog (p : Platform) (now : UtcTime) (hlog : req.ListsLog)
    (hwf : WellFormed d) (snap : Option (Db e)) :
    utf8 "error" ∉ (executeTask p now req ⟨d, snap, []⟩).1.dataset := by
  have htask : (moduleTask p req : Task e ResponseData) = LogsModule.getLogs := by
    obtain ⟨module, submodule, method, resourceId, dataset⟩ := req
    obtain ⟨⟨rfl, rfl⟩, rfl⟩ :
        (module = utf8 "logs" ∧ submodule = utf8 "entries") ∧ method = utf8 "GET" := hlog
    rfl
  obtain ⟨reply, hreply⟩ : ∃ reply, (LogsModule.getLogs : Task e ResponseData).exec
      ⟨d, snap, []⟩ = (.ok reply, ⟨d, snap, []⟩) := ⟨_, rfl⟩
  have hspec := moduleTask_spec p req hwf ⟨d, snap, []⟩ rfl
  rw [htask, hreply] at hspec
  have hans : Answers req d reply := hspec.2.1
  rw [executeTask_of_ok p now (htask ▸ hreply)]
  exact hans.no_error

/-- A module whose name is not valid UTF-8 is unknown. -/
theorem executeTask_of_not_isUtf8 (p : Platform) (now : UtcTime) (h : ¬ IsUtf8 req.module)
    (s : Session (Db e) Exception) :
    (executeTask p now req s).1 = errorReply (unrecognizedModule req.module) := by
  -- the names of the modules are literals
  have hne : ∀ t : Bytes, IsUtf8 t → req.module ≠ t := fun t ht heq => h (heq ▸ ht)
  have htask := moduleTask_of_unrecognized (e := e) p (hne [] .nil) fun name _ => hne _ (.utf8 name)
  unfold executeTask
  rw [htask]
  rfl

/-- A reply is valid UTF-8 when the name of the module is, the actions are if it lists them,
and what failing calls raise is. -/
theorem BusinessLogic.Step.isUtf8_reply (h : Step p now req faults d reply d')
    (htexts : TextsUtf8 d) (hfaults : ∀ ex, some ex ∈ faults → ex.IsUtf8)
    (hmodule : IsUtf8 req.module) (hlog : req.ListsLog → ActionsUtf8 d) :
    reply.dataset.IsUtf8 := by
  cases h with
  | accepted hans => exact (hans.isUtf8 htexts).mpr hlog
  | rejected ex hreply hex =>
    rw [hreply]
    exact isUtf8_errorReply (hex.elim (fun h => h hmodule) (hfaults ex))
  | aborted ex hreply hfault =>
    rw [hreply]
    exact isUtf8_errorReply (hfaults ex hfault)

/-- Which replies are valid UTF-8, while no call fails. -/
theorem isUtf8_reply_iff (hwf : WellFormed d) (htexts : TextsUtf8 d) (snap : Option (Db e))
    (h0 : (0 : UInt8) ∉ req.module) :
    (executeTask p now req ⟨d, snap, []⟩).1.dataset.IsUtf8 ↔
      IsUtf8 req.module ∧ (req.ListsLog → ActionsUtf8 d) := by
  have hstep := (executeTask_spec p now req ⟨d, snap, []⟩ hwf).2
  by_cases hmodule : IsUtf8 req.module
  · constructor
    · intro hreply
      refine ⟨hmodule, fun hlog => ?_⟩
      obtain ⟨d₁, hans, -, -⟩ := hstep.of_no_error (no_error_of_listsLog p now hlog hwf snap)
      exact (hans.isUtf8 htexts).mp hreply hlog
    · exact fun h => hstep.isUtf8_reply htexts (fun _ h => absurd h List.not_mem_nil) hmodule h.2
  · refine iff_of_false (fun hreply => ?_) fun h => hmodule h.1
    rw [executeTask_of_not_isUtf8 p now hmodule] at hreply
    exact not_isUtf8_unrecognizedModule h0 hmodule hreply

/-- **Which requests are answered.** In every state reachable over HTTP, a request to the API
ends with a response handed to the socket if the module's name is valid UTF-8 and, if the
request lists the log, the stored actions are; while no call fails, only then. What a failing
call raises is taken to be valid UTF-8. -/
theorem api_answered_iff (p : Platform) (J : Json) {s : Session (Db .full) Exception}
    (hs : (httpServer p J .full).Reachable s) (now : UtcTime) (r : HttpRequest)
    {module submodule : Bytes} {rest : List Bytes}
    (hr : HttpTransaction.parseEndpoint r.target =
      utf8 "api" :: module :: submodule :: rest) :
    let answered (faults : List (Option Exception)) :=
      ∃ body, ((httpServer p J .full).step s ⟨now, r, faults⟩).1 = .response body
    let valid := IsUtf8 module ∧
      ((HttpTransaction.requestData J r module submodule rest).ListsLog → ActionsUtf8 s.store)
    (∀ faults, (∀ ex, some ex ∈ faults → ex.IsUtf8) → valid → answered faults) ∧
      (answered [] ↔ valid) := by
  intro answered valid
  obtain ⟨hwf, htexts⟩ := httpServer_valid hs
  have hrun (faults : List (Option Exception)) : answered faults ↔ (executeTask p now
      (HttpTransaction.requestData J r module submodule rest)
      { s with faults := faults }).1.dataset.IsUtf8 := by
    have hstep : ((httpServer p J .full).step s ⟨now, r, faults⟩).1 = _ :=
      congrArg Prod.fst (HttpTransaction.handleRequest_api hr now { s with faults := faults })
    simp only [answered, hstep]
    exact HttpTransaction.doResponse_eq_response J _
  refine ⟨fun faults hfaults hvalid => (hrun faults).mpr ?_, (hrun []).trans ?_⟩
  · exact (executeTask_spec p now _ { s with faults := faults } hwf).2.isUtf8_reply htexts hfaults
      hvalid.1 hvalid.2
  refine isUtf8_reply_iff hwf htexts _ fun h0 => ?_
  -- the parser admits no NUL in the target
  have hmem : (0 : UInt8) ∈ r.target :=
    HttpTransaction.mem_of_mem_parseEndpoint (hr ▸ List.mem_cons_of_mem _ List.mem_cons_self) h0
  exact absurd (r.target_visible 0 hmem).1 (by decide)

/-- A request for the health of the server. -/
def healthRequest : HttpRequest := ⟨"GET", "/api/system/health", [], by decide +kernel⟩

/-- The request for the health of the server is answered. -/
theorem api_answered_iff_health :
    ∃ body, ((httpServer .plain .writer .full).step (httpServer .plain .writer .full).init
      ⟨noon, healthRequest, []⟩).1 = .response body := by
  have hr : HttpTransaction.parseEndpoint healthRequest.target =
      [utf8 "api", utf8 "system", utf8 "health"] := by decide +kernel
  have hs := (httpServer .plain .writer .full).reachable_init
  exact (api_answered_iff .plain .writer hs noon healthRequest hr).2.mpr
    ⟨.utf8 _, fun h => absurd h.1.1 (by decide)⟩

/-- A request whose module is a byte that is not valid UTF-8. -/
def unknownModuleRequest : HttpRequest where
  method := "GET"
  target := utf8 "/api/" ++ [128] ++ utf8 "/x"
  body := []
  target_visible := by decide +kernel

/-- The target of that request has three segments, the first of them is `api`, and the
request is not answered. -/
theorem unknownModule_not_answered :
    HttpTransaction.parseEndpoint unknownModuleRequest.target = [utf8 "api", [128], utf8 "x"] ∧
      ¬ ∃ body, ((httpServer .plain .writer .full).step (httpServer .plain .writer .full).init
        ⟨noon, unknownModuleRequest, []⟩).1 = .response body := by
  have hescaped : ((httpServer .plain .writer .full).step (httpServer .plain .writer .full).init
      ⟨noon, unknownModuleRequest, []⟩).1 = .escaped := by decide +kernel
  refine ⟨by decide +kernel, ?_⟩
  rintro ⟨body, hbody⟩
  exact absurd (hescaped.symm.trans hbody) (by simp)

end SageStore
