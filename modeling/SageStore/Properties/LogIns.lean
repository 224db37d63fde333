import SageStore.Properties.Passwords
import SageStore.Properties.TaskSystem

/-!
# Who gets in

The dialogs give way to the main window at a log-in that the server has accepted, and the server
accepts the name and the password of a user at the state in which it executes the request
(`replyAt_login`). So a client that is logged in has submitted a name and a password that the
server stored at a state it went through, and one that is not has opened nothing and has only
forms of its dialogs under way (`access_by_password`), in whatever order requests are executed and
replies are delivered. Names are read up to their first NUL (`HasPassword`).

`Client.Admitted` is the invariant. It needs to know of each request that it is a form of a
dialog, or that its client is logged in (`Client.MaySend`): a client logs in at the reply to a
log-in, so it must have sent one.
-/

namespace SageStore

open Bytes Program BusinessLogic

variable {e : Enforcement} {p : Platform} {J : Json} {url : QUrl} {sha256 : Sha256}

/-! ### The server -/

/-- What the log-in has found when it replies. -/
theorem loginUser_reads (p : Platform) (request : Dataset) (d : Db e) :
    Reads Exception.IsUtf8 d (UsersModule.loginUser p request) fun _ =>
      getOptionalDatasetValue request "username" ≠ [] ∧
        HasPassword d (getOptionalDatasetValue request "username")
          (getOptionalDatasetValue request "password") := by
  refine (reads_lift getRequiredDatasetValue_spec).bindReads fun username hname => ?_
  refine (reads_lift getRequiredDatasetValue_spec).bindReads fun password hpassword => ?_
  refine (getByField_mem userRepository _ _).bindReads fun usersVec hmem => ?_
  cases usersVec with
  | nil => exact Reads.throw ⟨.utf8 _, .utf8 _⟩
  | cons user rest =>
    obtain ⟨i, hi, hmatch, rfl⟩ := hmem user List.mem_cons_self
    refine Reads.ite (fun heq => Reads.pure ⟨hname.1 ▸ hname.2, i, hi, ?_, ?_⟩)
      fun _ => Reads.throw ⟨.utf8 _, .utf8 _⟩
    · rw [← hname.1]
      exact hmatch
    · rw [← hpassword.1]
      exact heq

/-- The task of a log-in. -/
theorem moduleTask_login {request : ClientRequest} (hend : request.endpoint = .login)
    (hmethod : request.method = .post) :
    (moduleTask p (request.task url) : Task e ResponseData) =
      UsersModule.loginUser p request.dataset := by
  have hmodule : (request.task url).module = utf8 "users" := by
    rw [task_module, hend]
    rfl
  have hsub : (request.task url).submodule = utf8 "login" := by
    rw [task_submodule, hend]
    rfl
  have hverb : (request.task url).method = utf8 "POST" := by
    rw [task_method, hmethod]
    rfl
  have hdataset : (request.task url).dataset = request.dataset := if_pos (Or.inl hmethod)
  rw [moduleTask_users p hmodule, UsersModule.executeTask, if_pos ⟨hsub, hverb⟩, hdataset]

/-- **The server admits nobody without the password**, whichever calls fail. -/
theorem replyAt_login {request : ClientRequest} (hend : request.endpoint = .login)
    (hmethod : request.method = .post) {w : Circumstances} {s : Session (Db e) Exception}
    (hreply : utf8 "error" ∉ (replyAt p w (request.task url) s).dataset) :
    getOptionalDatasetValue request.dataset "username" ≠ [] ∧
      HasPassword s.store (getOptionalDatasetValue request.dataset "username")
        (getOptionalDatasetValue request.dataset "password") := by
  obtain ⟨s₁, hrun, -⟩ := moduleTask_of_no_error hreply
  have hreads := loginUser_reads p request.dataset s.store { s with faults := w.faults } rfl
  rw [← moduleTask_login hend hmethod, hrun] at hreads
  exact hreads.2.2

/-! ### The client -/

/-- A form that is submitted in a dialog, before or after the log-in. -/
inductive FromDialog (sha256 : Sha256) (A : Action → Prop) : ClientRequest → Prop
  | login (username password : Bytes) : A (.login username password) →
    FromDialog sha256 A (.loginUser username (sha256.hex password))
  | register (username password : Bytes) : A (.register username password password) →
    FromDialog sha256 A (.addUser ⟨[], username, sha256.hex password, "0"⟩)

/-- What was sent from the dialog still was when more has been done. -/
theorem FromDialog.mono {A A' : Action → Prop} {r : ClientRequest} (h : FromDialog sha256 A r)
    (hA : ∀ a, A a → A' a) : FromDialog sha256 A' r := by
  cases h with
  | login username password ha => exact .login username password (hA _ ha)
  | register username password ha => exact .register username password (hA _ ha)

namespace Client

/-- What being logged in rests on, and what there is without it. -/
structure Admitted (sha256 : Sha256) (V : Session (Db e) Exception → Prop) (A : Action → Prop)
    (client : Client) : Prop where
  byPassword : client.isAuthenticated = true → ∃ username password,
    A (.login username password) ∧ ∃ s, V s ∧ HasPassword s.store username (sha256.hex password)
  noTabs : client.isAuthenticated = false → client.tabs = []
  noModels : client.isAuthenticated = false → ∀ m, client.models m = none

/-- A request that the client may have under way: a form of a dialog, or, after the log-in,
anything but a log-in. -/
def MaySend (sha256 : Sha256) (A : Action → Prop) (client : Client) (r : ClientRequest) : Prop :=
  FromDialog sha256 A r ∨ client.isAuthenticated = true ∧ r.endpoint ≠ .login

variable {V V' : Session (Db e) Exception → Prop} {A A' : Action → Prop} {client : Client}

theorem Admitted.mono (h : client.Admitted sha256 V A) (hV : ∀ s, V s → V' s)
    (hA : ∀ a, A a → A' a) : client.Admitted sha256 V' A' where
  byPassword hauth := by
    obtain ⟨username, password, ha, s, hs, hhas⟩ := h.byPassword hauth
    exact ⟨username, password, hA _ ha, s, hV s hs, hhas⟩
  noTabs := h.noTabs
  noModels := h.noModels

theorem MaySend.mono {r : ClientRequest} (h : client.MaySend sha256 A r) (hA : ∀ a, A a → A' a) :
    client.MaySend sha256 A' r :=
  h.imp_left fun hform => hform.mono hA

theorem admitted_start (V : Session (Db e) Exception → Prop) (A : Action → Prop) :
    start.Admitted sha256 V A where
  byPassword h := by cases h
  noTabs _ := rfl
  noModels _ _ := rfl

/-! #### What the user does -/

@[simp] theorem isAuthenticated_ensureModel (m : ModelName) :
    (client.ensureModel m).isAuthenticated = client.isAuthenticated := by
  unfold ensureModel
  split <;> rfl

@[simp] theorem isAuthenticated_act (sha256 : Sha256) (client : Client) (a : Action) :
    (client.act sha256 a).1.isAuthenticated = client.isAuthenticated := by
  cases a with
  | openView view =>
    unfold act
    dsimp only
    split
    · unfold openView
      dsimp only
      split <;> exact isAuthenticated_ensureModel _
    · rfl
  | fetchOrderRecords k orderId =>
    unfold act
    dsimp only
    split <;> rfl
  | _ => rfl

/-- Tabs are opened by those who are logged in. -/
theorem tabs_act (a : Action) (hauth : client.isAuthenticated = false) (h : client.tabs = []) :
    (client.act sha256 a).1.tabs = [] := by
  cases a with
  | openView view =>
    unfold act
    dsimp only
    rw [hauth, if_neg Bool.false_ne_true]
    exact h
  | closeTab view =>
    unfold act
    dsimp only
    rw [h, List.erase_nil]
  | fetchOrderRecords k orderId =>
    unfold act
    dsimp only
    split <;> exact h
  | _ => exact h

/-- No action admits a client. -/
theorem Admitted.act (h : client.Admitted sha256 V A) (a : Action) :
    (client.act sha256 a).1.Admitted sha256 V A where
  byPassword hauth := h.byPassword (isAuthenticated_act sha256 client a ▸ hauth)
  noTabs hauth := by
    rw [isAuthenticated_act] at hauth
    exact tabs_act a hauth (h.noTabs hauth)
  noModels hauth m := by
    rw [isAuthenticated_act] at hauth
    have hnone := h.noModels hauth m
    rcases models_act sha256 client m a with
      heq | ⟨-, -, hlogged, -⟩ | ⟨_, _, model, -, -, hmodel, -⟩
    · exact heq.trans hnone
    · exact absurd (hauth.symm.trans hlogged) Bool.false_ne_true
    · exact absurd (hnone.symm.trans hmodel) (Option.some_ne_none model).symm

/-! #### What is sent -/

/-- Every request of a view is about a resource or about the analytics. -/
theorem endpoint_fetches (view : View) : ∀ r ∈ view.fetches, r.endpoint ≠ .login := by
  have h : (view.fetches.all fun r => decide (r.endpoint ≠ .login)) = true := by
    cases view <;> rfl
  exact fun r hr => of_decide_eq_true (List.all_eq_true.mp h r hr)

/-- A model is there only in the main window. -/
theorem Admitted.isAuthenticated (h : client.Admitted sha256 V A) {m : ModelName}
    (hm : (client.models m).isSome) : client.isAuthenticated = true := by
  by_contra hauth
  rw [h.noModels (Bool.eq_false_of_not_eq_true hauth) m] at hm
  cases hm

/-- A client that manages something is logged in. -/
theorem Admitted.of_manages (h : client.Admitted sha256 V A) {t : TableName}
    (ht : client.Manages t) : client.isAuthenticated = true := by
  obtain ⟨m, -, hm⟩ := ht
  exact h.isAuthenticated hm

/-- What the user does is to submit a form of a dialog, or is done in the main window. -/
theorem Admitted.maySend_act (h : client.Admitted sha256 V A) {a : Action} (ha : A a)
    {r : ClientRequest} (hr : r ∈ (client.act sha256 a).2) : client.MaySend sha256 A r := by
  cases sends_of_act hr with
  | login username password => exact Or.inl (.login username password ha)
  | register username password => exact Or.inl (.register username password ha)
  | fetch view r hauth hr => exact Or.inr ⟨hauth, endpoint_fetches view r hr⟩
  | orderRecords k orderId hsome =>
    exact Or.inr ⟨h.isAuthenticated hsome, by cases k <;> exact Endpoint.noConfusion⟩
  | create t entity r hmanages hr =>
    obtain ⟨dataset, rfl⟩ := ClientRequest.createEntity_eq hr
    exact Or.inr ⟨h.of_manages hmanages, Endpoint.noConfusion⟩
  | edit t entity r hmanages hr =>
    obtain ⟨dataset, id, rfl⟩ := ClientRequest.editEntity_eq hr
    exact Or.inr ⟨h.of_manages hmanages, Endpoint.noConfusion⟩
  | delete t id r hmanages hr =>
    obtain rfl := ClientRequest.deleteEntity_eq hr
    exact Or.inr ⟨h.of_manages hmanages, Endpoint.noConfusion⟩
  | receipt orderId employeeId hsome => exact Or.inr ⟨h.isAuthenticated hsome, Endpoint.noConfusion⟩

/-! #### What the client hears -/

/-- Only a log-in that was accepted changes who is logged in. -/
theorem isAuthenticated_onSignal (client : Client) (signal : ApiSignal) :
    (client.onSignal signal).1.isAuthenticated = client.isAuthenticated ∨
      ∃ id roleId, signal = .loginSuccess id roleId := by
  cases signal with
  | loginSuccess id roleId => exact Or.inr ⟨id, roleId, rfl⟩
  | purchaseReceiptPosted =>
    unfold onSignal
    dsimp only
    split <;> exact Or.inl rfl
  | resource s =>
    unfold onSignal
    dsimp only
    split <;> exact Or.inl rfl
  | _ => exact Or.inl rfl

/-- No signal opens a tab. -/
theorem tabs_onSignal (signal : ApiSignal) : (client.onSignal signal).1.tabs = client.tabs := by
  cases signal with
  | purchaseReceiptPosted =>
    unfold onSignal
    dsimp only
    split <;> rfl
  | resource s =>
    unfold onSignal
    dsimp only
    split <;> rfl
  | _ => rfl

/-- A client that is logged in stays so. -/
theorem isAuthenticated_onSignal_of (signal : ApiSignal) (h : client.isAuthenticated = true) :
    (client.onSignal signal).1.isAuthenticated = true := by
  rcases isAuthenticated_onSignal client signal with heq | ⟨id, roleId, rfl⟩
  · exact heq.trans h
  · rfl

theorem MaySend.onSignal {r : ClientRequest} (h : client.MaySend sha256 A r) (signal : ApiSignal) :
    (client.onSignal signal).1.MaySend sha256 A r :=
  h.imp_right fun hlogged => hlogged.imp_left (isAuthenticated_onSignal_of signal)

/-- A signal keeps the invariant, if a log-in that succeeds was one of the client's. -/
theorem Admitted.onSignal (h : client.Admitted sha256 V A) {signal : ApiSignal}
    (hlogin : ∀ id roleId, signal = .loginSuccess id roleId → ∃ username password,
      A (.login username password) ∧
        ∃ s, V s ∧ HasPassword s.store username (sha256.hex password)) :
    (client.onSignal signal).1.Admitted sha256 V A := by
  have hauth (hfalse : (client.onSignal signal).1.isAuthenticated = false) :
      client.isAuthenticated = false := by
    by_contra htrue
    have hkept := isAuthenticated_onSignal_of signal (Bool.eq_true_of_not_eq_false htrue)
    exact absurd (hfalse.symm.trans hkept) Bool.false_ne_true
  refine ⟨fun hlogged => ?_, fun hfalse => ?_, fun hfalse m => ?_⟩
  · rcases isAuthenticated_onSignal client signal with heq | ⟨id, roleId, hsignal⟩
    · exact h.byPassword (heq.symm.trans hlogged)
    · exact hlogin id roleId hsignal
  · exact (tabs_onSignal signal).trans (h.noTabs (hauth hfalse))
  · obtain ⟨f, -, hf⟩ := models_onSignal client m signal
    rw [hf, h.noModels (hauth hfalse) m]
    rfl

/-- What a client requests at a signal, it requests for a model. -/
theorem Admitted.maySend_onSignal (h : client.Admitted sha256 V A) {signal : ApiSignal}
    {r : ClientRequest} (hr : r ∈ (client.onSignal signal).2) : client.MaySend sha256 A r := by
  obtain ⟨⟨m, hm⟩, t, id, rfl⟩ := mem_onSignal hr
  exact Or.inr ⟨h.isAuthenticated hm, Endpoint.noConfusion⟩

end Client

/-! ### The system -/

variable {V : Session (Db e) Exception → Prop} {A : Action → Prop}

/-- A log-in that succeeds is the reply to a form of the log-in dialog. -/
theorem loginSuccess_cases (hJ : J.RoundTrips) (hV : ∀ s, V s → WellFormed s.store)
    {client : Client} {r : SentRequest J url} {b : HttpOutcome}
    (hsent : client.MaySend sha256 A r.request) (hb : (system p J url sha256 e).Answer V r b)
    {id roleId : Bytes}
    (hsignal : ApiManager.onOutcome J r.request b = some (.loginSuccess id roleId)) :
    ∃ username password, A (.login username password) ∧
      ∃ s, V s ∧ HasPassword s.store username (sha256.hex password) := by
  rcases onOutcome_cases hJ hV hb hsignal with ⟨message, heq⟩ | ⟨s, w, hs, hreply, hhandles⟩
  · cases heq
  -- only the handler of the log-in gives this signal
  have hend : r.request.endpoint = .login := by
    generalize hsig : ApiSignal.loginSuccess id roleId = signal at hhandles
    generalize r.request.endpoint = endpoint at hhandles ⊢
    cases hhandles with
    | login => rfl
    | _ => cases hsig
  -- and only a dialog asks for it
  have hform := hsent.resolve_right fun hother => hother.2 hend
  generalize hrequest : r.request = request at hform hend hreply
  cases hform with
  | login username password ha =>
    refine ⟨username, password, ha, s, hs, ?_⟩
    have hhas := (replyAt_login rfl rfl hreply).2
    rwa [show getOptionalDatasetValue _ "username" = username from
      ClientRequest.getOptionalDatasetValue_fields _ _, show getOptionalDatasetValue _ "password" =
      sha256.hex password from ClientRequest.getOptionalDatasetValue_fields _ _] at hhas
  | register username password ha => cases hend

/-- What leaves the client was requested. -/
theorem Client.mem_send {x : Client × List ClientRequest} {r : SentRequest J url}
    (h : r ∈ (Client.send J url x).2) : r.request ∈ x.2 :=
  (mem_map_send.mp (List.mem_map_of_mem h)).1

/-- **Being admitted is an invariant of the clients**, with what they may send. -/
theorem admitted_rule (hJ : J.RoundTrips) (p : Platform) :
    (system p J url sha256 e).ClientRule (fun V A client => client.Admitted sha256 V A)
      fun A client r => client.MaySend sha256 A r.request where
  mono hV hA h := h.mono hV hA
  sent_mono hA h := h.mono hA
  init V A := Client.admitted_start V A
  act _ h := h.act _
  act_sent ha h r hr := by
    have hsend := h.maySend_act ha (Client.mem_send hr)
    exact hsend.imp_right fun hlogged =>
      hlogged.imp_left fun hauth => (Client.isAuthenticated_act _ _ _).trans hauth
  act_stable a _ h := h.imp_right fun hlogged =>
    hlogged.imp_left fun hauth => (Client.isAuthenticated_act _ _ a).trans hauth
  receive {V A client r b} hV h hsent hb := by
    show ((Client.exchange J url sha256).receive client r b).1.Admitted sha256 V A
    unfold Client.exchange
    dsimp only
    split
    · exact h
    · next signal hsignal =>
      -- only the reply to a log-in logs in, and it tells of the password
      refine h.onSignal ?_
      rintro id roleId rfl
      exact loginSuccess_cases hJ (wellFormed_of_reachable hV) hsent hb hsignal
  receive_sent {V A client r b} hV h hsent hb := by
    show ∀ r' ∈ ((Client.exchange J url sha256).receive client r b).2,
      ((Client.exchange J url sha256).receive client r b).1.MaySend sha256 A r'.request
    unfold Client.exchange
    dsimp only
    split
    · exact fun r' hr' => absurd hr' List.not_mem_nil
    · exact fun r' hr' => (h.maySend_onSignal (Client.mem_send hr')).onSignal _
  receive_stable {A client r b r'} h := by
    show ((Client.exchange J url sha256).receive client r b).1.MaySend sha256 A r'.request
    unfold Client.exchange
    dsimp only
    split
    · exact h
    · exact h.onSignal _

/-- **Nobody gets in without a password.** In every run, with any number of clients and in any
order of execution and delivery: a client that is logged in has submitted a name and a password
whose digest the server stored, at a state it went through, for the name up to its first NUL; and a
client that is not has no tab and no model, and nothing under way but the forms it has submitted in
its dialogs. -/
theorem access_by_password {κ : Type} [DecidableEq κ] (hJ : J.RoundTrips) (p : Platform)
    (url : QUrl) (sha256 : Sha256) (e : Enforcement)
    (is : List (Network.Input κ HttpEvent Action Circumstances)) (c : κ) :
    let s := (system p J url sha256 e).after is
    ((s.client c).isAuthenticated = true → ∃ username password,
      Network.Did is c (.login username password) ∧ ∃ s', (system p J url sha256 e).Visited is s' ∧
        HasPassword s'.store username (sha256.hex password)) ∧
    ((s.client c).isAuthenticated = false →
      (s.client c).tabs = [] ∧ (∀ m, (s.client c).models m = none) ∧
        (∀ r, (c, r) ∈ s.requests → FromDialog sha256 (Network.Did is c) r.request) ∧
        ∀ r b, (c, r, b) ∈ s.replies → FromDialog sha256 (Network.Did is c) r.request) := by
  intro s
  have hrule : (system p J url sha256 e).ClientRule _ _ := admitted_rule hJ p
  have hholds := hrule.holds is
  have hclient := hholds.client c
  refine ⟨hclient.byPassword, fun hauth => ⟨hclient.noTabs hauth, hclient.noModels hauth, ?_, ?_⟩⟩
  · intro r hr
    refine (hholds.requests _ hr).resolve_right fun hlogged => ?_
    exact absurd (hauth.symm.trans hlogged.1) Bool.false_ne_true
  · intro r b hb
    refine (hholds.replies _ hb).1.resolve_right fun hlogged => ?_
    exact absurd (hauth.symm.trans hlogged.1) Bool.false_ne_true

theorem access_by_password_admin : ∃ username password,
    Network.Did loginRun () (.login username password) ∧ ∃ s',
      (system .plain .arrays .percent .ofSetup .full).Visited loginRun s' ∧
        HasPassword s'.store username (Sha256.ofSetup.hex password) :=
  (access_by_password Json.arrays_roundTrips .plain .percent .ofSetup .full loginRun ()).1
    (by rw [client_after Json.arrays_roundTrips]; decide +kernel)

end SageStore
