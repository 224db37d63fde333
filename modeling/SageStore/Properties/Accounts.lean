import SageStore.Client.UsersView
import SageStore.Foundation.Completion
import SageStore.Properties.Figures
import SageStore.Properties.Keys
import SageStore.Properties.LogIns
import SageStore.Server.TextWrites

/-!
# Accounts

What becomes of the three forms that a client can send about accounts.

The registration form names the role `0`. Keys are given out from one on, so no role has that
key, and every registration is refused, in every run (`registration_refused`).

The log-in form sends the digest of the password. It is decided by the database at the state in
which it is executed (`logIn_decided`): if no call fails, the client is logged in afterwards
exactly if the name is given and the digest is the password stored for it. Names are read up to
their first NUL.

The view of users sends passwords as they are typed, and no password has them as its digest; an
account that is edited without a password keeps the one it has. So the one password that ever lets
anybody in is that of the initial administrator (`initial_password_only`), under whatever name.
-/

namespace SageStore

open Bytes Program BusinessLogic

variable {e : Enforcement} {p : Platform} {J : Json} {url : QUrl} {sha256 : Sha256}
  {now : UtcTime} {req : RequestData}

/-! ### Registrations -/

/-- Keys are positive. -/
theorem Server.key_pos {s : Session (Db e) Exception} (hs : (server p e).Reachable s)
    {t : TableName} {r : ℕ × Row t} (hr : r ∈ (s.store t).rows) : 0 < r.1 := by
  obtain ⟨evs, rfl⟩ := hs
  have hseed : ∀ r ∈ (Table.ofRows (seedRows t)).rows, 0 < r.1 := by
    cases t <;> decide
  rcases (Server.follows (server p e).reachable_init evs t).old_or_new r hr with
    hlt | ⟨r₀, hr₀, heq⟩
  · exact Nat.lt_of_le_of_lt (Nat.zero_le _) hlt
  · rw [← heq]
    exact hseed r₀ hr₀

/-- The role that the registration form names is not there. -/
theorem Server.no_role_zero {s : Session (Db e) Exception} (hs : (server p e).Reachable s) :
    ¬ (s.store .role).Has (p.cell (utf8 "0")) := by
  have hzero : utf8 "0" = decimal 0 := by decide
  rw [hzero, p.cell_decimal (by norm_num)]
  rintro ⟨row, hrow, hkey⟩
  have hpos := Server.key_pos hs hrow
  have hrow0 : row.1 = 0 := by simpa using hkey
  omega

/-- A row that is inserted refers to rows that are there. -/
theorem insert_refers {d d' : Db .full} {t : TableName} {x : Row t} (hok : d.insert t x = .ok d')
    (fk : ForeignKey Row) (hfk : fk ∈ references) (hchild : fk.child = t)
    (hparent : fk.parent ≠ t) :
    fk.column (hchild ▸ x) = .null ∨ (d fk.parent).Has (fk.column (hchild ▸ x)) := by
  subst hchild
  have hrow : ((d fk.child).seq + 1, x) ∈ (d' fk.child).rows := by
    rw [Database.put_self hok]
    exact Table.mem_insert.mpr (Or.inr rfl)
  have hrefers := refers fk hfk hrow
  rwa [Database.put_of_ne hok hparent] at hrefers

/-- A user whose role is not there cannot be added. -/
theorem addUser_refused {d : Db .full} {request : Dataset}
    (hgiven : getOptionalDatasetValue request "roleId" ≠ [])
    (hrole : ¬ (d .role).Has (p.cell (getOptionalDatasetValue request "roleId"))) :
    Atomic Exception.IsUtf8 d (UsersModule.addUser p request) fun _ _ => False := by
  refine (reads_lift getRequiredDatasetValue_spec).bindAtomic fun username _ => ?_
  refine (reads_lift getRequiredDatasetValue_spec).bindAtomic fun password _ => ?_
  refine (getByField_mem userRepository _ _).bindAtomic fun usersVec _ => ?_
  refine Outcome.ite (fun _ => Outcome.throw ⟨.utf8 _, .utf8 _⟩) fun _ => ?_
  refine (add_spec userRepository _).mono fun _ d' hok => ?_
  have hrefers := insert_refers hok ⟨.user, UserRow.roleId, .role⟩ (by simp [references]) rfl
    (by decide)
  simp only [userRepository, if_neg hgiven] at hrefers
  exact hrefers.elim (p.cell_ne_null _) hrole

/-- A request that adds a user whose role is not there is refused, and changes nothing. -/
theorem Server.addUser_refused {s : Session (Db .full) Exception}
    (hs : (server p .full).Reachable s) (ev : Event) (haddr : ev.request.Addresses .user)
    (hmethod : ev.request.method = utf8 "POST")
    (hgiven : getOptionalDatasetValue ev.request.dataset "roleId" ≠ [])
    (hrole : ¬ (s.store .role).Has (p.cell (getOptionalDatasetValue ev.request.dataset "roleId"))) :
    utf8 "error" ∈ ((server p .full).step s ev).1.dataset ∧
      ((server p .full).step s ev).2.store = s.store := by
  have hrefused : utf8 "error" ∈ ((server p .full).step s ev).1.dataset := by
    by_contra hreply
    have hsub : ev.request.submodule = utf8 "users" := haddr.2
    have hpost : Outcome Exception.IsUtf8 s.store (moduleTask p ev.request)
        (fun _ _ => False) fun _ => False := by
      rw [moduleTask_users p haddr.1, UsersModule.executeTask_users p hsub]
      exact dispatchMethod_write (Or.inl hmethod)
        (fun _ => SageStore.addUser_refused hgiven hrole)
        fun h => absurd (hmethod.symm.trans h) (by decide)
    obtain ⟨-, -, hfalse, -⟩ :=
      executeTask_audits (s := { s with faults := ev.faults }) hpost hreply
    exact hfalse
  exact ⟨hrefused, (Server.step_spec hs ev).unchanged_of_error (by rw [hmethod]; decide) hrefused⟩

/-- The user that the registration form describes. -/
abbrev registered (sha256 : Sha256) (username password : Bytes) : User :=
  ⟨[], username, sha256.hex password, "0"⟩

/-- What a client hears of a reply with the error key: nothing, or that an error occurred. -/
theorem onOutcome_error {s : Session (Db e) Exception} (hJ : J.RoundTrips)
    (hs : (server p e).Reachable s) (r : SentRequest J url) (w : Circumstances)
    (herror : utf8 "error" ∈
      ((server p e).step s ⟨w.now, r.request.task url, w.faults⟩).1.dataset) :
    let outcome := HttpTransaction.doResponse J
      ((server p e).step s ⟨w.now, r.request.task url, w.faults⟩).1
    ApiManager.onOutcome J r.request outcome = none ∨
      ∃ message, ApiManager.onOutcome J r.request outcome =
        some (ApiManager.handleError message) := by
  intro outcome
  unfold ApiManager.onOutcome
  rw [onNetworkReply_doResponse_eq hJ, ResponseData.arrived]
  split
  · rcases handleReply_replyAt (Server.wellFormed hs).1 w (r.request.task url) r.request.endpoint
      r.request.method with ⟨message, hhandled⟩ | ⟨hno, -⟩
    · exact Or.inr ⟨message, hhandled⟩
    · exact absurd herror hno
  · exact Or.inl rfl

/-- **Nobody can register.** In every run, with any number of clients and whatever has happened:
a registration form that is executed, at whatever time and whichever calls fail, leaves the
database as it is; and what its client hears of it, if anything, is an error. -/
theorem registration_refused {κ : Type} [DecidableEq κ] (hJ : J.RoundTrips) (p : Platform)
    (url : QUrl) (sha256 : Sha256)
    (is : List (Network.Input κ HttpEvent Action Circumstances)) {i : ℕ} {c : κ}
    {r : SentRequest J url}
    (hr : ((system p J url sha256 .full).after is).requests[i]? = some (c, r))
    {username password : Bytes}
    (hform : r.request = .addUser (registered sha256 username password)) (w : Circumstances) :
    let s := (system p J url sha256 .full).after is
    let s' := (system p J url sha256 .full).after (is ++ [.execute i w])
    s'.server.store = s.server.store ∧
      ∃ b, s'.replies = s.replies ++ [(c, r, b)] ∧ (ApiManager.onOutcome J r.request b = none ∨
        ∃ message, ApiManager.onOutcome J r.request b = some (ApiManager.handleError message)) := by
  intro s s'
  obtain ⟨s₀, hreach, hstore, hstep⟩ := exists_reachable hJ p url sha256 .full is
  -- the form asks for the role 0, and keys start at 1
  have hrole : getOptionalDatasetValue (r.request.task url).dataset "roleId" = utf8 "0" := by
    rw [hform]
    exact ClientRequest.getOptionalDatasetValue_fields _ _
  have haddr : (r.request.task url).Addresses .user := task_addresses url _ (by rw [hform]; rfl)
  have hmethod : (r.request.task url).method = utf8 "POST" := by
    rw [task_method, hform]
    rfl
  obtain ⟨herror, hsame⟩ := Server.addUser_refused hreach
    ⟨w.now, r.request.task url, w.faults⟩ haddr hmethod (by rw [hrole]; decide)
    (by rw [hrole]; exact Server.no_role_zero hreach)
  have hafter : s' = (system p J url sha256 .full).step s (.execute i w) :=
    Network.after_append_singleton _ is _
  have hserver : (system p J url sha256 .full).server.step s.server
      ((system p J url sha256 .full).event r w) = _ := hstep r w
  rw [hafter, Network.step_execute hr w, hserver]
  exact ⟨hsame.trans hstore, _, rfl, onOutcome_error hJ hreach r w herror⟩

/-- Somebody fills in the registration form. -/
def registerRun : List (Network.Input Unit HttpEvent Action Circumstances) :=
  [.act () (.register "eve" "pw" "pw")]

theorem registration_refused_eve : ∃ r,
    let s := (system .plain .arrays .percent .ofSetup .full).after registerRun
    s.requests[0]? = some ((), r) ∧
      ((system .plain .arrays .percent .ofSetup .full).after
        (registerRun ++ [.execute 0 ⟨noon, []⟩])).server.store = s.server.store := by
  have hleaves : (ClientRequest.addUser (registered .ofSetup "eve" "pw")).dataset.IsUtf8 := by
    decide +kernel
  have hsent : ((taskSystem .plain .percent .ofSetup .full).after (registerRun.map (taskRefinement
      Json.arrays_roundTrips .plain .percent .ofSetup .full).meaning)).requests[0]? =
      some ((), .addUser (registered .ofSetup "eve" "pw")) := by
    show (([ClientRequest.addUser (registered .ofSetup "eve" "pw")].filter fun r =>
      r.dataset.IsUtf8).map fun r => ((), r))[0]? = _
    rw [List.filter_singleton, decide_eq_true hleaves]
    rfl
  obtain ⟨r, hr, hform⟩ :=
    exists_sent Json.arrays_roundTrips .plain .percent .ofSetup .full registerRun hsent
  exact ⟨r, hr, (registration_refused Json.arrays_roundTrips .plain .percent .ofSetup registerRun hr
    hform ⟨noon, []⟩).1⟩

/-! ### Log-ins -/

/-- What every row of a table is, it is after a request, if every row that an accepted request
writes is. Stocks, purchase orders and the log are written by other requests too. -/
theorem Server.rows_step {t : TableName} {Q : Row t → Prop}
    (ht : t ∉ [.log, .inventory, .purchaseOrder]) {s : Session (Db e) Exception}
    (hs : (server p e).Reachable s) (hrows : ∀ r ∈ (s.store t).rows, Q r.2) (ev : Event)
    (hwritten : ev.request.Addresses t →
      ev.request.method = utf8 "POST" ∨ ev.request.method = utf8 "PUT" →
        utf8 "error" ∉ ((server p e).step s ev).1.dataset →
          RowWritten p ev.request Q s.store ((server p e).step s ev).2.store) :
    ∀ r ∈ (((server p e).step s ev).2.store t).rows, Q r.2 := by
  have hstep := Server.step_spec hs ev
  by_cases hw : ev.request.Addresses t ∧
      (ev.request.method = utf8 "POST" ∨ ev.request.method = utf8 "PUT")
  · by_cases hreply : utf8 "error" ∈ ((server p e).step s ev).1.dataset
    · -- a write that is not accepted writes nothing
      rwa [hstep.unchanged_of_error (write_ne hw.2).2 hreply]
    · -- one that is accepted writes a row of which it is known
      obtain ⟨x, hx, ⟨-, hput⟩ | ⟨-, hput⟩⟩ := hwritten hw.1 hw.2 hreply
      · intro r hr
        rcases Table.mem_insert.mp (hput ▸ hr) with hr | rfl
        · exact hrows r hr
        · exact hx
      · intro r hr
        rcases Table.mem_update.mp (hput ▸ hr) with ⟨hr, -⟩ | ⟨-, heq, -⟩
        · exact hrows r hr
        · rw [heq]
          exact hx
  · -- other requests at most delete rows of the table
    have htable := hstep.table t
    generalize ((server p e).step s ev).2.store t = T at htable
    intro r hr
    cases htable with
    | same => exact hrows r hr
    | insert _ x haddr hmethod => exact absurd ⟨haddr, Or.inl hmethod⟩ hw
    | update _ x haddr hmethod => exact absurd ⟨haddr, Or.inr hmethod⟩ hw
    | delete => exact hrows r (Table.mem_delete.mp hr).1
    | deleteSaleOrder => exact hrows r (Table.mem_delete.mp hr).1
    | deletePurchaseOrder => exact hrows r (Table.mem_delete.mp hr).1
    | loseSaleLines gone T hrest => exact hrows r (List.mem_of_mem_filter (hrest ▸ hr))
    | losePurchaseLines gone T hopen hgone hrest =>
      exact hrows r (List.mem_of_mem_filter (hrest ▸ hr))
    | receiveStock => exact absurd (by simp) ht
    | receiveOrder => exact absurd (by simp) ht
    | audit => exact absurd (by simp) ht

/-- What an accepted request makes of a user: there is a role, and the password is the one that
the request carries, or one that is stored. -/
def PutsUser (d : Db e) (request : Dataset) (x : UserRow) : Prop :=
  x.roleId ≠ .null ∧ ∃ password, x.password = cstr password ∧
    (password = getOptionalDatasetValue request "password" ∨
      ∃ r ∈ (d .user).rows, r.2.password = password)

/-- An accepted write of a user writes one of the rows that the request describes. -/
theorem userWritten {s : Session (Db e) Exception} (haddr : req.Addresses .user)
    (hmethod : req.method = utf8 "POST" ∨ req.method = utf8 "PUT")
    (hreply : utf8 "error" ∉ (executeTask p now req s).1.dataset) :
    RowWritten (t := .user) p req (PutsUser s.store req.dataset) s.store
      (executeTask p now req s).2.store := by
  -- a role that is left out is the first one
  have hrole : (writtenRow p req.dataset .user).roleId ≠ .null := by
    dsimp only [writtenRow]
    split
    · exact Cell.noConfusion
    · exact p.cell_ne_null _
  refine (rowMade haddr hmethod hreply).mono fun x hx => ?_
  cases hx with
  | described => exact ⟨hrole, _, rfl, Or.inl rfl⟩
  | kept r hr => exact ⟨hrole, _, rfl, Or.inr ⟨r, hr, rfl⟩⟩

/-- Under full enforcement the role of a user is the key of a role. -/
theorem Server.user_role {s : Session (Db .full) Exception} (hs : (server p .full).Reachable s)
    {r : ℕ × UserRow} (hr : r ∈ (s.store .user).rows) : ∃ n : ℕ, r.2.roleId = .int n := by
  have hseed : ∀ r ∈ (Table.ofRows (seedRows .user)).rows, r.2.roleId ≠ .null := by decide
  have hgiven := hs.invariant
    (I := fun s => (server p .full).Reachable s ∧ ∀ r ∈ (s.store .user).rows, r.2.roleId ≠ .null)
    ⟨(server p .full).reachable_init, hseed⟩ fun s ev hI => ⟨hI.1.step ev,
      Server.rows_step (t := .user) (Q := fun x => x.roleId ≠ .null) (by decide) hI.1 hI.2 ev
        fun haddr hmethod hreply => (userWritten haddr hmethod hreply).mono fun x hx => hx.1⟩
  obtain ⟨row, -, hkey⟩ :=
    (refers ⟨.user, UserRow.roleId, .role⟩ (by simp [references]) hr).resolve_left
      (hgiven.2 r hr)
  exact ⟨row.1, hkey.symm⟩

/-- A log-in with the password of the user succeeds while no call fails. -/
theorem UsersModule.login_completes {d : Db e} (snap : Option (Db e)) {request : Dataset}
    (hname : getOptionalDatasetValue request "username" ≠ [])
    (hpassword : getOptionalDatasetValue request "password" ≠ [])
    (hhas : HasPassword d (getOptionalDatasetValue request "username")
      (getOptionalDatasetValue request "password")) :
    Completes d snap (loginUser p request) fun reply _ => ∃ r ∈ (d .user).rows,
      reply = record [("id", decimal r.1), ("roleId", r.2.roleId.toText)] := by
  have hrequired {key : String} (h : getOptionalDatasetValue request key ≠ []) :
      getRequiredDatasetValue request key "UsersModule" =
        .ok (getOptionalDatasetValue request key) := by
    unfold getRequiredDatasetValue
    dsimp only
    rw [if_neg h]
    rfl
  refine (Completes.lift ⟨_, hrequired hname⟩).bind ?_
  rintro username d ⟨rfl, hok⟩
  obtain rfl := Except.ok.inj ((hrequired hname).symm.trans hok)
  refine (Completes.lift ⟨_, hrequired hpassword⟩).bind ?_
  rintro password d ⟨rfl, hok⟩
  obtain rfl := Except.ok.inj ((hrequired hpassword).symm.trans hok)
  refine Completes.bind (W := fun usersVec d' => d' = d ∧ usersVec = _)
    ⟨_, d, exec_getByField userRepository _ _ d snap, rfl, rfl⟩ ?_
  rintro usersVec d ⟨rfl, husers⟩
  have hmem {user : User} (h : user ∈ usersVec) : ∃ r ∈ (d .user).rows,
      r.2.username = cstr (getOptionalDatasetValue request "username") ∧
        user = userRepository.fromCurrentRow r.1 r.2 := by
    rw [husers] at h
    obtain ⟨r, hr, rfl⟩ := List.mem_map.mp h
    exact ⟨r, (mem_matching.mp hr).1, (mem_matching.mp hr).2, rfl⟩
  cases usersVec with
  | nil =>
    -- the user with the password has the name
    obtain ⟨r, hr, hrname, -⟩ := hhas
    have hfound : userRepository.fromCurrentRow r.1 r.2 ∈ ([] : List User) := by
      rw [husers]
      exact List.mem_map_of_mem (mem_matching.mpr ⟨hr, hrname⟩)
    exact absurd hfound List.not_mem_nil
  | cons user rest =>
    obtain ⟨r, hr, hrname, rfl⟩ := hmem List.mem_cons_self
    have hfits : (userRepository.fromCurrentRow r.1 r.2).password =
        getOptionalDatasetValue request "password" := (hasPassword_iff hr hrname).mp hhas
    dsimp only
    rw [if_pos hfits]
    exact Completes.pure ⟨r, hr, rfl⟩

/-- The reply to a log-in says who has logged in. -/
theorem handleReply_loginReply {id roleId : Bytes} (hid : id ≠ []) (hrole : roleId ≠ [])
    {reply : ResponseData} (hreply : reply = record [("id", id), ("roleId", roleId)]) :
    ApiManager.handleReply .login .post reply.dataset = some (.loginSuccess id roleId) := by
  have hnodup : (([("id", id), ("roleId", roleId)] : List (String × Bytes)).map
      fun f => utf8 f.1).Nodup := by
    simpa using utf8_injective.ne (show "id" ≠ "roleId" by decide)
  -- the reply has one text under each key
  have hlookup {key : String} {value : Bytes}
      (hmem : (key, value) ∈ [("id", id), ("roleId", roleId)]) :
      reply.dataset.lookup (utf8 key) = some [value] := by
    have hcolumn := column_record hnodup hmem
    rw [← hreply, column] at hcolumn
    cases hl : reply.dataset.lookup (utf8 key) with
    | none => rw [hl] at hcolumn; cases hcolumn
    | some texts => rw [hl] at hcolumn; exact congrArg some hcolumn
  rw [ApiManager.handleReply_of_no_error]
  · simp only [ApiManager.handler, ApiManager.handleLoginResponse,
      hlookup (List.mem_cons_self : ("id", id) ∈ _),
      hlookup (List.mem_cons_of_mem _ List.mem_cons_self : ("roleId", roleId) ∈ _)]
    rw [if_neg (not_or.mpr ⟨hid, hrole⟩)]
  · rw [hreply]
    intro h
    rcases List.mem_pair.mp (mem_listing.mp h) with h | h
    · exact absurd (show "error" = "id" from utf8_injective h) (by decide)
    · exact absurd (show "error" = "roleId" from utf8_injective h) (by decide)

/-- A log-in that is executed while no call fails succeeds exactly with the password. -/
theorem onOutcome_login {s : Session (Db .full) Exception} (hJ : J.RoundTrips)
    (hs : (server p .full).Reachable s) (r : SentRequest J url) (now : UtcTime)
    {username digest : Bytes} (hdigest : digest ≠ [])
    (hform : r.request = .loginUser username digest) :
    (∃ id roleId, ApiManager.onOutcome J r.request (HttpTransaction.doResponse J
        ((server p .full).step s ⟨now, r.request.task url, []⟩).1) =
          some (.loginSuccess id roleId)) ↔
      username ≠ [] ∧ HasPassword s.store username digest := by
  have hname : getOptionalDatasetValue r.request.dataset "username" = username := by
    rw [hform]
    exact ClientRequest.getOptionalDatasetValue_fields _ _
  have hpassword : getOptionalDatasetValue r.request.dataset "password" = digest := by
    rw [hform]
    exact ClientRequest.getOptionalDatasetValue_fields _ _
  have hend : r.request.endpoint = .login := by rw [hform]; rfl
  have hmethod : r.request.method = .post := by rw [hform]; rfl
  constructor
  · rintro ⟨id, roleId, hsuccess⟩
    -- a reply with the error key is not handled as a log-in
    have hreply : utf8 "error" ∉
        ((server p .full).step s ⟨now, r.request.task url, []⟩).1.dataset := by
      intro herror
      rcases onOutcome_error hJ hs r ⟨now, []⟩ herror with hnone | ⟨message, hmessage⟩
      · exact absurd (hsuccess.symm.trans hnone) (Option.some_ne_none _)
      · cases hsuccess.symm.trans hmessage
    have hfound := replyAt_login (p := p) (w := ⟨now, []⟩) hend hmethod hreply
    rwa [hname, hpassword] at hfound
  · rintro ⟨hne, hhas⟩
    have hcompletes : Completes s.store s.snapshot (UsersModule.loginUser p r.request.dataset) _ :=
      UsersModule.login_completes s.snapshot (by rw [hname]; exact hne)
        (by rw [hpassword]; exact hdigest) (by rw [hname, hpassword]; exact hhas)
    obtain ⟨reply, d', hrun, row, hrow, hreply⟩ := hcompletes
    have hanswer : ((server p .full).step s ⟨now, r.request.task url, []⟩).1 = reply := by
      refine executeTask_of_ok p now (Eq.trans ?_ hrun)
      exact congrArg (exec · _) (moduleTask_login hend hmethod)
    obtain ⟨n, hn⟩ := Server.user_role hs hrow
    have hvalid : reply.dataset.IsUtf8 := by
      rw [hreply, hn]
      refine isUtf8_listing fun _ _ c hc => ?_
      rcases List.mem_pair.mp hc with rfl | rfl
      · exact .decimal _
      · exact IsUtf8.ofInt n
    refine ⟨decimal row.1, row.2.roleId.toText, ?_⟩
    unfold ApiManager.onOutcome
    rw [hanswer, onNetworkReply_doResponse hJ hvalid, hend, hmethod]
    exact handleReply_loginReply (decimal_ne_nil _) (by rw [hn]; exact ofInt_ne_nil _) hreply

/-- A client is logged in after a reply if it was before, or if the reply is to a log-in that
succeeded. -/
theorem isAuthenticated_receive (client : Client) (r : SentRequest J url) (b : HttpOutcome) :
    ((Client.exchange J url sha256).receive client r b).1.isAuthenticated = true ↔
      client.isAuthenticated = true ∨
        ∃ id roleId, ApiManager.onOutcome J r.request b = some (.loginSuccess id roleId) := by
  unfold Client.exchange
  dsimp only
  cases ApiManager.onOutcome J r.request b with
  | none => exact ⟨Or.inl, fun h => h.resolve_right fun ⟨_, _, heq⟩ => by cases heq⟩
  | some signal =>
    constructor
    · intro h
      rcases Client.isAuthenticated_onSignal client signal with heq | ⟨id, roleId, rfl⟩
      · exact Or.inl (heq.symm.trans h)
      · exact Or.inr ⟨id, roleId, rfl⟩
    · rintro (h | ⟨id, roleId, heq⟩)
      · exact Client.isAuthenticated_onSignal_of signal h
      · cases heq
        rfl

/-- **A log-in is decided when it is executed.** In every run: a log-in that is executed while no
call fails has one reply; and whenever that is delivered, in this run or another, its client is
logged in afterwards exactly if it was before, or the name is given and the digest was the password
of the user whose name stands before its first NUL, at the state in which the log-in was executed,
whatever has happened since. -/
theorem logIn_decided {κ : Type} [DecidableEq κ] (hJ : J.RoundTrips) (p : Platform) (url : QUrl)
    (sha256 : Sha256) (is : List (Network.Input κ HttpEvent Action Circumstances)) {i : ℕ} {c : κ}
    {r : SentRequest J url}
    (hr : ((system p J url sha256 .full).after is).requests[i]? = some (c, r))
    {username password : Bytes}
    (hform : r.request = .loginUser username (sha256.hex password)) (now : UtcTime) :
    let N := system p J url sha256 .full
    let s := N.after is
    ∃ b, (N.after (is ++ [.execute i ⟨now, []⟩])).replies = s.replies ++ [(c, r, b)] ∧
      ∀ js k, (N.after js).replies[k]? = some (c, r, b) →
        (((N.after (js ++ [.deliver k])).client c).isAuthenticated = true ↔
          ((N.after js).client c).isAuthenticated = true ∨
            username ≠ [] ∧ HasPassword s.server.store username (sha256.hex password)) := by
  intro N s
  obtain ⟨s₀, hreach, hstore, hstep⟩ := exists_reachable hJ p url sha256 .full is
  have hserver : N.server.step s.server (N.event r ⟨now, []⟩) = _ := hstep r ⟨now, []⟩
  have hdigest : sha256.hex password ≠ [] :=
    List.ne_nil_of_length_pos (by rw [sha256.hex_length]; decide)
  refine ⟨(N.server.step s.server (N.event r ⟨now, []⟩)).1, ?_, fun js k hk => ?_⟩
  · rw [Network.after_append_singleton, Network.step_execute hr]
  · rw [Network.after_append_singleton, Network.step_deliver hk, Network.put_client_self]
    refine (isAuthenticated_receive _ r _).trans (or_congr_right ?_)
    rw [hserver, onOutcome_login hJ hreach r now hdigest hform, hstore]

theorem logIn_decided_admin :
    (((system .plain .arrays .percent .ofSetup .full).after loginRun).client ()).isAuthenticated =
      true := by
  have hleaves : (ClientRequest.loginUser (utf8 "admin")
      (Sha256.ofSetup.hex (utf8 "admin123"))).dataset.IsUtf8 := by
    decide +kernel
  have hsent : ((taskSystem .plain .percent .ofSetup .full).after ([.act () (.login "admin"
      "admin123")].map (taskRefinement Json.arrays_roundTrips .plain .percent .ofSetup
        .full).meaning)).requests[0]? =
      some ((), .loginUser (utf8 "admin") (Sha256.ofSetup.hex (utf8 "admin123"))) := by
    show (([ClientRequest.loginUser (utf8 "admin") (Sha256.ofSetup.hex (utf8 "admin123"))].filter
      fun r => r.dataset.IsUtf8).map fun r => ((), r))[0]? = _
    rw [List.filter_singleton, decide_eq_true hleaves]
    rfl
  obtain ⟨r, hr, hform⟩ := exists_sent Json.arrays_roundTrips .plain .percent .ofSetup .full _ hsent
  obtain ⟨b, hb, hdecided⟩ :=
    logIn_decided Json.arrays_roundTrips .plain .percent .ofSetup _ hr hform noon
  refine (hdecided [.act () (.login "admin" "admin123"), .execute 0 ⟨noon, []⟩] 0 ?_).mpr
    (Or.inr ⟨by decide, ⟨_, List.mem_cons_self, rfl, rfl⟩⟩)
  exact (congrArg (·[0]?) hb).trans rfl

/-! ### The view of users -/

/-- The password of the initial administrator, as it is stored. -/
def initialDigest : Bytes := "240be518fabd2724ddb6f04eeb1da5967448d7e831c08c8fa822809f74c720a9"

/-- The text is what the log-in form sends of some password. -/
def Sha256.IsDigest (sha256 : Sha256) (t : Bytes) : Prop := ∃ password, sha256.hex password = t

/-- A digest has 64 digits. -/
theorem Sha256.IsDigest.length {t : Bytes} (h : sha256.IsDigest t) : t.length = 64 := by
  obtain ⟨password, rfl⟩ := h
  exact sha256.hex_length password

/-- A user who can log in has the password of the initial administrator. -/
def HasInitialPassword (sha256 : Sha256) (x : UserRow) : Prop :=
  cstr x.password = x.password ∧ (sha256.IsDigest x.password → x.password = initialDigest)

/-- The request, if it writes a user, is a registration, or stores no digest as the password. -/
def RequestData.StoresNoDigest (sha256 : Sha256) (req : RequestData) : Prop :=
  req.Addresses .user → req.method = utf8 "POST" ∨ req.method = utf8 "PUT" →
    req.method = utf8 "POST" ∧ getOptionalDatasetValue req.dataset "roleId" = utf8 "0" ∨
      ¬ sha256.IsDigest (cstr (getOptionalDatasetValue req.dataset "password"))

/-- **One request** that stores no digest brings nobody a password that works. -/
theorem Server.initialPassword_step {s : Session (Db .full) Exception}
    (hs : (server p .full).Reachable s)
    (hrows : ∀ r ∈ (s.store .user).rows, HasInitialPassword sha256 r.2) (ev : Event)
    (hev : ev.request.StoresNoDigest sha256) :
    ∀ r ∈ (((server p .full).step s ev).2.store .user).rows, HasInitialPassword sha256 r.2 := by
  refine Server.rows_step (t := .user) (by decide) hs hrows ev fun haddr hmethod hreply => ?_
  rcases hev haddr hmethod with ⟨hpost, hrole⟩ | hno
  · -- a registration is refused
    have hrefused := Server.addUser_refused hs ev haddr hpost (by rw [hrole]; decide)
      (by rw [hrole]; exact Server.no_role_zero hs)
    exact absurd hrefused.1 hreply
  refine (userWritten haddr hmethod hreply).mono fun x hx => ?_
  obtain ⟨-, password, hx, rfl | ⟨r, hr, rfl⟩⟩ := hx
  · exact ⟨by rw [hx, cstr_cstr], fun hdigest => absurd (hx ▸ hdigest) hno⟩
  · rw [HasInitialPassword, hx, (hrows r hr).1]
    exact hrows r hr

/-- Users are created and edited in their view, with passwords that are no digests. -/
def Action.InUsersView (qt : Qt) (sha256 : Sha256) : Action → Prop
  | .createEntity .user user =>
    UsersView.Does qt (fun text => ¬ sha256.IsDigest (cstr text)) (.createEntity .user user)
  | .editEntity .user user =>
    UsersView.Does qt (fun text => ¬ sha256.IsDigest (cstr text)) (.editEntity .user user)
  | _ => True

/-- What the view of users has stored is no digest. -/
theorem not_isDigest_of_does {qt : Qt} {a : Action} {user : User}
    (h : UsersView.Does qt (fun text => ¬ sha256.IsDigest (cstr text)) a)
    (ha : a = .createEntity .user user ∨ a = .editEntity .user user) :
    ¬ sha256.IsDigest (cstr user.password) := by
  obtain ⟨user', ha', hpassword⟩ := h.stores
  obtain rfl : user' = user := by
    rcases ha with rfl | rfl <;> rcases ha' with heq | heq <;> cases heq <;> rfl
  rcases hpassword with hnone | hnew | htyped
  · rw [hnone]
    exact fun h => absurd h.length (by decide)
  · rw [hnew]
    exact fun h => absurd h.length (by decide)
  · exact htyped

/-- A request that creates or edits no user stores no digest. -/
theorem storesNoDigest_of_endpoint {request : ClientRequest}
    (h : request.endpoint ≠ .resource .user) : (request.task url).StoresNoDigest sha256 :=
  fun haddr _ => absurd (endpoint_of_addresses url _ haddr) h

/-- Requests that list or delete store no digest. -/
theorem storesNoDigest_of_method {request : ClientRequest}
    (h : request.method = .get ∨ request.method = .del) :
    (request.task url).StoresNoDigest sha256 := by
  intro _ hmethod
  rw [task_method] at hmethod
  rcases h with h | h <;> rw [h] at hmethod
  · exact absurd hmethod (by decide)
  · exact absurd hmethod (by decide)

/-- Every request of a view reads. -/
theorem method_fetches (view : View) : ∀ r ∈ view.fetches, r.method = .get := by
  have h : (view.fetches.all fun r => decide (r.method = .get)) = true := by
    cases view <;> rfl
  exact fun r hr => of_decide_eq_true (List.all_eq_true.mp h r hr)

/-- What a client requests stores no digest, if what is done in the view of users does not. -/
theorem storesNoDigest_act {qt : Qt} {client : Client} {a : Action} (ha : a.InUsersView qt sha256)
    {request : ClientRequest} (hr : request ∈ (client.act sha256 a).2) :
    (request.task url).StoresNoDigest sha256 := by
  cases Client.sends_of_act hr with
  | login username password => exact storesNoDigest_of_endpoint Endpoint.noConfusion
  | register username password =>
    -- a registration does send a digest, but with the role 0
    exact fun _ _ => Or.inl ⟨rfl, ClientRequest.getOptionalDatasetValue_fields _ _⟩
  | fetch view _ hauth hr =>
    exact storesNoDigest_of_method (Or.inl (method_fetches view request hr))
  | orderRecords k orderId hsome =>
    exact storesNoDigest_of_method (Or.inl (by cases k <;> rfl))
  | create t entity r hmanages hr =>
    cases t with
    | user =>
      cases hr
      refine fun _ _ => Or.inr ?_
      have hpassword : getOptionalDatasetValue ((ClientRequest.addUser entity).task url).dataset
          "password" = entity.password := ClientRequest.getOptionalDatasetValue_fields _ _
      rw [hpassword]
      exact not_isDigest_of_does ha (Or.inl rfl)
    | _ =>
      obtain ⟨dataset, rfl⟩ := ClientRequest.createEntity_eq hr
      exact storesNoDigest_of_endpoint (by rintro ⟨⟩)
  | edit t entity r hmanages hr =>
    cases t with
    | user =>
      cases hr
      refine fun _ _ => Or.inr ?_
      have hpassword : getOptionalDatasetValue ((ClientRequest.editUser entity).task url).dataset
          "password" = entity.password := ClientRequest.getOptionalDatasetValue_fields _ _
      rw [hpassword]
      exact not_isDigest_of_does ha (Or.inr rfl)
    | _ =>
      obtain ⟨dataset, id, rfl⟩ := ClientRequest.editEntity_eq hr
      exact storesNoDigest_of_endpoint (by rintro ⟨⟩)
  | delete t id r hmanages hr =>
    obtain rfl := ClientRequest.deleteEntity_eq hr
    exact storesNoDigest_of_method (Or.inr rfl)
  | receipt orderId employeeId hsome => exact storesNoDigest_of_endpoint Endpoint.noConfusion

/-- What a client has under way stores no digest. -/
theorem storesNoDigest_rule (qt : Qt) (p : Platform) (url : QUrl) (sha256 : Sha256)
    (e : Enforcement) : (taskSystem p url sha256 e).ClientRule (fun _ _ _ => True)
      fun A _ r => (∀ a, A a → a.InUsersView qt sha256) → (r.task url).StoresNoDigest sha256 where
  mono _ _ _ := trivial
  sent_mono hA h hA' := h fun a ha => hA' a (hA a ha)
  init _ _ := trivial
  act _ _ := trivial
  act_sent ha _ r hr hA := storesNoDigest_act (hA _ ha) (List.mem_of_mem_filter hr)
  act_stable _ _ h := h
  receive _ _ _ _ := trivial
  receive_sent {V A client r b} _ _ _ _ r' hr' _ := by
    change r' ∈ ((Client.taskExchange sha256).receive client r b).2 at hr'
    unfold Client.taskExchange at hr'
    dsimp only at hr'
    split at hr'
    · exact absurd hr' List.not_mem_nil
    · obtain ⟨-, t, id, rfl⟩ := Client.mem_onSignal (List.mem_of_mem_filter hr')
      exact storesNoDigest_of_method (Or.inl rfl)
  receive_stable h := h

/-- **The one password that lets anybody in.** In every run of the deployed system in which nobody
but the clients asks the server for anything, users are created and edited in their view, and
nothing that is typed there as a password is itself a digest: whoever is logged in has typed a
password with the digest of the initial administrator's, whatever was registered, created or
edited, and whatever is lost or reordered. -/
theorem initial_password_only {κ : Type} [DecidableEq κ] (hJ : J.RoundTrips) (qt : Qt)
    (p : Platform) (url : QUrl) (sha256 : Sha256)
    (is : List (Network.Input κ HttpEvent Action Circumstances)) (hclients : ∀ ev, .other ev ∉ is)
    (hview : ∀ c a, Network.Did is c a → a.InUsersView qt sha256) (c : κ)
    (hauth : (((system p J url sha256 .full).after is).client c).isAuthenticated = true) :
    ∃ username password, Network.Did is c (.login username password) ∧
      sha256.hex password = initialDigest := by
  have hrule : (system p J url sha256 .full).ClientRule _ _ := admitted_rule hJ p
  obtain ⟨username, password, hdid, s, hs, r, hr, -, hpassword⟩ :=
    ((hrule.holds is).client c).byPassword hauth
  refine ⟨username, password, hdid, ?_⟩
  let R := taskRefinement hJ p url sha256 .full
  -- every state that the server goes through is one of the system without HTTP, where all users
  -- have the initial password or none that works
  obtain ⟨s', hs', hsame, -⟩ := R.visited hs
  have hrows := (storesNoDigest_rule qt p url sha256 .full).visited
    (J := fun s => ∀ r ∈ (s.store .user).rows, HasInitialPassword sha256 r.2) ?_ ?_ ?_ hs'
  · rw [hsame] at hr
    rw [← hpassword]
    exact (hrows r hr).2 ⟨password, hpassword.symm⟩
  · show ∀ r ∈ (Table.ofRows (seedRows .user)).rows, HasInitialPassword sha256 r.2
    intro r hr
    obtain rfl := List.mem_singleton.mp hr
    exact ⟨by decide, fun _ => rfl⟩
  · intro s c g r w hreach hJ hsent
    have hreach := reachable_of_taskServer hreach
    exact Server.initialPassword_step hreach hJ ⟨w.now, r.task url, w.faults⟩
      (hsent fun a ha => hview c a (R.did_meaning.mp ha))
  · intro ev hev
    obtain ⟨i, hi, heq⟩ := List.mem_map.mp hev
    cases i with
    | other ev' => exact absurd hi (hclients ev')
    | _ => cases heq

theorem initial_password_only_admin : ∃ username password,
    Network.Did loginRun () (.login username password) ∧
      Sha256.ofSetup.hex password = initialDigest := by
  refine initial_password_only Json.arrays_roundTrips .plain .plain .percent .ofSetup loginRun ?_ ?_
    () ?_
  · rintro ev (_ | ⟨_, _ | ⟨_, _ | ⟨_, ⟨⟩⟩⟩⟩)
  · rintro c a (_ | ⟨_, _ | ⟨_, _ | ⟨_, ⟨⟩⟩⟩⟩)
    trivial
  · rw [client_after Json.arrays_roundTrips]
    decide +kernel

end SageStore
