import Mathlib.Data.List.Forall2
import SageStore.Foundation.View
import SageStore.Server.Footprint
import SageStore.Server.Steps

/-!
# Passwords

Two states of the server that differ in the passwords of users only (`SameState`) cannot be
told apart by requests that do not log in (`passwords_do_not_leak`). The run from one is
compared with the run from the other, call by call. A task that reaches the users only to ask
whether one exists is blind to passwords by its form (`Footprint.blind`); what is left are the
four tasks that read or write the rows of users, and the log-in.
-/

namespace SageStore

open Bytes Program BusinessLogic

variable {e : Enforcement} {p : Platform}

/-- A row, with `pw` in the place of a user's password. -/
def withPassword (pw : Bytes) : ∀ t, Row t → Row t
  | .user, x => { x with password := pw }
  | _, x => x

/-- Only users have a password. -/
theorem withPassword_of_ne {t : TableName} (ht : t ≠ .user) (pw : Bytes) (x : Row t) :
    withPassword pw t x = x := by
  cases t with
  | user => exact absurd rfl ht
  | _ => rfl

/-- No constraint reads the password of a user. -/
theorem overlook_withPassword (pw : Bytes) : (constraints e).Overlook (withPassword pw) where
  unique u hu x := by
    rcases mem_uniqueKeys hu with rfl | rfl <;> rfl
  references fk hfk x := by
    have hall : ∀ fk ∈ references, ∀ x, fk.column (withPassword pw fk.child x) = fk.column x := by
      simp [references, withPassword]
    exact hall fk (mem_references_of_mem hfk) x

/-- The databases differ in the passwords of users only. -/
abbrev SameButPasswords (d d' : Db e) : Prop := Database.Alike (withPassword []) d d'

section Repositories

variable {d d' : Db e} {t : TableName} {E : Type}

/-- All other tables are the same. -/
theorem SameButPasswords.eq_of_ne (h : SameButPasswords d d') (ht : t ≠ .user) : d t = d' t := by
  have hview := h t
  rwa [Table.map_eq_self (withPassword_of_ne ht []), Table.map_eq_self (withPassword_of_ne ht [])]
    at hview

/-- Rows of two tables that are the same but for passwords: equal keys, and equal columns but
for the password. -/
theorem SameButPasswords.rows (h : SameButPasswords d d') (t : TableName) :
    List.Forall₂ (fun r r' : ℕ × Row t =>
      r.1 = r'.1 ∧ withPassword [] t r.2 = withPassword [] t r'.2) (d t).rows (d' t).rows := by
  have hrows : List.Forall₂ (· = ·) ((d t).map (withPassword [] t)).rows
      ((d' t).map (withPassword [] t)).rows := by
    rw [List.forall₂_eq_eq_eq, h t]
  rw [Table.map_rows, Table.map_rows, List.forall₂_map_left_iff, List.forall₂_map_right_iff]
    at hrows
  exact hrows.imp fun r r' heq => Prod.mk.inj heq

/-- What a repository reads of a row. -/
abbrev ReadAlike (r : Repository t E) (y y' : E) : Prop :=
  ∃ (i : ℕ) (x x' : Row t), withPassword [] t x = withPassword [] t x' ∧
    y = r.fromCurrentRow i x ∧ y' = r.fromCurrentRow i x'

/-- Listings of databases that differ in passwords differ in passwords. -/
theorem getAll_lockstep (r : Repository t E) :
    Lockstep SameButPasswords (r.getAll : Task e (List E)) r.getAll
      (List.Forall₂ (ReadAlike r)) := by
  refine Lockstep.query fun d d' h => .ok ?_
  rw [List.forall₂_map_left_iff, List.forall₂_map_right_iff]
  exact (h.rows t).imp fun x x' hx => ⟨x.1, x.2, x'.2, hx.2, rfl, by rw [hx.1]⟩

/-- A look-up in a column that is not the password finds the same rows. -/
theorem SameButPasswords.found (h : SameButPasswords d d') (r : Repository t E) {c : Column t}
    (v : Bytes) (hc : ∀ i x, c.Matches p v (i, withPassword [] t x) ↔ c.Matches p v (i, x)) :
    List.Forall₂ (ReadAlike r)
      (((d t).rows.filter fun x => c.Matches p v x).map fun x => r.fromCurrentRow x.1 x.2)
      (((d' t).rows.filter fun x => c.Matches p v x).map fun x => r.fromCurrentRow x.1 x.2) := by
  rw [List.forall₂_map_left_iff, List.forall₂_map_right_iff]
  have hmatch : ∀ x x' : ℕ × Row t,
      x.1 = x'.1 ∧ withPassword [] t x.2 = withPassword [] t x'.2 →
        (decide (c.Matches p v x) = true ↔ decide (c.Matches p v x') = true) := by
    rintro ⟨i, x⟩ ⟨_, x'⟩ ⟨rfl, hx⟩
    rw [decide_eq_true_eq, decide_eq_true_eq, ← hc i x, hx, hc i x']
  refine (List.rel_filter hmatch (h.rows t)).imp fun x x' hx => ?_
  exact ⟨x.1, x.2, x'.2, hx.2, rfl, by rw [hx.1]⟩

/-- So do look-ups by any column but the password. -/
theorem getByField_lockstep (r : Repository t E) {c : Column t} (v : Bytes)
    (hc : ∀ i x, c.Matches p v (i, withPassword [] t x) ↔ c.Matches p v (i, x)) :
    Lockstep SameButPasswords (r.getByField p c v : Task e (List E)) (r.getByField p c v)
      (List.Forall₂ (ReadAlike r)) :=
  Lockstep.query fun _ _ h => .ok (h.found r v hc)

theorem executeStatement_lockstep {f g : Db e → Except Violation (Db e)}
    (h : ∀ d d', SameButPasswords d d' → Except.Agree SameButPasswords (f d) (g d')) :
    Lockstep SameButPasswords (Repository.executeStatement f) (Repository.executeStatement g)
      fun _ _ => True :=
  Lockstep.statement fun d d' hd => (h d d' hd).mapError databaseError

/-- Two updates of one row that differ in the password only. -/
theorem update_lockstep (r : Repository t E) {x x' : E} (hid : r.id x = r.id x')
    (hrow : withPassword [] t (r.updateRow p x) = withPassword [] t (r.updateRow p x')) :
    Lockstep SameButPasswords (r.update p x : Task e Unit) (r.update p x')
      fun _ _ => True :=
  executeStatement_lockstep fun d d' hd => by
    rw [hid]
    exact hd.update (overlook_withPassword []) _ hrow

/-- Writing does not tell the passwords apart. -/
theorem add_blind (r : Repository t E) (x : E) :
    Blind SameButPasswords (r.add p x : Task e Unit) :=
  (executeStatement_lockstep fun _ _ hd => hd.insert (overlook_withPassword []) rfl).blind

theorem update_blind (r : Repository t E) (x : E) :
    Blind SameButPasswords (r.update p x : Task e Unit) :=
  (update_lockstep r rfl rfl).blind

theorem deleteResource_blind (r : Repository t E) (id : Bytes) :
    Blind SameButPasswords (r.deleteResource p id : Task e Unit) :=
  (executeStatement_lockstep fun _ _ hd =>
    hd.delete (overlook_withPassword []) t (p.cell id)).blind

/-- Whether a key is in use does not depend on passwords. -/
theorem ensureKey_blind (r : Repository t E) (v : Bytes) (component message : String) :
    Blind SameButPasswords (ensureEntityExists p r .id v component message : Task e Unit) := by
  refine Lockstep.bind (getByField_lockstep r v fun _ _ => Iff.rfl) fun xs xs' hxs => ?_
  cases hxs with
  | nil => exact Lockstep.throw _
  | cons _ _ => exact Lockstep.pure rfl

theorem dispatchMethod_blind (component : String) {method : Bytes} {get : Task e ResponseData}
    {post put delete : Task e Unit} (hget : Blind SameButPasswords get)
    (hpost : Blind SameButPasswords post) (hput : Blind SameButPasswords put)
    (hdelete : Blind SameButPasswords delete) :
    Blind SameButPasswords (dispatchMethod component method get post put delete) := by
  refine Lockstep.ite (fun _ => hget) fun _ => ?_
  refine Lockstep.ite (fun _ => hpost.bind fun _ => Blind.pure _) fun _ => ?_
  refine Lockstep.ite (fun _ => hput.bind fun _ => Blind.pure _) fun _ => ?_
  exact Lockstep.ite (fun _ => hdelete.bind fun _ => Blind.pure _) fun _ => Lockstep.throw _

/-- **A task that does not reach the users' repository is blind to passwords.** -/
theorem Footprint.blind {ts : List TableName} {α : Type} {x : Task e α}
    (h : Footprint p ts x) (hts : .user ∉ ts) : Blind SameButPasswords x := by
  have hne {t : TableName} (ht : t ∈ ts) : t ≠ .user := fun heq => hts (heq ▸ ht)
  induction h with
  | pure a => exact Blind.pure a
  | throw ex => exact Blind.throw ex
  | bind _ _ ihx ihf => exact Blind.bind ihx ihf
  | getAll r ht =>
    -- the table itself is the same in both databases
    exact Lockstep.query fun d d' hd => by
      rw [hd.eq_of_ne (hne ht)]
      exact .ok rfl
  | getByField r c v ht =>
    exact Lockstep.query fun d d' hd => by
      rw [hd.eq_of_ne (hne ht)]
      exact .ok rfl
  | add r x _ => exact add_blind r x
  | update r x _ => exact update_blind r x
  | deleteResource r id _ => exact deleteResource_blind r id
  | ensureKey r v component message => exact ensureKey_blind r v component message
  | runInTransaction _ ih => exact Blind.transaction ih

end Repositories

/-! ### The tasks that read users -/

namespace UsersModule

/-- What is read of two rows that are the same but for the password. -/
theorem readAlike_user {u u' : User} (h : ReadAlike userRepository u u') :
    u.id = u'.id ∧ u.username = u'.username ∧ u.roleId = u'.roleId := by
  obtain ⟨i, x, x', hx, rfl, rfl⟩ := h
  obtain ⟨hname, -, hrole⟩ := UserRow.mk.inj hx
  exact ⟨rfl, hname, congrArg Cell.toText hrole⟩

/-- The listing of users leaves their passwords out. -/
theorem getUsers_blind : Blind SameButPasswords (getUsers : Task e ResponseData) := by
  refine Lockstep.bind (getAll_lockstep userRepository) fun us us' hus => Lockstep.pure ?_
  have hcolumn {f : User → Bytes} (hf : ∀ u u', ReadAlike userRepository u u' → f u = f u') :
      us.map f = us'.map f := by
    rw [← List.forall₂_eq_eq_eq, List.forall₂_map_left_iff, List.forall₂_map_right_iff]
    exact hus.imp hf
  have hid := hcolumn fun u u' h => (readAlike_user h).1
  have hname := hcolumn fun u u' h => (readAlike_user h).2.1
  have hrole := hcolumn fun u u' h => (readAlike_user h).2.2
  simp only [listing, List.map_cons, List.map_nil, hid, hname, hrole]

/-- Neither does adding a user. -/
theorem addUser_blind (request : Dataset) :
    Blind SameButPasswords (addUser p request : Task e Unit) := by
  refine Blind.bind (Blind.lift _) fun username => Blind.bind (Blind.lift _) fun password => ?_
  refine Lockstep.bind (getByField_lockstep userRepository _ fun _ _ => Iff.rfl)
    fun us us' hus => ?_
  cases hus with
  | nil => exact add_blind userRepository _
  | cons _ _ => exact Lockstep.throw _

/-- The password that an edit keeps is the stored one, so it differs where the stored ones do;
whether the user exists does not. -/
theorem editedPassword_lockstep (request : Dataset) (userId : Bytes) :
    Lockstep SameButPasswords (editedPassword p request userId : Task e Bytes)
      (editedPassword p request userId) fun _ _ => True := by
  refine Lockstep.ite (fun _ => ?_) fun _ => Lockstep.pure trivial
  refine Lockstep.bind (getByField_lockstep userRepository _ fun _ _ => Iff.rfl)
    fun us us' hus => ?_
  cases hus with
  | nil => exact Lockstep.throw _
  | cons _ _ => exact Lockstep.pure trivial

/-- An edit that keeps the password writes it back, but does not show it. -/
theorem editUser_blind (request : Dataset) (userId : Bytes) :
    Blind SameButPasswords (editUser p request userId : Task e Unit) := by
  refine Lockstep.ite (fun _ => Lockstep.throw _) fun _ => ?_
  refine Blind.bind (Blind.lift _) fun username => Blind.bind (Blind.lift _) fun roleId => ?_
  refine Lockstep.bind (editedPassword_lockstep request userId) fun password password' _ => ?_
  -- the rows that are written may differ in the password
  refine Lockstep.mono (V := fun _ _ => True) ?_ fun _ _ _ => rfl
  exact update_lockstep userRepository rfl rfl

theorem deleteUser_blind (userId : Bytes) :
    Blind SameButPasswords (deleteUser p userId : Task e Unit) :=
  Lockstep.ite (fun _ => Lockstep.throw _) fun _ => deleteResource_blind userRepository _

/-- Every task of the module but the log-in is blind to passwords. -/
theorem executeTask_blind {req : RequestData}
    (hlogin : ¬ (req.submodule = utf8 "login" ∧ req.method = utf8 "POST")) :
    Blind SameButPasswords (executeTask p req : Task e ResponseData) := by
  refine Lockstep.ite (fun h => absurd h hlogin) fun _ => ?_
  refine Lockstep.ite (fun _ => ?_) fun _ => Lockstep.ite (fun _ => ?_) fun _ => Lockstep.throw _
  · exact dispatchMethod_blind _ getUsers_blind (addUser_blind _) (editUser_blind _ _)
      (deleteUser_blind _)
  · exact (roles_footprint req).blind (by decide)

end UsersModule

/-! ### The log-in -/

/-- The user of this name has this password. The name is read up to its first NUL, as the query for
the user binds it: `admin` with a NUL and more behind it is the name `admin`. The password is
compared whole. -/
def HasPassword (d : Db e) (username password : Bytes) : Prop :=
  ∃ r ∈ (d .user).rows, r.2.username = cstr username ∧ r.2.password = password

/-- The name of a user identifies the user, so there is one password for it. -/
theorem hasPassword_iff {d : Db e} {username password : Bytes} {r : ℕ × UserRow}
    (hr : r ∈ (d .user).rows) (hname : r.2.username = cstr username) :
    HasPassword d username password ↔ r.2.password = password := by
  refine ⟨?_, fun h => ⟨r, hr, hname, h⟩⟩
  rintro ⟨r', hr', hname', hpassword⟩
  have hmem : uniqueUsername ∈ (constraints e).uniqueKeys := by
    unfold constraints
    dsimp only
    split <;> exact List.mem_cons_self
  have hkey : r'.1 = r.1 :=
    d.unique uniqueUsername hmem r' hr' r hr (congrArg Cell.text (hname'.trans hname.symm))
      (by simp [uniqueUsername])
  rw [← Table.eq_of_mem hr' hr hkey]
  exact hpassword

/-- The password that the request submits is the one stored for the name it submits. -/
def RequestData.Authenticates (req : RequestData) (d : Db e) : Prop :=
  HasPassword d (getOptionalDatasetValue req.dataset "username")
    (getOptionalDatasetValue req.dataset "password")

/-- A required field that is read is the field of the request. -/
theorem getRequiredDatasetValue_lockstep {R : Db e → Db e → Prop} (request : Dataset)
    (key component : String) :
    Lockstep R (liftM (getRequiredDatasetValue request key component) : Task e Bytes)
      (liftM (getRequiredDatasetValue request key component) : Task e Bytes)
      fun v v' => v = v' ∧ v = getOptionalDatasetValue request key :=
  Lockstep.lift fun _ hv => ⟨rfl, (getRequiredDatasetValue_spec.ok hv).1⟩

/-- A log-in tells two databases apart only if it submits the password of one of them. -/
theorem UsersModule.loginUser_blind (req : RequestData) :
    Blind (fun d d' => SameButPasswords d d' ∧ (req.Authenticates d ↔ req.Authenticates d'))
      (loginUser p req.dataset : Task e ResponseData) := by
  refine Lockstep.bind (getRequiredDatasetValue_lockstep _ _ _) ?_
  rintro username _ ⟨rfl, hname⟩
  refine Lockstep.bind (getRequiredDatasetValue_lockstep _ _ _) ?_
  rintro password _ ⟨rfl, hpassword⟩
  -- the users found are the same, and the password fits in both databases or in neither
  refine Lockstep.bind (V := fun us us' => List.Forall₂ (ReadAlike userRepository) us us' ∧
    ∀ u ∈ us, ∀ u' ∈ us', (u.password = password ↔ u'.password = password))
    (Lockstep.query fun d d' h => .ok ⟨?_, ?_⟩) ?_
  · exact h.1.found userRepository username fun _ _ => Iff.rfl
  · intro u hu u' hu'
    obtain ⟨r, hr, rfl⟩ := List.mem_map.mp hu
    obtain ⟨r', hr', rfl⟩ := List.mem_map.mp hu'
    obtain ⟨hr, hmatch⟩ := mem_matching.mp hr
    obtain ⟨hr', hmatch'⟩ := mem_matching.mp hr'
    have hsame := h.2
    -- what the databases agree on is the password of the user that was found
    unfold RequestData.Authenticates at hsame
    rwa [← hname, ← hpassword, hasPassword_iff hr hmatch, hasPassword_iff hr' hmatch'] at hsame
  · rintro us us' ⟨hus, hsame⟩
    cases hus with
    | nil => exact Lockstep.throw _
    | @cons u u' _ _ hu _ =>
      have hsame := hsame u List.mem_cons_self u' List.mem_cons_self
      obtain ⟨hid, -, hrole⟩ := readAlike_user hu
      dsimp only
      by_cases hmatch : u.password = password
      · rw [if_pos hmatch, if_pos (hsame.mp hmatch), hid, hrole]
        exact Lockstep.pure rfl
      · rw [if_neg hmatch, if_neg fun h => hmatch (hsame.mpr h)]
        exact Lockstep.throw _

/-! ### The server -/

/-- The request logs a user in. -/
def RequestData.IsLogin (req : RequestData) : Prop :=
  req.module = utf8 "users" ∧ req.submodule = utf8 "login" ∧ req.method = utf8 "POST"

instance (req : RequestData) : Decidable req.IsLogin :=
  inferInstanceAs (Decidable (_ ∧ _ ∧ _))

/-- No module sees passwords, except to log a user in. -/
theorem moduleTask_blind {req : RequestData} (hlogin : ¬ req.IsLogin) :
    Blind SameButPasswords (moduleTask p req : Task e ResponseData) := by
  refine Lockstep.ite (fun _ => Lockstep.throw _) fun _ => ?_
  refine Lockstep.ite (fun h => UsersModule.executeTask_blind fun h' => hlogin ⟨h, h'⟩)
    fun _ => ?_
  -- the other modules reach no user, in the order of `moduleTask`
  refine Lockstep.ite (fun _ => ?_) fun _ => ?_
  · exact (SystemModule.executeTask_footprint (p := p) req).blind (by decide)
  refine Lockstep.ite (fun _ => ?_) fun _ => ?_
  · exact (InventoryModule.executeTask_footprint req).blind (by decide)
  refine Lockstep.ite (fun _ => ?_) fun _ => ?_
  · exact (ManagementModule.executeTask_footprint req).blind (by decide)
  refine Lockstep.ite (fun _ => ?_) fun _ => ?_
  · exact (PurchaseModule.executeTask_footprint req).blind (by decide)
  refine Lockstep.ite (fun _ => ?_) fun _ => ?_
  · exact (SalesModule.executeTask_footprint req).blind (by decide)
  refine Lockstep.ite (fun _ => ?_) fun _ => ?_
  · exact (AnalyticsModule.executeTask_footprint req).blind (by decide)
  refine Lockstep.ite (fun _ => ?_) fun _ => ?_
  · exact (LogsModule.executeTask_footprint req).blind (by decide)
  · exact Lockstep.throw _

theorem writeAudit_blind (now : UtcTime) (req : RequestData) :
    Blind SameButPasswords (writeAudit p now req : Task e Unit) :=
  Lockstep.ite (fun _ => Lockstep.tryCatch (add_blind logRepository _) fun _ => Blind.pure _)
    fun _ => Blind.pure _

/-- What is answered depends on the outcome of the module alone. -/
theorem executeTask_reply (p : Platform) (now : UtcTime) (req : RequestData)
    (s : Session (Db e) Exception) :
    (executeTask p now req s).1 =
      match ((moduleTask p req : Task e ResponseData).exec s).1 with
      | .ok reply => reply
      | .error ex => errorReply ex := by
  unfold executeTask
  dsimp only
  rw [exec_bind]
  generalize (moduleTask p req : Task e ResponseData).exec s = r
  obtain ⟨reply | reply, s₁⟩ := r
  · rfl
  · obtain ⟨s', hwrite, -⟩ := writeAudit_spec p now req s₁
    simp only [exec_bind, hwrite, exec_pure]

section Server

variable {s s' : Session (Db e) Exception}

/-- Two reachable states execute an event from sessions that `R` relates, if it relates their
databases: no transaction is open in either. -/
theorem Server.twins {R : Db e → Db e → Prop} (hs : (server p e).Reachable s)
    (hs' : (server p e).Reachable s') (h : R s.store s'.store) (faults : List (Option Exception)) :
    Session.Twins R { s with faults := faults } { s' with faults := faults } where
  store := h
  snapshot := by
    dsimp only
    rw [(Server.wellFormed hs).2, (Server.wellFormed hs').2]
    exact .none
  faults := rfl

/-- One request that does not log in is answered alike, and keeps the databases alike. -/
theorem SameButPasswords.step (hs : (server p e).Reachable s) (hs' : (server p e).Reachable s')
    (h : SameButPasswords s.store s'.store) {ev : Event} (hlogin : ¬ ev.request.IsLogin) :
    ((server p e).step s ev).1 = ((server p e).step s' ev).1 ∧
      SameButPasswords ((server p e).step s ev).2.store ((server p e).step s' ev).2.store := by
  have htask : Blind SameButPasswords (do
      let responseData ← moduleTask p ev.request
      writeAudit p ev.now ev.request
      return responseData : Task e ResponseData) :=
    (moduleTask_blind hlogin).bind fun reply =>
      (writeAudit_blind ev.now ev.request).bind fun _ => Blind.pure reply
  have hrun := htask _ _ (Server.twins hs hs' h ev.faults)
  -- `executeTask` runs that task, and makes a reply of what it raises
  change (executeTask p ev.now ev.request _).1 = (executeTask p ev.now ev.request _).1 ∧
    SameButPasswords (executeTask p ev.now ev.request _).2.store
      (executeTask p ev.now ev.request _).2.store
  unfold executeTask
  dsimp only
  generalize exec _ { s with faults := ev.faults } = r at hrun ⊢
  generalize exec _ { s' with faults := ev.faults } = r' at hrun ⊢
  obtain ⟨res, s₁⟩ := r
  obtain ⟨res', s₁'⟩ := r'
  obtain ⟨hres, hend⟩ := hrun
  cases hres with
  | error ex => exact ⟨rfl, hend.store⟩
  | ok heq => exact ⟨heq, hend.store⟩

/-- A log-in that submits the password of both databases, or of neither, is answered alike. -/
theorem login_reply (hs : (server p e).Reachable s) (hs' : (server p e).Reachable s')
    (h : SameButPasswords s.store s'.store) {ev : Event} (hlogin : ev.request.IsLogin)
    (hauth : ev.request.Authenticates s.store ↔ ev.request.Authenticates s'.store) :
    ((server p e).step s ev).1 = ((server p e).step s' ev).1 := by
  have htask : (moduleTask p ev.request : Task e ResponseData) =
      UsersModule.loginUser p ev.request.dataset := by
    rw [moduleTask_users p hlogin.1, UsersModule.executeTask, if_pos hlogin.2]
  have hrun := UsersModule.loginUser_blind (p := p) ev.request _ _
    (Server.twins hs hs' ⟨h, hauth⟩ ev.faults)
  change (executeTask p ev.now ev.request _).1 = (executeTask p ev.now ev.request _).1
  rw [executeTask_reply, executeTask_reply, htask]
  -- equal replies of the module, or the same error
  generalize (exec _ { s with faults := ev.faults }).1 = res at hrun ⊢
  generalize (exec _ { s' with faults := ev.faults }).1 = res' at hrun ⊢
  cases hrun.1 with
  | error ex => rfl
  | ok heq => exact heq

end Server

/-- **Passwords do not leak.** From two reachable states that differ in the passwords of users
only, every sequence of requests that do not log in is answered alike, request by request, and
leads to two states that differ in passwords only. A log-in is answered differently only if
the password it submits is stored for its user name, up to the first NUL of it, in one of the states
and not in the other. -/
theorem passwords_do_not_leak (p : Platform) {s s' : Session (Db .full) Exception}
    (hs : (server p .full).Reachable s) (hs' : (server p .full).Reachable s')
    (h : SameButPasswords s.store s'.store) :
    (∀ evs : List Event, (∀ ev ∈ evs, ¬ ev.request.IsLogin) →
      (server p .full).history s evs = (server p .full).history s' evs ∧
        SameButPasswords ((server p .full).run s evs).store
          ((server p .full).run s' evs).store) ∧
    ∀ ev : Event, ev.request.IsLogin →
      ((server p .full).step s ev).1 ≠ ((server p .full).step s' ev).1 →
      Xor (ev.request.Authenticates s.store) (ev.request.Authenticates s'.store) := by
  refine ⟨fun evs hevs => ?_, fun ev hlogin hne => ?_⟩
  · -- the two runs stay at reachable states that are alike
    induction evs generalizing s s' with
    | nil => exact ⟨rfl, h⟩
    | cons ev evs ih =>
      have hstep := h.step hs hs' (hevs ev List.mem_cons_self)
      have hrest := ih (hs.step ev) (hs'.step ev) hstep.2 fun ev' hmem =>
        hevs ev' (List.mem_cons_of_mem ev hmem)
      refine ⟨?_, hrest.2⟩
      rw [Machine.history, Machine.history, hstep.1, hrest.1]
  · rw [xor_iff_not_iff]
    exact fun hauth => hne (login_reply hs hs' h hlogin hauth)

/-- An edit of the first user that sets a password. -/
def resetPassword (password : String) : Event :=
  .plain "users" "users" "PUT" "1"
    [("username", "admin"), ("roleId", "1"), ("password", password)]

/-- The initial state after the first user got this password. -/
def afterReset (password : String) : Session (Db .full) Exception :=
  (server .plain .full).run (server .plain .full).init [resetPassword password]

/-- A log-in of the first user. -/
def loginAdmin (password : String) : Event :=
  .plain "users" "login" "POST" "" [("username", "admin"), ("password", password)]

/-- Two states after different passwords were set: the users are listed alike, and a log-in
that is answered differently submits the password of one of them. -/
theorem passwords_do_not_leak_afterReset :
    (server .plain .full).history (afterReset "iron") [.plain "users" "users" "GET" "" []] =
        (server .plain .full).history (afterReset "steel")
          [.plain "users" "users" "GET" "" []] ∧
      Xor ((loginAdmin "iron").request.Authenticates (afterReset "iron").store)
        ((loginAdmin "iron").request.Authenticates (afterReset "steel").store) := by
  have halike : SameButPasswords (afterReset "iron").store (afterReset "steel").store := by
    intro t
    have h : (((afterReset "iron").store t).map (withPassword [] t)).rows =
          (((afterReset "steel").store t).map (withPassword [] t)).rows ∧
        ((afterReset "iron").store t).seq = ((afterReset "steel").store t).seq := by
      cases t <;> decide +kernel
    exact Table.ext h.1 h.2
  have hleak := passwords_do_not_leak .plain ⟨_, rfl⟩ ⟨_, rfl⟩ halike
  refine ⟨(hleak.1 _ fun ev hev => ?_).1, hleak.2 _ (by decide +kernel) fun heq => ?_⟩
  · rw [List.mem_singleton.mp hev]
    decide +kernel
  · -- only one of the two replies is an error
    have herror := congrArg (fun reply => decide (utf8 "error" ∈ reply.dataset)) heq
    exact absurd herror (by decide +kernel)

end SageStore
