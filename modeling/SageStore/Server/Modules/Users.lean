import SageStore.Server.Effect

/-!
# `UsersModule`

Logging in, and the management of users and roles. A new user's name and a new role's name
are looked up first. An edited user is looked up only to keep a password that the request
leaves out; the other edits and the deletions of this module look nothing up.
-/

namespace SageStore

open Bytes Program

variable {e : Enforcement}

namespace UsersModule

/-- The password is compared as it was sent. The name is looked up by the engine, which reads it up
to a NUL. -/
def loginUser (p : Platform) (request : Dataset) : Task e ResponseData := do
  let clientUsername ← getRequiredDatasetValue request "username" "UsersModule"
  let clientPassword ← getRequiredDatasetValue request "password" "UsersModule"
  let usersVec ← userRepository.getByField p (.text UserRow.username) clientUsername
  match usersVec with
  | [] => throw (.server "UsersModule" "User with such username does not exist")
  | user :: _ =>
    -- the reply identifies the user, and nothing of the session is kept
    if user.password = clientPassword then
      return record [("id", user.id), ("roleId", user.roleId)]
    else
      throw (.server "UsersModule" "Wrong password")

/-- The passwords are not listed. -/
def getUsers : Task e ResponseData := do
  let usersVec ← userRepository.getAll
  return listing [("id", User.id), ("username", User.username), ("roleId", User.roleId)] usersVec

/-- A name that is in use is refused; the role is not looked up. -/
def addUser (p : Platform) (request : Dataset) : Task e Unit := do
  let username ← getRequiredDatasetValue request "username" "UsersModule"
  let password ← getRequiredDatasetValue request "password" "UsersModule"
  let roleId := getOptionalDatasetValue request "roleId"
  let usersVec ← userRepository.getByField p (.text UserRow.username) username
  if usersVec ≠ [] then
    throw (.server "UsersModule" "User with this username already exists")
  else
    userRepository.add p ⟨[], username, password, roleId⟩

/-- The password an edit stores: the one the request carries, or the one stored before. -/
def editedPassword (p : Platform) (request : Dataset) (userId : Bytes) : Task e Bytes :=
  if getOptionalDatasetValue request "password" = [] then do
    let usersById ← userRepository.getByField p .id userId
    match usersById with
    | [] => throw (.server "UsersModule" "User does not exist")
    | user :: _ => return user.password
  else
    pure (getOptionalDatasetValue request "password")

/-- The name is not looked up, so it may be that of another user. -/
def editUser (p : Platform) (request : Dataset) (userId : Bytes) : Task e Unit :=
  if userId = [] then throw (.server "UsersModule" "User ID is empty")
  else do
    let username ← getRequiredDatasetValue request "username" "UsersModule"
    let roleId ← getRequiredDatasetValue request "roleId" "UsersModule"
    let password ← editedPassword p request userId
    -- a password in the request: no look-up has shown that the user exists
    userRepository.update p ⟨userId, username, password, roleId⟩

/-- No look-up shows that the user exists: a deletion that finds no row succeeds. -/
def deleteUser (p : Platform) (userId : Bytes) : Task e Unit :=
  if userId = [] then throw (.server "UsersModule" "User ID is empty")
  else userRepository.deleteResource p userId

def getRoles : Task e ResponseData := do
  let rolesVec ← roleRepository.getAll
  return listing [("id", Role.id), ("name", Role.name)] rolesVec

/-- A name that is in use is refused. -/
def addRole (p : Platform) (request : Dataset) : Task e Unit := do
  let roleName ← getRequiredDatasetValue request "name" "UsersModule"
  let rolesVec ← roleRepository.getByField p (.text RoleRow.name) roleName
  if rolesVec = [] then roleRepository.add p ⟨[], roleName⟩
  else throw (.server "UsersModule" "Role with this name already exists")

/-- Neither the role nor its new name is looked up. -/
def updateRole (p : Platform) (request : Dataset) (resourceId : Bytes) : Task e Unit :=
  if resourceId = [] then throw (.server "UsersModule" "resourceId is empty")
  else do
    let roleName ← getRequiredDatasetValue request "name" "UsersModule"
    roleRepository.update p ⟨resourceId, roleName⟩

/-- No look-up shows that the role exists. -/
def deleteRole (p : Platform) (resourceId : Bytes) : Task e Unit :=
  if resourceId = [] then throw (.server "UsersModule" "resourceId is empty")
  else roleRepository.deleteResource p resourceId

/-- Logging in is a `POST`; any other method to `login` is no task of the module. -/
def executeTask (p : Platform) (req : RequestData) : Task e ResponseData :=
  if req.submodule = utf8 "login" ∧ req.method = utf8 "POST" then
    loginUser p req.dataset
  else if req.submodule = utf8 "users" then
    dispatchMethod "UsersModule" req.method getUsers (addUser p req.dataset)
      (editUser p req.dataset req.resourceId) (deleteUser p req.resourceId)
  else if req.submodule = utf8 "roles" then
    dispatchMethod "UsersModule" req.method getRoles (addRole p req.dataset)
      (updateRole p req.dataset req.resourceId) (deleteRole p req.resourceId)
  else
    throw (.server "UsersModule" "Unrecognized task")

/-! ### Specifications -/

section Specifications

variable {p : Platform} {req : RequestData} {d : Db e}

/-- Logging in only reads. -/
theorem loginUser_spec (hsub : req.submodule = utf8 "login")
    (hmethod : req.method = utf8 "POST") :
    Serves p req d (loginUser p req.dataset) := by
  -- the log-in addresses no table, so it is among the requests that only read
  refine Serves.reads ⟨fun t h => absurd (hsub.symm.trans h.2) (by cases t <;> decide),
    fun h => absurd (hsub.symm.trans h.2.1) (by decide)⟩ ?_
  refine (reads_lift getRequiredDatasetValue_spec).bindReads fun clientUsername _ => ?_
  refine (reads_lift getRequiredDatasetValue_spec).bindReads fun clientPassword _ => ?_
  refine (getByField_mem userRepository _ _).bindReads fun usersVec hmem => ?_
  cases usersVec with
  | nil => exact Reads.throw ⟨.utf8 _, .utf8 _⟩
  | cons user rest =>
    obtain ⟨i, hi, -, rfl⟩ := hmem user List.mem_cons_self
    refine Reads.ite (fun _ => Reads.pure (.record ?_ (by dsimp only [List.map]; decide)
      fun hd => ?_))
      fun _ => Reads.throw ⟨.utf8 _, .utf8 _⟩
    · exact fun hlog => absurd (hmethod.symm.trans hlog.2) (by decide)
    · have hrole : IsUtf8 i.2.roleId.toText := (hd .user i hi).2.2
      simp [userRepository, hrole]

theorem getUsers_spec (haddr : req.Addresses .user)
    (hmethod : req.method = utf8 "GET") : Serves p req d getUsers :=
  listing_spec userRepository _ haddr hmethod (by decide) (getAll_mem _) (by decide)
    fun i y hy => by simp [userRepository, hy.1, hy.2.2]

/-- A user is added with the fields of the request. -/
theorem addUser_spec (haddr : req.Addresses .user) (hmethod : req.method = utf8 "POST") :
    Atomic Exception.IsUtf8 d (addUser p req.dataset) fun _ d' => Accepts p req d d' := by
  unfold addUser
  refine (reads_lift getRequiredDatasetValue_spec).bindAtomic fun username hname => ?_
  refine (reads_lift getRequiredDatasetValue_spec).bindAtomic fun password hpassword => ?_
  refine (getByField_mem userRepository _ _).bindAtomic fun usersVec _ => ?_
  refine Outcome.ite (fun _ => Outcome.throw ⟨.utf8 _, .utf8 _⟩) fun _ => ?_
  refine add_accepts _ _ haddr hmethod trivial fun hds => ⟨?_, ?_, ?_⟩
  · exact (hname.1 ▸ hds.field _).cstr
  · exact (hpassword.1 ▸ hds.field _).cstr
  -- a user without a role gets the default one
  · dsimp only [userRepository]
    split
    · exact .decimal 1
    · exact p.isUtf8_cell (hds.field _)

/-- A password that is kept is one of a user who exists. -/
theorem editedPassword_spec {userId : Bytes} :
    Reads Exception.IsUtf8 d (editedPassword p req.dataset userId) fun password =>
      (getOptionalDatasetValue req.dataset "password" = [] → (d .user).Has (p.cell userId)) ∧
      (TextsUtf8 d → req.dataset.IsUtf8 → IsUtf8 password) := by
  refine Reads.ite (fun _ => ?_) fun hne => ?_
  · refine (getByField_mem userRepository .id _).bindReads fun usersById hmem => ?_
    cases usersById with
    | nil => exact Reads.throw ⟨.utf8 _, .utf8 _⟩
    | cons user rest =>
      obtain ⟨i, hi, hkey, rfl⟩ := hmem user List.mem_cons_self
      exact Reads.pure ⟨fun _ => ⟨i, hi, hkey⟩, fun hd _ => (hd .user i hi).2.1⟩
  · exact Reads.pure ⟨fun h => absurd h hne, fun _ hds => hds.field _⟩

/-- An accepted edit names a user and a role; the user exists if the password is kept. -/
theorem editUser_spec (haddr : req.Addresses .user) (hmethod : req.method = utf8 "PUT") :
    Atomic Exception.IsUtf8 d (editUser p req.dataset req.resourceId)
      fun _ d' => Accepts p req d d' := by
  refine Outcome.ite (fun _ => Outcome.throw ⟨.utf8 _, .utf8 _⟩) fun hid => ?_
  refine (reads_lift getRequiredDatasetValue_spec).bindAtomic fun username hname => ?_
  refine (reads_lift getRequiredDatasetValue_spec).bindAtomic fun roleId hrole => ?_
  refine editedPassword_spec.bindAtomic fun password hpassword => ?_
  refine update_accepts _ _ haddr hmethod rfl hid ?_ fun hd hds => ⟨?_, ?_, ?_⟩
  · exact ⟨hname.1 ▸ hname.2, hrole.1 ▸ hrole.2, hpassword.1⟩
  · exact (hname.1 ▸ hds.field _).cstr
  · exact (hpassword.2 hd hds).cstr
  · exact p.isUtf8_cell (hrole.1 ▸ hds.field _)

/-- An accepted deletion removes the user, if there is one. -/
theorem deleteUser_spec (haddr : req.Addresses .user) (hmethod : req.method = utf8 "DELETE") :
    Atomic Exception.IsUtf8 d (deleteUser p req.resourceId) fun _ d' => Accepts p req d d' :=
  Outcome.ite (fun _ => Outcome.throw ⟨.utf8 _, .utf8 _⟩) fun hid =>
    delete_accepts userRepository haddr hmethod hid trivial

theorem getRoles_spec (haddr : req.Addresses .role)
    (hmethod : req.method = utf8 "GET") : Serves p req d getRoles :=
  listing_spec roleRepository _ haddr hmethod (by decide) (getAll_mem _) (by decide)
    fun i y hy => by simp [roleRepository, show IsUtf8 y.name from hy]

/-- A role is added under a name that no row had. -/
theorem addRole_spec (haddr : req.Addresses .role) (hmethod : req.method = utf8 "POST") :
    Atomic Exception.IsUtf8 d (addRole p req.dataset) fun _ d' => Accepts p req d d' := by
  unfold addRole
  refine (reads_lift getRequiredDatasetValue_spec).bindAtomic fun roleName hname => ?_
  refine (getByField_spec roleRepository _ _).bindAtomic fun rolesVec hroles => ?_
  refine Outcome.ite (fun hnil => ?_) fun _ => Outcome.throw ⟨.utf8 _, .utf8 _⟩
  refine add_accepts _ _ haddr hmethod (fun r hr hsame => ?_) fun hds => ?_
  · -- a role of this name would have been found
    rw [hroles, List.map_eq_nil_iff, List.filter_eq_nil_iff] at hnil
    exact hnil r hr (decide_eq_true hsame)
  · exact (hname.1 ▸ hds.field _).cstr

/-- An accepted edit writes the name of the request, whatever names there are. -/
theorem updateRole_spec (haddr : req.Addresses .role) (hmethod : req.method = utf8 "PUT") :
    Atomic Exception.IsUtf8 d (updateRole p req.dataset req.resourceId)
      fun _ d' => Accepts p req d d' := by
  refine Outcome.ite (fun _ => Outcome.throw ⟨.utf8 _, .utf8 _⟩) fun hid => ?_
  refine (reads_lift getRequiredDatasetValue_spec).bindAtomic fun roleName hname => ?_
  refine update_accepts _ _ haddr hmethod rfl hid ⟨hname.1 ▸ hname.2, ?_⟩ fun _ hds => ?_
  · exact congrArg cstr hname.1
  · exact (hname.1 ▸ hds.field _).cstr

/-- An accepted deletion removes the role, if there is one. -/
theorem deleteRole_spec (haddr : req.Addresses .role) (hmethod : req.method = utf8 "DELETE") :
    Atomic Exception.IsUtf8 d (deleteRole p req.resourceId) fun _ d' => Accepts p req d d' :=
  Outcome.ite (fun _ => Outcome.throw ⟨.utf8 _, .utf8 _⟩) fun hid =>
    delete_accepts roleRepository haddr hmethod hid trivial

/-- **The module serves its requests**: an accepted one has its effect, and a rejected one none. -/
theorem executeTask_spec (hmodule : req.module = utf8 "users") :
    Serves p req d (executeTask p req) := by
  refine Outcome.ite (fun h => loginUser_spec h.1 h.2) fun _ => ?_
  refine Outcome.ite (fun hsub => ?_) fun _ => Outcome.ite (fun hsub => ?_) fun _ => ?_
  · have haddr : req.Addresses .user := ⟨hmodule, hsub⟩
    exact dispatchMethod_spec (getUsers_spec haddr)
      (fun h => (addUser_spec haddr h).outcome) (fun h => (editUser_spec haddr h).outcome)
      fun h => (deleteUser_spec haddr h).outcome
  · have haddr : req.Addresses .role := ⟨hmodule, hsub⟩
    exact dispatchMethod_spec (getRoles_spec haddr)
      (fun h => (addRole_spec haddr h).outcome) (fun h => (updateRole_spec haddr h).outcome)
      fun h => (deleteRole_spec haddr h).outcome
  · exact Outcome.throw ⟨.utf8 _, .utf8 _⟩

/-! ### Accepted edits and deletions, while no call fails -/

variable {d' : Db e} {snap : Option (Db e)}

/-- An edit of a role comes down to one update. -/
theorem exec_updateRole (hid : req.resourceId ≠ [])
    (hname : getOptionalDatasetValue req.dataset "name" ≠ [])
    (h : d.update .role (p.cell req.resourceId)
      ⟨cstr (getOptionalDatasetValue req.dataset "name")⟩ = .ok d') :
    (updateRole p req.dataset req.resourceId).exec ⟨d, snap, []⟩ =
      (.ok (), ⟨d', snap, []⟩) := by
  unfold updateRole
  rw [if_neg hid, getRequiredDatasetValue_eq hname]
  exact exec_update roleRepository h

/-- A deletion of a role comes down to one deletion. -/
theorem exec_deleteRole (hid : req.resourceId ≠ [])
    (h : d.delete .role (p.cell req.resourceId) = .ok d') :
    (deleteRole p req.resourceId).exec ⟨d, snap, []⟩ = (.ok (), ⟨d', snap, []⟩) := by
  unfold deleteRole
  rw [if_neg hid]
  exact exec_deleteResource roleRepository h

/-- An edit that carries a password. -/
theorem exec_editUser (hid : req.resourceId ≠ [])
    (hname : getOptionalDatasetValue req.dataset "username" ≠ [])
    (hrole : getOptionalDatasetValue req.dataset "roleId" ≠ [])
    (hpassword : getOptionalDatasetValue req.dataset "password" ≠ [])
    (h : d.update .user (p.cell req.resourceId)
      ⟨cstr (getOptionalDatasetValue req.dataset "username"),
        cstr (getOptionalDatasetValue req.dataset "password"),
        p.cell (getOptionalDatasetValue req.dataset "roleId")⟩ = .ok d') :
    (editUser p req.dataset req.resourceId).exec ⟨d, snap, []⟩ =
      (.ok (), ⟨d', snap, []⟩) := by
  unfold editUser editedPassword
  rw [if_neg hid, getRequiredDatasetValue_eq hname, getRequiredDatasetValue_eq hrole,
    if_neg hpassword]
  exact exec_update userRepository h

/-- A deletion of a user comes down to one deletion. -/
theorem exec_deleteUser (hid : req.resourceId ≠ [])
    (h : d.delete .user (p.cell req.resourceId) = .ok d') :
    (deleteUser p req.resourceId).exec ⟨d, snap, []⟩ = (.ok (), ⟨d', snap, []⟩) := by
  unfold deleteUser
  rw [if_neg hid]
  exact exec_deleteResource userRepository h

/-- The requests about users are dispatched by their method. -/
theorem executeTask_users (p : Platform) (hsub : req.submodule = utf8 "users") :
    (executeTask p req : Task e ResponseData) =
      dispatchMethod "UsersModule" req.method getUsers (addUser p req.dataset)
        (editUser p req.dataset req.resourceId) (deleteUser p req.resourceId) := by
  have hlogin : ¬ (req.submodule = utf8 "login" ∧ req.method = utf8 "POST") :=
    fun h => absurd (hsub.symm.trans h.1) (by decide)
  rw [executeTask, if_neg hlogin, if_pos hsub]

/-- The requests about roles are dispatched by their method. -/
theorem executeTask_roles (p : Platform) (hsub : req.submodule = utf8 "roles") :
    (executeTask p req : Task e ResponseData) =
      dispatchMethod "UsersModule" req.method getRoles (addRole p req.dataset)
        (updateRole p req.dataset req.resourceId) (deleteRole p req.resourceId) := by
  have hlogin : ¬ (req.submodule = utf8 "login" ∧ req.method = utf8 "POST") :=
    fun h => absurd (hsub.symm.trans h.1) (by decide)
  have husers : req.submodule ≠ utf8 "users" := fun h => absurd (hsub.symm.trans h) (by decide)
  rw [executeTask, if_neg hlogin, if_neg husers, if_pos hsub]

end Specifications

end UsersModule

end SageStore
