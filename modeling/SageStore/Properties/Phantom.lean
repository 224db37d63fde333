import SageStore.Server.Steps

/-!
# Updates and deletions of rows that do not exist

An `UPDATE` or a `DELETE` of a key that no row has succeeds and changes nothing, so a handler
has to look the row up before it writes. All of them do, except for roles and users: their
deletion, the renaming of a role, and the edit of a user that carries a password
(`SkipsLookUp`). `no_phantom_iff` says that an accepted `PUT` or `DELETE` found its row unless
it is one of these.
-/

namespace SageStore

open Bytes Program BusinessLogic

variable {e : Enforcement} {p : Platform} {now : UtcTime} {req : RequestData} {d d' : Db e}
  {t : TableName}

/-- A `PUT` or `DELETE` request about the table `t` that is written without a look-up. -/
def SkipsLookUp (req : RequestData) : TableName → Prop
  | .role => req.resourceId ≠ [] ∧
      (req.method = utf8 "DELETE" ∨ getOptionalDatasetValue req.dataset "name" ≠ [])
  | .user => req.resourceId ≠ [] ∧
      (req.method = utf8 "DELETE" ∨
        getOptionalDatasetValue req.dataset "username" ≠ [] ∧
          getOptionalDatasetValue req.dataset "roleId" ≠ [] ∧
          getOptionalDatasetValue req.dataset "password" ≠ [])
  | _ => False

/-! ### Accepted writes -/

theorem IsOpen.has {order : Cell} (h : IsOpen d order) : (d .purchaseOrder).Has order := by
  obtain ⟨o, ho, hkey, -⟩ := h
  exact ⟨o, ho, hkey⟩

/-- What is checked before a row is replaced, if it is looked up. -/
theorem UpdateGuard.has {x : Row t} (h : UpdateGuard req d (p.cell req.resourceId) t x)
    (hid : req.resourceId ≠ []) (hlook : ¬ SkipsLookUp req t) :
    (d t).Has (p.cell req.resourceId) := by
  cases t with
  | role => exact absurd ⟨hid, Or.inr h.1⟩ hlook
  | user =>
    -- an edit without a password looks the user up to keep the old one
    have hpassword : getOptionalDatasetValue req.dataset "password" = [] :=
      not_not.mp fun hne => hlook ⟨hid, Or.inr ⟨h.1, h.2.1, hne⟩⟩
    exact h.2.2 hpassword
  | purchaseOrder => exact h.1.has
  | purchaseOrderRecord =>
    obtain ⟨r, hr, hkey, -⟩ := h.1
    exact ⟨r, hr, hkey⟩
  | log | productType | inventory | salesOrderRecord => exact h.1
  | contact | employee | supplier | suppliersProductInfo | saleOrder => exact h

/-- What is checked before a row is deleted, if it is looked up. -/
theorem DeleteGuard.has (h : DeleteGuard d (p.cell req.resourceId) t)
    (hmethod : req.method = utf8 "DELETE") (hid : req.resourceId ≠ [])
    (hlook : ¬ SkipsLookUp req t) : (d t).Has (p.cell req.resourceId) := by
  cases t with
  | role => exact absurd ⟨hid, Or.inl hmethod⟩ hlook
  | user => exact absurd ⟨hid, Or.inl hmethod⟩ hlook
  | saleOrder | purchaseOrder => exact h.elim
  | purchaseOrderRecord =>
    obtain ⟨r, hr, hkey, -⟩ := h
    exact ⟨r, hr, hkey⟩
  | log | productType | inventory | salesOrderRecord => exact h
  | contact | employee | supplier | suppliersProductInfo => exact h

/-- An accepted write found its row, if it looked it up. -/
theorem Effect.has (h : Effect p req d d') (haddr : req.Addresses t)
    (hmethod : req.method = utf8 "PUT" ∨ req.method = utf8 "DELETE")
    (hlook : ¬ SkipsLookUp req t) : (d t).Has (p.cell req.resourceId) := by
  cases h with
  | read honly =>
    -- a request about a table that only reads is a `GET`
    rw [honly.isGet t haddr] at hmethod
    exact absurd hmethod (by decide)
  | insert t' x ht hpost =>
    rw [hpost] at hmethod
    exact absurd hmethod (by decide)
  | update t' x ht hput hid hguard =>
    obtain rfl := haddr.unique ht
    exact hguard.has hid hlook
  | delete t' ht hdelete hid hguard =>
    obtain rfl := haddr.unique ht
    exact hguard.has hdelete hid hlook
  | deleteSaleOrder ht hdelete hhas =>
    obtain rfl := haddr.unique ht
    exact hhas
  | deletePurchaseOrder ht hdelete hopen =>
    obtain rfl := haddr.unique ht
    exact hopen.has
  | receive hpost =>
    rw [hpost.2.2] at hmethod
    exact absurd hmethod (by decide)

/-! ### Writes without a look-up -/

/-- A write without a look-up, of a row that does not exist, succeeds and changes nothing. -/
theorem moduleTask_of_skipsLookUp (snap : Option (Db e)) (haddr : req.Addresses t)
    (hmethod : req.method = utf8 "PUT" ∨ req.method = utf8 "DELETE") (hskips : SkipsLookUp req t)
    (h : ¬ (d t).Has (p.cell req.resourceId)) :
    (moduleTask p req).exec ⟨d, snap, []⟩ = (.ok .empty, ⟨d, snap, []⟩) := by
  -- the statement addresses no row, so the engine accepts it and changes nothing
  have hdelete := Database.delete_of_not_has h
  have hupdate := Database.update_of_not_has h
  have hput : req.method = utf8 "PUT" → req.method ≠ utf8 "DELETE" := fun heq => heq ▸ by decide
  cases t with
  | role =>
    obtain ⟨hid, hskips⟩ := hskips
    rw [moduleTask_users p haddr.1, UsersModule.executeTask_roles p haddr.2]
    rcases hmethod with hm | hm
    · exact exec_dispatchMethod_put hm
        (UsersModule.exec_updateRole hid (hskips.resolve_left (hput hm)) (hupdate _))
    · exact exec_dispatchMethod_delete hm (UsersModule.exec_deleteRole hid hdelete)
  | user =>
    obtain ⟨hid, hskips⟩ := hskips
    rw [moduleTask_users p haddr.1, UsersModule.executeTask_users p haddr.2]
    rcases hmethod with hm | hm
    · obtain ⟨hname, hrole, hpassword⟩ := hskips.resolve_left (hput hm)
      exact exec_dispatchMethod_put hm
        (UsersModule.exec_editUser hid hname hrole hpassword (hupdate _))
    · exact exec_dispatchMethod_delete hm (UsersModule.exec_deleteUser hid hdelete)
  | _ => exact hskips.elim

/-! ### Phantoms -/

/-- **Which writes are phantoms.** In every reachable state, a `PUT` or `DELETE` about the rows
of a table that is answered without error found its row, if it is looked up. While no call
fails, the answer tells whether the row existed exactly when it did, or is looked up. -/
theorem no_phantom_iff (p : Platform) {s : Session (Db .full) Exception}
    (hs : (server p .full).Reachable s) (ev : Event) (t : TableName)
    (haddr : ev.request.Addresses t)
    (hmethod : ev.request.method = utf8 "PUT" ∨ ev.request.method = utf8 "DELETE") :
    let reply := ((server p .full).step s ev).1
    let found := (s.store t).Has (p.cell ev.request.resourceId)
    (¬ SkipsLookUp ev.request t → utf8 "error" ∉ reply.dataset → found) ∧
    (ev.faults = [] → ((utf8 "error" ∉ reply.dataset → found) ↔
      found ∨ ¬ SkipsLookUp ev.request t)) := by
  have hlooked (hlook : ¬ SkipsLookUp ev.request t)
      (herror : utf8 "error" ∉ ((server p .full).step s ev).1.dataset) :
      (s.store t).Has (p.cell ev.request.resourceId) := by
    obtain ⟨d₁, hans, heffect, haudit⟩ := (Server.step_spec hs ev).of_no_error herror
    exact heffect.has haddr hmethod hlook
  refine ⟨hlooked, fun hfaults => ⟨fun h => ?_, fun h herror => ?_⟩⟩
  · -- otherwise the write would have been answered without error, and found its row
    by_contra hnot
    obtain ⟨hhas, hskips⟩ := not_or.mp hnot
    refine hhas (h ?_)
    have hrun := moduleTask_of_skipsLookUp s.snapshot haddr hmethod (not_not.mp hskips) hhas
    have hreply : ((server p .full).step s ev).1 = .empty :=
      executeTask_of_ok p ev.now (hfaults ▸ hrun)
    rw [hreply]
    exact Finmap.notMem_empty
  · exact h.elim id fun hlook => hlooked hlook herror

/-- An edit of the initial user that keeps the password. -/
def renameUser : Event :=
  .plain "users" "users" "PUT" "1" [("username", "root"), ("roleId", "2")]

/-- It is answered without error, so the user exists. -/
theorem no_phantom_iff_user :
    utf8 "error" ∉ ((server .plain .full).step (server .plain .full).init renameUser).1.dataset ∧
      ((server .plain .full).init.store .user).Has (.int 1) := by
  have hs := (server .plain .full).reachable_init
  have hlook : ¬ SkipsLookUp renameUser.request .user := by
    rintro ⟨-, hdelete | ⟨-, -, hpassword⟩⟩
    · exact absurd hdelete (by decide)
    · exact hpassword (by decide +kernel)
  have herror : utf8 "error" ∉
      ((server .plain .full).step (server .plain .full).init renameUser).1.dataset := by
    decide +kernel
  have hmethod : renameUser.request.method = utf8 "PUT" := by decide
  exact ⟨herror, (no_phantom_iff .plain hs renameUser .user (by decide) (Or.inl hmethod)).1 hlook
    herror⟩

/-- The deletion of a role that does not exist. -/
def deleteUnknownRole : Event := .plain "users" "roles" "DELETE" "999" []

/-- In the initial state it is answered without error. -/
theorem unknownRole_deleted :
    (server .plain .full).Reachable (server .plain .full).init ∧
    deleteUnknownRole.request.Addresses .role ∧
    deleteUnknownRole.request.method = utf8 "DELETE" ∧
    utf8 "error" ∉ ((server .plain .full).step (server .plain .full).init
      deleteUnknownRole).1.dataset ∧
    ¬ ((server .plain .full).init.store .role).Has
      (Platform.plain.cell deleteUnknownRole.request.resourceId) :=
  ⟨(server .plain .full).reachable_init, by decide, by decide, by decide +kernel,
    by decide +kernel⟩

end SageStore
