import SageStore.Foundation.Undisturbed
import SageStore.Server.Footprint
import SageStore.Server.Steps

/-!
# Requests that succeed in spite of faults

Every task of the modules is undisturbed by faults: none of them catches what its calls raise,
and a transaction that is rolled back raises again. So a request that is answered without an
error while calls to the database fail is answered as it would be if none did, and does what it
would do (`accepted_despite_faults`). Only the audit entry may be missing, as `BusinessLogic`
ignores what raises while it is written.
-/

namespace SageStore

open Bytes Program BusinessLogic

variable {e : Enforcement} {p : Platform} {now : UtcTime} {req : RequestData}

/-- A statement that succeeds under faults succeeds alike without them. -/
theorem executeStatement_undisturbed (f : Db e → Except Violation (Db e)) :
    Undisturbed (Repository.executeStatement f) := by
  unfold Repository.executeStatement
  exact Undisturbed.statement _

/-- A task of this form is undisturbed, whatever its calls do. -/
theorem Footprint.undisturbed {ts : List TableName} {α : Type} {x : Task e α}
    (h : Footprint p ts x) : Undisturbed x := by
  induction h with
  | pure a => exact .pure a
  | throw ex => exact .throw ex
  | bind _ _ ihx ihf => exact ihx.bind ihf
  | getAll r ht => exact Undisturbed.query _
  | getByField r c v ht => exact Undisturbed.query _
  | add r x ht => exact executeStatement_undisturbed _
  | update r x ht => exact executeStatement_undisturbed _
  | deleteResource r id ht => exact executeStatement_undisturbed _
  | ensureKey r v component message =>
    refine Undisturbed.bind (.query _) fun found => ?_
    split
    · exact .throw _
    · exact .pure ()
  | runInTransaction _ ih => exact ih.transaction

namespace UsersModule

/-- The tasks about users have a footprint too, if they may reach the users. -/
theorem users_footprint (req : RequestData) :
    Footprint p [.user]
      (dispatchMethod "UsersModule" req.method getUsers (addUser p req.dataset)
        (editUser p req.dataset req.resourceId) (deleteUser p req.resourceId) :
          Task e ResponseData) := by
  refine .dispatchMethod _ ?_ ?_ ?_ ?_
  · exact .bind (.getAll userRepository (by decide)) fun usersVec => .pure _
  · refine .bind (.lift _) fun username => .bind (.lift _) fun password => ?_
    refine .bind (.getByField userRepository _ _ (by decide)) fun usersVec => ?_
    exact .ite (.throw _) (.add userRepository _ (by decide))
  · refine .ite (.throw _) (.bind (.lift _) fun username => .bind (.lift _) fun roleId => ?_)
    refine .bind (.ite ?_ (.pure _)) fun password => .update userRepository _ (by decide)
    refine .bind (.getByField userRepository _ _ (by decide)) fun usersById => ?_
    cases usersById with
    | nil => exact .throw _
    | cons user rest => exact .pure _
  · exact .ite (.throw _) (.deleteResource userRepository _ (by decide))

theorem login_footprint (request : Dataset) :
    Footprint p [.user] (loginUser p request : Task e ResponseData) := by
  refine .bind (.lift _) fun username => .bind (.lift _) fun password => ?_
  refine .bind (.getByField userRepository _ _ (by decide)) fun usersVec => ?_
  cases usersVec with
  | nil => exact .throw _
  | cons user rest => exact .ite (.pure _) (.throw _)

end UsersModule

/-- **No task of the modules hides a fault.** -/
theorem moduleTask_undisturbed (p : Platform) (req : RequestData) :
    Undisturbed (moduleTask p req : Task e ResponseData) := by
  have ite {c : Prop} [Decidable c] {x y : Task e ResponseData} (hx : Undisturbed x)
      (hy : Undisturbed y) : Undisturbed (if c then x else y) := by
    split
    · exact hx
    · exact hy
  refine ite (.throw _) (ite ?_ ?_)
  · exact ite (UsersModule.login_footprint _).undisturbed
      (ite (UsersModule.users_footprint req).undisturbed
        (ite (UsersModule.roles_footprint req).undisturbed (.throw _)))
  refine ite (SystemModule.executeTask_footprint (p := p) req).undisturbed ?_
  refine ite (InventoryModule.executeTask_footprint req).undisturbed ?_
  refine ite (ManagementModule.executeTask_footprint req).undisturbed ?_
  refine ite (PurchaseModule.executeTask_footprint req).undisturbed ?_
  refine ite (SalesModule.executeTask_footprint req).undisturbed ?_
  refine ite (AnalyticsModule.executeTask_footprint req).undisturbed ?_
  exact ite (LogsModule.executeTask_footprint req).undisturbed (.throw _)

/-- A reply without the error key is the one of the module, and the audit entry is written
after it, or lost. -/
theorem moduleTask_of_no_error {s : Session (Db e) Exception}
    (h : utf8 "error" ∉ (executeTask p now req s).1.dataset) :
    ∃ s₁, (moduleTask p req).exec s = (.ok (executeTask p now req s).1, s₁) ∧
      Audits p now req s₁.faults s₁.store (executeTask p now req s).2.store := by
  unfold executeTask at h ⊢
  dsimp only at h ⊢
  rw [exec_bind] at h ⊢
  match hrun : (moduleTask p req : Task e ResponseData).exec s with
  | (.ok reply, s₁) =>
    obtain ⟨s', hwrite, -, haudit⟩ := writeAudit_spec p now req s₁
    simp only [exec_bind, hwrite, exec_pure]
    exact ⟨s₁, rfl, haudit⟩
  | (.error ex, s₁) =>
    rw [hrun] at h
    exact absurd (error_mem_errorReply ex) h

/-- The reply without the error key does not depend on the faults. -/
theorem reply_calm {s : Session (Db e) Exception}
    (hreply : utf8 "error" ∉ (executeTask p now req s).1.dataset) :
    (executeTask p now req s.calm).1 = (executeTask p now req s).1 := by
  obtain ⟨s₁, hrun, -⟩ := moduleTask_of_no_error hreply
  exact executeTask_of_ok p now (moduleTask_undisturbed p req s s₁ _ hrun)

/-- **What succeeds in spite of faults is what would have happened without them.** A request
that is answered without an error, under any schedule of faults, gets the reply that it would
get if no call failed, and leaves the database that it would leave, except that its audit entry
may be missing. -/
theorem accepted_despite_faults (p : Platform) (now : UtcTime) (req : RequestData)
    (s : Session (Db e) Exception)
    (hreply : utf8 "error" ∉ (executeTask p now req s).1.dataset) :
    (executeTask p now req s.calm).1 = (executeTask p now req s).1 ∧
      ((executeTask p now req s.calm).2.store = (executeTask p now req s).2.store ∨
        IsAudited req ∧
          (executeTask p now req s).2.store.insert .log (Log.row p (auditEntry now req)) =
            .ok (executeTask p now req s.calm).2.store) := by
  have hsame := reply_calm hreply
  refine ⟨hsame, ?_⟩
  obtain ⟨s₁, hrun, haudit⟩ := moduleTask_of_no_error hreply
  have hcalm := moduleTask_undisturbed p req s s₁ _ hrun
  obtain ⟨s₂, hrun₂, haudit₂⟩ := moduleTask_of_no_error (s := s.calm) (hsame ▸ hreply)
  -- both runs of the module leave the same database, and each then writes its audit entry
  obtain ⟨-, rfl⟩ := Prod.mk.inj (hcalm.symm.trans hrun₂)
  cases haudit with
  | none hnot heq =>
    cases haudit₂ with
    | none _ heq₂ => exact Or.inl (heq₂.trans heq.symm)
    | written h _ => exact absurd h hnot
    | lost h _ _ => exact absurd h hnot
  | written h hok =>
    cases haudit₂ with
    | none hnot _ => exact absurd h hnot
    | written _ hok₂ => exact Or.inl (Except.ok.inj (hok₂.symm.trans hok))
    | lost _ hwhy _ => exact absurd hok (hwhy.resolve_right (fun hne => hne rfl) _)
  | lost h _ heq =>
    cases haudit₂ with
    | none hnot _ => exact absurd h hnot
    | written _ hok₂ => exact Or.inr ⟨h, heq ▸ hok₂⟩
    | lost _ _ heq₂ => exact Or.inl (heq₂.trans heq.symm)

/-- A role is created while the insertion of the audit entry fails. -/
def unauditedRole : Session (Db .full) Exception :=
  ⟨seed .full, none, [none, none, some (.std "disk I/O error")]⟩

/-- The role is there, and the entry is not: that would be the only difference. -/
theorem accepted_despite_faults_role :
    let req := (Event.plain "users" "roles" "POST" "" [("name", "Clerk")]).request
    (executeTask .plain noon req unauditedRole).2.store.insert .log
        (Log.row .plain (auditEntry noon req)) =
      .ok (executeTask .plain noon req unauditedRole.calm).2.store := by
  intro req
  obtain ⟨-, hstore⟩ := accepted_despite_faults .plain noon req unauditedRole (by decide +kernel)
  refine (hstore.resolve_left fun heq => ?_).2
  have hlength := congrArg (fun d : Db .full => (d .log).rows.length) heq
  revert hlength
  decide +kernel

end SageStore
