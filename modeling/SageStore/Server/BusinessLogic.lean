import SageStore.Foundation.Machine
import SageStore.Server.Modules.Analytics
import SageStore.Server.Modules.Inventory
import SageStore.Server.Modules.Logs
import SageStore.Server.Modules.Management
import SageStore.Server.Modules.PurchaseSpec
import SageStore.Server.Modules.Sales
import SageStore.Server.Modules.Users

/-!
# `BusinessLogic`, and the server as a machine

`executeTask` runs the module a request names, writes the audit entry of a request that
changes data, and turns whatever the module raises into a reply with the error key.

The server executes one request after another on one connection, so it is a `Machine` whose
inputs are `Event`s: a request, the time it is executed at, and the calls to the database
that fail during it. `Step` says what one event can do, in terms of `Effect`
(`executeTask_spec`), and every property of reachable states is proved from it
(`Server.invariant`).
-/

namespace SageStore

open Bytes Program

variable {e : Enforcement}

namespace BusinessLogic

def buildAuditAction (requestData : RequestData) : Bytes :=
  let action :=
    requestData.module ++ utf8 "/" ++ requestData.submodule ++ utf8 " " ++ requestData.method
  if requestData.resourceId ≠ [] then action ++ utf8 " #" ++ requestData.resourceId else action

/-- What `executeTask` throws for a module it does not know. -/
def unrecognizedModule (module : Bytes) : Exception :=
  .server "BusinessLogic" (utf8 "Unrecognized module: " ++ module)

/-- The `executeTask` of the module a request names. -/
def moduleTask (p : Platform) (req : RequestData) : Task e ResponseData :=
  if req.module = [] then throw (.server "BusinessLogic" "Request module is empty")
  else if req.module = utf8 "users" then UsersModule.executeTask p req
  else if req.module = utf8 "system" then SystemModule.executeTask req
  else if req.module = utf8 "inventory" then InventoryModule.executeTask p req
  else if req.module = utf8 "management" then ManagementModule.executeTask p req
  else if req.module = utf8 "purchase" then PurchaseModule.executeTask p req
  else if req.module = utf8 "sales" then SalesModule.executeTask p req
  else if req.module = utf8 "analytics" then AnalyticsModule.executeTask p req
  else if req.module = utf8 "logs" then LogsModule.executeTask p req
  else throw (unrecognizedModule req.module)

/-- The request changes data, and not the log: it is to be audited. -/
def IsAudited (req : RequestData) : Prop :=
  req.method ≠ utf8 "GET" ∧ req.module ≠ utf8 "logs"

instance (req : RequestData) : Decidable (IsAudited req) :=
  inferInstanceAs (Decidable (_ ∧ _))

/-- The audit entry of a request. -/
def auditEntry (now : UtcTime) (req : RequestData) : Log where
  id := []
  userId := getOptionalDatasetValue req.dataset "userId"
  action := buildAuditAction req
  timestamp := currentTimestamp now

/-- Write the audit entry; a failure to do so is ignored. -/
def writeAudit (p : Platform) (now : UtcTime) (req : RequestData) : Task e Unit :=
  if IsAudited req then
    -- the source catches every exception here, and only logs it
    tryCatch (logRepository.add p (auditEntry now req)) fun _ => pure ()
  else
    pure ()

/-- The reply to a request that raised. -/
def errorReply : Exception → ResponseData
  | .server componentName message =>
    ⟨Finmap.singleton (utf8 "error") [cstr componentName, cstr message]⟩
  | .std what => ⟨Finmap.singleton (utf8 "error") [cstr what]⟩

def executeTask (p : Platform) (now : UtcTime) (req : RequestData)
    (s : Session (Db e) Exception) : ResponseData × Session (Db e) Exception :=
  let task : Task e ResponseData := do
    let responseData ← moduleTask p req
    writeAudit p now req
    return responseData
  match task.exec s with
  | (.ok responseData, s') => (responseData, s')
  | (.error ex, s') => (errorReply ex, s')

/-! ### What one request does -/

/-- What becomes of the audit entry: it is inserted; or nothing is, because the request is
not audited, because the entry cannot be inserted, or because a call fails. -/
inductive Audits (p : Platform) (now : UtcTime) (req : RequestData)
    (faults : List (Option Exception)) (d d' : Db e) : Prop
  | none : ¬ IsAudited req → d' = d → Audits p now req faults d d'
  | written : IsAudited req → d.insert .log (Log.row p (auditEntry now req)) = .ok d' →
    Audits p now req faults d d'
  | lost : IsAudited req →
    (∀ d'', d.insert .log (Log.row p (auditEntry now req)) ≠ .ok d'') ∨ faults ≠ [] →
    d' = d → Audits p now req faults d d'

/-- What executing a request does: it is accepted, with its effect and then its audit entry;
or it is rejected, and nothing changes; or a failing call cuts it short. -/
inductive Step (p : Platform) (now : UtcTime) (req : RequestData)
    (faults : List (Option Exception)) (d : Db e) (reply : ResponseData) (d' : Db e) : Prop
  | accepted {d₁ : Db e} : Answers req d reply → Effect p req d d₁ →
    Audits p now req faults d₁ d' → Step p now req faults d reply d'
  | rejected (ex : Exception) : reply = errorReply ex →
    (IsUtf8 req.module → ex.IsUtf8) ∨ some ex ∈ faults → d' = d →
    Step p now req faults d reply d'
  | aborted (ex : Exception) : reply = errorReply ex → some ex ∈ faults →
    Aborted p req d d' → Step p now req faults d reply d'

/-- The modules the server has. -/
def modules : List String :=
  ["users", "system", "inventory", "management", "purchase", "sales", "analytics", "logs"]

section Specifications

variable {p : Platform} {now : UtcTime} {req : RequestData} {d : Db e}

/-- Only the error key is in the reply to a request that raised. -/
@[simp] theorem error_mem_errorReply (ex : Exception) : utf8 "error" ∈ (errorReply ex).dataset := by
  cases ex <;> exact (Finmap.mem_singleton _ _ _).mpr rfl

/-- A reply without the error key answers an accepted request. -/
theorem Step.of_no_error {faults : List (Option Exception)} {d' : Db e} {reply : ResponseData}
    (h : Step p now req faults d reply d') (hreply : utf8 "error" ∉ reply.dataset) :
    ∃ d₁, Answers req d reply ∧ Effect p req d d₁ ∧ Audits p now req faults d₁ d' := by
  cases h with
  | accepted hans heffect haudit => exact ⟨_, hans, heffect, haudit⟩
  | rejected ex hex => exact absurd (hex ▸ error_mem_errorReply ex) hreply
  | aborted ex hex => exact absurd (hex ▸ error_mem_errorReply ex) hreply

/-- What a task raises is valid UTF-8, if the name of its module is. -/
abbrev RaisesUtf8 (req : RequestData) (ex : Exception) : Prop := IsUtf8 req.module → ex.IsUtf8

/-- **Every module serves its requests**, by the specification of each module. -/
theorem moduleTask_spec (p : Platform) (req : RequestData) (hwf : WellFormed d) :
    Outcome (RaisesUtf8 req) d (moduleTask p req)
      (fun reply d' => Answers req d reply ∧ Effect p req d d') (Aborted p req d) := by
  have serves {x : Task e ResponseData} (h : Serves p req d x) :
      Outcome (RaisesUtf8 req) d x
        (fun reply d' => Answers req d reply ∧ Effect p req d d') (Aborted p req d) :=
    h.weaken fun _ hex _ => hex
  -- one test for each module, in the order of `moduleTask`
  refine Outcome.ite (fun _ => Outcome.throw fun _ => ⟨.utf8 _, .utf8 _⟩) fun _ => ?_
  refine Outcome.ite (fun h => serves (UsersModule.executeTask_spec h)) fun _ => ?_
  refine Outcome.ite (fun h => serves (SystemModule.executeTask_spec h)) fun _ => ?_
  refine Outcome.ite (fun h => serves (InventoryModule.executeTask_spec h)) fun _ => ?_
  refine Outcome.ite (fun h => serves (ManagementModule.executeTask_spec h)) fun _ => ?_
  refine Outcome.ite (fun h => serves (PurchaseModule.executeTask_spec hwf h)) fun _ => ?_
  refine Outcome.ite (fun h => serves (SalesModule.executeTask_spec h)) fun _ => ?_
  refine Outcome.ite (fun h => serves (AnalyticsModule.executeTask_spec h)) fun _ => ?_
  refine Outcome.ite (fun h => serves (LogsModule.executeTask_spec h)) fun _ => ?_
  -- the message repeats the name of the module, byte by byte
  exact Outcome.throw fun h => ⟨.utf8 _, .append (.utf8 _) h⟩

/-- What was audited under a schedule of faults is also audited under one that says less. -/
theorem Audits.mono {faults faults' : List (Option Exception)} {d' : Db e}
    (h : Audits p now req faults d d') (hfaults : faults ≠ [] → faults' ≠ []) :
    Audits p now req faults' d d' := by
  cases h with
  | none h heq => exact .none h heq
  | written h hok => exact .written h hok
  | lost h hwhy heq => exact .lost h (hwhy.imp_right hfaults) heq

/-- A module the server does not have is not executed. -/
theorem moduleTask_of_unrecognized (p : Platform) (hnil : req.module ≠ [])
    (h : ∀ name ∈ modules, req.module ≠ utf8 name) :
    (moduleTask p req : Task e ResponseData) = throw (unrecognizedModule req.module) := by
  simp only [modules, List.forall_mem_cons] at h
  obtain ⟨h1, h2, h3, h4, h5, h6, h7, h8, -⟩ := h
  simp only [moduleTask, hnil, h1, h2, h3, h4, h5, h6, h7, h8, if_false]

/-- The module `users` serves the requests that name it, and so do the others below. -/
theorem moduleTask_users (p : Platform) (hmodule : req.module = utf8 "users") :
    (moduleTask p req : Task e ResponseData) = UsersModule.executeTask p req := by
  have hne : req.module ≠ [] := fun h => absurd (hmodule.symm.trans h) (by decide)
  rw [moduleTask, if_neg hne, if_pos hmodule]

theorem moduleTask_inventory (p : Platform) (hmodule : req.module = utf8 "inventory") :
    (moduleTask p req : Task e ResponseData) = InventoryModule.executeTask p req := by
  unfold moduleTask
  rw [hmodule]
  rfl

theorem moduleTask_management (p : Platform) (hmodule : req.module = utf8 "management") :
    (moduleTask p req : Task e ResponseData) = ManagementModule.executeTask p req := by
  unfold moduleTask
  rw [hmodule]
  rfl

theorem moduleTask_purchase (p : Platform) (hmodule : req.module = utf8 "purchase") :
    (moduleTask p req : Task e ResponseData) = PurchaseModule.executeTask p req := by
  unfold moduleTask
  rw [hmodule]
  rfl

theorem moduleTask_sales (p : Platform) (hmodule : req.module = utf8 "sales") :
    (moduleTask p req : Task e ResponseData) = SalesModule.executeTask p req := by
  unfold moduleTask
  rw [hmodule]
  rfl

theorem moduleTask_logs (p : Platform) (hmodule : req.module = utf8 "logs") :
    (moduleTask p req : Task e ResponseData) = LogsModule.executeTask p req := by
  unfold moduleTask
  rw [hmodule]
  rfl

/-- Writing the audit entry raises nothing. -/
theorem writeAudit_spec (p : Platform) (now : UtcTime) (req : RequestData)
    (s : Session (Db e) Exception) :
    ∃ s', (writeAudit p now req).exec s = (.ok (), s') ∧ s.Frame s' ∧
      Audits p now req s.faults s.store s'.store := by
  unfold writeAudit
  by_cases h : IsAudited req
  · rw [if_pos h, exec_tryCatch]
    have hadd := add_spec (d := s.store) (p := p) logRepository (auditEntry now req) s rfl
    match hrun : (logRepository.add p (auditEntry now req) : Task e Unit).exec s with
    | (.ok _, s') =>
      rw [hrun] at hadd
      exact ⟨s', rfl, hadd.1, .written h hadd.2⟩
    | (.error ex, s') =>
      rw [hrun] at hadd
      -- either the database refuses the row, or the call itself fails
      obtain ⟨hframe, hcause⟩ := hadd
      have hstore : s'.store = s.store :=
        hcause.elim And.left fun h => h.2.resolve_right fun hf : False => hf
      unfold Repository.add Repository.executeStatement at hrun
      refine ⟨s', rfl, hframe,
        .lost h ((statement_error hrun).imp_left fun he d'' hok => ?_) hstore⟩
      simp [hok, logRepository, Except.mapError] at he
  · rw [if_neg h]
    exact ⟨s, rfl, .refl s, .none h rfl⟩

/-- A request is answered with the reply of its module. -/
theorem executeTask_of_ok (p : Platform) (now : UtcTime) {s s' : Session (Db e) Exception}
    {reply : ResponseData} (h : (moduleTask p req).exec s = (.ok reply, s')) :
    (executeTask p now req s).1 = reply := by
  obtain ⟨s'', hwrite, -⟩ := writeAudit_spec p now req s'
  unfold executeTask
  simp only [exec_bind, h, hwrite, exec_pure]

/-- **What executing a request does.** -/
theorem executeTask_spec (p : Platform) (now : UtcTime) (req : RequestData)
    (s : Session (Db e) Exception) (hwf : WellFormed s.store) :
    s.Frame (executeTask p now req s).2 ∧
      Step p now req s.faults s.store (executeTask p now req s).1
        (executeTask p now req s).2.store := by
  have hmodule := moduleTask_spec p req hwf s rfl
  unfold executeTask
  dsimp only
  rw [exec_bind]
  match hrun : (moduleTask p req : Task e ResponseData).exec s with
  | (.ok reply, s₁) =>
    rw [hrun] at hmodule
    obtain ⟨hframe, hans, heffect⟩ := hmodule
    obtain ⟨s', hwrite, hframe', haudit⟩ := writeAudit_spec p now req s₁
    simp only [exec_bind, hwrite]
    -- a fault left for the audit entry is a fault of the event
    refine ⟨hframe.trans hframe', .accepted hans heffect (haudit.mono fun hs₁ hs => hs₁ ?_)⟩
    exact List.suffix_nil.mp (hs ▸ hframe.faults_suffix)
  | (.error ex, s') =>
    rw [hrun] at hmodule
    obtain ⟨hframe, ⟨hstore, hex⟩ | ⟨hfault, hstore | habort⟩⟩ := hmodule
    · exact ⟨hframe, .rejected ex rfl (Or.inl hex) hstore⟩
    · exact ⟨hframe, .rejected ex rfl (Or.inr hfault) hstore⟩
    · exact ⟨hframe, .aborted ex rfl hfault habort⟩

end Specifications

end BusinessLogic

end SageStore
