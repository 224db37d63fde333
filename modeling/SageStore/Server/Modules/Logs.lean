import SageStore.Server.Effect

/-!
# `LogsModule` and `SystemModule`

Log entries can be managed like any other rows. Listing them is the one reply whose texts
need not be valid UTF-8: the actions of the audit trail are made of the path of a request.
-/

namespace SageStore

open Bytes Program

variable {e : Enforcement}

namespace LogsModule

def buildLog (request : Dataset) (resourceId : Bytes) : Except Exception Log := do
  let userId := getOptionalDatasetValue request "userId"
  if userId ≠ [] then
    if ¬ isDigits userId then
      throw (.server "LogsModule" "Invalid positive integer field: userId")
    ensureIntegerFitsRange userId "userId" "LogsModule"
  let action ← getRequiredDatasetValue request "action" "LogsModule"
  let timestamp ← getRequiredDatasetValue request "timestamp" "LogsModule"
  return ⟨resourceId, userId, action, timestamp⟩

def getLogs : Task e ResponseData := do
  let entries ← logRepository.getAll
  return listing [("id", Log.id), ("userId", Log.userId), ("action", Log.action),
    ("timestamp", Log.timestamp)] entries

def addLog (p : Platform) (request : Dataset) : Task e Unit := do
  let entry ← buildLog request []
  logRepository.add p entry

def editLog (p : Platform) (request : Dataset) (resourceId : Bytes) : Task e Unit :=
  editExisting p logRepository "LogsModule" "Log" "Log entry does not exist"
    (buildLog request resourceId) resourceId

def deleteLog (p : Platform) (resourceId : Bytes) : Task e Unit :=
  deleteExisting p logRepository "LogsModule" "Log" "Log entry does not exist" resourceId

def executeTask (p : Platform) (req : RequestData) : Task e ResponseData :=
  if req.submodule ≠ utf8 "entries" then
    throw (.server "LogsModule" "Unrecognized logs task")
  else
    dispatchMethod "LogsModule" req.method getLogs (addLog p req.dataset)
      (editLog p req.dataset req.resourceId) (deleteLog p req.resourceId)

/-! ### Specifications -/

section Specifications

variable {p : Platform} {req : RequestData} {d : Db e}

/-- The entry that is built of valid UTF-8 reads as valid UTF-8. -/
theorem buildLog_spec (p : Platform) {request : Dataset} {resourceId : Bytes} :
    Yields Exception.IsUtf8 (buildLog request resourceId) fun x => x.id = resourceId ∧
      (request.IsUtf8 → RowIsUtf8 .log (Log.row p x) ∧ IsUtf8 (Log.row p x).action) := by
  -- what follows the optional user, the same in both branches
  have hrest : Yields Exception.IsUtf8 (do
      let action ← getRequiredDatasetValue request "action" "LogsModule"
      let timestamp ← getRequiredDatasetValue request "timestamp" "LogsModule"
      return (⟨resourceId, getOptionalDatasetValue request "userId", action, timestamp⟩ : Log))
      fun x => x.id = resourceId ∧
        (request.IsUtf8 → RowIsUtf8 .log (Log.row p x) ∧ IsUtf8 (Log.row p x).action) := by
    refine getRequiredDatasetValue_spec.bind fun action haction => ?_
    refine getRequiredDatasetValue_spec.bind fun timestamp htime => ?_
    refine Yields.pure ⟨rfl, fun hds => ⟨⟨?_, ?_⟩, (haction.1 ▸ hds.field _).cstr⟩⟩
    · dsimp only [Log.row]
      split
      · exact .nil
      · exact p.isUtf8_cell (hds.field _)
    · exact (p.sqlite.numeric_renders _).isUtf8 (htime.1 ▸ hds.field _).cstr
  unfold buildLog
  dsimp only
  split
  · next hne =>
    split
    · exact Yields.throw ⟨.utf8 _, .utf8 _⟩
    · next hd => exact (ensureIntegerFitsRange_spec (not_not.mp hd)).bind fun _ _ => hrest
  · exact hrest

/-- The reply that lists the log is valid UTF-8 exactly when the stored actions are. -/
theorem getLogs_spec (haddr : req.Addresses .log) (hmethod : req.method = utf8 "GET") :
    Serves p req d getLogs := by
  refine Serves.reads (.of_get hmethod)
    ((getAll_spec logRepository).bindReads fun entries hentries => ?_)
  subst hentries
  refine Reads.pure ⟨fun h => absurd (mem_listing.mp h) (by decide), fun hd => ⟨?_, ?_⟩⟩
  -- the reply holds the action of every row, in the column of that name
  · intro hreply _ r hr
    refine (hreply (utf8 "action") _ rfl).2 _ ?_
    exact List.mem_map.mpr ⟨_, List.mem_map.mpr ⟨r, hr, rfl⟩, rfl⟩
  · intro hactions
    refine isUtf8_listing fun y hy => ?_
    obtain ⟨r, hr, rfl⟩ := List.mem_map.mp hy
    have hrow : RowIsUtf8 .log r.2 := hd .log r hr
    have haction : IsUtf8 r.2.action := hactions ⟨haddr, hmethod⟩ r hr
    simp [logRepository, hrow.1, hrow.2, haction]

/-- The module serves its requests. -/
theorem executeTask_spec (hmodule : req.module = utf8 "logs") :
    Serves p req d (executeTask p req) := by
  refine Outcome.ite (fun _ => Outcome.throw ⟨.utf8 _, .utf8 _⟩) fun hsub => ?_
  have haddr : req.Addresses .log := ⟨hmodule, not_not.mp hsub⟩
  exact managed_spec logRepository haddr (getLogs_spec haddr)
    (fun id => (buildLog_spec p).mono fun x hx =>
      ⟨hx.1, fun hds => (hx.2 hds).2, fun h => ⟨h, fun hds => (hx.2 hds).2⟩,
        fun hds => ⟨(hx.2 hds).1, (hx.2 hds).1⟩⟩) fun h => h

end Specifications

end LogsModule

namespace SystemModule

def executeTask (req : RequestData) : Task e ResponseData :=
  if req.submodule ≠ utf8 "health" then
    throw (.server "SystemModule" "Unrecognized system task")
  else if req.method ≠ utf8 "GET" then
    throw (.server "SystemModule" "Health endpoint is read-only")
  else
    return record [("status", "ok"), ("service", "SageStoreServer"), ("ready", "true")]

/-- The module reads nothing and writes nothing. -/
theorem executeTask_spec {p : Platform} {req : RequestData} {d : Db e}
    (hmodule : req.module = utf8 "system") : Serves p req d (executeTask req) := by
  refine Outcome.ite (fun _ => Outcome.throw ⟨.utf8 _, .utf8 _⟩) fun _ =>
    Outcome.ite (fun _ => Outcome.throw ⟨.utf8 _, .utf8 _⟩) fun hmethod =>
      Serves.reads (.of_get (not_not.mp hmethod))
        (Reads.pure (.record (fun hlog => ?_) (by decide) fun _ => by simp))
  exact absurd (hmodule.symm.trans hlog.1.1) (by decide)

end SystemModule

end SageStore
