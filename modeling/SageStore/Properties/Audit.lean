import SageStore.Server.Steps

/-!
# The audit trail

Every accepted request that changes data is to leave an audit entry, and the entry names the
user the request names. Nobody checks that user: `Log.userId` is a foreign key, so the entry
of a user that does not exist is rejected by the database, and the rejection is ignored.

The action of an entry records the request as the text `module/submodule METHOD`, with ` #id`
behind it if the request has a resource id (`Records`). The text tells the four parts apart, as
long as the separators do not occur in the first three (`Records.unique`). It is stored up to its
first NUL.

`audit_exact_iff` says exactly which accepted requests are audited. Requests that only read,
and requests that are answered with an error, never are.
-/

namespace SageStore

open Bytes Program BusinessLogic

variable {e : Enforcement} {p : Platform} {now : UtcTime} {req : RequestData}
  {faults : List (Option Exception)} {d d' : Db e}

/-- The action names the module, the submodule and the method of a request, and its resource id
if it has one. -/
def Records (req : RequestData) (action : Bytes) : Prop :=
  action = req.module ++ utf8 "/" ++ (req.submodule ++ utf8 " " ++
    (req.method ++ if req.resourceId = [] then [] else utf8 " #" ++ req.resourceId))

/-- What an action records holds no NUL. -/
def RequestData.NulFree (req : RequestData) : Prop :=
  (0 : UInt8) ∉ req.module ∧ (0 : UInt8) ∉ req.submodule ∧ (0 : UInt8) ∉ req.method ∧
    (0 : UInt8) ∉ req.resourceId

instance (req : RequestData) : Decidable req.NulFree :=
  inferInstanceAs (Decidable (_ ∧ _ ∧ _ ∧ _))

/-- One row was appended to the log, and its action records the request. -/
def IsLogged (req : RequestData) (d d' : Db e) : Prop :=
  ∃ x : LogRow, Records req x.action ∧ d' .log = (d .log).insert x

/-- The request names no user; or a user that exists, and that it does not itself delete; or
the user that it creates. -/
def NamesUser (p : Platform) (req : RequestData) (d : Db e) : Prop :=
  let user := getOptionalDatasetValue req.dataset "userId"
  cstr user = [] ∨
    ((d .user).Has (p.cell user) ∧ ¬ (req.Addresses .user ∧ req.method = utf8 "DELETE" ∧
      p.cell req.resourceId = p.cell user)) ∨
    (req.Addresses .user ∧ req.method = utf8 "POST" ∧
      p.cell user = .int ((d .user).seq + 1 : ℕ))

/-! ### Actions -/

/-- **An action tells which request it records**: the module ends at the first slash, the
submodule at the first blank behind it, and the method at the next. -/
theorem Records.unique {req' : RequestData} {action : Bytes} (h : Records req action)
    (h' : Records req' action) (hmodule : (47 : UInt8) ∉ req.module)
    (hmodule' : (47 : UInt8) ∉ req'.module) (hsubmodule : (32 : UInt8) ∉ req.submodule)
    (hsubmodule' : (32 : UInt8) ∉ req'.submodule) (hmethod : (32 : UInt8) ∉ req.method)
    (hmethod' : (32 : UInt8) ∉ req'.method) :
    req.module = req'.module ∧ req.submodule = req'.submodule ∧ req.method = req'.method ∧
      req.resourceId = req'.resourceId := by
  have hslash : utf8 "/" = [47] := by decide
  have hblank : utf8 " " = [32] := by decide
  have hid : utf8 " #" = [32, 35] := by decide
  unfold Records at h h'
  simp only [hslash, hblank, hid, List.append_assoc, List.cons_append, List.nil_append] at h h'
  obtain ⟨hm, htail⟩ := (append_cons_inj hmodule hmodule').mp (h.symm.trans h')
  obtain ⟨hs, htail⟩ := (append_cons_inj hsubmodule hsubmodule').mp htail
  refine ⟨hm, hs, ?_⟩
  -- without a resource id the action ends with the method
  by_cases hnone : req.resourceId = [] <;> by_cases hnone' : req'.resourceId = []
  · rw [if_pos hnone, if_pos hnone', List.append_nil, List.append_nil] at htail
    exact ⟨htail, hnone.trans hnone'.symm⟩
  · rw [if_pos hnone, if_neg hnone', List.append_nil] at htail
    exact absurd (htail ▸ List.mem_append_right _ List.mem_cons_self) hmethod
  · rw [if_neg hnone, if_pos hnone', List.append_nil] at htail
    exact absurd (htail ▸ List.mem_append_right _ List.mem_cons_self) hmethod'
  · rw [if_neg hnone, if_neg hnone'] at htail
    obtain ⟨hv, htail⟩ := (append_cons_inj hmethod hmethod').mp htail
    exact ⟨hv, (List.cons.inj htail).2⟩

/-- The source builds the action that records the request. -/
theorem records_buildAuditAction (req : RequestData) : Records req (buildAuditAction req) := by
  unfold Records buildAuditAction
  dsimp only
  by_cases hnone : req.resourceId = []
  · simp only [hnone, ne_eq, not_true_eq_false, if_false, if_true, List.append_assoc,
      List.append_nil]
  · simp only [hnone, ne_eq, not_false_eq_true, if_false, if_true, List.append_assoc]

/-- The action holds a NUL exactly if one of the parts that it records does. -/
theorem zero_notMem_buildAuditAction :
    (0 : UInt8) ∉ buildAuditAction req ↔ req.NulFree := by
  have hslash : (0 : UInt8) ∉ utf8 "/" := by decide
  have hblank : (0 : UInt8) ∉ utf8 " " := by decide
  have hid : (0 : UInt8) ∉ utf8 " #" := by decide
  have hrecords : buildAuditAction req = _ := records_buildAuditAction req
  rw [hrecords, RequestData.NulFree]
  by_cases hnone : req.resourceId = []
  · simp [hnone, hslash, hblank]
  · simp [hnone, hslash, hblank, hid]

/-! ### Users -/

/-- Who is a user after an accepted request. -/
theorem Effect.has_user_iff (h : Effect p req d d') (hmethod : req.method ≠ utf8 "GET")
    (key : Cell) : (d' .user).Has key ↔
      ((d .user).Has key ∧ ¬ (req.Addresses .user ∧ req.method = utf8 "DELETE" ∧
        p.cell req.resourceId = key)) ∨
      (req.Addresses .user ∧ req.method = utf8 "POST" ∧ key = .int ((d .user).seq + 1 : ℕ)) := by
  by_cases haddr : req.Addresses .user
  · have hPOST : utf8 "POST" ≠ utf8 "DELETE" ∧ utf8 "DELETE" ≠ utf8 "POST" := by decide
    have hPUT : utf8 "PUT" ≠ utf8 "DELETE" ∧ utf8 "PUT" ≠ utf8 "POST" := by decide
    -- only statements about users address the users
    cases h with
    | read honly => exact absurd (honly.isGet _ haddr) hmethod
    | insert t x ht hpost hguard hutf8 hok =>
      obtain rfl := haddr.unique ht
      rw [Database.put_self hok, Table.has_insert]
      simp [haddr, hpost, hPOST.1]
    | update t x ht hput hid hguard hutf8 hok =>
      obtain rfl := haddr.unique ht
      rw [Database.put_self hok, Table.has_update]
      simp [hput, hPUT.1, hPUT.2]
    | delete t ht hdelete hid hguard hok =>
      obtain rfl := haddr.unique ht
      rw [Database.put_self hok, Table.has_delete]
      simp [haddr, hdelete, hPOST.2]
    | deleteSaleOrder ht => exact absurd (haddr.unique ht) (by decide)
    | deletePurchaseOrder ht => exact absurd (haddr.unique ht) (by decide)
    | receive hpost => exact absurd (hpost.1.symm.trans haddr.1) (by decide)
  · rw [h.eq_of_not_addresses haddr (by decide)]
    simp [haddr]

/-! ### Entries -/

/-- When a log entry can be inserted: a key is left for it, and its user is NULL or exists. -/
theorem insert_log_isOk {x : LogRow} {d : Db .full} :
    (∃ d', d.insert .log x = .ok d') ↔
      (d .log).KeysLeft 1 ∧ (x.userId = .null ∨ (d .user).Has x.userId) := by
  have hone : ∀ fk ∈ references, fk.child = .log → fk = ⟨.log, LogRow.userId, .user⟩ := by
    simp [references]
  constructor
  · -- the database after the insertion meets its constraints
    rintro ⟨d', hok⟩
    refine ⟨(Database.insert_eq_ok_iff.mp ⟨d', hok⟩).1, ?_⟩
    have hnew : ((d .log).seq + 1, x) ∈ (d' .log).rows := by
      rw [Database.put_self hok]
      exact Table.mem_insert.mpr (Or.inr rfl)
    have href := refers ⟨.log, LogRow.userId, .user⟩ (by simp [references]) hnew
    rwa [Database.put_of_ne hok (by decide)] at href
  · rintro ⟨hkey, hx⟩
    refine Database.insert_isOk hkey (fun u hu ht => ?_) fun fk hfk hchild => ?_
    · -- no column of the log is unique
      rcases mem_uniqueKeys hu with rfl | rfl <;> cases ht
    · obtain rfl := hone fk (mem_references_of_mem hfk) hchild
      exact hx

/-- When the audit entry of a request can be inserted. -/
theorem insert_auditEntry_isOk {d : Db .full} :
    (∃ d', d.insert .log (Log.row p (auditEntry now req)) = .ok d') ↔ (d .log).KeysLeft 1 ∧
      (cstr (getOptionalDatasetValue req.dataset "userId") = [] ∨
        (d .user).Has (p.cell (getOptionalDatasetValue req.dataset "userId"))) := by
  rw [insert_log_isOk]
  by_cases huser : cstr (getOptionalDatasetValue req.dataset "userId") = []
  · simp [Log.row, auditEntry, huser]
  · simp [Log.row, auditEntry, huser, p.cell_ne_null]

/-- Auditing appends one entry at most, and changes no other. -/
theorem BusinessLogic.Audits.append (h : Audits p now req faults d d') :
    d' .log = d .log ∨ ∃ x, d' .log = (d .log).insert x := by
  cases h with
  | none _ heq => exact Or.inl (congrArg (fun d : Db e => d .log) heq)
  | written _ hok => exact Or.inr ⟨_, Database.put_self hok⟩
  | lost _ _ heq => exact Or.inl (congrArg (fun d : Db e => d .log) heq)

/-- While no call fails, the request is logged if its entry can be inserted and holds no
NUL. -/
theorem BusinessLogic.Audits.isLogged_iff (h : Audits p now req [] d d')
    (haudited : IsAudited req) : IsLogged req d d' ↔ req.NulFree ∧
      ∃ d'', d.insert .log (Log.row p (auditEntry now req)) = .ok d'' := by
  rw [← zero_notMem_buildAuditAction]
  cases h with
  | none hnot => exact absurd haudited hnot
  | written _ hok =>
    have hlog := Database.put_self hok
    constructor
    · -- the stored action ends at the first NUL, so there is none
      rintro ⟨x, hx, heq⟩
      obtain rfl := Table.insert_inj.mp (hlog.symm.trans heq)
      have haction : cstr (buildAuditAction req) = buildAuditAction req :=
        hx.trans (records_buildAuditAction req).symm
      exact ⟨cstr_eq_self_iff.mp haction, d', hok⟩
    · rintro ⟨h0, -⟩
      refine ⟨_, ?_, hlog⟩
      show Records req (cstr (buildAuditAction req))
      rw [cstr_eq_self h0]
      exact records_buildAuditAction req
  | lost _ hwhy heq =>
    -- without faults the entry was lost because it cannot be inserted
    have hfail := hwhy.resolve_right fun h => h rfl
    refine iff_of_false ?_ fun h => h.2.elim hfail
    rintro ⟨x, -, hins⟩
    exact Table.ne_insert _ x ((congrArg (fun d : Db e => d .log) heq).symm.trans hins)

/-! ### The audit trail -/

/-- **Which requests are audited.** In every reachable state, a request to a module other
than the log that only reads, or that is answered with an error, leaves the log as it is.
Any other appends one entry at most, and changes none; and while no call fails, it is logged
if and only if the four parts that an action records hold no NUL, a key is left for its entry, and
it names a user that the entry can refer to. -/
theorem audit_exact_iff (p : Platform) {s : Session (Db .full) Exception}
    (hs : (server p .full).Reachable s) (ev : Event)
    (hmodule : ev.request.module ≠ utf8 "logs") :
    let r := (server p .full).step s ev
    (ev.request.method = utf8 "GET" ∨ utf8 "error" ∈ r.1.dataset →
      r.2.store .log = s.store .log) ∧
    (ev.request.method ≠ utf8 "GET" → utf8 "error" ∉ r.1.dataset →
      (r.2.store .log = s.store .log ∨ ∃ x, r.2.store .log = (s.store .log).insert x) ∧
      (ev.faults = [] → (IsLogged ev.request s.store r.2.store ↔
        ev.request.NulFree ∧ (s.store .log).KeysLeft 1 ∧ NamesUser p ev.request s.store))) := by
  have hstep := Server.step_spec hs ev
  refine ⟨fun hwhy => ?_, fun hmethod herror => ?_⟩
  · cases hstep with
    | rejected ex hreply hex heq => rw [heq]
    | aborted ex hreply hfault habort => exact habort.eq_of_ne (by decide) (by decide)
    | accepted hans heffect haudit =>
      -- no accepted request is answered with an error, so this one only reads
      have hget := hwhy.resolve_right hans.no_error
      cases haudit with
      | none h heq => exact heq ▸ heffect.log_eq hmodule
      | written h hok => exact absurd hget h.1
      | lost h hwhy heq => exact heq ▸ heffect.log_eq hmodule
  · obtain ⟨d₁, hans, heffect, haudit⟩ := hstep.of_no_error herror
    have hlog := heffect.log_eq hmodule
    refine ⟨hlog ▸ haudit.append, fun hfaults => ?_⟩
    -- the request itself left the log alone, so logging starts from the log it found
    have hlogged : IsLogged ev.request s.store ((server p .full).step s ev).2.store ↔
        IsLogged ev.request d₁ ((server p .full).step s ev).2.store := by
      unfold IsLogged
      rw [hlog]
    rw [hfaults] at haudit
    rw [hlogged, haudit.isLogged_iff ⟨hmethod, hmodule⟩, insert_auditEntry_isOk, hlog,
      heffect.has_user_iff hmethod]
    exact Iff.rfl

/-- A new contact, by a request that names a user. -/
def postContact (user : String) : Event :=
  .plain "management" "contacts" "POST" ""
    [("name", "Ada"), ("type", "Customer"), ("email", "ada@example.com"), ("phone", "1"),
      ("userId", user)]

/-- The initial user's new contact is logged. -/
theorem audit_exact_iff_contact :
    IsLogged (postContact "1").request (server .plain .full).init.store
      ((server .plain .full).step (server .plain .full).init (postContact "1")).2.store := by
  have hs := (server .plain .full).reachable_init
  have hlogged := (audit_exact_iff .plain hs (postContact "1") (by decide)).2 (by decide)
    (by decide +kernel)
  exact (hlogged.2 rfl).mpr ⟨by decide, by decide +kernel, Or.inr (Or.inl (by decide +kernel))⟩

/-- A new contact, by a request that names a user who does not exist, is accepted in the
initial state and not logged. -/
theorem unknownUser_not_logged :
    (server .plain .full).Reachable (server .plain .full).init ∧
    (postContact "999").request.module ≠ utf8 "logs" ∧
    (postContact "999").request.method ≠ utf8 "GET" ∧
    utf8 "error" ∉
      ((server .plain .full).step (server .plain .full).init (postContact "999")).1.dataset ∧
    ¬ IsLogged (postContact "999").request (server .plain .full).init.store
      ((server .plain .full).step (server .plain .full).init (postContact "999")).2.store := by
  refine ⟨(server .plain .full).reachable_init, by decide, by decide, by decide +kernel, ?_⟩
  rintro ⟨x, -, hlog⟩
  have hrows : (((server .plain .full).step (server .plain .full).init
      (postContact "999")).2.store .log).rows.length = 0 := by decide +kernel
  rw [hlog] at hrows
  simp at hrows

end SageStore
