import SageStore.Server.Footprint
import SageStore.Server.Steps

/-!
# Requests that fail

* `receipt_atomic` — a receipt that raises, wherever a call to the database fails, changes
  nothing, leaves no transaction open, and raises the error of the call that failed.
* `failed_request_unchanged` — a request that is answered with an error while no call fails
  changes nothing, whatever module it is for.

The first holds because everything that raises before the transaction only reads, and the
transaction undoes the rest; the second is read off `Step`.
-/

namespace SageStore

open Bytes Program BusinessLogic

variable {e : Enforcement} {p : Platform}

/-! ### Receipts -/

/-- A task composed of calls raises the error of a call that fails. -/
theorem Footprint.surfaces {ts : List TableName} {α : Type} {x : Task e α}
    (h : Footprint p ts x) : Surfaces x := by
  induction h with
  | pure a => exact Surfaces.pure a
  | throw ex => exact Surfaces.throw ex
  | bind _ _ ihx ihf => exact Surfaces.bind ihx ihf
  | getAll r _ => exact Surfaces.query _
  | getByField r c v _ => exact Surfaces.query _
  | add r x _ => exact Surfaces.statement _
  | update r x _ => exact Surfaces.statement _
  | deleteResource r id _ => exact Surfaces.statement _
  | ensureKey r v component message =>
    exact (Surfaces.query _).bind fun _ => Surfaces.ite (Surfaces.throw _) (Surfaces.pure _)
  | runInTransaction _ ih => exact Surfaces.transaction ih

/-- **Receiving is atomic.** Let the `k`-th call (counted from zero) that a receipt makes to
the database fail with `ex`, in any reachable state. If the receipt raises, then the database
is what it was, and no transaction is open, so the next one can begin. If the receipt makes
that many calls, it raises, and what it raises is `ex`. -/
theorem receipt_atomic (p : Platform) {s : Session (Db .full) Exception}
    (hs : (server p .full).Reachable s) (request : Dataset) (k : ℕ) (ex : Exception) :
    let r := (PurchaseModule.receiveOrder p request : Task .full Unit).exec
      { s with faults := List.replicate k none ++ [some ex] }
    (∀ raised, r.1 = .error raised → r.2.store = s.store ∧ r.2.snapshot = none ∧
      (runInTransaction (pure ()) : Task .full Unit).exec { r.2 with faults := [] } =
        (.ok (), { r.2 with faults := [] })) ∧
    (r.2.faults = [] → r.1 = .error ex) := by
  intro r
  obtain ⟨hwf, hsnap⟩ := Server.wellFormed hs
  constructor
  · intro raised hraised
    have hpost : RequestData.PostsReceipt ⟨"purchase", "receipts", "POST", [], request⟩ :=
      ⟨rfl, rfl, rfl⟩
    have hspec := PurchaseModule.receiveOrder_spec (p := p) hwf hpost
    obtain ⟨hframe, hstore⟩ := Atomic.unchanged
      (s := { s with faults := List.replicate k none ++ [some ex] }) hspec hraised
    have hclosed : r.2.snapshot = none := hframe.snapshot_eq.trans hsnap
    refine ⟨hstore, hclosed, ?_⟩
    -- a `BEGIN` and a `COMMIT` with nothing between them, on a session without a snapshot
    revert hclosed
    generalize r.2 = s'
    obtain ⟨d, snap, fs⟩ := s'
    rintro rfl
    rfl
  -- the fault is used up, so the receipt made the call that it is for
  · intro hfaults
    have hsurf := (PurchaseModule.receiveOrder_footprint (p := p) request).surfaces
      { s with faults := List.replicate k none ++ [some ex] } k ex rfl
    rcases hsurf with ⟨j, hj⟩ | ⟨hraised, -⟩
    · have : List.replicate j none ++ [some ex] = [] := hj.symm.trans hfaults
      simp at this
    · exact hraised

/-- A receipt of the order of the initial setup whose tenth call, the `COMMIT`, fails. -/
def failingReceipt : Except Exception Unit × Session (Db .full) Exception :=
  (PurchaseModule.receiveOrder .plain (Event.plain "purchase" "receipts" "POST" ""
    [("id", "1"), ("employeeId", "1")]).request.dataset : Task .full Unit).exec
    { (server .plain .full).init with
      faults := List.replicate 9 none ++ [some (.std "disk I/O error")] }

/-- It raises the error of that call, and the database is what it was. -/
theorem receipt_atomic_commit :
    failingReceipt.1 = .error (.std "disk I/O error") ∧
      failingReceipt.2.store = (server .plain .full).init.store := by
  obtain ⟨hundone, hraises⟩ := receipt_atomic .plain (server .plain .full).reachable_init
    (Event.plain "purchase" "receipts" "POST" "" [("id", "1"), ("employeeId", "1")]).request.dataset
    9 (.std "disk I/O error")
  have hfaults : failingReceipt.2.faults = [] := List.eq_nil_of_length_eq_zero (by decide +kernel)
  -- without its `let`s the receipt reads as it does in the theorem
  unfold failingReceipt at hfaults ⊢
  dsimp only at hraises hundone hfaults ⊢
  have hraised := hraises hfaults
  exact ⟨hraised, (hundone _ hraised).1⟩

/-! ### Every module -/

/-- **A failed request changes nothing.** In any reachable state, a request that is answered
with the error key while no call to the database fails leaves every table as it was. -/
theorem failed_request_unchanged (p : Platform) {s : Session (Db .full) Exception}
    (hs : (server p .full).Reachable s) (now : UtcTime) (req : RequestData)
    (herror : utf8 "error" ∈ ((server p .full).step s ⟨now, req, []⟩).1.dataset) :
    ((server p .full).step s ⟨now, req, []⟩).2.store = s.store := by
  have hstep := Server.step_spec hs ⟨now, req, []⟩
  cases hstep with
  | accepted hans => exact absurd herror hans.no_error
  | rejected ex hreply hex heq => exact heq
  | aborted ex hreply hfault habort => exact absurd hfault List.not_mem_nil

/-- An edit of a contact that does not exist. -/
def editUnknownContact : Event :=
  .plain "management" "contacts" "PUT" "7"
    [("name", "Ada"), ("type", "Customer"), ("email", "ada@example.com"), ("phone", "1")]

/-- It is answered with an error, and changes nothing. -/
theorem failed_request_unchanged_contact :
    ((server .plain .full).step (server .plain .full).init editUnknownContact).2.store =
      (server .plain .full).init.store :=
  failed_request_unchanged .plain (server .plain .full).reachable_init noon
    editUnknownContact.request (by decide +kernel)

end SageStore
