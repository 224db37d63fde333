import SageStore.Properties.Accounts
import SageStore.Properties.Freshness
import SageStore.Properties.Keys

/-!
# What requests make of the listings

A `catalogue` is what clients are shown of a table: its rows under their keys, as a client
receives them. What an accepted request makes of it is a statement on the catalogue itself
(`applied`): the described row is appended under the next key, or replaces the addressed one, or
the addressed one is removed. So a catalogue is the accepted requests about it, applied one after
the other in the order of their execution (`catalogue_run`), whatever else is requested meanwhile
and whichever calls fail.

Stocks and purchase orders are written by receipts too, and lines are deleted with their order;
`Reaches` are the requests that do so.
-/

namespace SageStore

open Bytes Program BusinessLogic

variable {e : Enforcement} {p : Platform} {J : Json} {url : QUrl} {sha256 : Sha256}
  {t : TableName} {req : RequestData} {d d' : Db e}

/-! ### Catalogues -/

/-- A stored row, as clients are shown it. -/
def shownAs (t : TableName) (i : ℕ) (x : Row t) : Entity t := received t (entityOf t i x)

/-- What clients are shown of a table. -/
def catalogue (d : Db e) (t : TableName) : Table (Entity t) := (d t).mapRows (shownAs t)

/-- The listing of a resource is its catalogue. -/
theorem shown_eq_catalogue (p : Platform) (d : Db e) (t : TableName) :
    shown p [] d t = (catalogue d t).rows.map Prod.snd := by
  have hall : listedRows p [] d t = (d t).rows := by cases t <;> rfl
  rw [shown, hall, catalogue, Table.mapRows_rows, List.map_map]
  rfl

/-- What an accepted request makes of the catalogue of the table that it addresses. -/
def applied (p : Platform) (T : Table (Entity t)) (req : RequestData) : Table (Entity t) :=
  if req.method = utf8 "POST" then
    T.insert (shownAs t (T.seq + 1) (writtenRow p req.dataset t))
  else if req.method = utf8 "PUT" then
    T.update (p.cell req.resourceId)
      (shownAs t (p.cell req.resourceId).toInt.toNat (writtenRow p req.dataset t))
  else if req.method = utf8 "DELETE" then
    T.delete (p.cell req.resourceId)
  else T

/-- A password is not shown. -/
theorem Makes.shownAs_eq {request : Dataset} {x : Row t} (h : Makes p request d t x) (i : ℕ) :
    shownAs t i x = shownAs t i (writtenRow p request t) := by
  -- the rows differ at most in the password, which `received` leaves empty
  cases h <;> rfl

/-- The row that an accepted request writes, in the catalogue. -/
theorem RowMade.catalogue_eq (h : RowMade p req t d d') :
    catalogue d' t = applied p (catalogue d t) req := by
  obtain ⟨x, hx, ⟨hmethod, hput⟩ | ⟨hmethod, hput⟩⟩ := h
  · unfold applied catalogue
    rw [if_pos hmethod, hput, Table.mapRows_insert, hx.shownAs_eq]
    rfl
  · have hpost : req.method ≠ utf8 "POST" := by
      rw [hmethod]
      decide
    -- every row is shown under its own key, so the replaced one keeps the addressed key
    unfold applied catalogue
    rw [if_neg hpost, if_pos hmethod, hput, Table.mapRows_update, hx.shownAs_eq]

/-! ### Requests about other rows -/

/-- The request may change rows of a table that it does not address: a receipt raises stocks and
receives its order, and an order is deleted with its lines. -/
inductive RequestData.Reaches (req : RequestData) : TableName → Prop
  | stocks : req.PostsReceipt → req.Reaches .inventory
  | order : req.PostsReceipt → req.Reaches .purchaseOrder
  | saleLines : req.Addresses .saleOrder → req.method = utf8 "DELETE" →
    req.Reaches .salesOrderRecord
  | purchaseLines : req.Addresses .purchaseOrder → req.method = utf8 "DELETE" →
    req.Reaches .purchaseOrderRecord

/-- An accepted request that does not reach a table otherwise changes it by one statement on the
row that it addresses there. -/
theorem Effect.of_not_reaches (h : Effect p req d d') (hreach : ¬ req.Reaches t) :
    (¬ req.Addresses t ∧ d' t = d t) ∨ req.Addresses t ∧
      (req.method = utf8 "GET" ∧ d' t = d t ∨ req.method = utf8 "POST" ∨
        req.method = utf8 "PUT" ∨
          req.method = utf8 "DELETE" ∧ d' t = (d t).delete (p.cell req.resourceId)) := by
  -- a statement on another table than `t`
  have hother {t' : TableName} (haddr : req.Addresses t') (ht : t ≠ t') : ¬ req.Addresses t :=
    fun h => ht (h.unique haddr)
  cases h with
  | read honly =>
    by_cases haddr : req.Addresses t
    · exact Or.inr ⟨haddr, Or.inl ⟨honly.isGet t haddr, rfl⟩⟩
    · exact Or.inl ⟨haddr, rfl⟩
  | insert t' x haddr hmethod hguard hutf8 hok =>
    by_cases ht : t = t'
    · exact Or.inr ⟨ht ▸ haddr, Or.inr (Or.inl hmethod)⟩
    · exact Or.inl ⟨hother haddr ht, Database.put_of_ne hok ht⟩
  | update t' x haddr hmethod hid hguard hutf8 hok =>
    by_cases ht : t = t'
    · exact Or.inr ⟨ht ▸ haddr, Or.inr (Or.inr (Or.inl hmethod))⟩
    · exact Or.inl ⟨hother haddr ht, Database.put_of_ne hok ht⟩
  | delete t' haddr hmethod hid hguard hok =>
    by_cases ht : t = t'
    · subst ht
      exact Or.inr ⟨haddr, Or.inr (Or.inr (Or.inr ⟨hmethod, Database.put_self hok⟩))⟩
    · exact Or.inl ⟨hother haddr ht, Database.put_of_ne hok ht⟩
  | deleteSaleOrder haddr hmethod hhas herase hok =>
    by_cases hline : t = .salesOrderRecord
    · exact absurd (hline ▸ .saleLines haddr hmethod) hreach
    by_cases ht : t = .saleOrder
    · subst ht
      refine Or.inr ⟨haddr, Or.inr (Or.inr (Or.inr ⟨hmethod, ?_⟩))⟩
      rw [Database.put_self hok, herase.others _ hline]
    · exact Or.inl ⟨hother haddr ht, (Database.put_of_ne hok ht).trans (herase.others t hline)⟩
  | deletePurchaseOrder haddr hmethod hopen herase hok =>
    by_cases hline : t = .purchaseOrderRecord
    · exact absurd (hline ▸ .purchaseLines haddr hmethod) hreach
    by_cases ht : t = .purchaseOrder
    · subst ht
      refine Or.inr ⟨haddr, Or.inr (Or.inr (Or.inr ⟨hmethod, ?_⟩))⟩
      rw [Database.put_self hok, herase.others _ hline]
    · exact Or.inl ⟨hother haddr ht, (Database.put_of_ne hok ht).trans (herase.others t hline)⟩
  | receive hpost hreceives =>
    -- no table has the path of the receipts
    have hno : ¬ req.Addresses t := fun haddr => by
      have hsub : utf8 "receipts" = utf8 (path t).2 := hpost.2.1.symm.trans haddr.2
      cases t <;> exact absurd hsub (by decide)
    refine Or.inl ⟨hno, hreceives.others t ?_ ?_⟩
    · rintro rfl
      exact hreach (.stocks hpost)
    · rintro rfl
      exact hreach (.order hpost)

/-! ### Runs -/

/-- What one event makes of a catalogue. -/
theorem Server.catalogue_step {s : Session (Db e) Exception} (hs : (server p e).Reachable s)
    (ev : Event) (ht : t ≠ .log) (hreach : ¬ ev.request.Reaches t) :
    catalogue ((server p e).step s ev).2.store t =
      if ev.request.Addresses t ∧ utf8 "error" ∉ ((server p e).step s ev).1.dataset then
        applied p (catalogue s.store t) ev.request
      else catalogue s.store t := by
  have hstep := Server.step_spec hs ev
  by_cases hreply : utf8 "error" ∈ ((server p e).step s ev).1.dataset
  · -- a request that is refused changes nothing, or some lines of the order it was to delete
    rw [if_neg fun h => h.2 hreply]
    have hsame : ((server p e).step s ev).2.store t = s.store t := by
      cases hstep with
      | accepted hans => exact absurd hreply hans.no_error
      | rejected ex _ _ heq => rw [heq]
      | aborted ex _ _ habort =>
        cases habort with
        | deleteSaleOrder gone haddr hmethod hgone herase =>
          exact herase.others t fun h => hreach (h ▸ .saleLines haddr hmethod)
        | deletePurchaseOrder gone haddr hmethod hopen hgone herase =>
          exact herase.others t fun h => hreach (h ▸ .purchaseLines haddr hmethod)
    rw [catalogue, hsame, catalogue]
  obtain ⟨d₁, -, heffect, haudit⟩ := hstep.of_no_error hreply
  -- the audit entry goes to the log
  have hsame : ((server p e).step s ev).2.store t = d₁ t := haudit.eq_of_ne ht
  rcases heffect.of_not_reaches hreach with ⟨hnot, heq⟩ | ⟨haddr, hcases⟩
  · rw [if_neg fun h => hnot h.1, catalogue, hsame, heq, catalogue]
  rw [if_pos ⟨haddr, hreply⟩]
  rcases hcases with ⟨hmethod, heq⟩ | hmethod | hmethod | ⟨hmethod, heq⟩
  · unfold applied
    rw [catalogue, hsame, heq, hmethod]
    rfl
  · exact (rowMade (s := { s with faults := ev.faults }) haddr (Or.inl hmethod) hreply).catalogue_eq
  · exact (rowMade (s := { s with faults := ev.faults }) haddr (Or.inr hmethod) hreply).catalogue_eq
  · unfold applied
    rw [catalogue, hsame, heq, hmethod, Table.mapRows_delete]
    rfl

/-- The requests about a table that were accepted, in the order of their execution. -/
def accepted (t : TableName) (h : List (Event × ResponseData)) : List RequestData :=
  (h.filter fun x => x.1.request.Addresses t ∧ utf8 "error" ∉ x.2.dataset).map fun x =>
    x.1.request

theorem accepted_cons (x : Event × ResponseData) (h : List (Event × ResponseData)) :
    accepted t (x :: h) =
      if x.1.request.Addresses t ∧ utf8 "error" ∉ x.2.dataset then
        x.1.request :: accepted t h
      else accepted t h := by
  unfold accepted
  rw [List.filter_cons]
  by_cases hacc : x.1.request.Addresses t ∧ utf8 "error" ∉ x.2.dataset
  · rw [if_pos hacc, if_pos (decide_eq_true hacc)]
    rfl
  · rw [if_neg hacc, if_neg fun hdec => hacc (of_decide_eq_true hdec)]

/-- **A listing is the accepted requests about it.** In every run of the server, from any state
that it reaches, what clients are shown of a table is what they were shown before, with the
requests about the table that were accepted applied one after the other, whatever else was
requested and whichever calls failed. -/
theorem catalogue_run (p : Platform) {s : Session (Db e) Exception}
    (hs : (server p e).Reachable s) (ht : t ≠ .log) (evs : List Event)
    (hreach : ∀ ev ∈ evs, ¬ ev.request.Reaches t) :
    catalogue ((server p e).run s evs).store t =
      (accepted t ((server p e).history s evs)).foldl (applied p) (catalogue s.store t) := by
  -- the rest of the run starts from a state that is reached, with the catalogue of one step more
  induction evs generalizing s with
  | nil => rfl
  | cons ev evs ih =>
    have hstep := Server.catalogue_step hs ev ht (hreach ev List.mem_cons_self)
    have hrest : ∀ ev' ∈ evs, ¬ ev'.request.Reaches t := fun ev' h =>
      hreach ev' (List.mem_cons_of_mem ev h)
    rw [Machine.run_cons, ih (hs.step ev) hrest, hstep, Machine.history, accepted_cons]
    by_cases hacc : ev.request.Addresses t ∧
        utf8 "error" ∉ ((server p e).step s ev).1.dataset
    · rw [if_pos hacc, if_pos hacc]
      rfl
    · rw [if_neg hacc, if_neg hacc]

/-- A role is created, another one of its name is refused, and the first one is renamed. -/
def rolesChanged : List Event :=
  [Event.plain "users" "roles" "POST" "" [("name", "Clerk")],
    Event.plain "users" "roles" "POST" "" [("name", "Clerk")],
    Event.plain "users" "roles" "PUT" "3" [("name", "Storekeeper")]]

/-- The last listing has the new name, by the two requests that were accepted. -/
theorem catalogue_run_roles :
    (((accepted .role ((server .plain .full).history (server .plain .full).init rolesChanged)).foldl
      (applied .plain) (catalogue (server .plain .full).init.store .role)).rows.map
        fun x => (x.2.id, x.2.name)).getLast? = some (utf8 "3", utf8 "Storekeeper") := by
  rw [← catalogue_run (t := .role) .plain (Machine.reachable_init _) (by decide) rolesChanged
    fun _ _ hreach => nomatch hreach]
  decide +kernel

end SageStore
