import SageStore.Properties.Replicas

/-!
# The keys of rows

A key is given out once: what a request does to a table leaves one that `Follows` it
(`BusinessLogic.Step.follows`), and so does every run. So a row that was deleted does not come
back under its key, and an id names one row for ever (`keys_given_out_once`).

A client sends back ids that it was shown some time ago. Whatever happened since, such an id
names the row it was shown, or no row (`shown_id_names_row`).
-/

namespace SageStore

open Bytes Program BusinessLogic

variable {e : Enforcement} {p : Platform} {now : UtcTime} {req : RequestData}
  {faults : List (Option Exception)} {d d' d'' : Db e} {reply : ResponseData}

/-- Every table of `d'` can be what the one of `d` has become. -/
def Follows (d d' : Db e) : Prop := ∀ t, (d t).Follows (d' t)

theorem Follows.refl (d : Db e) : Follows d d := fun t => .refl (d t)

/-- Keys are given out once over any number of steps. -/
theorem Follows.trans (h : Follows d d') (h' : Follows d' d'') : Follows d d'' :=
  fun t => (h t).trans (h' t)

/-! ### Requests -/

/-- One table follows, and the others are the same. -/
theorem Follows.of_put {t : TableName} (ht : (d t).Follows (d' t))
    (hothers : ∀ t', t' ≠ t → d' t' = d t') : Follows d d' := by
  intro t'
  by_cases h : t' = t
  · subst h
    exact ht
  · rw [hothers t' h]
    exact .refl _

theorem Erases.follows {t : TableName} {gone : ℕ × Row t → Bool} (h : Erases d t gone d') :
    Follows d d' :=
  .of_put (.of_subset h.seq fun _ hr => List.mem_of_mem_filter (h.rows ▸ hr)) h.others

theorem Posting.follows (employee : Cell) (T : Table InventoryRow) (m : Posting) :
    T.Follows (m.apply employee T) := by
  unfold Posting.apply
  split
  · exact .insert T _
  · exact .update T _ _

/-- A receipt writes its postings one after another. -/
theorem follows_postings (employee : Cell) (plan : List Posting) (T : Table InventoryRow) :
    T.Follows (plan.foldl (Posting.apply employee) T) := by
  induction plan generalizing T with
  | nil => exact .refl T
  | cons m plan ih => exact (Posting.follows employee T m).trans (ih _)

/-- An accepted request gives out new keys only. -/
theorem Effect.follows (h : Effect p req d d') : Follows d d' := by
  have hdelete {d₁ : Db e} {t : TableName} {key : Cell} (hok : d₁.delete t key = .ok d') :
      Follows d₁ d' :=
    .of_put (Database.put_self hok ▸ .delete _ _) fun t' ht => Database.put_of_ne hok ht
  cases h with
  | read hread => exact .refl d
  | insert t x haddr hmethod hguard hutf8 hok =>
    exact .of_put (Database.put_self hok ▸ .insert _ _) fun t' ht => Database.put_of_ne hok ht
  | update t x haddr hmethod hid hguard hutf8 hok =>
    exact .of_put (Database.put_self hok ▸ .update _ _ _) fun t' ht => Database.put_of_ne hok ht
  | delete t haddr hmethod hid hguard hok => exact hdelete hok
  | deleteSaleOrder haddr hmethod hhas herase hok => exact herase.follows.trans (hdelete hok)
  | deletePurchaseOrder haddr hmethod hopen herase hok => exact herase.follows.trans (hdelete hok)
  | receive hpost hreceives =>
    obtain ⟨⟨employee, plan, hplan, hstock⟩, ⟨o, ho, hkey, hopen, hreceived⟩, hothers⟩ := hreceives
    intro t
    by_cases hinventory : t = .inventory
    · subst hinventory
      exact hstock ▸ follows_postings _ plan _
    by_cases horder : t = .purchaseOrder
    · subst horder
      exact hreceived ▸ .update _ _ _
    · exact hothers t hinventory horder ▸ .refl _

/-- **What a request leaves** follows what it found, whether it is accepted, rejected or cut
short. -/
theorem BusinessLogic.Step.follows (h : Step p now req faults d reply d') : Follows d d' := by
  cases h with
  | rejected ex hreply hex heq => exact heq ▸ .refl d
  | aborted ex hreply hfault habort =>
    cases habort with
    | deleteSaleOrder gone haddr hmethod hgone herase => exact herase.follows
    | deletePurchaseOrder gone haddr hmethod hopen hgone herase => exact herase.follows
  | accepted hans heffect haudit =>
    refine heffect.follows.trans ?_
    cases haudit with
    | none h heq => exact heq ▸ .refl _
    | lost h hwhy heq => exact heq ▸ .refl _
    | written h hok =>
      exact .of_put (Database.put_self hok ▸ .insert _ _) fun t' ht => Database.put_of_ne hok ht

/-! ### Runs -/

/-- So does every run of the server. -/
theorem Server.follows {s : Session (Db e) Exception} (hs : (server p e).Reachable s)
    (evs : List Event) : Follows s.store ((server p e).run s evs).store := by
  have hrun := Machine.run_invariant (M := server p e)
    (I := fun s' => (server p e).Reachable s' ∧ Follows s.store s'.store)
    (fun s' ev hI => ⟨hI.1.step ev, hI.2.trans (Server.step_spec hI.1 ev).follows⟩)
    ⟨hs, .refl _⟩ evs
  exact hrun.2

/-- **A key is given out once.** If a table has given out the key `k` by some time, and no row has
it then, no row has it at any later time. -/
theorem keys_given_out_once (p : Platform) {s : Session (Db e) Exception}
    (hs : (server p e).Reachable s) (evs : List Event) (t : TableName) {k : ℕ}
    (hk : k ≤ (s.store t).seq) (hgone : ¬ (s.store t).Has (.int k)) :
    ¬ (((server p e).run s evs).store t).Has (.int k) :=
  fun h => hgone ((Server.follows hs evs t).has hk h)

/-- The role that no user has is deleted. -/
def roleDeleted : Session (Db .full) Exception :=
  (server .plain .full).run (server .plain .full).init
    [Event.plain "users" "roles" "DELETE" "2" []]

/-- A role that is created then gets another key. -/
theorem keys_given_out_once_role :
    ¬ (((server .plain .full).run roleDeleted
      [Event.plain "users" "roles" "POST" "" [("name", "Clerk")]]).store .role).Has
        (.int (2 : ℕ)) :=
  keys_given_out_once .plain ⟨_, rfl⟩ _ .role (by decide +kernel) (by decide +kernel)

/-! ### Ids that clients hold -/

section Ids

variable {J : Json} {url : QUrl} {sha256 : Sha256}

/-- The id of an entity. -/
def entityId : (t : TableName) → Entity t → Bytes
  | .role => Role.id
  | .user => User.id
  | .log => Log.id
  | .contact => Contact.id
  | .employee => Party.id
  | .supplier => Party.id
  | .suppliersProductInfo => SuppliersProductInfo.id
  | .productType => ProductType.id
  | .inventory => Inventory.id
  | .saleOrder => SaleOrder.id
  | .salesOrderRecord => OrderRecord.id
  | .purchaseOrder => PurchaseOrder.id
  | .purchaseOrderRecord => OrderRecord.id

/-- The id that a client is shown is the key of the row. -/
theorem entityId_received (t : TableName) (i : ℕ) (x : Row t) :
    entityId t (received t (entityOf t i x)) = decimal i := by
  cases t <;> rfl

/-- The request that edits an entity names its id. -/
theorem resourceId_editEntity {t : TableName} {x : Entity t} {r : ClientRequest}
    (h : ClientRequest.editEntity t x = some r) : r.resourceId = entityId t x := by
  cases t <;> cases h <;> rfl

/-- A listing shows rows of its table. -/
theorem listedRows_subset {resourceId : Bytes} {t : TableName} {r : ℕ × Row t}
    (h : r ∈ listedRows p resourceId d t) : r ∈ (d t).rows := by
  cases t with
  | salesOrderRecord =>
    unfold listedRows at h
    dsimp only at h
    split at h
    · exact h
    · exact List.mem_of_mem_filter h
  | purchaseOrderRecord =>
    unfold listedRows at h
    dsimp only at h
    split at h
    · exact h
    · exact List.mem_of_mem_filter h
  | _ => exact h

/-- A key arrives as it is sent. -/
theorem cell_task_decimal {r : ClientRequest} {i : ℕ} (hi : i < 2 ^ 63)
    (h : r.resourceId = decimal i) :
    p.cell (r.task url).resourceId = .int i := by
  have hdigit : ∀ b ∈ r.resourceId, isDigit b = true := fun b hb => by
    rw [h] at hb
    exact isDigit_of_mem_decimal hb
  have hid : (r.task url).resourceId = r.resourceId := by
    refine task_resourceId (fun b hb => ?_) fun hslash => ?_
    · simp only [isPlainPathByte, hdigit b hb, Bool.true_or]
    · exact absurd (hdigit 47 hslash) (by decide)
  rw [hid, h, p.cell_decimal hi]

/-- The tables of the server, as they follow each other along a run. -/
theorem follows_after {κ : Type} [DecidableEq κ] (hJ : J.RoundTrips)
    {js is : List (Network.Input κ HttpEvent Action Circumstances)} (h : js <+: is) :
    Follows ((system p J url sha256 e).after js).server.store
      ((system p J url sha256 e).after is).server.store := by
  -- the task system has the same tables
  rw [store_after hJ js, store_after hJ is]
  refine Network.server_later (N := taskSystem p url sha256 e)
    (R := fun s s' : Session (Db e) Exception => Follows s.store s'.store) (fun s => .refl _)
    (fun h h' => h.trans h') (fun s ev hs => ?_) (h.map _)
  cases ev with
  | none => exact .refl _
  | some ev => exact (Server.step_spec (reachable_of_taskServer hs) ev).follows

/-- **A shown id names the row that was shown.** What a model shows of a resource is a row that
the server had at some moment. The request that edits it, whatever is changed but the id, or
deletes it names the key of that row; and at whatever later time the key is in use, it has been
in use ever since that moment. So the request reaches that row, if it is still there, and no
other. -/
theorem shown_id_names_row {κ : Type} [DecidableEq κ] (hJ : J.RoundTrips) (p : Platform)
    (url : QUrl) (sha256 : Sha256) (e : Enforcement)
    (is : List (Network.Input κ HttpEvent Action Circumstances)) (c : κ) {m : ModelName}
    {model : Model}
    (hmodel : (((system p J url sha256 e).after is).client c).models m = some model)
    {t : TableName} (hkeeps : t ∈ m.keeps) {x : Entity t} (hx : x ∈ model.lists t) :
    ∃ js, js <+: is ∧ ∃ r ∈ (((system p J url sha256 e).after js).server.store t).rows,
      x = received t (entityOf t r.1 r.2) ∧
      (∀ y request, entityId t y = entityId t x →
        (ClientRequest.editEntity t y = some request ∨
          ClientRequest.deleteEntity t (entityId t x) = some request) →
        p.cell (request.task url).resourceId = .int r.1) ∧
      ∀ ls ks, js <+: ls → ls <+: ks →
        (((system p J url sha256 e).after ks).server.store t).Has (.int r.1) →
          (((system p J url sha256 e).after ls).server.store t).Has (.int r.1) := by
  have hrule : (system p J url sha256 e).ClientRule _ _ := coherent_rule hJ
  obtain ⟨entities, hfrom, hshow⟩ := ((hrule.holds is).client c).lists t
  -- the list is not empty, so it came from a state of the server
  have hx : x ∈ entities := by
    rcases hshow m model hmodel hkeeps with heq | heq
    · exact heq ▸ hx
    · exact absurd (heq ▸ hx) List.not_mem_nil
  obtain ⟨s, resourceId, ⟨js, hjs, rfl⟩, rfl⟩ :=
    hfrom.resolve_left fun hnil => List.not_mem_nil (hnil ▸ hx)
  obtain ⟨r, hr, rfl⟩ := List.mem_map.mp hx
  have hrow := listedRows_subset hr
  refine ⟨js, hjs, r, hrow, rfl, fun y request hid hrequest => ?_, fun ls ks hls hks hhas => ?_⟩
  · refine cell_task_decimal (Database.key_lt hrow)
      (Eq.trans ?_ (entityId_received t r.1 r.2))
    rcases hrequest with hedit | hdelete
    · exact (resourceId_editEntity hedit).trans hid
    · rw [ClientRequest.deleteEntity_eq hdelete]
      rfl
  · have hgiven : r.1 ≤ (((system p J url sha256 e).after ls).server.store t).seq :=
      (Table.le_seq _ r hrow).trans (follows_after hJ hls t).seq_le
    exact (follows_after hJ hks t).has hgiven hhas

end Ids

theorem shown_id_names_row_contact : ∃ x : Contact, x.id = "1" ∧
    ∃ js, js <+: contactsRun ∧
      ∃ r ∈ (((system .plain .arrays .percent .ofSetup .full).after js).server.store .contact).rows,
        x = received .contact (entityOf .contact r.1 r.2) := by
  have hshown :
      ((((system .plain .arrays .percent .ofSetup .full).after contactsRun).client ()).models
        .managementModel).map (fun model => (model.lists .contact).map Contact.id) =
      some [utf8 "1"] := by
    rw [client_after Json.arrays_roundTrips]
    decide +kernel
  obtain ⟨model, hmodel, hids⟩ := Option.map_eq_some_iff.mp hshown
  obtain ⟨x, hx, hid⟩ := List.mem_map.mp (hids ▸ List.mem_singleton_self (utf8 "1"))
  obtain ⟨js, hjs, r, hr, heq, -⟩ := shown_id_names_row Json.arrays_roundTrips .plain .percent
    .ofSetup .full contactsRun () hmodel (t := .contact) (by decide) hx
  exact ⟨x, hid, js, hjs, r, hr, heq⟩

end SageStore
