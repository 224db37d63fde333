import SageStore.Properties.StockLedger

/-!
# Codes, stock rows and names

The schema has no `UNIQUE` constraint on the code of a product type or on the name of a role,
so the modules have to keep them distinct. `InventoryModule` looks the code up before it
creates and before it edits (`productType_codes_distinct`). `UsersModule` looks the name up
before it creates a role, but not before it renames one: role names stay distinct as long as
no role is given the name of another (`role_names_distinct_iff`).

The product of a stock row has a `UNIQUE` constraint, but does not need it
(`stock_products_distinct`): `InventoryModule` looks the product up, and a receipt plans one
posting for each product.
-/

namespace SageStore

open Bytes Program BusinessLogic

variable {e : Enforcement} {p : Platform} {now : UtcTime} {req : RequestData} {d d' : Db e}

/-! ### Product types -/

/-- Every request keeps the codes of product types distinct. -/
theorem productType_codes_step (h : (d .productType).Distinct ProductTypeRow.code)
    (hstep : TableStep p now req d .productType (d' .productType)) :
    (d' .productType).Distinct ProductTypeRow.code := by
  generalize d' .productType = T at hstep
  cases hstep with
  | same => exact h
  | insert _ x haddr hmethod hguard => exact h.insert hguard
  | update _ x haddr hmethod hguard => exact h.update fun _ => hguard.2
  | delete => exact h.delete

theorem Server.productType_codes {s : Session (Db .full) Exception}
    (hs : (server p .full).Reachable s) :
    (s.store .productType).Distinct ProductTypeRow.code :=
  Server.invariant (I := fun d => (d .productType).Distinct ProductTypeRow.code) (by decide)
    (fun now req d d' _ hd hstep => productType_codes_step hd (hstep .productType)) hs

/-- **Product-type codes are unique.** In every reachable state, two product types with the
same code are one. -/
theorem productType_codes_distinct (p : Platform) {s : Session (Db .full) Exception}
    (hs : (server p .full).Reachable s) :
    ∀ r ∈ (s.store .productType).rows, ∀ r' ∈ (s.store .productType).rows,
      r.2.code = r'.2.code → r = r' := by
  have h := Server.productType_codes hs
  exact fun r hr r' hr' hcode => Table.eq_of_mem hr hr' (h r hr r' hr' hcode)

/-- An edit of the initial product type, under an id that is not canonical, that keeps its
code. -/
def editDefaultProduct : Event :=
  .plain "inventory" "product-types" "PUT" "01"
    [("code", "DEFAULT"), ("barcode", "1"), ("name", "Nails"), ("description", "Iron"),
      ("lastPrice", "2.5"), ("unit", "kg"), ("isImported", "1")]

/-- A new product type. -/
def postProduct : Event :=
  .plain "inventory" "product-types" "POST" ""
    [("code", "NAILS"), ("barcode", "2"), ("name", "Nails"), ("description", "Steel"),
      ("lastPrice", "3.5"), ("unit", "kg"), ("isImported", "0")]

/-- The initial state after these two requests: a second product type is there. -/
def twoProducts : Session (Db .full) Exception :=
  (server .plain .full).run (server .plain .full).init [editDefaultProduct, postProduct]

/-- The codes are distinct after them. -/
theorem productType_codes_distinct_twoProducts :
    (twoProducts.store .productType).rows.length = 2 ∧
    ∀ r ∈ (twoProducts.store .productType).rows,
      ∀ r' ∈ (twoProducts.store .productType).rows, r.2.code = r'.2.code → r = r' :=
  ⟨by decide +kernel, productType_codes_distinct .plain ⟨_, rfl⟩⟩

/-! ### Stock rows -/

/-- A posting that has found its row keeps the products of stock rows distinct. -/
theorem Posting.distinct_apply {T : Table InventoryRow} {m : Posting} (employee : Cell)
    (h : T.Distinct InventoryRow.productTypeId) (hfinds : m.Finds T) :
    (m.apply employee T).Distinct InventoryRow.productTypeId := by
  obtain ⟨product, row, quantity⟩ := m
  cases row with
  | none => exact h.insert hfinds
  | some i =>
    obtain ⟨r, hfound, rfl⟩ := hfinds
    obtain ⟨hr, hproduct⟩ := stockRow_some hfound
    refine h.update fun _ r' hr' heq => ?_
    have hid : r'.1 = r.1 := h r' hr' r hr (heq.trans hproduct.symm)
    rw [hid]

/-- A plan with one posting for each product keeps the products of stock rows distinct. -/
theorem distinct_postings (employee : Cell) (plan : List Posting) {T : Table InventoryRow}
    (h : T.Distinct InventoryRow.productTypeId) (hnodup : (plan.map Posting.product).Nodup)
    (hfinds : ∀ m ∈ plan, m.Finds T) :
    (plan.foldl (Posting.apply employee) T).Distinct InventoryRow.productTypeId := by
  induction plan generalizing T with
  | nil => exact h
  | cons m plan ih =>
    obtain ⟨hnotin, hnodup⟩ := List.nodup_cons.mp hnodup
    have hm : m.Finds T := hfinds m List.mem_cons_self
    refine ih (Posting.distinct_apply employee h hm) hnodup fun m' hm' => ?_
    -- the row planned for a product was looked up before the plan began, and is still right
    have hne : m.product ≠ m'.product := fun heq => hnotin (heq ▸ List.mem_map_of_mem hm')
    exact hm.apply (hfinds m' (List.mem_cons_of_mem _ hm')) hne

/-- Every request keeps the products of stock rows distinct. -/
theorem stock_products_step (h : (d .inventory).Distinct InventoryRow.productTypeId)
    (hstep : TableStep p now req d .inventory (d' .inventory)) :
    (d' .inventory).Distinct InventoryRow.productTypeId := by
  generalize d' .inventory = T at hstep
  cases hstep with
  | same => exact h
  | insert _ x haddr hmethod hguard => exact h.insert hguard.2.2
  | update _ x haddr hmethod hguard => exact h.update fun _ => hguard.2.2.2
  | delete => exact h.delete
  | receiveStock employee plan order hpost hplan =>
    exact distinct_postings _ plan h hplan.nodup hplan.finds

theorem Server.stock_products (hs : (server p e).Reachable s) :
    (s.store .inventory).Distinct InventoryRow.productTypeId := by
  have hseed : (seed e .inventory).Distinct InventoryRow.productTypeId :=
    show (Table.ofRows (seedRows .inventory)).Distinct _ by decide
  exact Server.invariant (I := fun d => (d .inventory).Distinct InventoryRow.productTypeId) hseed
    (fun now req d d' _ hd hstep => stock_products_step hd (hstep .inventory)) hs

/-- **One stock row for a product.** Whichever constraints the engine enforces, in every
reachable state two stock rows of one product are one row. -/
theorem stock_products_distinct (p : Platform) (e : Enforcement)
    {s : Session (Db e) Exception} (hs : (server p e).Reachable s) :
    ∀ r ∈ (s.store .inventory).rows, ∀ r' ∈ (s.store .inventory).rows,
      r.2.productTypeId = r'.2.productTypeId → r = r' := by
  have h := Server.stock_products hs
  exact fun r hr r' hr' hproduct => Table.eq_of_mem hr hr' (h r hr r' hr' hproduct)

/-- A new product is added twice to the order of the initial setup, and the order is received
by an engine without the `UNIQUE` constraint. -/
def receiveNewProduct : Session (Db ⟨true, false⟩) Exception :=
  let line : Event := .plain "purchase" "order-records" "POST" ""
    [("orderId", "1"), ("productTypeId", "2"), ("quantity", "5"), ("price", "2")]
  (server .plain _).run (server .plain _).init [postProduct, line, line, receiptOfFirstOrder]

/-- The receipt has made one stock row of the two lines. -/
theorem stock_products_distinct_newProduct :
    (receiveNewProduct.store .inventory).rows.length = 2 ∧
    ∀ r ∈ (receiveNewProduct.store .inventory).rows,
      ∀ r' ∈ (receiveNewProduct.store .inventory).rows,
        r.2.productTypeId = r'.2.productTypeId → r = r' :=
  ⟨by decide +kernel, stock_products_distinct .plain _ ⟨_, rfl⟩⟩

/-! ### Roles -/

/-- The request gives a role the name of another role. -/
def TakesName (p : Platform) (req : RequestData) (d : Db e) : Prop :=
  req.Addresses .role ∧ req.method = utf8 "PUT" ∧ req.resourceId ≠ [] ∧
    getOptionalDatasetValue req.dataset "name" ≠ [] ∧
    ∃ r ∈ (d .role).rows, Cell.int r.1 = p.cell req.resourceId ∧
      ∃ r' ∈ (d .role).rows, r'.1 ≠ r.1 ∧
        r'.2.name = cstr (getOptionalDatasetValue req.dataset "name")

instance (p : Platform) (req : RequestData) (d : Db e) : Decidable (TakesName p req d) :=
  inferInstanceAs (Decidable (_ ∧ _ ∧ _ ∧ _ ∧ _))

/-- A request that gives no role the name of another keeps the names distinct. -/
theorem role_names_step (h : (d .role).Distinct RoleRow.name)
    (hstep : TableStep p now req d .role (d' .role)) (hname : ¬ TakesName p req d) :
    (d' .role).Distinct RoleRow.name := by
  generalize d' .role = T at hstep
  cases hstep with
  | same => exact h
  | insert _ x haddr hmethod hguard => exact h.insert hguard
  | update _ x haddr hmethod hguard hutf8 hid =>
    refine h.update fun hhas r' hr' heq => ?_
    obtain ⟨r, hr, hkey⟩ := hhas
    -- otherwise the request would give the role `r` the name of the role `r'`
    by_contra hne
    refine hname ⟨haddr, hmethod, hid, hguard.1, r, hr, hkey, r', hr', fun hsame => ?_,
      heq.trans hguard.2⟩
    exact hne (hsame ▸ hkey)
  | delete => exact h.delete

/-- While no call fails, a request that gives a role the name of another is accepted. -/
theorem TakesName.no_error (h : TakesName p req d) (now : UtcTime) (snap : Option (Db e)) :
    utf8 "error" ∉ (executeTask p now req ⟨d, snap, []⟩).1.dataset := by
  obtain ⟨haddr, hmethod, hid, hname, -⟩ := h
  -- the name of a role is in no constraint, so the engine accepts the update
  have hchild : ∀ fk ∈ references, fk.child ≠ .role := by simp [references]
  obtain ⟨d', hok⟩ : ∃ d', d.update .role (p.cell req.resourceId)
      ⟨cstr (getOptionalDatasetValue req.dataset "name")⟩ = .ok d' :=
    Database.update_isOk
      (fun u hu => by rcases mem_uniqueKeys hu with rfl | rfl <;> intro ht <;> cases ht)
      fun fk hfk hc => absurd hc (hchild fk (mem_references_of_mem hfk))
  have hrun : (moduleTask p req).exec ⟨d, snap, []⟩ = (.ok .empty, ⟨d', snap, []⟩) := by
    rw [moduleTask_users p haddr.1, UsersModule.executeTask_roles p haddr.2]
    exact exec_dispatchMethod_put hmethod (UsersModule.exec_updateRole hid hname hok)
  rw [executeTask_of_ok p now hrun]
  exact Finmap.notMem_empty

/-- Two roles have one name after a role is given the name of another. -/
theorem TakesName.not_distinct (h : TakesName p req d) (heffect : Effect p req d d') :
    ¬ (d' .role).Distinct RoleRow.name := by
  obtain ⟨haddr, hmethod, hid, hname, r, hr, hkey, r', hr', hne, heq⟩ := h
  cases heffect with
  | read honly => exact absurd ((honly.isGet _ haddr).symm.trans hmethod) (by decide)
  | insert t x ht hpost => exact absurd (hpost.symm.trans hmethod) (by decide)
  | update t x ht hput hid hguard hutf8 hok =>
    obtain rfl := haddr.unique ht
    rw [Database.put_self hok, ← hkey]
    exact Table.not_distinct_update hr hr' hne (heq.trans hguard.2.symm)
  | delete t ht hdelete => exact absurd (hdelete.symm.trans hmethod) (by decide)
  | deleteSaleOrder ht hdelete => exact absurd (hdelete.symm.trans hmethod) (by decide)
  | deletePurchaseOrder ht hdelete => exact absurd (hdelete.symm.trans hmethod) (by decide)
  | receive hpost => exact absurd (hpost.2.2.symm.trans hmethod) (by decide)

/-- **When role names are unique.** In a run in which no request gives a role the name of
another, the names of roles are distinct in every state that is reached. A run in which no
call fails and the names stay distinct has no such request. -/
theorem role_names_distinct_iff (p : Platform) (evs : List Event) :
    let M := server p .full
    let Keeps := M.Along (fun s ev => ¬ TakesName p ev.request s.store) M.init evs
    let Unique := ∀ evs', evs' <+: evs →
      ∀ r ∈ ((M.run M.init evs').store .role).rows,
        ∀ r' ∈ ((M.run M.init evs').store .role).rows, r.2.name = r'.2.name → r.1 = r'.1
    (Keeps → Unique) ∧ ((∀ ev ∈ evs, ev.faults = []) → Unique → Keeps) := by
  refine ⟨fun hkeeps evs' hinitial => ?_, fun hfaults hunique => ?_⟩
  · have hseed : (seed .full .role).Distinct RoleRow.name := by decide
    have hrun := Machine.Along.invariant (M := server p .full)
      (G := fun s ev => ¬ TakesName p ev.request s.store)
      (I := fun s => (server p .full).Reachable s ∧ (s.store .role).Distinct RoleRow.name)
      (fun s ev hI hG => ⟨hI.1.step ev,
        role_names_step hI.2 ((Server.step_spec hI.1 ev).table .role) hG⟩)
      ⟨(server p .full).reachable_init, hseed⟩
      ((server p .full).along_initial hkeeps hinitial)
    exact hrun.2
  · refine (server p .full).along_of_prefixes fun evs' ev hinitial htakes => ?_
    have hs : (server p .full).Reachable ((server p .full).run (server p .full).init evs') :=
      ⟨evs', rfl⟩
    have hev : ev.faults = [] :=
      hfaults ev (hinitial.subset (List.mem_append_right _ List.mem_cons_self))
    have herror := htakes.no_error ev.now
      ((server p .full).run (server p .full).init evs').snapshot
    rw [← hev] at herror
    obtain ⟨d₁, hans, heffect, haudit⟩ := (Server.step_spec hs ev).of_no_error herror
    refine htakes.not_distinct heffect ?_
    -- the run that ends with this request reaches a state with distinct names
    have hdistinct := hunique _ hinitial
    rw [Machine.run_append] at hdistinct
    rw [← haudit.eq_of_ne (t := .role) (by decide)]
    exact hdistinct

/-- The renaming of the first role. -/
def renameFirstRole (name : String) : Event := .plain "users" "roles" "PUT" "1" [("name", name)]

/-- A new role, and then a new name for the first one. -/
def addAndRename : List Event :=
  [.plain "users" "roles" "POST" "" [("name", "guest")], renameFirstRole "clerk"]

/-- After them the names are distinct. -/
theorem role_names_distinct_iff_rename :
    ∀ r ∈ (((server .plain .full).run (server .plain .full).init addAndRename).store .role).rows,
      ∀ r' ∈ (((server .plain .full).run (server .plain .full).init addAndRename).store
        .role).rows, r.2.name = r'.2.name → r.1 = r'.1 :=
  (role_names_distinct_iff .plain addAndRename).1
    ⟨by decide +kernel, by decide +kernel, trivial⟩ addAndRename (List.prefix_refl _)

/-- The first role can be given the name of the second: one request leads to a state with two
roles of one name. -/
theorem role_names_collide :
    ¬ ∀ s : Session (Db .full) Exception, (server .plain .full).Reachable s →
      ∀ r ∈ (s.store .role).rows, ∀ r' ∈ (s.store .role).rows,
        r.2.name = r'.2.name → r.1 = r'.1 := by
  intro h
  have hrun : ¬ (((server .plain .full).run (server .plain .full).init
      [renameFirstRole "admin"]).store .role).Distinct RoleRow.name := by decide +kernel
  exact hrun (h _ ⟨_, rfl⟩)

end SageStore
