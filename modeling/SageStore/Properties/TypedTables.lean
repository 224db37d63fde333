import SageStore.Properties.TableAgreement

/-!
# The repositories of the modules and their statements

The modules, and every property of the server, are about typed tables and their repositories
(`Repositories`), and not about the texts of statements. This file is the link between the two: it
says that nothing is assumed of the repositories that their statements do not do.

A typed row is laid out in the columns of its table (`sqlRow`), and each repository that
`Repositories` defines (`repository`) is what the statements of its class compute on these rows:
`getAll_texts`, `getByField_texts` for the columns the modules look rows up by (`Denotes`,
`denotes_lookups`), and `update_texts`, with the constraints of the database.
-/

namespace SageStore

open Bytes Sql RepositoryClass

/-- The columns of a row but the key. -/
def cells : (t : TableName) → Row t → List Cell
  | .role, r => [.text r.name]
  | .user, r => [.text r.username, .text r.password, r.roleId]
  | .log, r => [r.userId, .text r.action, .text r.timestamp]
  | .contact, r => [.text r.name, .text r.type, .text r.email, .text r.phone]
  | .employee, r | .supplier, r =>
    [.text r.name, .text r.number, .text r.email, .text r.address]
  | .suppliersProductInfo, r => [r.supplierID, r.productTypeId, .text r.code]
  | .productType, r =>
    [.text r.code, .text r.barcode, .text r.name, .text r.description, .text r.lastPrice,
      .text r.unit, .text r.isImported]
  | .inventory, r => [r.productTypeId, r.quantityAvailable, r.employeeId]
  | .saleOrder, r => [.text r.date, r.userId, r.contactId, r.employeeId, .text r.status]
  | .purchaseOrder, r => [.text r.date, r.userId, r.supplierId, .text r.status]
  | .salesOrderRecord, r | .purchaseOrderRecord, r =>
    [r.orderId, r.productTypeId, r.quantity, .text r.price]

/-- The typed repository of a table. -/
def repository : (t : TableName) → Repository t (of t).Entity
  | .role => roleRepository
  | .user => userRepository
  | .log => logRepository
  | .contact => contactRepository
  | .employee => employeeRepository
  | .supplier => supplierRepository
  | .suppliersProductInfo => suppliersProductInfoRepository
  | .productType => productTypeRepository
  | .inventory => inventoryRepository
  | .saleOrder => saleOrderRepository
  | .salesOrderRecord => salesOrderRecordRepository
  | .purchaseOrder => purchaseOrderRepository
  | .purchaseOrderRecord => purchaseOrderRecordRepository

variable {p : Platform} (h : p.sqlite.KeepsEmpty) {t : TableName}

/-- A typed row, laid out in the columns of its table. -/
def sqlRow (t : TableName) (r : ℕ × Row t) : Sql.Row Cell := fun name =>
  (((of t).columnNames.zip (.int r.1 :: cells t r.2)).lookup name).getD Cell.null

/-- The row that SQL sees is the key and the cells. -/
theorem map_sqlRow (r : ℕ × Row t) :
    (of t).columnNames.map (sqlRow t r) = .int r.1 :: cells t r.2 := by
  refine map_lookup_zip Cell.null (of t).nodup_columnNames ?_
  cases t <;> rfl

/-- The key of a row is its identifier. -/
theorem sqlRow_id (r : ℕ × Row t) : sqlRow t r "id".toList = .int r.1 := by
  have hfirst := map_sqlRow r
  rw [columnNames_eq_cons, List.map_cons] at hfirst
  exact (List.cons.inj hfirst).1

/-- The rows of a typed table. -/
def sqlRows (T : Table (Row t)) : List (Sql.Row Cell) := T.rows.map (sqlRow t)

/-- The entity of a typed row is the one its repository reads. -/
theorem entity_sqlRow (r : ℕ × Row t) :
    (of t).entity (p.engine h) (sqlRow t r) = (repository t).fromCurrentRow r.1 r.2 := by
  rw [← fromCurrentRow_eq, map_sqlRow]
  cases t <;> rfl

variable (admits : List (Sql.Row Cell) → Bool) (T : Table (Row t))

/-- **`getAll`.** The typed repository returns what its statement does. -/
theorem getAll_texts :
    (of t).queries.getAll (p.engine h) ((of t).tableDef admits) (sqlRows T) =
      .ok (T.rows.map fun r => (repository t).fromCurrentRow r.1 r.2) := by
  rw [getAll_eq, sqlRows, List.map_map]
  exact congrArg _ (List.map_congr_left fun r _ => entity_sqlRow h r)

/-! ### Columns by name -/

/-- A column that the modules look rows up by is the one of the name `f`. -/
def Denotes : Column t → Name → Prop
  | .id, f => f = "id".toList
  | .integer cell, f => f ∈ (of t).columnNames ∧ (of t).affinity f = .integer ∧
      ∀ r, sqlRow t r f = cell r.2
  | .text value, f => f ∈ (of t).columnNames ∧ (of t).affinity f = .text ∧
      ∀ r, sqlRow t r f = .text (value r.2)

theorem Denotes.mem {c : Column t} {f : Name} (hc : Denotes c f) : f ∈ (of t).columnNames := by
  cases c with
  | id =>
    rw [columnNames_eq_cons, hc]
    exact List.mem_cons_self
  | integer cell => exact hc.1
  | text value => exact hc.1

/-- The typed comparison is the one the engine makes in the column. -/
theorem matches_sqlRow {c : Column t} {f : Name} (hc : Denotes c f) (v : Bytes)
    (r : ℕ × Row t) : (of t).Matches (p.engine h) f (cstr v) (sqlRow t r) ↔ c.Matches p v r := by
  have hequals : (of t).Matches (p.engine h) f (cstr v) (sqlRow t r) ↔
      sqlRow t r f = p.store ((of t).affinity f) (cstr v) := decide_eq_true_iff
  rw [hequals]
  cases c with
  | id =>
    obtain rfl := hc
    rw [sqlRow_id, affinity_id]
    exact Iff.rfl
  | integer cell =>
    obtain ⟨-, haffinity, hcell⟩ := hc
    rw [haffinity, hcell]
    exact Iff.rfl
  | text value =>
    obtain ⟨-, haffinity, hvalue⟩ := hc
    rw [haffinity, hvalue]
    exact Cell.text.injEq _ _ ▸ Iff.rfl

/-- The columns by which the modules look rows up, and the names they give them. -/
theorem denotes_lookups :
    Denotes (t := .role) (.text RoleRow.name) "name".toList ∧
      Denotes (t := .user) (.text UserRow.username) "username".toList ∧
      Denotes (t := .productType) (.text ProductTypeRow.code) "code".toList ∧
      Denotes (t := .inventory) (.integer InventoryRow.productTypeId) "productTypeId".toList ∧
      Denotes (t := .salesOrderRecord) (.integer OrderRecordRow.orderId) "orderId".toList ∧
      Denotes (t := .purchaseOrderRecord) (.integer OrderRecordRow.orderId) "orderId".toList := by
  refine ⟨⟨?_, ?_, fun r => ?_⟩, ⟨?_, ?_, fun r => ?_⟩, ⟨?_, ?_, fun r => ?_⟩,
    ⟨?_, ?_, fun r => ?_⟩, ⟨?_, ?_, fun r => ?_⟩, ⟨?_, ?_, fun r => ?_⟩⟩
  -- each is the column after the key
  all_goals first
    | decide +kernel
    | have hrow := map_sqlRow r
      simp only [columnNames, columns, declared, List.map_cons, List.cons.injEq] at hrow
      exact (List.cons.inj hrow.2).1

/-- **`getByField`.** The typed repository returns what its statement does. -/
theorem getByField_texts {c : Column t} {f : Name} (hc : Denotes c f) (v : Bytes) :
    (of t).queries.getByField (p.engine h) ((of t).tableDef admits) (sqlRows T) f v =
      .ok ((T.rows.filter fun r => c.Matches p v r).map fun r =>
        (repository t).fromCurrentRow r.1 r.2) := by
  have hmatches :
      (fun r : ℕ × Row t => decide ((of t).Matches (p.engine h) f (cstr v) (sqlRow t r))) =
        fun r => decide (c.Matches p v r) :=
    funext fun r => decide_eq_decide.mpr (matches_sqlRow h hc v r)
  rw [getByField_of _ _ _ _ hc.mem, sqlRows, List.filter_map, List.map_map]
  simp only [Function.comp_def, hmatches, entity_sqlRow]

/-! ### Updates -/

/-- The identifier of an entity is the field of its key. -/
theorem field_id (x : (of t).Entity) : (of t).field x "id".toList = (repository t).id x := by
  have hfields := map_field (of t) x
  rw [columnNames_eq_cons, List.map_cons] at hfields
  have hhead := congrArg List.head? hfields
  rw [List.head?_cons] at hhead
  refine Option.some.inj (hhead.trans ?_)
  cases t <;> rfl

/-- The columns have the affinities that are declared. -/
theorem map_affinity (c : RepositoryClass) :
    c.columnNames.map c.affinity = c.columns.map Prod.snd := by
  have hzip : c.columnNames.zip (c.columns.map Prod.snd) = c.columns := by
    rw [columnNames, List.zip_map']
    exact List.map_id _
  have hlen : c.columnNames.length = (c.columns.map Prod.snd).length := by
    rw [columnNames, List.length_map, List.length_map]
  have hlookup := map_lookup_zip Affinity.text c.nodup_columnNames hlen
  rwa [hzip] at hlookup

/-- What an update writes into the columns but the key, in their order. -/
theorem map_value (x : (of t).Entity) :
    (assignments t).map (fun a => value (p.engine h) ((of t).affinity a.1) a.2
      (some (cstr ((of t).field x a.1)))) = cells t ((repository t).updateRow p x) := by
  have hexpressions : (assignments t).map Prod.snd =
      if t = .log then [.nullIf [], .parameter, .parameter]
      else (of t).columnNames.tail.map fun _ => .parameter := by
    cases t <;> decide +kernel
  -- the affinities, the expressions and the fields, side by side
  have hzip : (assignments t).map (fun a => value (p.engine h) ((of t).affinity a.1) a.2
      (some (cstr ((of t).field x a.1)))) =
      (((of t).columns.map Prod.snd).tail.zip
        (((assignments t).map Prod.snd).zip ((of t).fields x).tail)).map fun a =>
          value (p.engine h) a.1 a.2.1 (some (cstr a.2.2)) := by
    rw [← map_affinity, ← map_field, ← List.map_tail, ← List.map_tail,
      ← map_fst_assignments, List.map_map, List.map_map, List.zip_map', List.zip_map',
      List.map_map]
    rfl
  rw [hzip, hexpressions]
  cases t
  case log =>
    change [if cstr x.userId = (p.engine h).literal [] then Cell.null else p.cell x.userId,
      _, _] = [if cstr x.userId = [] then Cell.null else p.cell x.userId, _, _]
    congr
  all_goals rfl

theorem sqlRow_of_notMem (r : ℕ × Row t) {name : Name} (hname : name ∉ (of t).columnNames) :
    sqlRow t r name = .null := by
  have hnone : ((of t).columnNames.zip (.int r.1 :: cells t r.2)).lookup name = none := by
    refine List.lookup_eq_none_iff.mpr fun a ha => bne_iff_ne.mpr fun heq => hname ?_
    exact heq ▸ (List.of_mem_zip ha).1
  rw [sqlRow, hnone]
  rfl

/-- **The row an update writes is the typed one.** -/
theorem written_sqlRow (r : ℕ × Row t) (x : (of t).Entity) :
    written (p.engine h) t admits x (sqlRow t r) =
      sqlRow t (r.1, (repository t).updateRow p x) := by
  have hnodup : ((assignments t).map Prod.fst).Nodup := nodup_assignments t
  have happly : ∀ name, written (p.engine h) t admits x (sqlRow t r) name =
      ((assignments t).lookup name).elim (sqlRow t r name) fun e =>
        value (p.engine h) ((of t).affinity name) e (some (cstr ((of t).field x name))) := by
    intro name
    rw [written, bound_updateParams, assign_apply (fun name => cstr ((of t).field x name)) _ hnodup]
    rfl
  -- the columns that are assigned to
  have htail : (of t).columnNames.tail.map (written (p.engine h) t admits x (sqlRow t r)) =
      cells t ((repository t).updateRow p x) := by
    rw [← map_value h, ← map_fst_assignments, List.map_map]
    refine List.map_congr_left fun a ha => ?_
    rw [Function.comp_apply, happly, lookup_of_mem hnodup ha]
    rfl
  have hkept : ∀ name, name ∉ (of t).columnNames.tail →
      written (p.engine h) t admits x (sqlRow t r) name = sqlRow t r name := by
    intro name hname
    rw [happly, lookup_assignments_eq_none t hname]
    rfl
  funext name
  by_cases hname : name ∈ (of t).columnNames
  · refine List.map_inj_left.mp ?_ name hname
    rw [map_sqlRow]
    nth_rewrite 1 [columnNames_eq_cons]
    rw [List.map_cons, htail, hkept _ (of t).id_notMem_tail, sqlRow_id]
  · rw [sqlRow_of_notMem _ hname, hkept name fun hmem => hname (List.mem_of_mem_tail hmem),
      sqlRow_of_notMem _ hname]

/-- The rows an update leaves are those of the typed table. -/
theorem updated_texts (x : (of t).Entity) :
    updated (p.engine h) t admits (sqlRows T) x =
      sqlRows (T.update (p.cell ((repository t).id x)) ((repository t).updateRow p x)) := by
  rw [updated, sqlRows, sqlRows, List.map_map, Table.update, List.map_map]
  refine List.map_congr_left fun r _ => ?_
  have hid : (of t).Matches (p.engine h) "id".toList (cstr ((of t).field x "id".toList))
      (sqlRow t r) ↔ Cell.int r.1 = p.cell ((repository t).id x) := by
    rw [field_id]
    exact matches_sqlRow h (show Denotes .id _ from rfl) _ r
  rw [Function.comp_apply, Function.comp_apply]
  by_cases hkey : Cell.int r.1 = p.cell ((repository t).id x)
  · rw [if_pos (hid.mpr hkey), if_pos hkey, written_sqlRow]
  · rw [if_neg fun h' => hkey (hid.mp h'), if_neg hkey]

/-- **`update`.** If the schema lets the table have its new rows when the database does, the
statement does what the typed repository does, and is refused when that is. -/
theorem update_texts {e : Enforcement} (d : Db e) (x : (of t).Entity)
    (hadmits : admits (updated (p.engine h) t admits (sqlRows (d t)) x) =
      (d.update t (p.cell ((repository t).id x)) ((repository t).updateRow p x)).isOk) :
    (of t).queries.update (p.engine h) ((of t).tableDef admits) (sqlRows (d t)) x =
      match d.update t (p.cell ((repository t).id x)) ((repository t).updateRow p x) with
      | .ok d' => .ok (sqlRows (d' t))
      | .error _ => .error .constraint := by
  rw [update_eq, hadmits, updated_texts]
  cases hupdate : d.update t (p.cell ((repository t).id x)) ((repository t).updateRow p x) with
  | ok d' =>
    have hself : d' t = _ := Database.put_self hupdate
    dsimp only
    rw [hself]
    rfl
  | error v => rfl

end SageStore
