import SageStore.Server.Queries

/-!
# Repositories and their tables

What the repository classes promise of their tables, said of the columns by their names: an
entity has in every field the text of the column of that name (`RepositoryClass.entity`), and an
entity that is written reads back as the columns store its fields (`RepositoryClass.stored`).

The statements of thirteen classes select all columns in the order in which the class reads them,
and update all columns but the key in the order in which it binds them (`scan_getAll`,
`scan_getByField`, `scan_update`). So `getAll` and `getByField` return the entities of the table
and of the rows that hold a value (`getAll_eq`, `getByField_eq`), and `update` writes its entity
into the row that has its identifier (`update_eq`, `entity_assign`).

`ProductInfoRepository` is the other class. Its `getByField` selects three of the four columns, and
every field of what it returns is that of the column to the right; its `update` is no statement.
So it agrees with its table where there is nothing to return and nothing to write.

Every class binds its parameters as NUL-terminated texts. A value that holds a NUL is looked for up
to it, and a field is written up to it; but no column equals such a text or reads back as one. So
the thirteen classes agree with their tables for values and entities without NUL, and for others
where there is nothing to find and nothing to write (`agrees_iff`).
-/

namespace SageStore

open Bytes Sql

namespace RepositoryClass

/-! ### Entities by the names of columns -/

/-- The entity whose fields are the columns of their names. -/
def ofColumns : (c : RepositoryClass) → (Name → Bytes) → c.Entity
  | .of .role, g => ⟨g "id".toList, g "name".toList⟩
  | .of .user, g =>
    ⟨g "id".toList, g "username".toList, g "password".toList, g "roleId".toList⟩
  | .of .log, g => ⟨g "id".toList, g "userId".toList, g "action".toList, g "timestamp".toList⟩
  | .of .contact, g =>
    ⟨g "id".toList, g "name".toList, g "type".toList, g "email".toList, g "phone".toList⟩
  | .of .employee, g | .of .supplier, g =>
    ⟨g "id".toList, g "name".toList, g "number".toList, g "email".toList, g "address".toList⟩
  | .of .suppliersProductInfo, g =>
    ⟨g "id".toList, g "supplierID".toList, g "productTypeId".toList, g "code".toList⟩
  | .of .productType, g =>
    ⟨g "id".toList, g "code".toList, g "barcode".toList, g "name".toList,
      g "description".toList, g "lastPrice".toList, g "unit".toList, g "isImported".toList⟩
  | .of .inventory, g =>
    ⟨g "id".toList, g "productTypeId".toList, g "quantityAvailable".toList,
      g "employeeId".toList⟩
  | .of .saleOrder, g =>
    ⟨g "id".toList, g "date".toList, g "userId".toList, g "contactId".toList,
      g "employeeId".toList, g "status".toList⟩
  | .of .purchaseOrder, g =>
    ⟨g "id".toList, g "date".toList, g "userId".toList, g "supplierId".toList,
      g "status".toList⟩
  | .of .salesOrderRecord, g | .of .purchaseOrderRecord, g =>
    ⟨g "id".toList, g "orderId".toList, g "productTypeId".toList, g "quantity".toList,
      g "price".toList⟩
  | .productInfo, g =>
    ⟨g "id".toList, g "productTypeId".toList, g "name".toList, g "value".toList⟩

/-- The fields of an entity, in the order in which its table declares their columns. -/
def fields : (c : RepositoryClass) → c.Entity → List Bytes
  | .of .role, x => [x.id, x.name]
  | .of .user, x => [x.id, x.username, x.password, x.roleId]
  | .of .log, x => [x.id, x.userId, x.action, x.timestamp]
  | .of .contact, x => [x.id, x.name, x.type, x.email, x.phone]
  | .of .employee, x | .of .supplier, x => [x.id, x.name, x.number, x.email, x.address]
  | .of .suppliersProductInfo, x => [x.id, x.supplierID, x.productTypeId, x.code]
  | .of .productType, x =>
    [x.id, x.code, x.barcode, x.name, x.description, x.lastPrice, x.unit, x.isImported]
  | .of .inventory, x => [x.id, x.productTypeId, x.quantityAvailable, x.employeeId]
  | .of .saleOrder, x => [x.id, x.date, x.userId, x.contactId, x.employeeId, x.status]
  | .of .purchaseOrder, x => [x.id, x.date, x.userId, x.supplierId, x.status]
  | .of .salesOrderRecord, x | .of .purchaseOrderRecord, x =>
    [x.id, x.orderId, x.productTypeId, x.quantity, x.price]
  | .productInfo, x => [x.id, x.productTypeId, x.name, x.value]

/-- The field of an entity that belongs to a column. -/
def field (c : RepositoryClass) (x : c.Entity) (name : Name) : Bytes :=
  ((c.columnNames.zip (c.fields x)).lookup name).getD []

def affinity (c : RepositoryClass) (name : Name) : Affinity :=
  (c.columns.lookup name).getD .text

section Reading

variable {V : Type} (E : Engine Bytes V) (c : RepositoryClass)

/-- The entity a row stands for. -/
def entity (row : Sql.Row V) : c.Entity := c.ofColumns fun name => E.text (row name)

/-- What a column is to read back as when it has taken a text: what it stores the text as, and a
text that holds a NUL as it is. -/
def kept (a : Affinity) (t : Bytes) : Bytes :=
  if (0 : UInt8) ∈ t then t else E.text (E.store a t)

/-- An entity as it reads back when its columns have taken its fields. -/
def stored (x : c.Entity) : c.Entity :=
  c.ofColumns fun name => kept E (c.affinity name) (c.field x name)

/-- `name = ?` holds of a row, with the text `v` bound. -/
def Matches (name : Name) (v : Bytes) (row : Sql.Row V) : Prop :=
  E.equals (c.affinity name) (row name) v = true

instance (name : Name) (v : Bytes) (row : Sql.Row V) : Decidable (c.Matches E name v row) :=
  inferInstanceAs (Decidable (_ = true))

/-- The column of a row equals a text. Columns are read as NUL-terminated texts, so none equals a
text that holds a NUL. -/
def Holds (name : Name) (v : Bytes) (row : Sql.Row V) : Prop :=
  (0 : UInt8) ∉ v ∧ c.Matches E name v row

instance (name : Name) (v : Bytes) (row : Sql.Row V) : Decidable (c.Holds E name v row) :=
  inferInstanceAs (Decidable (_ ∧ _))

/-- A row has the identifier of an entity. -/
abbrev HasId (x : c.Entity) (row : Sql.Row V) : Prop :=
  c.Holds E "id".toList (c.field x "id".toList) row

/-- The rows of the table after an update: a failed one leaves them as they are. -/
def rowsAfter (rows : List (Sql.Row V)) : Except Failure (List (Sql.Row V)) → List (Sql.Row V)
  | .ok updated => updated
  | .error _ => rows

/-- Both ways to read agree with the table: they give the entities of all rows, and those of the
rows whose column equals the value. -/
structure Reads (admits : List (Sql.Row V) → Bool) (content : Content E) (f : Name) (v : Bytes) :
    Prop where
  getAll : c.queries.getAll E (c.tableDef admits) content.rows =
    .ok (content.rows.map (c.entity E))
  getByField : c.queries.getByField E (c.tableDef admits) content.rows f v =
    .ok ((content.rows.filter fun row => c.Holds E f v row).map (c.entity E))

/-- `update` makes the row with the identifier of the entity read back as the entity, and changes
no other row. -/
def Writes (admits : List (Sql.Row V) → Bool) (content : Content E) (x : c.Entity) : Prop :=
  List.Forall₂
    (fun row row' => if c.HasId E x row then c.entity E row' = c.stored E x else row' = row)
    content.rows
    (rowsAfter content.rows (c.queries.update E (c.tableDef admits) content.rows x))

end Reading

/-- What an entity is written as needs no change of the table that `update` does not make.

The parameters are bound up to their first NUL. So no field of the entity has one, or no row has
the identifier that is bound; or the identifier has a NUL, which no row has, and the row that is
written in place of its own holds what is written. The class of `ProductInfo` writes nothing. -/
def Writable {V : Type} (E : Engine Bytes V) (content : Content E) :
    (c : RepositoryClass) → c.Entity → Prop
  | .of t, x =>
    (∃ name ∈ (of t).columnNames, (0 : UInt8) ∈ (of t).field x name) →
      ∀ row ∈ content.rows, (of t).Matches E "id".toList (cstr ((of t).field x "id".toList)) row →
        (0 : UInt8) ∈ (of t).field x "id".toList ∧
          ∀ a ∈ assignments t,
            row a.1 = value E ((of t).affinity a.1) a.2 (some (cstr ((of t).field x a.1)))
  | .productInfo, x =>
    ∀ row ∈ content.rows, productInfo.HasId E x row →
      productInfo.entity E row = productInfo.stored E x

/-! ### Entities and columns -/

/-- An entity depends on the columns of its own table only. -/
theorem ofColumns_congr (c : RepositoryClass) {g h : Name → Bytes}
    (heq : ∀ name ∈ c.columnNames, g name = h name) : c.ofColumns g = c.ofColumns h := by
  have hmap : c.columnNames.map g = c.columnNames.map h := List.map_congr_left heq
  rcases c with t | _
  · cases t <;> simp only [columnNames, columns, declared, List.map_cons, List.map_nil,
      List.cons.injEq] at hmap <;> simp only [ofColumns, hmap]
  · simp only [columnNames, columns, declared, List.map_cons, List.map_nil,
      List.cons.injEq] at hmap
    simp only [ofColumns, hmap]

/-- The fields of an entity made of columns are those columns. -/
theorem fields_ofColumns (c : RepositoryClass) (g : Name → Bytes) :
    c.fields (c.ofColumns g) = c.columnNames.map g := by
  rcases c with t | _
  · cases t <;> rfl
  · rfl

/-- Entities are the same exactly if they are so in every column. -/
theorem ofColumns_inj (c : RepositoryClass) {g h : Name → Bytes} :
    c.ofColumns g = c.ofColumns h ↔ ∀ name ∈ c.columnNames, g name = h name := by
  refine ⟨fun heq => List.map_inj_left.mp ?_, c.ofColumns_congr⟩
  rw [← fields_ofColumns, heq, fields_ofColumns]

/-- The numbers of the columns are their places in the list that is selected. -/
theorem fromCurrentRow_eq {V : Type} (E : Engine Bytes V) (c : RepositoryClass)
    (row : Sql.Row V) :
    c.queries.fromCurrentRow (getString E (c.columnNames.map row)) = c.entity E row := by
  rcases c with t | _
  · cases t <;> rfl
  · rfl

theorem length_fields (c : RepositoryClass) (x : c.Entity) :
    c.columnNames.length = (c.fields x).length := by
  rcases c with t | _
  · cases t <;> rfl
  · rfl

/-- Every column has its own field. -/
theorem map_field (c : RepositoryClass) (x : c.Entity) :
    c.columnNames.map (c.field x) = c.fields x :=
  map_lookup_zip [] c.nodup_columnNames (c.length_fields x)

/-- The parameters of an update are the fields but the identifier, and the identifier. -/
theorem updateParams_eq (t : TableName) (x : (of t).Entity) :
    (of t).queries.updateParams x =
      (assignments t).map (fun a => (of t).field x a.1) ++ [(of t).field x "id".toList] := by
  have hparams : (of t).queries.updateParams x =
      ((of t).fields x).tail ++ ((of t).fields x).head?.toList := by cases t <;> rfl
  rw [hparams, ← map_field, columnNames_eq_cons, assignments, List.map_map]
  rfl

/-! ### Reading -/

section Reading

variable {V : Type} (E : Engine Bytes V) (c : RepositoryClass)
  (admits : List (Sql.Row V) → Bool) (rows : List (Sql.Row V))

/-- A `SELECT` of the repository's columns fits its table. -/
theorem fits_select {columns : List Name} {filter : Option Name}
    (hcolumns : ∀ f ∈ columns, f ∈ c.columnNames) (hfilter : ∀ f ∈ filter, f ∈ c.columnNames) :
    (c.tableDef admits).Fits (.select columns c.tableName.toList filter) :=
  ⟨rfl, hcolumns, hfilter⟩

/-- `getAll` returns the entities of the rows, in every class. -/
theorem getAll_eq :
    c.queries.getAll E (c.tableDef admits) rows = .ok (rows.map (c.entity E)) := by
  have hparse := parse_of_scan c.scan_getAll c.columnNames_ne_nil
  have hfits := c.fits_select admits (fun _ h => h) fun f (h : f ∈ none) => by cases h
  rw [Queries.getAll, executeQuery, List.map_nil, execute_select hparse hfits, Except.map]
  simp only [List.map_map, Function.comp_def, fromCurrentRow_eq]

/-- `getByField` reads what it selects of the rows that match the value up to its first NUL. -/
theorem getByField_eq {f : Name} (hf : f ∈ c.columnNames) (v : Bytes) :
    c.queries.getByField E (c.tableDef admits) rows f v =
      .ok ((rows.filter fun row => c.Matches E f (cstr v) row).map fun row =>
        c.queries.fromCurrentRow (getString E (c.selected.map row))) := by
  have hparse := parse_of_scan (c.scan_getByField hf) c.selected_ne_nil
  have hselected : ∀ g ∈ c.selected, g ∈ c.columnNames := by
    rcases c with t | _
    · exact fun _ h => h
    · exact fun _ h => List.mem_of_mem_tail h
  have hfits := c.fits_select admits hselected fun g (h : g ∈ some f) => Option.some.inj h ▸ hf
  have hmatches : (fun row : Sql.Row V =>
      E.equals ((c.tableDef admits).affinity f) (row f) (cstr v)) =
        fun row => decide (c.Matches E f (cstr v) row) :=
    funext fun row => Bool.decide_eq_true.symm
  rw [Queries.getByField, executeQuery, List.map_cons, List.map_nil,
    execute_select_where hparse hfits, hmatches, Except.map]
  simp only [List.map_map, Function.comp_def]

/-- The thirteen classes return the entities of these rows. -/
theorem getByField_of (t : TableName) {f : Name} (hf : f ∈ (of t).columnNames) (v : Bytes) :
    (of t).queries.getByField E ((of t).tableDef admits) rows f v =
      .ok ((rows.filter fun row => (of t).Matches E f (cstr v) row).map ((of t).entity E)) := by
  rw [getByField_eq E (of t) admits rows hf]
  simp only [selected, fromCurrentRow_eq]

end Reading

/-! ### Writing -/

/-- The key is a column of integers. -/
theorem affinity_id (c : RepositoryClass) : c.affinity "id".toList = .integer := by
  have hfirst : c.columns = ("id".toList, .integer) :: c.columns.tail := by
    rcases c with t | _
    · cases t <;> rfl
    · rfl
  rw [affinity, hfirst, List.lookup_cons_self]
  rfl

section Writing

variable {V : Type} (E : Engine Bytes V) (t : TableName) (admits : List (Sql.Row V) → Bool)
  (rows : List (Sql.Row V)) (x : (of t).Entity)

/-- The row an update writes in the place of a row. -/
def written (row : Sql.Row V) : Sql.Row V :=
  assign E ((of t).tableDef admits) (assignments t)
    (((of t).queries.updateParams x).map cstr) row

/-- The rows an update leaves, if the constraints do not refuse them. -/
def updated : List (Sql.Row V) :=
  rows.map fun row =>
    if (of t).Matches E "id".toList (cstr ((of t).field x "id".toList)) row then
      written E t admits x row
    else row

theorem map_fst_assignments : (assignments t).map Prod.fst = (of t).columnNames.tail := by
  rw [assignments, List.map_map]
  exact List.map_id _

/-- The parameters of an update are bound up to their first NUL. -/
theorem bound_updateParams :
    ((of t).queries.updateParams x).map cstr =
      (assignments t).map (fun a => cstr ((of t).field x a.1)) ++
        [cstr ((of t).field x "id".toList)] := by
  rw [updateParams_eq, List.map_append, List.map_map]
  rfl

/-- The text of `update` assigns to the columns of its assignments in the row of an identifier. -/
theorem parse_updateQuery : parse (of t).queries.updateQuery =
    some (.update (of t).tableName.toList (assignments t) (some "id".toList)) := by
  refine parse_of_scan (scan_update t) fun hnil => ?_
  have htail : (of t).columnNames.tail = [] := (map_fst_assignments t).symm.trans hnil
  cases t <;> cases htail

/-- So does its `UPDATE`. -/
theorem fits_update : ((of t).tableDef admits).Fits
    (.update (of t).tableName.toList (assignments t) (some "id".toList)) := by
  have hkey : "id".toList ∈ (of t).columnNames := by
    rw [columnNames_eq_cons]
    exact List.mem_cons_self
  refine ⟨rfl, fun f hf => ?_, fun f hf => Option.some.inj hf ▸ hkey⟩
  exact List.mem_of_mem_tail ((map_fst_assignments t) ▸ hf)

/-- An update replaces the cells that its statement assigns, if the engine admits the rows. -/
theorem update_eq :
    (of t).queries.update E ((of t).tableDef admits) rows x =
      if admits (updated E t admits rows x) then .ok (updated E t admits rows x)
      else .error .constraint := by
  have hlen : ((assignments t).map fun a => cstr ((of t).field x a.1)).length =
      (assignments t).length := List.length_map _
  rw [Queries.update, executeQuery, bound_updateParams, execute_update
    (parse_updateQuery t) (fits_update t admits) hlen, ← bound_updateParams]
  have hupdated : rows.map (fun row =>
      if E.equals (((of t).tableDef admits).affinity "id".toList) (row "id".toList)
          (cstr ((of t).field x "id".toList)) then
        assign E ((of t).tableDef admits) (assignments t)
          (((of t).queries.updateParams x).map cstr) row
      else row) = updated E t admits rows x := rfl
  dsimp only
  rw [hupdated]
  change Except.map Prod.snd (if admits (updated E t admits rows x) then _ else _) = _
  by_cases hadmits : admits (updated E t admits rows x) = true
  · rw [if_pos hadmits, if_pos hadmits]
    rfl
  · rw [if_neg hadmits, if_neg hadmits]
    rfl

/-- No column is assigned twice. -/
theorem nodup_assignments : ((assignments t).map Prod.fst).Nodup := by
  rw [map_fst_assignments]
  exact (of t).nodup_columnNames.sublist (List.tail_sublist _)

/-- A column that is assigned to takes its parameter. -/
theorem lookup_assignments {name : Name} (h : name ∈ (of t).columnNames.tail) :
    ∃ e, (assignments t).lookup name = some e ∧ (e = .parameter ∨ e = .nullIf []) := by
  cases hlookup : (assignments t).lookup name with
  | none =>
    obtain ⟨a, ha, rfl⟩ := List.mem_map.mp ((map_fst_assignments t).symm ▸ h)
    rw [lookup_of_mem (nodup_assignments t) ha] at hlookup
    cases hlookup
  | some e =>
    refine ⟨e, rfl, ?_⟩
    obtain ⟨front, more, heq, -⟩ := List.lookup_eq_some_iff.mp hlookup
    have hmem : (name, e) ∈ assignments t := by simp [heq]
    obtain ⟨_, -, hpair⟩ := List.mem_map.mp hmem
    obtain ⟨rfl, rfl⟩ := Prod.mk.inj hpair
    split
    · exact Or.inr rfl
    · exact Or.inl rfl

/-- A column that is none of them is not assigned. -/
theorem lookup_assignments_eq_none {name : Name} (h : name ∉ (of t).columnNames.tail) :
    (assignments t).lookup name = none := by
  refine List.lookup_eq_none_iff.mpr fun a ha => bne_iff_ne.mpr fun heq => h ?_
  rw [heq, ← map_fst_assignments]
  exact List.mem_map_of_mem ha

/-- What is written into a column. -/
theorem written_apply (row : Sql.Row V) (name : Name) :
    written E t admits x row name = ((assignments t).lookup name).elim (row name) fun e =>
      value E ((of t).affinity name) e (some (cstr ((of t).field x name))) := by
  rw [written, bound_updateParams,
    assign_apply (fun name => cstr ((of t).field x name)) _ (nodup_assignments t)]
  rfl

/-- A row is written as it is, exactly if its columns hold what they are assigned. -/
theorem written_eq_self_iff (row : Sql.Row V) :
    written E t admits x row = row ↔ ∀ a ∈ assignments t,
      row a.1 = value E ((of t).affinity a.1) a.2 (some (cstr ((of t).field x a.1))) := by
  constructor
  · intro heq a ha
    have happly := written_apply E t admits x row a.1
    rw [heq, lookup_of_mem (nodup_assignments t) ha] at happly
    exact happly
  · intro hholds
    funext name
    rw [written_apply]
    cases hlookup : (assignments t).lookup name with
    | none => rfl
    | some e =>
      obtain ⟨front, more, heq, -⟩ := List.lookup_eq_some_iff.mp hlookup
      exact (hholds (name, e) (by simp [heq])).symm

/-- A column but the key reads back as what it stores of its field. -/
theorem text_written (row : Sql.Row V) {name : Name} (hname : name ∈ (of t).columnNames.tail) :
    E.text (written E t admits x row name) =
      E.text (E.store ((of t).affinity name) (cstr ((of t).field x name))) := by
  obtain ⟨e, hlookup, he⟩ := lookup_assignments t hname
  rw [written_apply, hlookup]
  exact text_value he

/-- **The row that is written reads back as the entity**, if this has no NUL. -/
theorem entity_written {row : Sql.Row V} {n : ℤ} (hn : n.natAbs < 2 ^ 63)
    (hkey : row "id".toList = E.int n)
    (hfree : ∀ name ∈ (of t).columnNames, (0 : UInt8) ∉ (of t).field x name)
    (hid : (of t).HasId E x row) :
    (of t).entity E (written E t admits x row) = (of t).stored E x := by
  refine (of t).ofColumns_congr fun name hname => ?_
  rw [kept, if_neg (hfree name hname)]
  have hcstr := cstr_eq_self (hfree name hname)
  rw [columnNames_eq_cons] at hname
  rcases List.mem_cons.mp hname with rfl | hname
  · -- the key stays, and is the identifier of the entity
    have hstore := hid.2
    rw [Matches, hkey, affinity_id] at hstore
    rw [written_apply, lookup_assignments_eq_none t (of t).id_notMem_tail, Option.elim_none, hkey,
      affinity_id, E.store_of_equals n _ hn hstore]
  · rw [text_written E t admits x row hname, hcstr]

/-- A row that reads back as the entity after it is written has no NUL to lose. -/
theorem notMem_of_entity_written (hstrings : ReadsStrings E) {row : Sql.Row V}
    (hid : (0 : UInt8) ∉ (of t).field x "id".toList)
    (hentity : (of t).entity E (written E t admits x row) = (of t).stored E x) :
    ∀ name ∈ (of t).columnNames, (0 : UInt8) ∉ (of t).field x name := by
  intro name hname hzero
  have htext := (of t).ofColumns_inj.mp hentity name hname
  rw [kept, if_pos hzero] at htext
  rw [columnNames_eq_cons] at hname
  rcases List.mem_cons.mp hname with rfl | hname
  · exact hid hzero
  · rw [text_written E t admits x row hname] at htext
    exact hstrings _ _ (zero_notMem_cstr _) (htext ▸ hzero)

end Writing

/-! ### Agreement -/

section Agreement

variable {V : Type} (E : Engine Bytes V) (admits : List (Sql.Row V) → Bool)

/-- Of three columns, the class makes an entity whose last field is empty. -/
theorem fromCurrentRow_productInfo (row : Sql.Row V) :
    productInfo.queries.fromCurrentRow (getString E (productInfo.selected.map row)) =
      (⟨E.text (row "productTypeId".toList), E.text (row "name".toList),
        E.text (row "value".toList), E.literal []⟩ : ProductInfo) := rfl

/-- It is never the entity of the row, whose identifier is not empty. -/
theorem fromCurrentRow_productInfo_ne {row : Sql.Row V} {n : ℤ}
    (hkey : row "id".toList = E.int n) :
    productInfo.queries.fromCurrentRow (getString E (productInfo.selected.map row)) ≠
      productInfo.entity E row := by
  rw [fromCurrentRow_productInfo]
  intro heq
  -- each field is that of the column to its right, and so all four are empty
  obtain ⟨hid, htype, hname, hvalue⟩ := ProductInfo.mk.inj heq
  refine E.text_int n ?_
  calc E.text (E.int n)
    _ = E.text (row "id".toList) := by rw [hkey]
    _ = E.text (row "productTypeId".toList) := hid.symm
    _ = E.text (row "name".toList) := htype.symm
    _ = E.text (row "value".toList) := hname.symm
    _ = E.literal [] := hvalue.symm

/-- The `UPDATE` of the product information is no statement: it has no comma before `value`. -/
theorem parse_updateQuery_productInfo :
    parse productInfo.queries.updateQuery = none := by decide +kernel

theorem update_productInfo (rows : List (Sql.Row V)) (x : ProductInfo) :
    productInfo.queries.update E (productInfo.tableDef admits) rows x = .error .prepare := by
  rw [Queries.update, executeQuery, execute_of_parse_none parse_updateQuery_productInfo]
  rfl

/-- **Which repositories read what their table holds.** Every class but that of `ProductInfo` for a
value without NUL, and all of them where no row matches what is bound. -/
theorem reads_iff (c : RepositoryClass) (content : Content E) {f : Name}
    (hf : f ∈ c.columnNames) (v : Bytes) :
    c.Reads E admits content f v ↔
      (c = .productInfo ∨ (0 : UInt8) ∈ v →
        ∀ row ∈ content.rows, ¬ c.Matches E f (cstr v) row) := by
  constructor
  · rintro ⟨-, hread⟩ hcase row hrow hmatch
    rw [getByField_eq E c admits content.rows hf] at hread
    have hfound : row ∈ content.rows.filter fun row => c.Matches E f (cstr v) row :=
      List.mem_filter.mpr ⟨hrow, decide_eq_true hmatch⟩
    by_cases hzero : (0 : UInt8) ∈ v
    · -- no row holds the value, and this one is found
      have hnone : (content.rows.filter fun row => c.Holds E f v row) = [] :=
        List.filter_eq_nil_iff.mpr fun row _ h => (of_decide_eq_true h).1 hzero
      rw [hnone] at hread
      have hnil := List.map_eq_nil_iff.mp (Except.ok.inj hread)
      rw [hnil] at hfound
      cases hfound
    · -- a row that is found makes an entity that it does not stand for
      obtain rfl := hcase.resolve_right hzero
      obtain ⟨n, -, hkey⟩ := content.key row hrow
      have hsame : (fun row => decide (productInfo.Holds E f v row)) =
          fun row => decide (productInfo.Matches E f (cstr v) row) := by
        funext row
        rw [cstr_eq_self hzero]
        exact decide_eq_decide.mpr (and_iff_right hzero)
      rw [hsame] at hread
      exact fromCurrentRow_productInfo_ne E hkey
        (List.map_inj_left.mp (Except.ok.inj hread) row hfound)
  · intro h
    refine ⟨getAll_eq E c admits content.rows, ?_⟩
    by_cases hcase : c = .productInfo ∨ (0 : UInt8) ∈ v
    · -- nothing is found, and nothing is to be
      have hfound : (content.rows.filter fun row => c.Matches E f (cstr v) row) = [] :=
        List.filter_eq_nil_iff.mpr fun row hrow => by simpa using h hcase row hrow
      have hheld : (content.rows.filter fun row => c.Holds E f v row) = [] := by
        refine List.filter_eq_nil_iff.mpr fun row hrow hholds => ?_
        obtain ⟨hzero, hmatch⟩ := of_decide_eq_true hholds
        exact h hcase row hrow (by rwa [cstr_eq_self hzero])
      rw [getByField_eq E c admits content.rows hf, hfound, hheld]
      rfl
    · obtain ⟨hc, hzero⟩ := not_or.mp hcase
      rcases c with t | _
      · rw [getByField_of E admits content.rows t hf, cstr_eq_self hzero]
        simp only [Holds, hzero, not_false_eq_true, true_and]
      · exact absurd rfl hc

/-- An update that the schema does not refuse leaves the rows it makes. -/
theorem rowsAfter_update (t : TableName) (rows : List (Sql.Row V)) (x : (of t).Entity)
    (hexecutes : (of t).queries.update E ((of t).tableDef admits) rows x ≠ .error .constraint) :
    rowsAfter rows ((of t).queries.update E ((of t).tableDef admits) rows x) =
      updated E t admits rows x := by
  rw [update_eq] at hexecutes ⊢
  split at hexecutes
  · next hadmits => rw [if_pos hadmits]; rfl
  · exact absurd rfl hexecutes

/-- **Which updates make the row read back as the entity.** -/
theorem writes_of_iff (hstrings : ReadsStrings E) (t : TableName) (content : Content E)
    (x : (of t).Entity)
    (hexecutes : (of t).queries.update E ((of t).tableDef admits) content.rows x ≠
      .error .constraint) :
    (of t).Writes E admits content x ↔ Writable E content (.of t) x := by
  rw [Writes, rowsAfter_update E admits t content.rows x hexecutes, updated,
    List.forall₂_map_right_iff, List.forall₂_same]
  constructor
  · rintro hrows ⟨name, hname, hzero⟩ row hrow hmatch
    have hwritten := hrows row hrow
    rw [if_pos hmatch] at hwritten
    by_cases hid : (0 : UInt8) ∈ (of t).field x "id".toList
    · -- no row has this identifier, so this one was written as it is
      rw [if_neg fun hhas => hhas.1 hid] at hwritten
      exact ⟨hid, (written_eq_self_iff E t admits x row).mp hwritten⟩
    · have hhas : (of t).HasId E x row := ⟨hid, by rwa [cstr_eq_self hid] at hmatch⟩
      rw [if_pos hhas] at hwritten
      exact absurd hzero (notMem_of_entity_written E t admits x hstrings hid hwritten name hname)
  · intro h row hrow
    obtain ⟨n, hn, hkey⟩ := content.key row hrow
    by_cases hhas : (of t).HasId E x row
    · have hmatch : (of t).Matches E "id".toList (cstr ((of t).field x "id".toList)) row := by
        rw [cstr_eq_self hhas.1]
        exact hhas.2
      rw [if_pos hhas, if_pos hmatch]
      refine entity_written E t admits x hn hkey (fun name hname hzero => ?_) hhas
      exact hhas.1 (h ⟨name, hname, hzero⟩ row hrow hmatch).1
    · rw [if_neg hhas]
      split
      · next hmatch =>
        -- the row is written although it has not the identifier, which is cut then
        have hid : (0 : UInt8) ∈ (of t).field x "id".toList := by
          by_contra hzero
          exact hhas ⟨hzero, by rwa [cstr_eq_self hzero] at hmatch⟩
        have hkeyColumn : "id".toList ∈ (of t).columnNames := by
          rw [columnNames_eq_cons]
          exact List.mem_cons_self
        exact (written_eq_self_iff E t admits x row).mpr
          (h ⟨_, hkeyColumn, hid⟩ row hrow hmatch).2
      · rfl

/-- **Which repositories agree with their table.** Every class but that of `ProductInfo`, for every
content, column, value and entity without NUL; and that of `ProductInfo` when no row has the value
that is looked for, and the entity is in the table already or has no row there. Of an update, one
is meant that the constraints of the schema do not refuse. -/
theorem agrees_iff (hstrings : ReadsStrings E) (c : RepositoryClass) (content : Content E)
    {f : Name} (hf : f ∈ c.columnNames) (v : Bytes) (x : c.Entity) :
    (c.Reads E admits content f v ↔
      (c = .productInfo ∨ (0 : UInt8) ∈ v →
        ∀ row ∈ content.rows, ¬ c.Matches E f (cstr v) row)) ∧
    (c.queries.update E (c.tableDef admits) content.rows x ≠ .error .constraint →
      (c.Writes E admits content x ↔ Writable E content c x)) := by
  refine ⟨reads_iff E admits c content hf v, fun hexecutes => ?_⟩
  rcases c with t | _
  · exact writes_of_iff E admits hstrings t content x hexecutes
  · -- nothing is written, so the rows are what they are to be
    rw [Writes, update_productInfo]
    refine List.forall₂_same.trans (forall₂_congr fun row _ => ?_)
    by_cases hid : productInfo.HasId E x row
    · rw [if_pos hid]
      exact ⟨fun hsame _ => hsame, fun hsame => hsame hid⟩
    · rw [if_neg hid]
      exact ⟨fun _ hhas => absurd hhas hid, fun _ => rfl⟩

end Agreement

/-! ### A table of each kind -/

/-- The engine of the witnesses, which stores texts as they are. -/
theorem readsStrings_plain : ReadsStrings (Platform.plain.engine Sqlite.keepsEmpty_digits) := by
  intro a t ht
  cases a with
  | integer =>
    change (0 : UInt8) ∉ (Sqlite.digits.integer t).toText
    rw [Sqlite.digits]
    dsimp only
    split
    · intro hzero
      rw [Cell.toText_int, ofInt_natCast] at hzero
      exact absurd (isDigit_of_mem_decimal hzero) (by decide)
    · exact ht
  | text => exact ht
  | numeric => exact ht
  | real => exact ht

/-- A table with one product property. -/
def colorContent : Content (Platform.plain.engine Sqlite.keepsEmpty_digits) where
  rows := [fun name =>
    if name = "name".toList then .text "Color"
    else if name = "value".toList then .text "Red"
    else .int 1]
  key row h := ⟨1, by decide, by rw [List.mem_singleton.mp h]; decide +kernel⟩

/-- A table with one role. -/
def roleContent : Content (Platform.plain.engine Sqlite.keepsEmpty_digits) where
  rows := [fun name => if name = "id".toList then .int 1 else .text "user"]
  key row h := ⟨1, by decide, by rw [List.mem_singleton.mp h]; decide +kernel⟩

/-- **Repositories that disagree with their tables.** The class of `ProductInfo` finds a property by
its identifier, and gives it the identifier of the product, the name `Color` as that product and
the value `Red` as its name; its update is no statement. The class of `Role` finds the role `user`
by a text of which `user` is what stands before the first NUL. -/
theorem productInfo_disagrees :
    let E := Platform.plain.engine Sqlite.keepsEmpty_digits
    let d := productInfo.tableDef fun _ => true
    productInfo.queries.getAll E d colorContent.rows = .ok [⟨"1", "1", "Color", "Red"⟩] ∧
      productInfo.queries.getByField E d colorContent.rows "id".toList "1" =
        .ok [⟨"1", "Color", "Red", []⟩] ∧
      ¬ productInfo.Reads E (fun _ => true) colorContent "id".toList "1" ∧
      productInfo.queries.update E d colorContent.rows ⟨"1", "1", "Color", "Blue"⟩ =
        .error .prepare ∧
      ¬ productInfo.Writes E (fun _ => true) colorContent ⟨"1", "1", "Color", "Blue"⟩ ∧
      ¬ (of .role).Reads E (fun _ => true) roleContent "name".toList
        (utf8 "user" ++ 0 :: utf8 "x") := by
  have hname : "name".toList ∈ (of .role).columnNames := by decide +kernel
  refine ⟨by decide +kernel, by decide +kernel, fun h => ?_, update_productInfo _ _ _ _,
    fun h => ?_, fun h => ?_⟩
  · -- the entity it finds is not that of the row
    exact absurd h.getByField (by decide +kernel)
  · -- the row is left as it is
    rw [Writes, update_productInfo] at h
    have hrow := List.forall₂_same.mp h _ List.mem_cons_self
    rw [if_pos (by decide +kernel)] at hrow
    exact absurd (congrArg ProductInfo.value hrow) (by decide +kernel)
  · exact (reads_iff _ _ (of .role) roleContent hname _).mp h (Or.inr (by decide)) _
      List.mem_cons_self (by decide +kernel)

/-- A role that is looked for and renamed. -/
theorem agrees_iff_role :
    let E := Platform.plain.engine Sqlite.keepsEmpty_digits
    (of .role).Reads E (fun _ => true) roleContent "name".toList "user" ∧
      (of .role).Writes E (fun _ => true) roleContent ⟨"1", "clerk"⟩ := by
  have hname : "name".toList ∈ (of .role).columnNames := by decide +kernel
  have hagrees := agrees_iff _ (fun _ => true) readsStrings_plain (of .role) roleContent hname
    "user" ⟨"1", "clerk"⟩
  refine ⟨hagrees.1.mpr fun hcase => ?_, (hagrees.2 fun h => ?_).mpr fun hzero => ?_⟩
  · rcases hcase with hc | hzero
    · cases hc
    · exact absurd hzero (by decide)
  · rw [update_eq, if_pos rfl] at h
    cases h
  · exact absurd hzero (by decide +kernel)

end RepositoryClass

end SageStore
