import SageStore.Server.LineWrites

/-!
# The row that an accepted request writes

`writtenRow` is the row that the fields of a request describe, as the module of each table makes
it of them: a type of contact and a status of a purchase order are normalised, a price that is
left out is zero, and a user without a role gets the first one. An accepted `POST` or `PUT`
writes that row of the table that it addresses (`rowMade`), except that a user who is edited
without a password keeps the old one.

Every handler ends in one statement on the row that it has built, so each proof follows the
handler down to that statement.
-/

namespace SageStore

open Bytes Program BusinessLogic

variable {e : Enforcement} {p : Platform} {now : UtcTime} {req : RequestData} {d d' : Db e}

/-! ### The rows that requests describe -/

/-- The type that `buildContact` writes. -/
def ManagementModule.writtenType (request : Dataset) : Bytes :=
  let type := getOptionalDatasetValue request "type"
  if type = [] then "Customer" else normalizeContactType type

/-- The status that `buildOrder` of the purchase module writes. -/
def PurchaseModule.writtenStatus (request : Dataset) : Bytes :=
  match normalizeOrderStatus (getOptionalDatasetValue request "status") with
  | .ok status => status
  | .error _ => []

/-- The price that `buildProductType` writes. -/
def InventoryModule.writtenPrice (request : Dataset) : Bytes :=
  let lastPrice := getOptionalDatasetValue request "lastPrice"
  if lastPrice = [] then "0.0" else lastPrice

section Described

variable (p : Platform) (request : Dataset)

/-- The row that the fields of a supplier, or of an employee, describe. -/
def writtenParty : PartyRow :=
  ⟨cstr (getOptionalDatasetValue request "name"), cstr (getOptionalDatasetValue request "number"),
    cstr (getOptionalDatasetValue request "email"),
    cstr (getOptionalDatasetValue request "address")⟩

/-- The row that the fields of a line describe. -/
def writtenLine : OrderRecordRow :=
  ⟨p.cell (getOptionalDatasetValue request "orderId"),
    p.cell (getOptionalDatasetValue request "productTypeId"),
    p.cell (getOptionalDatasetValue request "quantity"),
    p.sqlite.real (cstr (getOptionalDatasetValue request "price"))⟩

/-- The row that the fields of a request describe. -/
def writtenRow : (t : TableName) → Row t
  | .role => ⟨cstr (getOptionalDatasetValue request "name")⟩
  | .user =>
    ⟨cstr (getOptionalDatasetValue request "username"),
      cstr (getOptionalDatasetValue request "password"),
      if getOptionalDatasetValue request "roleId" = [] then .int 1
      else p.cell (getOptionalDatasetValue request "roleId")⟩
  | .log =>
    ⟨if cstr (getOptionalDatasetValue request "userId") = [] then .null
      else p.cell (getOptionalDatasetValue request "userId"),
      cstr (getOptionalDatasetValue request "action"),
      p.sqlite.numeric (cstr (getOptionalDatasetValue request "timestamp"))⟩
  | .contact =>
    ⟨cstr (getOptionalDatasetValue request "name"), cstr (ManagementModule.writtenType request),
      cstr (getOptionalDatasetValue request "email"),
      cstr (getOptionalDatasetValue request "phone")⟩
  | .employee => writtenParty request
  | .supplier => writtenParty request
  | .suppliersProductInfo =>
    ⟨p.cell (getOptionalDatasetValue request "supplierID"),
      p.cell (getOptionalDatasetValue request "productTypeId"),
      cstr (getOptionalDatasetValue request "code")⟩
  | .productType =>
    ⟨cstr (getOptionalDatasetValue request "code"),
      cstr (getOptionalDatasetValue request "barcode"),
      cstr (getOptionalDatasetValue request "name"),
      cstr (getOptionalDatasetValue request "description"),
      p.sqlite.real (cstr (InventoryModule.writtenPrice request)),
      cstr (getOptionalDatasetValue request "unit"),
      p.sqlite.numeric (cstr (InventoryModule.normalizeBooleanFlag
        (getOptionalDatasetValue request "isImported")))⟩
  | .inventory =>
    ⟨p.cell (getOptionalDatasetValue request "productTypeId"),
      p.cell (getOptionalDatasetValue request "quantityAvailable"),
      p.cell (getOptionalDatasetValue request "employeeId")⟩
  | .saleOrder =>
    ⟨p.sqlite.numeric (cstr (getOptionalDatasetValue request "date")),
      p.cell (getOptionalDatasetValue request "userId"),
      p.cell (getOptionalDatasetValue request "contactId"),
      p.cell (getOptionalDatasetValue request "employeeId"),
      cstr (getOptionalDatasetValue request "status")⟩
  | .salesOrderRecord => writtenLine p request
  | .purchaseOrder =>
    ⟨p.sqlite.numeric (cstr (getOptionalDatasetValue request "date")),
      p.cell (getOptionalDatasetValue request "userId"),
      p.cell (getOptionalDatasetValue request "supplierId"),
      cstr (PurchaseModule.writtenStatus request)⟩
  | .purchaseOrderRecord => writtenLine p request

/-- The texts that the module of a table refuses when they are empty. A new user must have a
password too, and a user who is edited a role. -/
def requiredTexts : TableName → List Bytes
  | .role => ["name"].map (getOptionalDatasetValue request)
  | .user => ["username"].map (getOptionalDatasetValue request)
  | .log => ["action", "timestamp"].map (getOptionalDatasetValue request)
  | .contact => ["name"].map (getOptionalDatasetValue request)
  | .employee => ["name"].map (getOptionalDatasetValue request)
  | .supplier => ["name"].map (getOptionalDatasetValue request)
  | .suppliersProductInfo =>
    ["supplierID", "productTypeId", "code"].map (getOptionalDatasetValue request)
  | .productType => ["code", "name", "unit"].map (getOptionalDatasetValue request)
  | .inventory =>
    ["productTypeId", "quantityAvailable", "employeeId"].map (getOptionalDatasetValue request)
  | .saleOrder =>
    ["date", "userId", "contactId", "employeeId", "status"].map (getOptionalDatasetValue request)
  | .salesOrderRecord =>
    ["orderId", "productTypeId", "quantity", "price"].map (getOptionalDatasetValue request)
  | .purchaseOrder =>
    PurchaseModule.writtenStatus request ::
      ["date", "userId", "supplierId"].map (getOptionalDatasetValue request)
  | .purchaseOrderRecord =>
    ["orderId", "productTypeId", "quantity", "price"].map (getOptionalDatasetValue request)

/-- The rows that the module of a table makes of the fields of a request. -/
inductive Makes (d : Db e) : (t : TableName) → Row t → Prop
  | described (t : TableName) : [] ∉ requiredTexts request t → Makes d t (writtenRow p request t)
  /-- A user who is edited without a password keeps the one that is stored. -/
  | kept (r : ℕ × UserRow) : r ∈ (d .user).rows → [] ∉ requiredTexts request .user →
    Makes d .user { writtenRow p request .user with password := cstr r.2.password }

end Described

/-- A row that `Q` allows is written: a new one by a `POST`, and the addressed one by a `PUT`. -/
def RowWritten (p : Platform) (req : RequestData) {t : TableName} (Q : Row t → Prop)
    (d d' : Db e) : Prop :=
  ∃ x, Q x ∧
    (req.method = utf8 "POST" ∧ d' t = (d t).insert x ∨
      req.method = utf8 "PUT" ∧ d' t = (d t).update (p.cell req.resourceId) x)

/-- A row that a weaker condition allows is written too. -/
theorem RowWritten.mono {p : Platform} {req : RequestData} {t : TableName} {Q Q' : Row t → Prop}
    {d d' : Db e} (h : RowWritten p req Q d d') (hQ : ∀ x, Q x → Q' x) :
    RowWritten p req Q' d d' := by
  obtain ⟨x, hx, hput⟩ := h
  exact ⟨x, hQ x hx, hput⟩

/-! ### The entities that are built -/

/-- The entity has the id that is given, and is written as the row that the request describes. -/
structure IsDescribed {t : TableName} {E : Type} (r : Repository t E) (p : Platform)
    (request : Dataset) (id : Bytes) (x : E) : Prop where
  id_eq : r.id x = id
  given : [] ∉ requiredTexts request t
  insertRow_eq : r.insertRow p x = writtenRow p request t
  updateRow_eq : r.updateRow p x = writtenRow p request t

/-- What is built is what the request describes. -/
abbrev Builds {t : TableName} {E : Type} (r : Repository t E) (p : Platform) (request : Dataset)
    (id : Bytes) (build : Except Exception E) : Prop :=
  Yields Exception.IsUtf8 build (IsDescribed r p request id)

/-- A required field is the field of the request, and it is given. -/
theorem requiredField {request : Dataset} {key component : String} :
    Yields Exception.IsUtf8 (getRequiredDatasetValue request key component) fun v =>
      v = getOptionalDatasetValue request key ∧ getOptionalDatasetValue request key ≠ [] :=
  getRequiredDatasetValue_spec.mono fun _ hv => ⟨hv.1, hv.1 ▸ hv.2⟩

section Built

variable {request : Dataset} {id : Bytes}

/-- A contact is built of its fields; only the name is required. -/
theorem ManagementModule.buildContact_builds (p : Platform) :
    Builds contactRepository p request id (buildContact request id) := by
  refine requiredField.bind fun name hname => Yields.pure ⟨rfl, ?_, ?_, ?_⟩
  · simpa [requiredTexts] using hname.2
  all_goals simp [contactRepository, Contact.row, writtenRow, writtenType, hname.1]

/-- A supplier is built of its fields; only the name is required. -/
theorem ManagementModule.buildSupplier_builds (p : Platform) :
    Builds supplierRepository p request id (buildSupplier request id) := by
  refine requiredField.bind fun name hname => Yields.pure ⟨rfl, ?_, ?_, ?_⟩
  · simpa [requiredTexts] using hname.2
  all_goals simp [supplierRepository, Party.row, writtenRow, writtenParty, hname.1]

/-- An employee is built of its fields; only the name is required. -/
theorem ManagementModule.buildEmployee_builds (p : Platform) :
    Builds employeeRepository p request id (buildEmployee request id) := by
  refine requiredField.bind fun name hname => Yields.pure ⟨rfl, ?_, ?_, ?_⟩
  · simpa [requiredTexts] using hname.2
  all_goals simp [employeeRepository, Party.row, writtenRow, writtenParty, hname.1]

/-- A log entry is built of its fields, with a user or without. -/
theorem LogsModule.buildLog_builds (p : Platform) :
    Builds logRepository p request id (buildLog request id) := by
  have hrest : Builds logRepository p request id (do
      let action ← getRequiredDatasetValue request "action" "LogsModule"
      let timestamp ← getRequiredDatasetValue request "timestamp" "LogsModule"
      return ⟨id, getOptionalDatasetValue request "userId", action, timestamp⟩) := by
    refine requiredField.bind fun action haction => ?_
    refine requiredField.bind fun timestamp htimestamp => Yields.pure ⟨rfl, ?_, ?_, ?_⟩
    · simpa [requiredTexts] using ⟨haction.2, htimestamp.2⟩
    all_goals simp [logRepository, Log.row, writtenRow, haction.1, htimestamp.1]
  unfold buildLog
  dsimp only
  split
  · -- the user is optional; one that is given must be a number
    split
    · exact Yields.throw ⟨.utf8 _, .utf8 _⟩
    · next hd => exact (ensureIntegerFitsRange_spec (not_not.mp hd)).bind fun _ _ => hrest
  · exact hrest

/-- A product type is built of its fields, with the price and the flag that are stored for it. -/
theorem InventoryModule.buildProductType_builds (p : Platform) :
    Builds productTypeRepository p request id (buildProductType request id) := by
  refine requiredField.bind fun code hcode => ?_
  refine requiredField.bind fun name hname => ?_
  refine requiredField.bind fun unit hunit => Yields.pure ⟨rfl, ?_, ?_, ?_⟩
  · simpa [requiredTexts] using ⟨hcode.2, hname.2, hunit.2⟩
  all_goals
    simp [productTypeRepository, ProductType.row, writtenRow, writtenPrice, hcode.1, hname.1,
      hunit.1]

/-- A required number is the field of the request, and it is given. -/
theorem InventoryModule.requiredPositive {key : String} :
    Yields Exception.IsUtf8 (getRequiredPositiveInteger request key) fun v =>
      v = getOptionalDatasetValue request key ∧ getOptionalDatasetValue request key ≠ [] :=
  getRequiredPositiveInteger_spec.mono fun _ hv => ⟨hv.1, hv.1 ▸ ne_nil_of_isDigits hv.2.1⟩

/-- A stock row is built of its three fields. -/
theorem InventoryModule.buildStock_builds (p : Platform) :
    Builds inventoryRepository p request id (buildStock request id) := by
  refine requiredField.bind fun productTypeId hproduct => ?_
  refine getRequiredNonNegativeInteger_spec.bind fun quantity hquantity => ?_
  refine requiredPositive.bind fun employeeId hemployee => Yields.pure ⟨rfl, ?_, ?_, ?_⟩
  · have hgiven : getOptionalDatasetValue request "quantityAvailable" ≠ [] :=
      hquantity.1 ▸ ne_nil_of_isDigits hquantity.2.1
    simpa [requiredTexts] using ⟨hproduct.2, hgiven, hemployee.2⟩
  all_goals
    simp [inventoryRepository, Inventory.row, writtenRow, hproduct.1, hquantity.1, hemployee.1]

/-- A supplier's product is built of its three fields. -/
theorem InventoryModule.buildSupplierProduct_builds (p : Platform) :
    Builds suppliersProductInfoRepository p request id (buildSupplierProduct request id) := by
  refine requiredPositive.bind fun supplierID hsupplier => ?_
  refine requiredPositive.bind fun productTypeId hproduct => ?_
  refine requiredField.bind fun code hcode => Yields.pure ⟨rfl, ?_, ?_, ?_⟩
  · simpa [requiredTexts] using ⟨hsupplier.2, hproduct.2, hcode.2⟩
  all_goals
    simp [suppliersProductInfoRepository, SuppliersProductInfo.row, writtenRow, hsupplier.1,
      hproduct.1, hcode.1]

/-- A required number is the field of the request, and it is given. -/
theorem requiredPositive {key component : String} :
    Yields Exception.IsUtf8 (getRequiredPositiveInteger request key component) fun v =>
      v = getOptionalDatasetValue request key ∧ getOptionalDatasetValue request key ≠ [] :=
  getRequiredPositiveInteger_spec.mono fun _ hv => ⟨hv.1, hv.1 ▸ ne_nil_of_isDigits hv.2.1⟩

/-- A sales order is built of its fields, the status as it is sent. -/
theorem SalesModule.buildOrder_builds (p : Platform) :
    Builds saleOrderRepository p request id (buildOrder request id) := by
  refine requiredField.bind fun date hdate => ?_
  refine requiredPositive.bind fun userId huser => ?_
  refine requiredPositive.bind fun contactId hcontact => ?_
  refine requiredPositive.bind fun employeeId hemployee => ?_
  refine requiredField.bind fun status hstatus => Yields.pure ⟨rfl, ?_, ?_, ?_⟩
  · simpa [requiredTexts] using ⟨hdate.2, huser.2, hcontact.2, hemployee.2, hstatus.2⟩
  all_goals
    simp [saleOrderRepository, SaleOrder.row, writtenRow, hdate.1, huser.1, hcontact.1,
      hemployee.1, hstatus.1]

/-- A purchase order is built of its fields, the status in its stored spelling. -/
theorem PurchaseModule.buildOrder_builds (p : Platform) :
    Builds purchaseOrderRepository p request id (buildOrder request id) := by
  refine requiredField.bind fun date hdate => ?_
  refine requiredPositive.bind fun userId huser => ?_
  refine requiredPositive.bind fun supplierId hsupplier => ?_
  refine requiredField.bind fun status hstatus => ?_
  obtain ⟨rfl, -⟩ := hstatus
  have hnormal := @normalizeOrderStatus_spec (getOptionalDatasetValue request "status")
  refine (hnormal.eq_ok).bind fun normalized hok => Yields.pure ⟨rfl, ?_, ?_, ?_⟩
  · -- a status that is normalised is not empty
    have hne : writtenStatus request ≠ [] := by
      rw [writtenStatus, hok]
      rcases hnormal.ok hok with (h | h) | h <;> rw [h] <;> decide
    simpa [requiredTexts] using ⟨hne, hdate.2, huser.2, hsupplier.2⟩
  all_goals
    simp [purchaseOrderRepository, PurchaseOrder.row, writtenRow, writtenStatus, hok, hdate.1,
      huser.1, hsupplier.1]

/-- The line that is built of the fields of a request makes the row that they describe. -/
theorem buildOrderRecordOf_builds {component : String} {x : OrderRecord}
    (h : buildOrderRecordOf component p request id = .ok x) :
    [] ∉ requiredTexts request .salesOrderRecord ∧ OrderRecord.row p x = writtenLine p request := by
  have hbuild : Yields Exception.IsUtf8 (buildOrderRecordOf component p request id) fun x =>
      [] ∉ requiredTexts request .salesOrderRecord ∧
        OrderRecord.row p x = writtenLine p request := by
    refine requiredPositive.bind fun orderId horder => ?_
    refine requiredPositive.bind fun productTypeId hproduct => ?_
    refine requiredPositive.bind fun quantity hquantity => ?_
    refine getRequiredNumber_spec.bind fun price hprice => Yields.pure ⟨?_, ?_⟩
    · have hgiven : getOptionalDatasetValue request "price" ≠ [] := hprice.1 ▸ hprice.2
      simpa [requiredTexts] using ⟨horder.2, hproduct.2, hquantity.2, hgiven⟩
    · simp [OrderRecord.row, writtenLine, horder.1, hproduct.1, hquantity.1, hprice.1]
  exact hbuild.ok h

end Built

/-! ### The handlers -/

section Handlers

variable {t : TableName} {E : Type} {Q : Row t → Prop}

/-- A row that the module of the table makes of the request is written. -/
abbrev RowMade (p : Platform) (req : RequestData) (t : TableName) (d d' : Db e) : Prop :=
  RowWritten p req (Makes p req.dataset d t) d d'

/-- An accepted insertion has written the row that was built. -/
theorem add_writes (r : Repository t E) (x : E) (hmethod : req.method = utf8 "POST")
    (hx : Q (r.insertRow p x)) :
    Atomic Exception.IsUtf8 d (r.add p x) fun _ d' => RowWritten p req Q d d' :=
  (add_spec r x).mono fun _ _ hok => ⟨_, hx, Or.inl ⟨hmethod, Database.put_self hok⟩⟩

/-- An accepted update has written the row that was built, under the addressed key. -/
theorem update_writes (r : Repository t E) (x : E) (hmethod : req.method = utf8 "PUT")
    (hid : r.id x = req.resourceId) (hx : Q (r.updateRow p x)) :
    Atomic Exception.IsUtf8 d (r.update p x) fun _ d' => RowWritten p req Q d d' := by
  refine (update_spec r x).mono fun _ d' hok => ⟨_, hx, Or.inr ⟨hmethod, ?_⟩⟩
  rw [Database.put_self hok, hid]

/-- Adding an entity as the request describes it writes the described row. -/
theorem IsDescribed.add {r : Repository t E} {id : Bytes} {x : E}
    (h : IsDescribed r p req.dataset id x) (hmethod : req.method = utf8 "POST") :
    Atomic Exception.IsUtf8 d (r.add p x) fun _ d' => RowMade p req t d d' :=
  add_writes r x hmethod (h.insertRow_eq ▸ .described t h.given)

/-- Updating an entity as the request describes it writes the described row. -/
theorem IsDescribed.update {r : Repository t E} {x : E}
    (h : IsDescribed r p req.dataset req.resourceId x) (hmethod : req.method = utf8 "PUT") :
    Atomic Exception.IsUtf8 d (r.update p x) fun _ d' => RowMade p req t d d' :=
  update_writes r x hmethod h.id_eq (h.updateRow_eq ▸ .described t h.given)

/-- A resource that is only built and stored. -/
theorem managed_makes (r : Repository t E) {component resourceName missing : String}
    {get : Task e ResponseData} {build : Bytes → Except Exception E} {delete : Task e Unit}
    (hmethod : req.method = utf8 "POST" ∨ req.method = utf8 "PUT")
    (hbuild : ∀ id, Builds r p req.dataset id (build id)) :
    Outcome Exception.IsUtf8 d (dispatchMethod component req.method get
      (do let x ← build []; r.add p x)
      (editExisting p r component resourceName missing (build req.resourceId) req.resourceId)
      delete) (fun _ d' => RowMade p req t d d') fun _ => False := by
  refine dispatchMethod_write hmethod (fun h => ?_) fun h => ?_
  · exact (reads_lift (hbuild [])).bindAtomic fun x hx => hx.add h
  · refine (ensureExisting_spec r _ _ _ _).bindAtomic fun _ _ => ?_
    exact (reads_lift (hbuild _)).bindAtomic fun x hx => hx.update h

/-- The password that an edit stores is the one that the request carries, or one that is stored. -/
theorem UsersModule.editedPassword_cases {request : Dataset} {userId : Bytes} :
    Reads Exception.IsUtf8 d (editedPassword p request userId) fun password =>
      password = getOptionalDatasetValue request "password" ∨
        ∃ r ∈ (d .user).rows, r.2.password = password := by
  refine Reads.ite (fun _ => ?_) fun _ => Reads.pure (Or.inl rfl)
  refine (getByField_mem userRepository .id _).bindReads fun usersById hmem => ?_
  cases usersById with
  | nil => exact Reads.throw ⟨.utf8 _, .utf8 _⟩
  | cons user rest =>
    obtain ⟨i, hi, -, rfl⟩ := hmem user List.mem_cons_self
    exact Reads.pure (Or.inr ⟨i, hi, rfl⟩)

/-- Users are written as described, but for a password that an edit keeps. -/
theorem UsersModule.users_makes (hmethod : req.method = utf8 "POST" ∨ req.method = utf8 "PUT") :
    Outcome Exception.IsUtf8 d (dispatchMethod "UsersModule" req.method getUsers
      (addUser p req.dataset) (editUser p req.dataset req.resourceId)
      (deleteUser p req.resourceId)) (fun _ d' => RowMade p req .user d d') fun _ => False := by
  have hgiven : getOptionalDatasetValue req.dataset "username" ≠ [] →
      [] ∉ requiredTexts req.dataset .user := fun h => by simpa [requiredTexts] using h
  refine dispatchMethod_write hmethod (fun h => ?_) fun h => ?_
  -- a new user is described as a whole; an edited one may keep the password
  · refine (reads_lift requiredField).bindAtomic fun username hname => ?_
    refine (reads_lift requiredField).bindAtomic fun password hpassword => ?_
    refine (getByField_mem userRepository _ _).bindAtomic fun usersVec _ => ?_
    refine Outcome.ite (fun _ => Outcome.throw ⟨.utf8 _, .utf8 _⟩) fun _ => ?_
    obtain ⟨rfl, hname⟩ := hname
    obtain ⟨rfl, -⟩ := hpassword
    exact add_writes _ _ h (.described .user (hgiven hname))
  · refine Outcome.ite (fun _ => Outcome.throw ⟨.utf8 _, .utf8 _⟩) fun _ => ?_
    refine (reads_lift requiredField).bindAtomic fun username hname => ?_
    refine (reads_lift requiredField).bindAtomic fun roleId hrole => ?_
    refine editedPassword_cases.bindAtomic fun password hpassword => ?_
    obtain ⟨rfl, hname⟩ := hname
    obtain ⟨rfl, hrole⟩ := hrole
    refine update_writes _ _ h rfl ?_
    -- an edit names a role, so the default is not used
    have hrow : userRepository.updateRow p ⟨req.resourceId,
        getOptionalDatasetValue req.dataset "username", password,
        getOptionalDatasetValue req.dataset "roleId"⟩ =
          { writtenRow p req.dataset .user with password := cstr password } := by
      simp only [userRepository, writtenRow, if_neg hrole]
    rw [hrow]
    rcases hpassword with rfl | ⟨r, hr, rfl⟩
    · exact .described .user (hgiven hname)
    · exact .kept r hr (hgiven hname)

/-- Roles are written as described. -/
theorem UsersModule.roles_makes (hmethod : req.method = utf8 "POST" ∨ req.method = utf8 "PUT") :
    Outcome Exception.IsUtf8 d (dispatchMethod "UsersModule" req.method getRoles
      (addRole p req.dataset) (updateRole p req.dataset req.resourceId)
      (deleteRole p req.resourceId)) (fun _ d' => RowMade p req .role d d') fun _ => False := by
  have hdescribed (id : Bytes) (h : getOptionalDatasetValue req.dataset "name" ≠ []) :
      IsDescribed roleRepository p req.dataset id
        ⟨id, getOptionalDatasetValue req.dataset "name"⟩ :=
    ⟨rfl, by simpa [requiredTexts] using h, rfl, rfl⟩
  refine dispatchMethod_write hmethod (fun h => ?_) fun h => ?_
  · refine (reads_lift requiredField).bindAtomic fun roleName hname => ?_
    refine (getByField_mem roleRepository _ _).bindAtomic fun rolesVec _ => ?_
    obtain ⟨rfl, hname⟩ := hname
    exact Outcome.ite (fun _ => (hdescribed [] hname).add h)
      fun _ => Outcome.throw ⟨.utf8 _, .utf8 _⟩
  · refine Outcome.ite (fun _ => Outcome.throw ⟨.utf8 _, .utf8 _⟩) fun _ => ?_
    refine (reads_lift requiredField).bindAtomic fun roleName hname => ?_
    obtain ⟨rfl, hname⟩ := hname
    exact (hdescribed req.resourceId hname).update h

/-- Product types are written as described. -/
theorem InventoryModule.productTypes_makes
    (hmethod : req.method = utf8 "POST" ∨ req.method = utf8 "PUT") :
    Outcome Exception.IsUtf8 d (dispatchMethod "InventoryModule" req.method getProductTypes
      (addProductType p req.dataset) (editProductType p req.dataset req.resourceId)
      (deleteProductType p req.resourceId)) (fun _ d' => RowMade p req .productType d d')
      fun _ => False := by
  refine dispatchMethod_write hmethod (fun h => ?_) fun h => ?_
  · refine (reads_lift (buildProductType_builds p)).bindAtomic fun x hx => ?_
    refine (getByField_mem productTypeRepository _ _).bindAtomic fun existing _ => ?_
    exact Outcome.ite (fun _ => Outcome.throw ⟨.utf8 _, .utf8 _⟩) fun _ => hx.add h
  · refine (ensureExisting_spec _ _ _ _ _).bindAtomic fun _ _ => ?_
    refine (reads_lift (buildProductType_builds p)).bindAtomic fun x hx => ?_
    refine (getByField_mem productTypeRepository _ _).bindAtomic fun existing _ => ?_
    exact Outcome.ite (fun _ => Outcome.throw ⟨.utf8 _, .utf8 _⟩) fun _ => hx.update h

/-- Stock rows are written as described. -/
theorem InventoryModule.stocks_makes
    (hmethod : req.method = utf8 "POST" ∨ req.method = utf8 "PUT") :
    Outcome Exception.IsUtf8 d (dispatchMethod "InventoryModule" req.method getStocks
      (addStock p req.dataset) (editStock p req.dataset req.resourceId)
      (deleteStock p req.resourceId)) (fun _ d' => RowMade p req .inventory d d')
      fun _ => False := by
  refine dispatchMethod_write hmethod (fun h => ?_) fun h => ?_
  · refine (reads_lift (buildStock_builds p)).bindAtomic fun x hx => ?_
    refine (ensureEntityExists_spec productTypeRepository .id _ _ _).bindAtomic fun _ _ => ?_
    refine (getByField_mem inventoryRepository _ _).bindAtomic fun stocks _ => ?_
    exact Outcome.ite (fun _ => Outcome.throw ⟨.utf8 _, .utf8 _⟩) fun _ => hx.add h
  · refine (ensureExisting_spec _ _ _ _ _).bindAtomic fun _ _ => ?_
    refine (reads_lift (buildStock_builds p)).bindAtomic fun x hx => ?_
    refine (ensureEntityExists_spec productTypeRepository .id _ _ _).bindAtomic fun _ _ => ?_
    refine (getByField_mem inventoryRepository _ _).bindAtomic fun stocks _ => ?_
    exact Outcome.ite (fun _ => Outcome.throw ⟨.utf8 _, .utf8 _⟩) fun _ => hx.update h

/-- The products of suppliers are written as described. -/
theorem InventoryModule.supplierProducts_makes
    (hmethod : req.method = utf8 "POST" ∨ req.method = utf8 "PUT") :
    Outcome Exception.IsUtf8 d (dispatchMethod "InventoryModule" req.method getSupplierProducts
      (addSupplierProduct p req.dataset) (editSupplierProduct p req.dataset req.resourceId)
      (deleteSupplierProduct p req.resourceId))
      (fun _ d' => RowMade p req .suppliersProductInfo d d') fun _ => False := by
  refine dispatchMethod_write hmethod (fun h => ?_) fun h => ?_
  · refine (reads_lift (buildSupplierProduct_builds p)).bindAtomic fun x hx => ?_
    exact (ensureReferences_spec x).bindAtomic fun _ _ => hx.add h
  · refine (ensureExisting_spec _ _ _ _ _).bindAtomic fun _ _ => ?_
    refine (reads_lift (buildSupplierProduct_builds p)).bindAtomic fun x hx => ?_
    exact (ensureReferences_spec x).bindAtomic fun _ _ => hx.update h

/-- Sales orders are written as described. -/
theorem SalesModule.orders_makes (hmethod : req.method = utf8 "POST" ∨ req.method = utf8 "PUT") :
    Outcome Exception.IsUtf8 d (dispatchMethod "SalesModule" req.method getOrders
      (addOrder p req.dataset) (editOrder p req.dataset req.resourceId)
      (deleteOrder p req.resourceId)) (fun _ d' => RowMade p req .saleOrder d d')
      fun _ => False := by
  refine dispatchMethod_write hmethod (fun h => ?_) fun h => ?_
  · refine (reads_lift (buildOrder_builds p)).bindAtomic fun x hx => ?_
    exact (ensureOrderReferences_spec x).bindAtomic fun _ _ => hx.add h
  · refine (ensureExisting_spec _ _ _ _ _).bindAtomic fun _ _ => ?_
    refine (reads_lift (buildOrder_builds p)).bindAtomic fun x hx => ?_
    exact (ensureOrderReferences_spec x).bindAtomic fun _ _ => hx.update h

/-- Purchase orders are written as described; a receipt is no request about orders. -/
theorem PurchaseModule.orders_makes
    (hmethod : req.method = utf8 "POST" ∨ req.method = utf8 "PUT") :
    Outcome Exception.IsUtf8 d (dispatchMethod "PurchaseModule" req.method getOrders
      (addOrder p req.dataset) (editOrder p req.dataset req.resourceId)
      (deleteOrder p req.resourceId)) (fun _ d' => RowMade p req .purchaseOrder d d')
      fun _ => False := by
  refine dispatchMethod_write hmethod (fun h => ?_) fun h => ?_
  · refine (reads_lift (buildOrder_builds p)).bindAtomic fun x hx => ?_
    exact (ensureOrderCanBeStored_spec x).bindAtomic fun _ _ => hx.add h
  · refine (reads_lift ensureResourceId_spec).bindAtomic fun _ _ => ?_
    refine (getOrderById_spec _).bindAtomic fun order _ => ?_
    refine (reads_lift (ensureOrderIsNotReceived_spec _ _)).bindAtomic fun _ _ => ?_
    refine (reads_lift (buildOrder_builds p)).bindAtomic fun x hx => ?_
    exact (ensureOrderCanBeStored_spec x).bindAtomic fun _ _ => hx.update h

/-- The lines of sales orders are written as described. -/
theorem SalesModule.orderRecords_makes
    (hmethod : req.method = utf8 "POST" ∨ req.method = utf8 "PUT") :
    Outcome Exception.IsUtf8 d (dispatchMethod "SalesModule" req.method
      (getOrderRecords p req.resourceId) (addOrderRecord p req.dataset)
      (editOrderRecord p req.dataset req.resourceId) (deleteOrderRecord p req.resourceId))
      (fun _ d' => RowMade p req .salesOrderRecord d d') fun _ => False := by
  refine dispatchMethod_write hmethod (fun h => ?_) fun h => ?_
  · refine (addOrderRecord_writes _).mono ?_
    rintro _ d' ⟨x, hx, hput⟩
    obtain ⟨hgiven, hrow⟩ := buildOrderRecordOf_builds hx
    exact ⟨_, hrow ▸ .described .salesOrderRecord hgiven, Or.inl ⟨h, hput⟩⟩
  · refine (editOrderRecord_writes _ _).mono ?_
    rintro _ d' ⟨x, hx, -, hput⟩
    obtain ⟨hgiven, hrow⟩ := buildOrderRecordOf_builds hx
    exact ⟨_, hrow ▸ .described .salesOrderRecord hgiven, Or.inr ⟨h, hput⟩⟩

/-- The lines of purchase orders are written as described. -/
theorem PurchaseModule.orderRecords_makes
    (hmethod : req.method = utf8 "POST" ∨ req.method = utf8 "PUT") :
    Outcome Exception.IsUtf8 d (dispatchMethod "PurchaseModule" req.method
      (getOrderRecords p req.resourceId) (addOrderRecord p req.dataset)
      (editOrderRecord p req.dataset req.resourceId) (deleteOrderRecord p req.resourceId))
      (fun _ d' => RowMade p req .purchaseOrderRecord d d') fun _ => False := by
  refine dispatchMethod_write hmethod (fun h => ?_) fun h => ?_
  · refine (addOrderRecord_writes _).mono ?_
    rintro _ d' ⟨x, hx, hput⟩
    obtain ⟨hgiven, hrow⟩ := buildOrderRecordOf_builds hx
    exact ⟨_, hrow ▸ .described .purchaseOrderRecord hgiven, Or.inl ⟨h, hput⟩⟩
  · refine (editOrderRecord_writes _ _).mono ?_
    rintro _ d' ⟨x, hx, -, hput⟩
    obtain ⟨hgiven, hrow⟩ := buildOrderRecordOf_builds hx
    exact ⟨_, hrow ▸ .described .purchaseOrderRecord hgiven, Or.inr ⟨h, hput⟩⟩

end Handlers

/-! ### The server -/

/-- **Every module** writes the row that it makes of a request that adds or edits one. -/
theorem moduleTask_makes {t : TableName} (haddr : req.Addresses t)
    (hmethod : req.method = utf8 "POST" ∨ req.method = utf8 "PUT") :
    Outcome Exception.IsUtf8 d (moduleTask p req) (fun _ d' => RowMade p req t d d')
      fun _ => False := by
  have hmodule := haddr.1
  have hsub := haddr.2
  -- the module and the submodule of the request lead to the handlers of its table
  cases t with
  | role =>
    rw [moduleTask_users p hmodule, UsersModule.executeTask_roles p hsub]
    exact UsersModule.roles_makes hmethod
  | user =>
    rw [moduleTask_users p hmodule, UsersModule.executeTask_users p hsub]
    exact UsersModule.users_makes hmethod
  | log =>
    have hsub : req.submodule = utf8 "entries" := hsub
    rw [moduleTask_logs p hmodule, LogsModule.executeTask, if_neg (not_not.mpr hsub)]
    exact managed_makes logRepository hmethod fun _ => LogsModule.buildLog_builds p
  | contact =>
    have hsub : req.submodule = utf8 "contacts" := hsub
    rw [moduleTask_management p hmodule, ManagementModule.executeTask, if_pos hsub]
    exact managed_makes contactRepository hmethod fun _ => ManagementModule.buildContact_builds p
  | supplier =>
    have hsub : req.submodule = utf8 "suppliers" := hsub
    rw [moduleTask_management p hmodule, ManagementModule.executeTask,
      if_neg (by rw [hsub]; decide), if_pos hsub]
    exact managed_makes supplierRepository hmethod fun _ => ManagementModule.buildSupplier_builds p
  | employee =>
    have hsub : req.submodule = utf8 "employees" := hsub
    rw [moduleTask_management p hmodule, ManagementModule.executeTask,
      if_neg (by rw [hsub]; decide), if_neg (by rw [hsub]; decide), if_pos hsub]
    exact managed_makes employeeRepository hmethod fun _ => ManagementModule.buildEmployee_builds p
  | productType =>
    have hsub : req.submodule = utf8 "product-types" := hsub
    rw [moduleTask_inventory p hmodule, InventoryModule.executeTask, if_pos hsub]
    exact InventoryModule.productTypes_makes hmethod
  | inventory =>
    have hsub : req.submodule = utf8 "stocks" := hsub
    rw [moduleTask_inventory p hmodule, InventoryModule.executeTask,
      if_neg (by rw [hsub]; decide), if_pos hsub]
    exact InventoryModule.stocks_makes hmethod
  | suppliersProductInfo =>
    have hsub : req.submodule = utf8 "supplier-products" := hsub
    rw [moduleTask_inventory p hmodule, InventoryModule.executeTask,
      if_neg (by rw [hsub]; decide), if_neg (by rw [hsub]; decide), if_pos hsub]
    exact InventoryModule.supplierProducts_makes hmethod
  | saleOrder =>
    have hsub : req.submodule = utf8 "orders" := hsub
    rw [moduleTask_sales p hmodule, SalesModule.executeTask, if_pos hsub]
    exact SalesModule.orders_makes hmethod
  | salesOrderRecord =>
    have hsub : req.submodule = utf8 "order-records" := hsub
    rw [moduleTask_sales p hmodule, SalesModule.executeTask, if_neg (by rw [hsub]; decide),
      if_pos hsub]
    exact SalesModule.orderRecords_makes hmethod
  | purchaseOrder =>
    have hsub : req.submodule = utf8 "orders" := hsub
    rw [moduleTask_purchase p hmodule, PurchaseModule.executeTask, if_pos hsub]
    exact PurchaseModule.orders_makes hmethod
  | purchaseOrderRecord =>
    have hsub : req.submodule = utf8 "order-records" := hsub
    rw [moduleTask_purchase p hmodule, PurchaseModule.executeTask,
      if_neg (by rw [hsub]; decide), if_pos hsub]
    exact PurchaseModule.orderRecords_makes hmethod

/-- The row that the module of an accepted request writes is there afterwards: the audit entry of
the request goes to another table. -/
theorem rowWritten {t : TableName} {Q : Row t → Prop} {s : Session (Db e) Exception}
    (haddr : req.Addresses t)
    (h : Outcome Exception.IsUtf8 s.store (moduleTask p req)
      (fun _ d' => RowWritten p req Q s.store d') fun _ => False)
    (hreply : utf8 "error" ∉ (executeTask p now req s).1.dataset) :
    RowWritten p req Q s.store (executeTask p now req s).2.store := by
  obtain ⟨d₁, faults, ⟨x, hx, hwrite⟩, haudit⟩ := executeTask_audits h hreply
  have hsame : (executeTask p now req s).2.store t = d₁ t := by
    by_cases hlog : t = .log
    · -- a request to the log is not audited
      subst hlog
      cases haudit with
      | none _ heq => rw [heq]
      | lost _ _ heq => rw [heq]
      | written haudited => exact absurd haddr.1 haudited.2
    · exact haudit.eq_of_ne hlog
  exact ⟨x, hx, hwrite.imp (And.imp_right hsame.trans) (And.imp_right hsame.trans)⟩

/-- **An accepted write** writes the row that the module makes of the request. -/
theorem rowMade {t : TableName} {s : Session (Db e) Exception} (haddr : req.Addresses t)
    (hmethod : req.method = utf8 "POST" ∨ req.method = utf8 "PUT")
    (hreply : utf8 "error" ∉ (executeTask p now req s).1.dataset) :
    RowMade p req t s.store (executeTask p now req s).2.store :=
  rowWritten haddr (moduleTask_makes haddr hmethod) hreply

end SageStore
