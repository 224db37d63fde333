import SageStore.Server.Effect

/-!
# `ManagementModule`

Contacts, suppliers and employees. The three resources are handled alike: a row is added
when its name is given, and edited or deleted when it exists.
-/

namespace SageStore

open Bytes Program

variable {e : Enforcement}

namespace ManagementModule

/-- The known types are stored in English, and any other type as it is. -/
def normalizeContactType (value : Bytes) : Bytes :=
  if value = utf8 "Customer" ∨ value = utf8 "Клієнт" then "Customer"
  else if value = utf8 "Client" then "Client"
  else if value = utf8 "Partner" ∨ value = utf8 "Партнер" then "Partner"
  else value

/-- A contact has a name; one without a type is a customer. -/
def buildContact (request : Dataset) (resourceId : Bytes) : Except Exception Contact := do
  let type := getOptionalDatasetValue request "type"
  let name ← getRequiredDatasetValue request "name" "ManagementModule"
  return {
    id := resourceId
    name
    type := if type = [] then "Customer" else normalizeContactType type
    email := getOptionalDatasetValue request "email"
    phone := getOptionalDatasetValue request "phone" }

/-- The body that `buildSupplier` and `buildEmployee` share. -/
def buildParty (request : Dataset) (resourceId : Bytes) : Except Exception Party := do
  let name ← getRequiredDatasetValue request "name" "ManagementModule"
  return {
    id := resourceId
    name
    number := getOptionalDatasetValue request "number"
    email := getOptionalDatasetValue request "email"
    address := getOptionalDatasetValue request "address" }

def buildSupplier (request : Dataset) (resourceId : Bytes) : Except Exception Party :=
  buildParty request resourceId

def buildEmployee (request : Dataset) (resourceId : Bytes) : Except Exception Party :=
  buildParty request resourceId

def getContacts : Task e ResponseData := do
  let contacts ← contactRepository.getAll
  return listing [("id", Contact.id), ("name", Contact.name), ("type", Contact.type),
    ("email", Contact.email), ("phone", Contact.phone)] contacts

/-- The columns of a listing of suppliers or of employees. -/
def partyColumns : List (String × (Party → Bytes)) :=
  [("id", Party.id), ("name", Party.name), ("number", Party.number), ("email", Party.email),
    ("address", Party.address)]

def getSuppliers : Task e ResponseData := do
  let suppliers ← supplierRepository.getAll
  return listing partyColumns suppliers

def getEmployees : Task e ResponseData := do
  let employees ← employeeRepository.getAll
  return listing partyColumns employees

/-- Nothing is looked up: two contacts may be alike. -/
def addContact (p : Platform) (request : Dataset) : Task e Unit := do
  let contact ← buildContact request []
  contactRepository.add p contact

def editContact (p : Platform) (request : Dataset) (resourceId : Bytes) : Task e Unit :=
  editExisting p contactRepository "ManagementModule" "Contact" "Contact does not exist"
    (buildContact request resourceId) resourceId

def deleteContact (p : Platform) (resourceId : Bytes) : Task e Unit :=
  deleteExisting p contactRepository "ManagementModule" "Contact" "Contact does not exist"
    resourceId

def addSupplier (p : Platform) (request : Dataset) : Task e Unit := do
  let supplier ← buildSupplier request []
  supplierRepository.add p supplier

def editSupplier (p : Platform) (request : Dataset) (resourceId : Bytes) : Task e Unit :=
  editExisting p supplierRepository "ManagementModule" "Supplier" "Supplier does not exist"
    (buildSupplier request resourceId) resourceId

def deleteSupplier (p : Platform) (resourceId : Bytes) : Task e Unit :=
  deleteExisting p supplierRepository "ManagementModule" "Supplier" "Supplier does not exist"
    resourceId

def addEmployee (p : Platform) (request : Dataset) : Task e Unit := do
  let employee ← buildEmployee request []
  employeeRepository.add p employee

def editEmployee (p : Platform) (request : Dataset) (resourceId : Bytes) : Task e Unit :=
  editExisting p employeeRepository "ManagementModule" "Employee" "Employee does not exist"
    (buildEmployee request resourceId) resourceId

def deleteEmployee (p : Platform) (resourceId : Bytes) : Task e Unit :=
  deleteExisting p employeeRepository "ManagementModule" "Employee" "Employee does not exist"
    resourceId

def executeTask (p : Platform) (req : RequestData) : Task e ResponseData :=
  if req.submodule = utf8 "contacts" then
    dispatchMethod "ManagementModule" req.method getContacts (addContact p req.dataset)
      (editContact p req.dataset req.resourceId) (deleteContact p req.resourceId)
  else if req.submodule = utf8 "suppliers" then
    dispatchMethod "ManagementModule" req.method getSuppliers (addSupplier p req.dataset)
      (editSupplier p req.dataset req.resourceId) (deleteSupplier p req.resourceId)
  else if req.submodule = utf8 "employees" then
    dispatchMethod "ManagementModule" req.method getEmployees (addEmployee p req.dataset)
      (editEmployee p req.dataset req.resourceId) (deleteEmployee p req.resourceId)
  else
    throw (.server "ManagementModule" "Unrecognized management task")

/-! ### Specifications -/

section Specifications

variable {p : Platform} {req : RequestData} {d : Db e}

/-- The type that is stored is valid UTF-8 if the one that is sent is. -/
theorem isUtf8_normalizeContactType {value : Bytes} (h : IsUtf8 value) :
    IsUtf8 (normalizeContactType value) := by
  unfold normalizeContactType
  split_ifs
  · exact .utf8 _
  · exact .utf8 _
  · exact .utf8 _
  · exact h

/-- The row of a contact that is built of valid UTF-8 reads as valid UTF-8. -/
theorem buildContact_spec (p : Platform) {request : Dataset} {resourceId : Bytes} :
    Yields Exception.IsUtf8 (buildContact request resourceId) fun x => x.id = resourceId ∧
      (request.IsUtf8 → RowIsUtf8 .contact (Contact.row p x)) := by
  refine getRequiredDatasetValue_spec.bind fun name hname => ?_
  refine Yields.pure ⟨rfl, fun hds => ⟨?_, ?_, ?_, ?_⟩⟩
  · exact (hname.1 ▸ hds.field _).cstr
  · refine Bytes.IsUtf8.cstr ?_
    dsimp only
    split
    · exact .utf8 _
    · exact isUtf8_normalizeContactType (hds.field _)
  · exact (hds.field _).cstr
  · exact (hds.field _).cstr

/-- Suppliers and employees have rows of the same columns, so one fact serves both. -/
theorem buildParty_spec (p : Platform) {request : Dataset} {resourceId : Bytes} :
    Yields Exception.IsUtf8 (buildParty request resourceId) fun x => x.id = resourceId ∧
      (request.IsUtf8 → RowIsUtf8 .supplier (Party.row p x)) := by
  refine getRequiredDatasetValue_spec.bind fun name hname => ?_
  refine Yields.pure ⟨rfl, fun hds => ⟨?_, ?_, ?_, ?_⟩⟩
  · exact (hname.1 ▸ hds.field _).cstr
  all_goals exact (hds.field _).cstr

/-- The listings read the table and answer with its columns. -/
theorem getContacts_spec (haddr : req.Addresses .contact)
    (hmethod : req.method = utf8 "GET") : Serves p req d getContacts :=
  listing_spec contactRepository _ haddr hmethod (by decide) (getAll_mem _) (by decide)
    fun i y hy => by simp [contactRepository, hy.1, hy.2.1, hy.2.2.1, hy.2.2.2]

theorem getSuppliers_spec (haddr : req.Addresses .supplier)
    (hmethod : req.method = utf8 "GET") : Serves p req d getSuppliers :=
  listing_spec supplierRepository _ haddr hmethod (by decide) (getAll_mem _) (by decide)
    fun i y hy => by
      simp [partyColumns, supplierRepository, hy.1, hy.2.1, hy.2.2.1, hy.2.2.2]

theorem getEmployees_spec (haddr : req.Addresses .employee)
    (hmethod : req.method = utf8 "GET") : Serves p req d getEmployees :=
  listing_spec employeeRepository _ haddr hmethod (by decide) (getAll_mem _) (by decide)
    fun i y hy => by
      simp [partyColumns, employeeRepository, hy.1, hy.2.1, hy.2.2.1, hy.2.2.2]

/-- **The module serves its requests.** The three resources are built and stored alike, so one rule
(`managed_spec`) covers them. -/
theorem executeTask_spec (hmodule : req.module = utf8 "management") :
    Serves p req d (executeTask p req) := by
  refine Outcome.ite (fun hsub => ?_) fun _ => Outcome.ite (fun hsub => ?_) fun _ =>
    Outcome.ite (fun hsub => ?_) fun _ => Outcome.throw ⟨.utf8 _, .utf8 _⟩
  · have haddr : req.Addresses .contact := ⟨hmodule, hsub⟩
    exact managed_spec contactRepository haddr (getContacts_spec haddr)
      (fun id => (buildContact_spec p).mono fun x hx =>
        ⟨hx.1, trivial, fun h => h, fun hds => ⟨hx.2 hds, hx.2 hds⟩⟩) fun h => h
  · have haddr : req.Addresses .supplier := ⟨hmodule, hsub⟩
    exact managed_spec supplierRepository haddr (getSuppliers_spec haddr)
      (fun id => (buildParty_spec p).mono fun x hx =>
        ⟨hx.1, trivial, fun h => h, fun hds => ⟨hx.2 hds, hx.2 hds⟩⟩) fun h => h
  · have haddr : req.Addresses .employee := ⟨hmodule, hsub⟩
    exact managed_spec employeeRepository haddr (getEmployees_spec haddr)
      (fun id => (buildParty_spec p).mono fun x hx =>
        ⟨hx.1, trivial, fun h => h, fun hds => ⟨hx.2 hds, hx.2 hds⟩⟩) fun h => h

end Specifications

end ManagementModule

end SageStore
