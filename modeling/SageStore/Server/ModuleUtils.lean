import Mathlib.Data.Finmap
import SageStore.Server.Repositories

/-!
# Requests, and the helpers of the modules

A `Dataset` maps a key to a column of texts; a request carries one and so does a reply.
The field readers of `ModuleUtils.hpp` take the component that a failed check names. The
anonymous namespaces of `UsersModule.cpp`, `InventoryModule.cpp` and `BusinessLogic.cpp`
repeat `getOptionalDatasetValue` and `getRequiredDatasetValue` word for word; there is one
definition of each here.

Keys, components and messages are literals of the source, so they are strings, and every
exception the helpers throw is valid UTF-8.
-/

namespace SageStore

open Bytes Program

/-- A dictionary of columns of texts. -/
abbrev Dataset := Finmap fun _ : Bytes => List Bytes

structure RequestData where
  module : Bytes
  submodule : Bytes
  method : Bytes
  resourceId : Bytes
  dataset : Dataset

structure ResponseData where
  dataset : Dataset

/-- The reply without data. -/
def ResponseData.empty : ResponseData := ⟨∅⟩

/-- All keys and texts are valid UTF-8. -/
def Dataset.IsUtf8 (ds : Dataset) : Prop :=
  ∀ key texts, ds.lookup key = some texts → Bytes.IsUtf8 key ∧ ∀ t ∈ texts, Bytes.IsUtf8 t

theorem Dataset.isUtf8_empty : Dataset.IsUtf8 ∅ := fun key texts h => by simp at h

/-- A dataset of one key is valid UTF-8 if the key and its texts are. -/
theorem Dataset.isUtf8_singleton {key : Bytes} {texts : List Bytes} :
    Dataset.IsUtf8 (Finmap.singleton key texts) ↔
      Bytes.IsUtf8 key ∧ ∀ t ∈ texts, Bytes.IsUtf8 t := by
  constructor
  · exact fun h => h key texts (Finmap.lookup_singleton_eq)
  · intro h key' texts' hl
    obtain rfl := (Finmap.mem_singleton _ _ _).mp (Finmap.mem_of_lookup_eq_some hl)
    obtain rfl : texts = texts' := by simpa [Finmap.lookup_singleton_eq] using hl
    exact h

/-! ### Reading fields -/

def getOptionalDatasetValue (request : Dataset) (key : String) : Bytes :=
  match request.lookup (utf8 key) with
  | some (value :: _) => value
  | _ => []

def getRequiredDatasetValue (request : Dataset) (key component : String) :
    Except Exception Bytes := do
  let value := getOptionalDatasetValue request key
  if value = [] then
    throw (.server component (utf8 "Missing required field: " ++ utf8 key))
  return value

def ensureIntegerFitsRange (value : Bytes) (key component : String) : Except Exception Unit :=
  match stoull value with
  | some parsed =>
    if 2 ^ 63 - 1 < parsed then
      throw (.server component (utf8 "Integer field out of range: " ++ utf8 key))
    else
      pure ()
  | none => throw (.server component (utf8 "Integer field out of range: " ++ utf8 key))

def getRequiredNonNegativeInteger (request : Dataset) (key component : String) :
    Except Exception Bytes := do
  let value ← getRequiredDatasetValue request key component
  if ¬ isDigits value then
    throw (.server component (utf8 "Invalid integer field: " ++ utf8 key))
  ensureIntegerFitsRange value key component
  return value

def getRequiredPositiveInteger (request : Dataset) (key component : String) :
    Except Exception Bytes := do
  let value ← getRequiredNonNegativeInteger request key component
  if value = utf8 "0" then
    throw (.server component (utf8 "Invalid positive integer field: " ++ utf8 key))
  return value

def getRequiredNumber (p : Platform) (request : Dataset) (key component : String) :
    Except Exception Bytes := do
  let value ← getRequiredDatasetValue request key component
  match p.doubles.stod value with
  | some _ => return value
  | none => throw (.server component (utf8 "Invalid numeric field: " ++ utf8 key))

def ensureResourceId (resourceId : Bytes) (component resourceName : String) :
    Except Exception Unit :=
  if resourceId = [] then
    throw (.server component (utf8 resourceName ++ utf8 " ID is empty"))
  else
    pure ()

def ensureEntityExists {e : Enforcement} {t : TableName} {E : Type} (p : Platform)
    (repository : Repository t E) (c : Column t) (value : Bytes) (component message : String) :
    Task e Unit := do
  let found ← repository.getByField p c value
  if found.isEmpty then
    throw (.server component (utf8 message))

/-- The check that an addressed row exists, before it is edited or deleted. -/
def ensureExisting {e : Enforcement} {t : TableName} {E : Type} (p : Platform)
    (repository : Repository t E) (component resourceName missing : String)
    (resourceId : Bytes) : Task e Unit := do
  ensureResourceId resourceId component resourceName
  ensureEntityExists p repository .id resourceId component missing

/-- The edit that most resources have: the row must exist, and the fields must be right. -/
def editExisting {e : Enforcement} {t : TableName} {E : Type} (p : Platform)
    (repository : Repository t E) (component resourceName missing : String)
    (build : Except Exception E) (resourceId : Bytes) : Task e Unit := do
  ensureExisting p repository component resourceName missing resourceId
  let entity ← build
  repository.update p entity

/-- The deletion that most resources have: the row must exist. -/
def deleteExisting {e : Enforcement} {t : TableName} {E : Type} (p : Platform)
    (repository : Repository t E) (component resourceName missing : String)
    (resourceId : Bytes) : Task e Unit := do
  ensureExisting p repository component resourceName missing resourceId
  repository.deleteResource p resourceId

/-! ### The clock -/

/-- A moment of the system clock, in UTC. -/
structure UtcTime where
  year : ℕ
  month : ℕ
  day : ℕ
  hour : ℕ
  minute : ℕ
  second : ℕ

/-- A number with leading zeros up to two digits. -/
def twoDigits (n : ℕ) : Bytes := if n < 10 then utf8 "0" ++ decimal n else decimal n

/-- The moment in the format `%Y-%m-%d %H:%M:%S`. -/
def currentTimestamp (now : UtcTime) : Bytes :=
  List.flatten [decimal now.year, "-", twoDigits now.month, "-", twoDigits now.day, " ",
    twoDigits now.hour, ":", twoDigits now.minute, ":", twoDigits now.second]

/-! ### Replies -/

/-- The reply that lists entities: one column for each key, in the order of the entities. -/
def listing {E : Type} (columns : List (String × (E → Bytes))) (xs : List E) : ResponseData :=
  ⟨(columns.map fun c => (⟨utf8 c.1, xs.map c.2⟩ : Σ _ : Bytes, List Bytes)).toFinmap⟩

/-- The reply that holds one text under each key. -/
def record (fields : List (String × Bytes)) : ResponseData :=
  listing (fields.map fun f => (f.1, fun _ : Unit => f.2)) [()]

/-- The dispatch on the method that every resource has: list, add, edit, delete. -/
def dispatchMethod {e : Enforcement} (component : String) (method : Bytes)
    (get : Task e ResponseData) (post put delete : Task e Unit) : Task e ResponseData :=
  if method = utf8 "GET" then get
  else if method = utf8 "POST" then do post; pure .empty
  else if method = utf8 "PUT" then do put; pure .empty
  else if method = utf8 "DELETE" then do delete; pure .empty
  else throw (.server component "Unrecognized method")

/-! ### Specifications -/

section Specifications

variable {request : Dataset} {key component : String} {p : Platform}

/-- A field that reads as a text is there. -/
theorem lookup_of_ne_nil (h : getOptionalDatasetValue request key ≠ []) :
    ∃ rest, request.lookup (utf8 key) = some (getOptionalDatasetValue request key :: rest) := by
  unfold getOptionalDatasetValue at h ⊢
  split
  · next value rest hl => exact ⟨rest, by simp [hl]⟩
  · next hl =>
    split at h
    · next value rest hl' => exact absurd hl' (hl value rest)
    · exact absurd rfl h

/-- The fields of a valid dataset are valid. -/
theorem Dataset.IsUtf8.field (h : request.IsUtf8) (key : String) :
    Bytes.IsUtf8 (getOptionalDatasetValue request key) := by
  by_cases hne : getOptionalDatasetValue request key = []
  · rw [hne]
    exact .nil
  · obtain ⟨rest, hl⟩ := lookup_of_ne_nil hne
    exact (h _ _ hl).2 _ List.mem_cons_self

/-- A required field that is not empty is read. -/
theorem getRequiredDatasetValue_eq (h : getOptionalDatasetValue request key ≠ []) :
    getRequiredDatasetValue request key component =
      .ok (getOptionalDatasetValue request key) := by
  unfold getRequiredDatasetValue
  rw [if_neg h]
  rfl

/-- What passes is the field of the request, and not empty. -/
theorem getRequiredDatasetValue_spec :
    Yields Exception.IsUtf8 (getRequiredDatasetValue request key component)
      fun v => v = getOptionalDatasetValue request key ∧ v ≠ [] := by
  unfold getRequiredDatasetValue
  dsimp only
  split
  · exact Yields.throw ⟨.utf8 _, .append (.utf8 _) (.utf8 _)⟩
  · next h => exact ⟨rfl, h⟩

/-- A string of digits that passes the range check fits 64 signed bits. -/
theorem ensureIntegerFitsRange_spec {value : Bytes} (h : isDigits value = true) :
    Yields Exception.IsUtf8 (ensureIntegerFitsRange value key component)
      fun _ => digitsValue value < 2 ^ 63 := by
  have herr : (Exception.server component
      (utf8 "Integer field out of range: " ++ utf8 key)).IsUtf8 :=
    ⟨.utf8 _, .append (.utf8 _) (.utf8 _)⟩
  rw [ensureIntegerFitsRange, stoull_of_isDigits h]
  by_cases h64 : digitsValue value < 2 ^ 64
  · simp only [if_pos h64]
    exact Yields.ite (fun _ => Yields.throw herr) fun hle => Yields.pure (by omega)
  · simp only [if_neg h64]
    exact Yields.throw herr

/-- What passes is the field of the request, made of digits and in range. -/
theorem getRequiredNonNegativeInteger_spec :
    Yields Exception.IsUtf8 (getRequiredNonNegativeInteger request key component)
      fun v => v = getOptionalDatasetValue request key ∧ isDigits v = true ∧
        digitsValue v < 2 ^ 63 := by
  refine getRequiredDatasetValue_spec.bind fun v hv => ?_
  refine Yields.ite (fun _ => ?_) fun hd => ?_
  · exact Yields.throw ⟨.utf8 _, .append (.utf8 _) (.utf8 _)⟩
  have hd : isDigits v = true := not_not.mp hd
  exact (ensureIntegerFitsRange_spec hd).bind fun _ hlt => ⟨hv.1, hd, hlt⟩

/-- What passes is moreover not the text `0`. -/
theorem getRequiredPositiveInteger_spec :
    Yields Exception.IsUtf8 (getRequiredPositiveInteger request key component)
      fun v => v = getOptionalDatasetValue request key ∧ isDigits v = true ∧
        digitsValue v < 2 ^ 63 ∧ v ≠ utf8 "0" := by
  refine getRequiredNonNegativeInteger_spec.bind fun v hv => ?_
  refine Yields.ite (fun _ => ?_) fun h0 => ?_
  · exact Yields.throw ⟨.utf8 _, .append (.utf8 _) (.utf8 _)⟩
  · exact Yields.pure ⟨hv.1, hv.2.1, hv.2.2, h0⟩

/-- The digits of a positive number that fits 64 signed bits are accepted. -/
theorem getRequiredPositiveInteger_ok {value : Bytes}
    (hvalue : getOptionalDatasetValue request key = value) (hdigits : isDigits value = true)
    (hpos : 0 < digitsValue value) (hlt : digitsValue value < 2 ^ 63) :
    getRequiredPositiveInteger request key component = .ok value := by
  subst hvalue
  have hne : getOptionalDatasetValue request key ≠ [] := (isDigits_iff.mp hdigits).1
  have hfits : ensureIntegerFitsRange (getOptionalDatasetValue request key) key component =
      .ok () := by
    rw [ensureIntegerFitsRange, stoull_of_isDigits hdigits, if_pos (by omega)]
    exact if_neg (by omega)
  have hnonneg : getRequiredNonNegativeInteger request key component =
      .ok (getOptionalDatasetValue request key) := by
    rw [getRequiredNonNegativeInteger, getRequiredDatasetValue_eq hne]
    dsimp only [bind, Except.bind]
    rw [if_neg (not_not.mpr hdigits), hfits]
    rfl
  -- the text refused here denotes zero
  have hzero : getOptionalDatasetValue request key ≠ utf8 "0" := by
    intro h0
    rw [h0] at hpos
    exact absurd hpos (by decide)
  rw [getRequiredPositiveInteger, hnonneg]
  exact if_neg hzero

/-- What passes is the field of the request, and not empty. -/
theorem getRequiredNumber_spec :
    Yields Exception.IsUtf8 (getRequiredNumber p request key component)
      fun v => v = getOptionalDatasetValue request key ∧ v ≠ [] := by
  refine getRequiredDatasetValue_spec.bind fun v hv => ?_
  split
  · exact Yields.pure hv
  · exact Yields.throw ⟨.utf8 _, .append (.utf8 _) (.utf8 _)⟩

theorem ensureResourceId_spec {resourceId : Bytes} {resourceName : String} :
    Yields Exception.IsUtf8 (ensureResourceId resourceId component resourceName)
      fun _ => resourceId ≠ [] :=
  Yields.ite (fun _ => Yields.throw ⟨.utf8 _, .append (.utf8 _) (.utf8 _)⟩)
    fun h => Yields.pure h

/-- The check succeeds only when some row matches. -/
theorem ensureEntityExists_spec {e : Enforcement} {t : TableName} {E : Type} {d : Db e}
    (repository : Repository t E) (c : Column t) (value : Bytes) (component message : String) :
    Reads Exception.IsUtf8 d (ensureEntityExists p repository c value component message)
      fun _ => ∃ r ∈ (d t).rows, c.Matches p value r := by
  refine (getByField_spec repository c value).bindReads fun xs hxs => ?_
  refine Reads.ite (fun _ => Reads.throw ⟨.utf8 _, .utf8 _⟩) fun h => Reads.pure ?_
  subst hxs
  cases hf : (d t).rows.filter fun x => c.Matches p value x with
  | nil => simp [hf] at h
  | cons r rest =>
    have hr : r ∈ (d t).rows.filter fun x => c.Matches p value x := hf ▸ List.mem_cons_self
    exact ⟨r, mem_matching.mp hr⟩

/-- What passes has an identifier and a row. -/
theorem ensureExisting_spec {e : Enforcement} {t : TableName} {E : Type} {d : Db e}
    (repository : Repository t E) (component resourceName missing : String)
    (resourceId : Bytes) :
    Reads Exception.IsUtf8 d
      (ensureExisting p repository component resourceName missing resourceId)
      fun _ => resourceId ≠ [] ∧ (d t).Has (p.cell resourceId) := by
  refine (reads_lift ensureResourceId_spec).bindReads fun _ hid => ?_
  exact (ensureEntityExists_spec repository .id _ _ _).mono fun _ hhas => ⟨hid, hhas⟩

/-- The check while no call fails. -/
theorem exec_ensureEntityExists {e : Enforcement} {t : TableName} {E : Type}
    (repository : Repository t E) (c : Column t) (value : Bytes) (component message : String)
    (d : Db e) (snap : Option (Db e)) :
    (ensureEntityExists p repository c value component message).exec ⟨d, snap, []⟩ =
      (if ∃ r ∈ (d t).rows, c.Matches p value r then .ok ()
        else .error (.server component (utf8 message)), ⟨d, snap, []⟩) := by
  rw [ensureEntityExists, exec_bind_ok (exec_getByField repository c value d snap)]
  have hempty : (((d t).rows.filter fun x => c.Matches p value x).map fun x =>
      repository.fromCurrentRow x.1 x.2).isEmpty = true ↔
        ¬ ∃ r ∈ (d t).rows, c.Matches p value r := by
    rw [List.isEmpty_iff, List.map_eq_nil_iff, List.filter_eq_nil_iff]
    simp only [decide_eq_true_eq, not_exists, not_and]
  by_cases h : ∃ r ∈ (d t).rows, c.Matches p value r
  · rw [if_neg fun he => hempty.mp he h, if_pos h]
    rfl
  · rw [if_pos (hempty.mpr h), if_neg h]
    rfl

/-- The check that a row exists which does, while no call fails. -/
theorem exec_ensureExisting {e : Enforcement} {t : TableName} {E : Type}
    (repository : Repository t E) (component resourceName missing : String) {resourceId : Bytes}
    {d : Db e} (snap : Option (Db e)) (hid : resourceId ≠ []) (h : (d t).Has (p.cell resourceId)) :
    (ensureExisting p repository component resourceName missing resourceId).exec ⟨d, snap, []⟩ =
      (.ok (), ⟨d, snap, []⟩) := by
  rw [ensureExisting, ensureResourceId, if_neg hid]
  exact (exec_ensureEntityExists repository .id resourceId component missing d snap).trans
    (by rw [if_pos (show ∃ r ∈ (d t).rows, Column.id.Matches p resourceId r from h)])

/-- A digit string in range is stored as the integer it denotes. -/
theorem Platform.cell_of_isDigits (p : Platform) {t : Bytes} (h : isDigits t = true)
    (hlt : digitsValue t < 2 ^ 63) : p.cell t = .int (digitsValue t) := by
  rw [Platform.cell, cstr_of_isDigits h, p.sqlite.integer_digits t h hlt]

/-- The text that a number in range is read back as denotes that number. -/
theorem Platform.cell_decimal (p : Platform) {n : ℕ} (h : n < 2 ^ 63) :
    p.cell (decimal n) = .int n := by
  rw [p.cell_of_isDigits (isDigits_decimal n) (by rwa [digitsValue_decimal]), digitsValue_decimal]

/-- The text that the key of a row is read back as denotes that key. -/
theorem Platform.cell_key {e : Enforcement} (p : Platform) {d : Db e} {t : TableName}
    {r : ℕ × Row t} (hr : r ∈ (d t).rows) : p.cell (decimal r.1) = .int r.1 :=
  p.cell_decimal (Database.key_lt hr)

theorem Platform.cell_ne_null (p : Platform) (t : Bytes) : p.cell t ≠ .null :=
  p.sqlite.integer_ne_null _

/-- A cell that was bound as valid UTF-8 reads as valid UTF-8. -/
theorem Platform.isUtf8_cell (p : Platform) {t : Bytes} (h : Bytes.IsUtf8 t) :
    Bytes.IsUtf8 (p.cell t).toText :=
  (p.sqlite.integer_renders _).isUtf8 h.cstr

/-- A timestamp is valid UTF-8. -/
theorem isUtf8_currentTimestamp (now : UtcTime) : Bytes.IsUtf8 (currentTimestamp now) := by
  have htwo (n : ℕ) : Bytes.IsUtf8 (twoDigits n) := by
    unfold twoDigits
    split
    · exact .append (.utf8 _) (.decimal _)
    · exact .decimal _
  exact .flatten (by simp [htwo])

/-- Each method has the outcome of its handler, and any other method is an error. -/
theorem dispatchMethod_spec {e : Enforcement} {d : Db e} {method : Bytes}
    {get : Task e ResponseData} {post put delete : Task e Unit}
    {W : ResponseData → Db e → Prop} {A : Db e → Prop}
    (hget : method = utf8 "GET" → Outcome Exception.IsUtf8 d get W A)
    (hpost : method = utf8 "POST" → Outcome Exception.IsUtf8 d post (fun _ => W .empty) A)
    (hput : method = utf8 "PUT" → Outcome Exception.IsUtf8 d put (fun _ => W .empty) A)
    (hdelete : method = utf8 "DELETE" →
      Outcome Exception.IsUtf8 d delete (fun _ => W .empty) A) :
    Outcome Exception.IsUtf8 d (dispatchMethod component method get post put delete) W A :=
  Outcome.ite hget fun _ =>
    Outcome.ite (fun h => Outcome.bindPure (hpost h)) fun _ =>
      Outcome.ite (fun h => Outcome.bindPure (hput h)) fun _ =>
        Outcome.ite (fun h => Outcome.bindPure (hdelete h)) fun _ =>
          Outcome.throw ⟨.utf8 _, .utf8 _⟩

/-- An edit that succeeds is answered without data. -/
theorem exec_dispatchMethod_put {e : Enforcement} {method : Bytes} {get : Task e ResponseData}
    {post put delete : Task e Unit} {s s' : Session (Db e) Exception}
    (hmethod : method = utf8 "PUT") (h : put.exec s = (.ok (), s')) :
    (dispatchMethod component method get post put delete).exec s = (.ok .empty, s') := by
  subst hmethod
  exact (exec_bind _ _ s).trans (by rw [h]; rfl)

/-- A deletion that succeeds is answered without data. -/
theorem exec_dispatchMethod_delete {e : Enforcement} {method : Bytes}
    {get : Task e ResponseData} {post put delete : Task e Unit}
    {s s' : Session (Db e) Exception} (hmethod : method = utf8 "DELETE")
    (h : delete.exec s = (.ok (), s')) :
    (dispatchMethod component method get post put delete).exec s = (.ok .empty, s') := by
  subst hmethod
  exact (exec_bind _ _ s).trans (by rw [h]; rfl)

end Specifications

end SageStore
