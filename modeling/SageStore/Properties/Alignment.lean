import Mathlib.Data.List.Sort
import SageStore.Client.ApiManager

/-!
# Rows of a reply

The decoder drops the elements of an array that are no strings, and the list handlers of the
client put together what stands at one position of the columns that are left. They compare the
lengths of the columns; so a reply from which columns lose as many elements, but at different
indexes, is read without an error, and its entities mix rows. An entity has the cells of one
index exactly if the arrays have their strings at the same indexes (`rows_aligned_iff`).
-/

namespace SageStore

open Bytes

/-! ### Documents -/

/-- The element is a string. -/
def JsonCell.isString : JsonCell → Bool
  | .string _ => true
  | .other => false

/-- The string, empty for another element. -/
def JsonCell.text : JsonCell → Bytes
  | .string t => t
  | .other => []

namespace JsonDocument

/-- The array under a key. If a key is repeated, its last array counts. -/
def array (doc : JsonDocument) (key : Bytes) : Option (List JsonCell) :=
  match doc with
  | .other => none
  | .object members => members.foldl (fun found m =>
      match m.2 with
      | .array cells => if m.1 = key then some cells else found
      | .other => found) none

/-- The elements of the array under a key, none if there is no array. -/
def cells (doc : JsonDocument) (key : String) : List JsonCell := (doc.array (utf8 key)).getD []

/-- A string stands at an index of the array under a key. -/
def HasString (doc : JsonDocument) (key : String) (j : ℕ) : Prop :=
  ∃ cell, (doc.cells key)[j]? = some cell ∧ cell.isString = true

/-- The index at which the `i`-th string of the array under a key stands. -/
def source (doc : JsonDocument) (key : String) (i : ℕ) : Option ℕ :=
  ((doc.cells key).findIdxs JsonCell.isString)[i]?

/-- The text at an index of the array under a key. -/
def textAt (doc : JsonDocument) (key : String) (j : ℕ) : Bytes :=
  (((doc.cells key)[j]?).map JsonCell.text).getD []

end JsonDocument

namespace JsonSerializer

/-- The document a text is read as. -/
def document (J : Json) (serializedData : Bytes) : JsonDocument :=
  if serializedData.all isSpace then .other else J.parse serializedData

/-- The strings of an array, as the elements that pass a test. -/
theorem strings_eq (cells : List JsonCell) :
    strings cells = (cells.filter JsonCell.isString).map JsonCell.text := by
  induction cells with
  | nil => rfl
  | cons cell cells ih =>
    cases cell with
    | string t =>
      rw [List.filter_cons_of_pos rfl, List.map_cons, ← ih]
      rfl
    | other =>
      rw [List.filter_cons_of_neg (by decide), ← ih]
      rfl

/-- The decoder keeps the strings of each array. -/
theorem lookup_deserialize (J : Json) (text key : Bytes) :
    (deserialize J text).lookup key = ((document J text).array key).map strings := by
  unfold deserialize document
  split
  · exact Finmap.lookup_empty key
  split
  · next hparse =>
    rw [hparse]
    exact Finmap.lookup_empty key
  · next members hparse =>
    rw [hparse]
    clear hparse
    -- what is decoded so far and the array found so far go together
    suffices h : ∀ (ds : Dataset) (found : Option (List JsonCell)),
        ds.lookup key = found.map strings →
          (members.foldl (fun dataset m =>
            match m.2 with
            | .array cells => dataset.insert m.1 (strings cells)
            | .other => dataset) ds).lookup key =
          (members.foldl (fun found m =>
            match m.2 with
            | .array cells => if m.1 = key then some cells else found
            | .other => found) found).map strings from
      h ∅ none (Finmap.lookup_empty key)
    induction members with
    | nil => exact fun _ _ h => h
    | cons m members ih =>
      intro ds found h
      obtain ⟨k, row⟩ := m
      cases row with
      | other => exact ih ds found h
      | array cells =>
        refine ih _ _ ?_
        change (ds.insert k (strings cells)).lookup key =
          (if k = key then some cells else found).map strings
        by_cases hk : k = key
        · subst hk
          rw [if_pos rfl, Option.map_some]
          exact Finmap.lookup_insert ds
        · rw [if_neg hk]
          exact (Finmap.lookup_insert_of_ne ds (Ne.symm hk)).trans h

/-- A column of a decoded document. -/
theorem column_deserialize (J : Json) (text : Bytes) (key : String) :
    column (deserialize J text) key =
      (((document J text).cells key).filter JsonCell.isString).map JsonCell.text := by
  rw [column, lookup_deserialize, JsonDocument.cells, ← strings_eq]
  cases (document J text).array (utf8 key) <;> rfl

/-- A key is read if the document has an array under it. -/
theorem mem_deserialize (J : Json) (text : Bytes) (key : String) :
    utf8 key ∈ deserialize J text ↔ (document J text).array (utf8 key) ≠ none := by
  rw [Finmap.mem_iff]
  simp only [lookup_deserialize]
  cases (document J text).array (utf8 key) <;> simp

end JsonSerializer

/-! ### Rows -/

open JsonSerializer

namespace JsonDocument

variable {doc : JsonDocument} {key : String}

/-- The indexes of the strings. -/
theorem mem_indexes {j : ℕ} :
    j ∈ (doc.cells key).findIdxs JsonCell.isString ↔ doc.HasString key j := by
  rw [List.mem_findIdxs_iff_exists_getElem_pos]
  constructor
  · rintro ⟨hlt, hstring⟩
    exact ⟨_, List.getElem?_eq_getElem hlt, hstring⟩
  · rintro ⟨cell, hcell, hstring⟩
    obtain ⟨hlt, rfl⟩ := List.getElem?_eq_some_iff.mp hcell
    exact ⟨hlt, hstring⟩

/-- Where the `i`-th string stands there is a string, and it is the `i`-th that is decoded. -/
theorem textAt_source {i j : ℕ} (h : doc.source key i = some j) :
    doc.HasString key j ∧
      (((doc.cells key).filter JsonCell.isString).map JsonCell.text)[i]? =
        some (doc.textAt key j) := by
  obtain ⟨hi, hj⟩ := List.getElem?_eq_some_iff.mp h
  have hstring : doc.HasString key j := mem_indexes.mp (hj ▸ List.getElem_mem hi)
  refine ⟨hstring, ?_⟩
  have hi' : i < ((doc.cells key).filter JsonCell.isString).length := by
    rwa [List.length_findIdxs, List.countP_eq_length_filter] at hi
  have hcell := List.getElem_filter_eq_getElem_getElem_findIdxs hi'
  obtain ⟨cell, hj', -⟩ := hstring
  rw [List.getElem?_map, List.getElem?_eq_getElem hi', hcell, textAt, hj']
  simp only [hj, (List.getElem?_eq_some_iff.mp hj').2]
  rfl

/-- The arrays under some keys have their strings at the same indexes. -/
def Aligned (doc : JsonDocument) (keys : List String) : Prop :=
  ∀ key ∈ keys, ∀ key' ∈ keys, ∀ j, doc.HasString key j ↔ doc.HasString key' j

/-- Two arrays that have as many strings have them at the same indexes if each string of one
stands where the string of the same number of the other does. -/
theorem sources_eq_iff {key' : String} :
    (doc.source key = doc.source key') ↔ ∀ j, doc.HasString key j ↔ doc.HasString key' j := by
  constructor
  · intro h j
    have hlist : (doc.cells key).findIdxs JsonCell.isString =
        (doc.cells key').findIdxs JsonCell.isString := List.ext_getElem? fun i => congrFun h i
    rw [← mem_indexes, ← mem_indexes, hlist]
  · intro h
    have hlist : (doc.cells key).findIdxs JsonCell.isString =
        (doc.cells key').findIdxs JsonCell.isString :=
      List.pairwise_findIdxs.eq_of_mem_iff List.pairwise_findIdxs fun j => by
        rw [mem_indexes, mem_indexes, h j]
    funext i
    rw [source, source, hlist]

end JsonDocument

/-- How many strings the array under a key has. -/
def JsonDocument.count (doc : JsonDocument) (key : String) : ℕ :=
  (doc.cells key).countP JsonCell.isString

/-- The text that an entity takes from the array under a key. -/
def JsonDocument.fieldText (doc : JsonDocument) (i : ℕ) (key : String) : Bytes :=
  ((doc.source key i).map (doc.textAt key)).getD []

/-- The handler finds an array under each of its keys, and as many strings in each. -/
structure ListHandler.Accepts {E : Type} (h : ListHandler E) (doc : JsonDocument) : Prop where
  present : ∀ key ∈ h.keys, doc.array (utf8 key) ≠ none
  sizes : ∀ key ∈ h.keys, doc.count key = doc.count "id"

section Entities

variable {E : Type} {h : ListHandler E} {J : Json} {text : Bytes}

/-- A column is as long as the strings in its array. -/
theorem length_column_deserialize (J : Json) (text : Bytes) (key : String) :
    (column (deserialize J text) key).length = (document J text).count key := by
  rw [column_deserialize, List.length_map, JsonDocument.count, List.countP_eq_length_filter]

/-- The `i`-th cell of a column is the text that stands at the source. -/
theorem column_getD_eq (J : Json) (text : Bytes) (key : String) (i : ℕ) :
    (column (deserialize J text) key).getD i [] = (document J text).fieldText i key := by
  rw [List.getD_eq_getElem?_getD, column_deserialize, JsonDocument.fieldText]
  match hsource : (document J text).source key i with
  | some j =>
    rw [(JsonDocument.textAt_source hsource).2]
    rfl
  | none =>
    have hlength := List.getElem?_eq_none_iff.mp hsource
    rw [List.length_findIdxs, List.countP_eq_length_filter] at hlength
    rw [List.getElem?_eq_none (by rwa [List.length_map])]
    rfl

/-- The entities of a document that the handler accepts. -/
theorem ListHandler.Accepts.entities_eq (hdoc : h.Accepts (document J text)) :
    h.entities (deserialize J text) = .ok ((List.range ((document J text).count "id")).map fun i =>
      h.make ((document J text).fieldText i)) := by
  have hpresent : ¬ ∃ key ∈ h.keys, utf8 key ∉ deserialize J text := by
    rintro ⟨key, hkey, hnot⟩
    exact hnot ((mem_deserialize J text key).mpr (hdoc.present key hkey))
  have hsizes : ¬ ∃ key ∈ h.keys, (column (deserialize J text) key).length ≠
      (column (deserialize J text) "id").length := by
    rintro ⟨key, hkey, hne⟩
    rw [length_column_deserialize, length_column_deserialize] at hne
    exact hne (hdoc.sizes key hkey)
  rw [ListHandler.entities, if_neg hpresent, if_neg hsizes, length_column_deserialize]
  simp only [column_getD_eq]

/-- Any other document is answered with an error. -/
theorem entities_of_not_accepts (hdoc : ¬ h.Accepts (document J text)) :
    ∃ message, h.entities (deserialize J text) = .error message := by
  unfold ListHandler.entities
  split
  · exact ⟨_, rfl⟩
  · next hpresent =>
    split
    · exact ⟨_, rfl⟩
    · next hsizes =>
      refine absurd ⟨fun key hkey hnone => ?_, fun key hkey => ?_⟩ hdoc
      · exact hpresent ⟨key, hkey, fun hmem => (mem_deserialize J text key).mp hmem hnone⟩
      · rw [← length_column_deserialize, ← length_column_deserialize]
        exact not_not.mp fun hne => hsizes ⟨key, hkey, hne⟩

/-- All entities have their cells from one index each exactly if the arrays are aligned. -/
theorem ListHandler.Accepts.aligned_iff {doc : JsonDocument} (hdoc : h.Accepts doc)
    (hid : "id" ∈ h.keys) :
    (∀ i < doc.count "id", ∃ j, ∀ key ∈ h.keys, doc.source key i = some j) ↔
      doc.Aligned h.keys := by
  have hlength (key : String) (hkey : key ∈ h.keys) :
      ((doc.cells key).findIdxs JsonCell.isString).length = doc.count "id" := by
    rw [List.length_findIdxs]
    exact hdoc.sizes key hkey
  constructor
  · intro hsources key hkey key' hkey'
    refine JsonDocument.sources_eq_iff.mp (funext fun i => ?_)
    by_cases hi : i < doc.count "id"
    · obtain ⟨j, hj⟩ := hsources i hi
      rw [hj key hkey, hj key' hkey']
    · -- there are no strings beyond the last
      have hnone (key : String) (hkey : key ∈ h.keys) : doc.source key i = none :=
        List.getElem?_eq_none (by rw [hlength key hkey]; exact Nat.le_of_not_lt hi)
      rw [hnone key hkey, hnone key' hkey']
  · intro haligned i hi
    have hid' : i < ((doc.cells "id").findIdxs JsonCell.isString).length := by rwa [hlength _ hid]
    refine ⟨((doc.cells "id").findIdxs JsonCell.isString)[i], fun key hkey => ?_⟩
    rw [JsonDocument.sources_eq_iff.mpr (haligned key hkey "id" hid)]
    exact List.getElem?_eq_getElem hid'

end Entities

namespace ApiManager

/-- Every list handler reads the identifiers. -/
theorem id_mem_keys (t : TableName) : "id" ∈ (listHandler t).keys := by
  cases t <;> exact List.mem_cons_self

/-- The signal tells the list that it carries. -/
theorem listSignal_injective (t : TableName) : Function.Injective (listSignal t) := by
  intro es es' h
  cases t <;> injection h

theorem listSignal_ne_errorOccurred (t : TableName) (es : List (Entity t)) (message : Bytes) :
    listSignal t es ≠ .errorOccurred message := by
  intro h
  cases t <;> cases h

/-- A reply with an error, or one that the handler does not accept, is reported. -/
theorem handleResponse_error {J : Json} {text : Bytes} {t : TableName}
    (h : errorMessage (deserialize J text) ≠ [] ∨ ¬ (listHandler t).Accepts (document J text)) :
    ∃ message, handleResponse t .get (deserialize J text) = some (.errorOccurred message) := by
  unfold handleResponse
  split
  · next hno =>
    obtain ⟨message, hmessage⟩ := entities_of_not_accepts (h.resolve_left fun hne => hne hno)
    exact ⟨message, by rw [handle, hmessage]⟩
  · exact ⟨_, rfl⟩

/-- Any other reply is listed. -/
theorem handleResponse_list {J : Json} {text : Bytes} {t : TableName}
    (herror : errorMessage (deserialize J text) = [])
    (h : (listHandler t).Accepts (document J text)) :
    handleResponse t .get (deserialize J text) =
      some (listSignal t ((List.range ((document J text).count "id")).map fun i =>
        (listHandler t).make ((document J text).fieldText i))) := by
  rw [handleResponse, if_pos herror, handle, h.entities_eq]

/-- **Rows and indexes.** Each field of an emitted entity is a text that stands in the document,
at the index of its source. A reply is answered with an error, or all fields of each emitted
entity have one index for their source, exactly if the reply carries an error, or lacks an
array, or has arrays with different numbers of strings, or has its strings at the same indexes
of all arrays that the handler reads. -/
theorem rows_aligned_iff (J : Json) (text : Bytes) (t : TableName) :
    (∀ es, handleResponse t .get (deserialize J text) = some (listSignal t es) →
      es = ((List.range es.length).map fun i =>
        (listHandler t).make ((document J text).fieldText i)) ∧
      ∀ i < es.length, ∀ key ∈ (listHandler t).keys, ((document J text).source key i).isSome) ∧
    (((∃ message, handleResponse t .get (deserialize J text) = some (.errorOccurred message)) ∨
      ∃ es, handleResponse t .get (deserialize J text) = some (listSignal t es) ∧
        ∀ i < es.length, ∃ j, ∀ key ∈ (listHandler t).keys,
          (document J text).source key i = some j) ↔
      (errorMessage (deserialize J text) ≠ [] ∨ ¬ (listHandler t).Accepts (document J text) ∨
        (document J text).Aligned (listHandler t).keys)) := by
  by_cases h : errorMessage (deserialize J text) ≠ [] ∨
      ¬ (listHandler t).Accepts (document J text)
  · -- an error is signalled, and no list
    obtain ⟨message, hmessage⟩ := handleResponse_error h
    refine ⟨fun es hes => ?_, iff_of_true (Or.inl ⟨message, hmessage⟩)
      (h.imp_right Or.inl)⟩
    rw [hmessage] at hes
    exact absurd (Option.some.inj hes).symm (listSignal_ne_errorOccurred t es message)
  · obtain ⟨herror, haccepts⟩ := not_or.mp h
    have herror := not_not.mp herror
    have haccepts := not_not.mp haccepts
    -- the one list that is signalled has as many entities as identifiers were read
    have hlist := handleResponse_list herror haccepts
    have hlength (es : List (Entity t))
        (hes : handleResponse t .get (deserialize J text) = some (listSignal t es)) :
        es = ((List.range ((document J text).count "id")).map fun i =>
          (listHandler t).make ((document J text).fieldText i)) ∧
        es.length = (document J text).count "id" := by
      have heq := listSignal_injective t (Option.some.inj (hes.symm.trans hlist))
      exact ⟨heq, by rw [heq, List.length_map, List.length_range]⟩
    have haligned := haccepts.aligned_iff (id_mem_keys t)
    refine ⟨fun es hes => ?_, ?_⟩
    · -- the columns have one size, so every index stands in every column
      obtain ⟨heq, hcount⟩ := hlength es hes
      rw [hcount]
      refine ⟨heq, fun i hi key hkey => ?_⟩
      have hindex : i < (((document J text).cells key).findIdxs JsonCell.isString).length := by
        rw [List.length_findIdxs]
        exact lt_of_lt_of_eq hi (haccepts.sizes key hkey).symm
      exact Option.isSome_iff_exists.mpr ⟨_, List.getElem?_eq_getElem hindex⟩
    · -- and its entities have one index each exactly if the columns are aligned
      constructor
      · rintro (⟨message, hmessage⟩ | ⟨es, hes, hsources⟩)
        · rw [hlist] at hmessage
          exact absurd (Option.some.inj hmessage) (listSignal_ne_errorOccurred t _ message)
        · rw [(hlength es hes).2] at hsources
          exact Or.inr (Or.inr (haligned.mp hsources))
      · rintro (hne | hnot | hall)
        · exact absurd herror hne
        · exact absurd haccepts hnot
        · refine Or.inr ⟨_, hlist, ?_⟩
          rw [List.length_map, List.length_range]
          exact haligned.mpr hall

end ApiManager

/-- Two roles; the name of the first is no string, and neither is the id of the second. -/
def shiftedRoles : List (Bytes × JsonRow) :=
  [(utf8 "id", .array [.string (utf8 "1"), .other]),
    (utf8 "name", .array [.other, .string (utf8 "admin")])]

/-- These roles as they are delivered. -/
def shiftedRolesText : Bytes := utf8 "\x7b\"id\":[\"1\",2],\"name\":[null,\"admin\"]\x7d"

/-- A library that reads this one text. -/
def Json.readsShiftedRoles : Json :=
  { Json.writer with
    parse := fun t => if t = shiftedRolesText then .object shiftedRoles else .other
    parse_isUtf8 := by
      intro t members h key row hmem
      split at h
      · obtain rfl := JsonDocument.object.inj h
        simp only [shiftedRoles, List.mem_cons, List.not_mem_nil, or_false, Prod.mk.injEq] at hmem
        rcases hmem with ⟨rfl, rfl⟩ | ⟨rfl, rfl⟩ <;>
          refine ⟨.utf8 _, fun cells hcells c hc => ?_⟩ <;>
          obtain rfl := JsonRow.array.inj hcells <;>
          simp only [List.mem_cons, List.not_mem_nil, or_false, reduceCtorEq, false_or,
            JsonCell.string.injEq] at hc <;> exact hc ▸ .utf8 _
      · cases h }

/-- The client takes these for one role, with the id of the first and the name of the second. -/
theorem shiftedRoles_mixed :
    ApiManager.handleResponse .role .get (deserialize .readsShiftedRoles shiftedRolesText) =
        some (.rolesList [⟨utf8 "1", utf8 "admin"⟩]) ∧
      (document .readsShiftedRoles shiftedRolesText).source "id" 0 = some 0 ∧
      (document .readsShiftedRoles shiftedRolesText).source "name" 0 = some 1 :=
  ⟨rfl, by decide +kernel, by decide +kernel⟩

end SageStore
