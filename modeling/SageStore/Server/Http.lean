import Mathlib.Data.Finset.Sort
import Mathlib.Data.List.Lex
import SageStore.Server.Steps

/-!
# Requests over HTTP

`HttpTransaction` splits the target of a request into segments, decodes the body, has
`BusinessLogic` execute the task, and encodes the reply. The encoding happens in the
callback of `executeTask`, outside every `try`, so an exception it throws leaves the loop
that serves the connections (`HttpOutcome.escaped`).

The JSON library is a parameter: which document a text is parsed as, and which text an
object is written as, if any. Of documents the server looks at the strings in the arrays
that are the members of an object, and at nothing else.
-/

namespace SageStore

open Bytes BusinessLogic

variable {e : Enforcement}

/-! ### JSON -/

/-- An element of an array. -/
inductive JsonCell where
  | string (t : Bytes)
  | other

/-- The value of a member of an object. -/
inductive JsonRow where
  | array (cells : List JsonCell)
  | other

/-- What a text is parsed as; `other` is any document but an object, and no document. -/
inductive JsonDocument where
  | object (members : List (Bytes × JsonRow))
  | other

/-- The JSON library. -/
structure Json where
  parse : Bytes → JsonDocument
  /-- The text of the object whose members are arrays of strings, or an exception. -/
  dump : List (Bytes × List Bytes) → Option Bytes
  /-- A text that is not valid UTF-8 is no document. -/
  parse_isUtf8 : ∀ t members, parse t = .object members → ∀ key row, (key, row) ∈ members →
    IsUtf8 key ∧ ∀ cells, row = .array cells → ∀ c, .string c ∈ cells → IsUtf8 c
  /-- Strings are written exactly if they are valid UTF-8. -/
  dump_isSome : ∀ members, (dump members).isSome ↔
    ∀ m ∈ members, IsUtf8 m.1 ∧ ∀ c ∈ m.2, IsUtf8 c

/-- A byte of a string, as it is written. -/
def jsonEscape (b : UInt8) : Bytes :=
  if b = 34 then "\\\""
  else if b = 92 then "\\\\"
  else if b = 8 then "\\b"
  else if b = 9 then "\\t"
  else if b = 10 then "\\n"
  else if b = 12 then "\\f"
  else if b = 13 then "\\r"
  else if b.toNat < 32 then
    utf8 "\\u00" ++ utf8 (String.ofList (Nat.toDigits 16 (b.toNat / 16))) ++
      utf8 (String.ofList (Nat.toDigits 16 (b.toNat % 16)))
  else [b]

def jsonString (t : Bytes) : Bytes := utf8 "\"" ++ t.flatMap jsonEscape ++ utf8 "\""

/-- An object whose members are arrays of strings, as it is written. -/
def jsonObject (members : List (Bytes × List Bytes)) : Bytes :=
  let member (m : Bytes × List Bytes) : Bytes := jsonString m.1 ++ utf8 ":[" ++
    (utf8 ",").intercalate (m.2.map jsonString) ++ utf8 "]"
  utf8 "\x7b" ++ (utf8 ",").intercalate (members.map member) ++ utf8 "\x7d"

/-- A JSON library that writes objects as the server's does and reads no document: enough for
requests without a body. -/
def Json.writer : Json where
  parse _ := .other
  dump members :=
    if ∀ m ∈ members, IsUtf8 m.1 ∧ ∀ c ∈ m.2, IsUtf8 c then some (jsonObject members) else none
  parse_isUtf8 _ _ h := by cases h
  dump_isSome members := by
    split
    · next h => exact iff_of_true rfl h
    · next h => exact iff_of_false (by simp) h

/-- The order of the keys of an object: byte by byte. -/
def keyLE (k k' : Bytes) : Prop := k.map UInt8.toNat ≤ k'.map UInt8.toNat

instance (k k' : Bytes) : Decidable (keyLE k k') :=
  inferInstanceAs (Decidable (k.map UInt8.toNat ≤ k'.map UInt8.toNat))

instance : IsTrans Bytes keyLE := ⟨fun _ _ _ h h' => le_trans (α := List ℕ) h h'⟩

instance : Std.Total keyLE := ⟨fun _ _ => le_total (α := List ℕ) _ _⟩

instance : Std.Antisymm keyLE where
  antisymm _ _ h h' :=
    List.map_injective_iff.mpr (fun _ _ => UInt8.toNat_inj.mp) (le_antisymm (α := List ℕ) h h')

namespace JsonSerializer

/-- `JsonSerializer::serialize`: an object with one member for each column, and the object
without members for the empty dataset. -/
def serialize (J : Json) (dataset : Dataset) : Option Bytes :=
  J.dump ((dataset.keys.sort keyLE).map fun key => (key, (dataset.lookup key).getD []))

/-- The strings of an array; other elements are skipped. -/
def strings (cells : List JsonCell) : List Bytes :=
  cells.filterMap fun cell =>
    match cell with
    | .string t => some t
    | .other => none

/-- `JsonSerializer::deserialize`. -/
def deserialize (J : Json) (serializedData : Bytes) : Dataset :=
  if serializedData.all isSpace then ∅
  else
    match J.parse serializedData with
    | .other => ∅
    | .object members =>
      members.foldl (fun dataset m =>
        match m.2 with
        | .array cells => dataset.insert m.1 (strings cells)
        | .other => dataset) ∅

/-- What is decoded is valid UTF-8. -/
theorem isUtf8_deserialize (J : Json) (t : Bytes) : (deserialize J t).IsUtf8 := by
  unfold deserialize
  split
  · exact Dataset.isUtf8_empty
  split
  · exact Dataset.isUtf8_empty
  · next members hparse =>
    have hvalid := J.parse_isUtf8 t members hparse
    clear hparse
    -- the fold starts at any valid dataset, for the induction over the members
    suffices h : ∀ ds : Dataset, ds.IsUtf8 → (members.foldl (fun dataset m =>
        match m.2 with
        | .array cells => dataset.insert m.1 (strings cells)
        | .other => dataset) ds).IsUtf8 from
      h ∅ Dataset.isUtf8_empty
    induction members with
    | nil => exact fun ds hds => hds
    | cons m members ih =>
      intro ds hds
      have ih := ih fun key row hmem => hvalid key row (List.mem_cons_of_mem m hmem)
      obtain ⟨key, row⟩ := m
      obtain ⟨hkey, hcells⟩ := hvalid key row List.mem_cons_self
      refine ih _ ?_
      cases row with
      | other => exact hds
      | array cells =>
        intro key' texts hl
        -- a repeated key overwrites what its first occurrence stored
        by_cases hk : key' = key
        · subst hk
          obtain rfl : strings cells = texts := by simpa using hl
          refine ⟨hkey, fun c hc => hcells cells rfl c ?_⟩
          obtain ⟨cell, hcell, hsome⟩ := List.mem_filterMap.mp hc
          cases cell with
          | string t => exact Option.some.inj hsome ▸ hcell
          | other => cases hsome
        · exact hds key' texts (by simpa [Finmap.lookup_insert_of_ne, hk] using hl)

/-- A dataset can be encoded exactly if it is valid UTF-8. -/
theorem serialize_isSome (J : Json) (ds : Dataset) : (serialize J ds).isSome ↔ ds.IsUtf8 := by
  unfold serialize
  rw [J.dump_isSome]
  constructor
  · intro h key texts hl
    have hkey : key ∈ ds.keys := Finmap.mem_keys.mpr (Finmap.mem_of_lookup_eq_some hl)
    have := h (key, (ds.lookup key).getD []) (List.mem_map_of_mem ((Finset.mem_sort _).mpr hkey))
    rwa [hl] at this
  · intro h m hm
    obtain ⟨key, hkey, rfl⟩ := List.mem_map.mp hm
    obtain ⟨texts, hl⟩ := Finmap.mem_iff.mp (Finmap.mem_keys.mp ((Finset.mem_sort _).mp hkey))
    simpa [hl] using h key texts hl

end JsonSerializer

/-! ### Transactions -/

/-- A request as the HTTP parser admits it: no control character and no blank is in the
target. -/
structure HttpRequest where
  method : Bytes
  target : Bytes
  body : Bytes
  target_visible : ∀ b ∈ target, 32 < b.toNat ∧ b.toNat ≠ 127

/-- How the handling of a request ends: nothing is sent; an exception leaves the handler; or
a response is handed to the socket. -/
inductive HttpOutcome where
  | dropped
  | escaped
  | response (body : Bytes)
deriving DecidableEq

namespace HttpTransaction

def parseEndpoint (endpoint : Bytes) : List Bytes :=
  (endpoint.splitOn 47).filter fun segment => segment ≠ []

/-- The segments hold bytes of the endpoint only. -/
theorem mem_of_mem_parseEndpoint {endpoint segment : Bytes} {b : UInt8}
    (h : segment ∈ parseEndpoint endpoint) (hb : b ∈ segment) : b ∈ endpoint := by
  replace h : segment ∈ endpoint.splitOnP (· == 47) := List.mem_of_mem_filter h
  induction endpoint generalizing segment with
  | nil =>
    obtain rfl := List.mem_singleton.mp h
    exact hb
  | cons c endpoint ih =>
    rw [List.splitOnP_cons_eq_if_modifyHead] at h
    split at h
    -- at a slash a new segment begins; any other byte joins the first segment
    · rcases List.mem_cons.mp h with rfl | h
      · exact absurd hb List.not_mem_nil
      · exact List.mem_cons_of_mem c (ih hb h)
    · cases hsplit : endpoint.splitOnP (· == 47) with
      | nil => exact absurd hsplit (List.splitOnP_ne_nil _ _)
      | cons first rest =>
        rw [hsplit] at h ih
        rcases List.mem_cons.mp h with rfl | h
        · exact (List.mem_cons.mp hb).elim (fun heq => heq ▸ List.mem_cons_self) fun hb =>
            List.mem_cons_of_mem c (ih hb List.mem_cons_self)
        · exact List.mem_cons_of_mem c (ih hb (List.mem_cons_of_mem first h))

/-- The `RequestData` of a request with these segments. -/
def requestData (J : Json) (r : HttpRequest) (module submodule : Bytes) (rest : List Bytes) :
    RequestData where
  module := module
  submodule := submodule
  method := r.method
  resourceId := rest.headD []
  dataset := if r.body.all isSpace then ∅ else JsonSerializer.deserialize J r.body

def doResponse (J : Json) (data : ResponseData) : HttpOutcome :=
  match JsonSerializer.serialize J data.dataset with
  | some body => .response body
  | none => .escaped

def handleRequest (p : Platform) (J : Json) (now : UtcTime) (r : HttpRequest)
    (s : Session (Db e) Exception) : HttpOutcome × Session (Db e) Exception :=
  match parseEndpoint r.target with
  | root :: module :: submodule :: rest =>
    if root ≠ utf8 "api" then (.dropped, s)
    else
      -- the callback that sends the reply runs last, after the request has had its effect
      let (responseData, s') := executeTask p now (requestData J r module submodule rest) s
      (doResponse J responseData, s')
  | _ => (.dropped, s)

theorem isUtf8_requestData (J : Json) (r : HttpRequest) (module submodule : Bytes)
    (rest : List Bytes) : (requestData J r module submodule rest).dataset.IsUtf8 := by
  unfold requestData
  dsimp only
  split
  · exact Dataset.isUtf8_empty
  · exact JsonSerializer.isUtf8_deserialize J _

/-- A request to the API is executed, and its reply is sent. -/
theorem handleRequest_api {p : Platform} {J : Json} {r : HttpRequest}
    {module submodule : Bytes} {rest : List Bytes}
    (h : parseEndpoint r.target = utf8 "api" :: module :: submodule :: rest) (now : UtcTime)
    (s : Session (Db e) Exception) : handleRequest p J now r s =
      (doResponse J (executeTask p now (requestData J r module submodule rest) s).1,
        (executeTask p now (requestData J r module submodule rest) s).2) := by
  unfold handleRequest
  rw [h]
  exact if_neg (not_not.mpr rfl)

/-- A request leaves the session alone, or executes a task with valid texts. -/
theorem handleRequest_cases (p : Platform) (J : Json) (now : UtcTime) (r : HttpRequest)
    (s : Session (Db e) Exception) : (handleRequest p J now r s).2 = s ∨
      ∃ req : RequestData, req.dataset.IsUtf8 ∧
        (handleRequest p J now r s).2 = (executeTask p now req s).2 := by
  unfold handleRequest
  split
  · split
    · exact Or.inl rfl
    · exact Or.inr ⟨_, isUtf8_requestData J r _ _ _, rfl⟩
  · exact Or.inl rfl

/-- A reply is sent exactly if it is valid UTF-8; else the exception escapes. -/
theorem doResponse_eq_response (J : Json) (data : ResponseData) :
    (∃ body, doResponse J data = .response body) ↔ data.dataset.IsUtf8 := by
  rw [← JsonSerializer.serialize_isSome J]
  unfold doResponse
  cases JsonSerializer.serialize J data.dataset <;> simp

end HttpTransaction

/-- A request over HTTP, the time it is executed at, and the calls that fail. -/
structure HttpEvent where
  now : UtcTime
  request : HttpRequest
  faults : List (Option Exception)

/-- The server behind its HTTP front. -/
def httpServer (p : Platform) (J : Json) (e : Enforcement) :
    Machine (Session (Db e) Exception) HttpEvent HttpOutcome where
  init := ⟨seed e, none, []⟩
  step s ev := HttpTransaction.handleRequest p J ev.now ev.request { s with faults := ev.faults }

end SageStore
