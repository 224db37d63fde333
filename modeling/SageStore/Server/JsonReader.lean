import SageStore.Server.Http

/-!
# What the JSON library reads back

`Json.RoundTrips` says of a JSON library that it reads what it wrote. It holds of a reader
of the texts that `jsonObject` writes (`Json.arrays`): objects without blanks whose members are
arrays of strings.

The reader follows the writer. `readString` undoes `jsonString`; `readSequence` undoes the
writing of items with commas between them, for any reader of items; and `readMember` and
`readObject` are sequences of sequences.
-/

namespace SageStore

open Bytes

/-- The JSON library reads back the objects it writes, and their texts are not blank. -/
structure Json.RoundTrips (J : Json) : Prop where
  parse_dump : ∀ members t, (members.map Prod.fst).Pairwise (fun k k' => keyLE k k' ∧ k ≠ k') →
    J.dump members = some t →
    J.parse t = .object (members.map fun m => (m.1, .array (m.2.map .string)))
  dump_visible : ∀ members t, J.dump members = some t → ∃ b ∈ t, isSpace b = false

/-! ### Strings -/

/-- The digit of a number below sixteen, in lower case. -/
def hexDigit (n : ℕ) : UInt8 := UInt8.ofNat (if n < 10 then 48 + n else 87 + n)

/-- The number a hexadecimal digit in lower case denotes. -/
def hexValue (b : UInt8) : ℕ := if isDigit b then b.toNat - 48 else b.toNat - 87

/-- The byte that a backslash and another byte stand for. -/
def unescape (c : UInt8) : Option UInt8 :=
  if c = 34 then some 34
  else if c = 92 then some 92
  else if c = 98 then some 8
  else if c = 116 then some 9
  else if c = 110 then some 10
  else if c = 102 then some 12
  else if c = 114 then some 13
  else none

/-- A byte in front of what was read. -/
def putByte (b : UInt8) (p : Bytes × Bytes) : Bytes × Bytes := (b :: p.1, p.2)

/-- Read up to the closing quote. -/
def readChars : Bytes → Option (Bytes × Bytes)
  | 34 :: t => some ([], t)
  | 92 :: 117 :: 48 :: 48 :: h :: l :: t =>
    (readChars t).map (putByte (UInt8.ofNat (16 * hexValue h + hexValue l)))
  | 92 :: c :: t => (unescape c).bind fun b => (readChars t).map (putByte b)
  | b :: t => if b = 92 then none else (readChars t).map (putByte b)
  | [] => none

def readString : Bytes → Option (Bytes × Bytes)
  | 34 :: t => readChars t
  | _ => none

theorem toDigits_hexDigit : ∀ n < 16, utf8 (String.ofList (Nat.toDigits 16 n)) = [hexDigit n] := by
  decide

theorem hexValue_hexDigit : ∀ n < 16, hexValue (hexDigit n) = n := by
  decide

/-- Reading a byte as it is written. -/
theorem readChars_escape (b : UInt8) (t : Bytes) :
    readChars (jsonEscape b ++ t) = (readChars t).map (putByte b) := by
  unfold jsonEscape
  split
  · next h => subst h; rfl
  split
  · next h => subst h; rfl
  split
  · next h => subst h; rfl
  split
  · next h => subst h; rfl
  split
  · next h => subst h; rfl
  split
  · next h => subst h; rfl
  split
  · next h => subst h; rfl
  split
  · next h =>
    -- a control character is written with two digits
    have hhigh : b.toNat / 16 < 16 := by omega
    have hlow : b.toNat % 16 < 16 := by omega
    have hvalue : UInt8.ofNat (16 * (b.toNat / 16) + b.toNat % 16) = b := by
      rw [Nat.div_add_mod, UInt8.ofNat_toNat]
    rw [toDigits_hexDigit _ hhigh, toDigits_hexDigit _ hlow]
    show (readChars t).map (putByte (UInt8.ofNat
      (16 * hexValue (hexDigit (b.toNat / 16)) + hexValue (hexDigit (b.toNat % 16))))) = _
    rw [hexValue_hexDigit _ hhigh, hexValue_hexDigit _ hlow, hvalue]
  · next hquote hslash _ _ _ _ _ _ =>
    rw [List.singleton_append, readChars.eq_def]
    split <;> simp_all

/-- A string is read as it was written. -/
theorem readString_jsonString (s t : Bytes) : readString (jsonString s ++ t) = some (s, t) := by
  have hchars : readChars (s.flatMap jsonEscape ++ 34 :: t) = some (s, t) := by
    induction s with
    | nil => rfl
    | cons b s ih =>
      rw [List.flatMap_cons, List.append_assoc, readChars_escape, ih]
      rfl
  rw [jsonString, List.append_assoc, List.append_assoc]
  exact hchars

/-! ### Sequences -/

section Sequences

variable {α : Type} (item : Bytes → Option (α × Bytes)) (close : UInt8)

/-- Read items with commas between them, up to the closing byte. -/
def readItems : ℕ → Bytes → Option (List α × Bytes)
  | 0, _ => none
  | fuel + 1, t =>
    (item t).bind fun p =>
      match p.2 with
      | 44 :: t => (readItems fuel t).map fun q => (p.1 :: q.1, q.2)
      | b :: t => if b = close then some ([p.1], t) else none
      | [] => none

/-- Read items with commas between them, or none, up to the closing byte. -/
def readSequence : Bytes → Option (List α × Bytes)
  | b :: t => if b = close then some ([], t) else readItems item close (t.length + 1) (b :: t)
  | [] => none

variable {item close} {write : α → Bytes}

/-- Items are read as they were written. -/
theorem readItems_intercalate (hclose : close ≠ 44) {x : α} {xs : List α} {u : Bytes}
    (hitem : ∀ y ∈ x :: xs, ∀ u, item (write y ++ u) = some (y, u)) {fuel : ℕ}
    (hfuel : xs.length < fuel) :
    readItems item close fuel
      ((utf8 ",").intercalate ((x :: xs).map write) ++ close :: u) = some (x :: xs, u) := by
  induction xs generalizing x fuel with
  | nil =>
    -- the last item, and the closing byte behind it
    obtain ⟨fuel, rfl⟩ := Nat.exists_eq_succ_of_ne_zero (Nat.ne_of_gt hfuel)
    have hx := hitem x List.mem_cons_self (close :: u)
    rw [List.map_cons, List.map_nil, List.intercalate_singleton, readItems, hx]
    show (match close :: u with
      | 44 :: t => (readItems item close fuel t).map fun q => (x :: q.1, q.2)
      | b :: t => if b = close then some ([x], t) else none
      | [] => none) = some ([x], u)
    split
    · next heq => exact absurd (List.cons.inj heq).1 hclose
    · next heq =>
      obtain ⟨rfl, rfl⟩ := List.cons.inj heq
      exact if_pos rfl
    · next heq => cases heq
  | cons y xs ih =>
    obtain ⟨fuel, rfl⟩ := Nat.exists_eq_succ_of_ne_zero (Nat.ne_of_gt (Nat.zero_lt_of_lt hfuel))
    have hrest := ih (x := y) (fun z hz => hitem z (List.mem_cons_of_mem x hz))
      (Nat.lt_of_succ_lt_succ hfuel)
    have hx := hitem x List.mem_cons_self
      (44 :: ((utf8 ",").intercalate ((y :: xs).map write) ++ close :: u))
    -- an item, a comma, and the items that are left
    have hsplit : (utf8 ",").intercalate ((x :: y :: xs).map write) ++ close :: u =
        write x ++ 44 :: ((utf8 ",").intercalate ((y :: xs).map write) ++ close :: u) := by
      rw [List.map_cons, List.map_cons, List.intercalate_cons_cons, List.append_assoc,
        List.append_assoc]
      rfl
    rw [hsplit, readItems, hx]
    show (readItems item close fuel _).map (fun q => (x :: q.1, q.2)) = _
    rw [hrest]
    rfl

/-- A sequence is read as it was written. -/
theorem readSequence_intercalate (hclose : close ≠ 44) {xs : List α} {u : Bytes}
    (hitem : ∀ y ∈ xs, ∀ u, item (write y ++ u) = some (y, u))
    (hwrite : ∀ y ∈ xs, ∃ b t, write y = b :: t ∧ b ≠ close) :
    readSequence item close ((utf8 ",").intercalate (xs.map write) ++ close :: u) =
      some (xs, u) := by
  cases xs with
  | nil =>
    rw [List.map_nil, List.intercalate_nil, List.nil_append, readSequence, if_pos rfl]
  | cons x xs =>
    obtain ⟨b, t, hx, hb⟩ := hwrite x List.mem_cons_self
    -- there are no more items than bytes, so the fuel suffices
    have hlength : xs.length ≤ ((utf8 ",").intercalate ((x :: xs).map write)).length := by
      clear hitem hwrite hx
      induction xs generalizing x with
      | nil => simp
      | cons y xs ih =>
        have ih := ih y
        rw [List.map_cons, List.map_cons, List.intercalate_cons_cons, ← List.map_cons,
          List.length_append, List.length_append, List.length_cons]
        show xs.length + 1 ≤ (write x).length + 1 + _
        omega
    obtain ⟨rest, hrest⟩ : ∃ rest, (utf8 ",").intercalate ((x :: xs).map write) ++ close :: u =
        b :: rest := by
      cases xs with
      | nil => exact ⟨_, by rw [List.map_cons, List.map_nil, List.intercalate_singleton, hx]; rfl⟩
      | cons y xs =>
        exact ⟨_, by rw [List.map_cons, List.map_cons, List.intercalate_cons_cons, hx]; rfl⟩
    have hfuel : xs.length < rest.length + 1 := by
      have := congrArg List.length hrest
      rw [List.length_append, List.length_cons, List.length_cons] at this
      omega
    have hitems := readItems_intercalate (u := u) hclose hitem hfuel
    rw [hrest] at hitems ⊢
    rw [readSequence, if_neg hb]
    exact hitems

end Sequences

/-! ### Objects -/

/-- The member of an object, as `jsonObject` writes it. -/
def jsonMember (m : Bytes × List Bytes) : Bytes :=
  jsonString m.1 ++ utf8 ":[" ++ (utf8 ",").intercalate (m.2.map jsonString) ++ utf8 "]"

/-- Read a key and the array of strings behind it. -/
def readMember (t : Bytes) : Option ((Bytes × List Bytes) × Bytes) :=
  (readString t).bind fun p =>
    match p.2 with
    | 58 :: 91 :: t => (readSequence readString 93 t).map fun q => ((p.1, q.1), q.2)
    | _ => none

/-- Read an object that is the whole text. -/
def readObject : Bytes → Option (List (Bytes × List Bytes))
  | 123 :: t =>
    match readSequence readMember 125 t with
    | some (members, []) => some members
    | _ => none
  | _ => none

theorem jsonString_eq (s : Bytes) : ∃ t, jsonString s = 34 :: t :=
  ⟨s.flatMap jsonEscape ++ utf8 "\"", rfl⟩

/-- A member is read as it was written. -/
theorem readMember_jsonMember (m : Bytes × List Bytes) (t : Bytes) :
    readMember (jsonMember m ++ t) = some (m, t) := by
  have hcells : readSequence readString 93
      ((utf8 ",").intercalate (m.2.map jsonString) ++ 93 :: t) = some (m.2, t) :=
    readSequence_intercalate (by decide) (fun y _ => readString_jsonString y) fun y _ =>
      (jsonString_eq y).elim fun t ht => ⟨34, t, ht, by decide⟩
  have hsplit : jsonMember m ++ t = jsonString m.1 ++
      58 :: 91 :: ((utf8 ",").intercalate (m.2.map jsonString) ++ 93 :: t) := by
    simp only [jsonMember, List.append_assoc]
    rfl
  rw [hsplit, readMember, readString_jsonString]
  show (readSequence readString 93 _).map _ = _
  rw [hcells]
  rfl

/-- An object is read as it was written. -/
theorem readObject_jsonObject (members : List (Bytes × List Bytes)) :
    readObject (jsonObject members) = some members := by
  have hmembers : readSequence readMember 125
      ((utf8 ",").intercalate (members.map jsonMember) ++ [125]) = some (members, []) :=
    readSequence_intercalate (by decide) (fun m _ => readMember_jsonMember m) fun m _ =>
      (jsonString_eq m.1).elim fun t ht => ⟨34, _, by
        rw [jsonMember, ht]
        rfl, by decide⟩
  have hsplit : jsonObject members =
      123 :: ((utf8 ",").intercalate (members.map jsonMember) ++ [125]) := rfl
  rw [hsplit]
  show (match readSequence readMember 125 _ with
    | some (members, []) => some members
    | _ => none) = _
  rw [hmembers]

/-! ### The library -/

/-- A JSON library for objects whose members are arrays of strings: it writes them as the
server's library does, and reads the texts it writes. -/
def Json.arrays : Json where
  parse t :=
    match readObject t with
    | some members =>
      if ∀ m ∈ members, IsUtf8 m.1 ∧ ∀ c ∈ m.2, IsUtf8 c then
        .object (members.map fun m => (m.1, .array (m.2.map .string)))
      else .other
    | none => .other
  dump := Json.writer.dump
  parse_isUtf8 t members h key row hmem := by
    split at h
    · next read _ =>
      split at h
      · next hvalid =>
        obtain rfl := JsonDocument.object.inj h
        obtain ⟨m, hm, heq⟩ := List.mem_map.mp hmem
        obtain ⟨rfl, rfl⟩ := Prod.mk.inj heq
        -- a row of the document is a member that was read, and all of these were checked
        refine ⟨(hvalid m hm).1, fun cells hcells c hc => ?_⟩
        obtain rfl := JsonRow.array.inj hcells
        obtain ⟨c', hc', heq⟩ := List.mem_map.mp hc
        obtain rfl := JsonCell.string.inj heq
        exact (hvalid m hm).2 c' hc'
      · cases h
    · cases h
  dump_isSome := Json.writer.dump_isSome

theorem Json.arrays_roundTrips : Json.arrays.RoundTrips where
  parse_dump members t _ h := by
    have hdump : (if ∀ m ∈ members, IsUtf8 m.1 ∧ ∀ c ∈ m.2, IsUtf8 c then
        some (jsonObject members) else none) = some t := h
    split at hdump
    · next hvalid =>
      obtain rfl := Option.some.inj hdump
      -- what is written is valid, so the check of what is read passes
      show (match readObject (jsonObject members) with
        | some members => _
        | none => _) = _
      rw [readObject_jsonObject]
      exact if_pos hvalid
    · cases hdump
  dump_visible members t h := by
    have hdump : (if ∀ m ∈ members, IsUtf8 m.1 ∧ ∀ c ∈ m.2, IsUtf8 c then
        some (jsonObject members) else none) = some t := h
    split at hdump
    · obtain rfl := Option.some.inj hdump
      exact ⟨123, List.mem_cons_self, by decide⟩
    · cases hdump

end SageStore
