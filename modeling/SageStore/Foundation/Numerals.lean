import SageStore.Foundation.Text
import SageStore.Foundation.Cells

/-!
# Reading numbers from text

The conversions of the C++ standard library, on byte strings in the C locale. Each skips
leading white space, takes the longest prefix that is a numeral, and fails when there is
none or when the number does not fit; it does not look at what follows the numeral.

Floating-point numerals are only recognised here (`floatPrefix`). The number a recognised
numeral denotes is left to whoever supplies the floating-point numbers.
-/

namespace Bytes

/-- White space of the C locale. -/
def isSpace (b : UInt8) : Bool := b.toNat = 32 || (9 ≤ b.toNat && b.toNat ≤ 13)

/-- A text without the white space around it. -/
def trim (t : Bytes) : Bytes := (t.dropWhile isSpace).rdropWhile isSpace

/-- What is trimmed off a text is white space. -/
theorem exists_trim (t : Bytes) : ∃ l r, (∀ b ∈ l, isSpace b = true) ∧
    (∀ b ∈ r, isSpace b = true) ∧ t = l ++ (trim t ++ r) :=
  Cells.exists_strip isSpace t

/-- A text that begins and ends with no white space is trimmed to itself. -/
theorem trim_eq_self {t : Bytes} (hhead : ∀ b ∈ t.head?, isSpace b = false)
    (hlast : ∀ b ∈ t.getLast?, isSpace b = false) : trim t = t :=
  Cells.strip_eq_self hhead hlast

/-- White space around a text does not change what it is trimmed to. -/
theorem trim_pad {l t r : Bytes} (hl : ∀ b ∈ l, isSpace b = true)
    (hr : ∀ b ∈ r, isSpace b = true) : trim (l ++ (t ++ r)) = trim t :=
  Cells.strip_pad hl hr

/-- Lower-case an ASCII letter. -/
def toLower (b : UInt8) : UInt8 := if 65 ≤ b.toNat && b.toNat ≤ 90 then b + 32 else b

/-- Split off a leading sign; `true` is minus. -/
def splitSign : Bytes → Bool × Bytes
  | 45 :: t => (true, t)
  | 43 :: t => (false, t)
  | t => (false, t)

/-! ### Integers -/

/-- The sign and magnitude of the longest integer numeral at the start of `t`. -/
def scanInteger (t : Bytes) : Option (Bool × ℕ) :=
  let signed := splitSign (t.dropWhile isSpace)
  let digits := signed.2.takeWhile isDigit
  if digits.isEmpty then none else some (signed.1, digitsValue digits)

/-- `std::stoull`. A minus sign wraps around, as in `strtoull`. -/
def stoull (t : Bytes) : Option ℕ :=
  match scanInteger t with
  | some (negative, n) =>
    if n < 2 ^ 64 then some (if negative then (2 ^ 64 - n) % 2 ^ 64 else n) else none
  | none => none

/-- `std::stoll`. -/
def stoll (t : Bytes) : Option ℤ :=
  match scanInteger t with
  | some (negative, n) =>
    let value : ℤ := if negative then -n else n
    if -2 ^ 63 ≤ value ∧ value < 2 ^ 63 then some value else none
  | none => none

theorem not_isSpace_of_isDigit {b : UInt8} (h : isDigit b = true) : isSpace b = false := by
  simp only [isDigit, Bool.and_eq_true, decide_eq_true_eq] at h
  simp only [isSpace, Bool.or_eq_false_iff, Bool.and_eq_false_iff, decide_eq_false_iff_not]
  omega

/-- There is no white space around digits. -/
theorem trim_of_isDigits {t : Bytes} (h : isDigits t = true) : trim t = t := by
  have hall : ∀ b ∈ t, isSpace b = false := fun b hb =>
    not_isSpace_of_isDigit ((isDigits_iff.mp h).2 b hb)
  have hdrop : t.dropWhile isSpace = t := by
    rw [List.dropWhile_eq_self_iff]
    intro hpos
    simp [hall _ (List.getElem_mem hpos)]
  rw [trim, hdrop, List.rdropWhile_eq_self_iff]
  intro hne
  simp [hall _ (List.getLast_mem hne)]

/-- A string of digits has no sign. -/
theorem splitSign_of_isDigits {t : Bytes} (h : isDigits t = true) : splitSign t = (false, t) := by
  have hall := (isDigits_iff.mp h).2
  unfold splitSign
  split
  · exact absurd (hall 45 List.mem_cons_self) (by decide)
  · exact absurd (hall 43 List.mem_cons_self) (by decide)
  · rfl

/-- A string of digits is a numeral as a whole. -/
theorem scanInteger_of_isDigits {t : Bytes} (h : isDigits t = true) :
    scanInteger t = some (false, digitsValue t) := by
  obtain ⟨hne, hall⟩ := Bool.and_eq_true_iff.mp h
  match t, hne, hall with
  | b :: t, _, hall =>
    -- the first byte is a digit, so it is neither white space nor a sign
    have hb : isDigit b = true := (Bool.and_eq_true_iff.mp hall).1
    have hspace : isSpace b = false := not_isSpace_of_isDigit hb
    have hdrop : (b :: t).dropWhile isSpace = b :: t :=
      List.dropWhile_cons_of_neg (by simp [hspace])
    have htake : (b :: t).takeWhile isDigit = b :: t :=
      List.takeWhile_eq_self_iff.mpr (List.all_eq_true.mp hall)
    simp [scanInteger, hdrop, splitSign_of_isDigits h, htake]

/-- On digits `std::stoull` reads the number, if it is in range. -/
theorem stoull_of_isDigits {t : Bytes} (h : isDigits t = true) :
    stoull t = if digitsValue t < 2 ^ 64 then some (digitsValue t) else none := by
  rw [stoull, scanInteger_of_isDigits h]
  rfl

/-- On digits `std::stoll` reads the number, if it is in range. -/
theorem stoll_of_isDigits {t : Bytes} (h : isDigits t = true) :
    stoll t = if digitsValue t < 2 ^ 63 then some (digitsValue t : ℤ) else none := by
  rw [stoll, scanInteger_of_isDigits h]
  have : (-2 ^ 63 ≤ (digitsValue t : ℤ) ∧ (digitsValue t : ℤ) < 2 ^ 63) ↔
      digitsValue t < 2 ^ 63 := by
    omega
  simp only [Bool.false_eq_true, if_false, this]

/-! ### Floating-point numerals -/

/-- A hexadecimal digit. -/
def isHexDigit (b : UInt8) : Bool :=
  isDigit b || (97 ≤ (toLower b).toNat && (toLower b).toNat ≤ 102)

/-- The length of digits with at most one point among them; `0` if there is no digit. -/
def mantissaLength (digit : UInt8 → Bool) (t : Bytes) : ℕ :=
  let whole := (t.takeWhile digit).length
  match t.drop whole with
  | 46 :: rest =>
    -- a point alone is no numeral
    let fraction := (rest.takeWhile digit).length
    if whole + fraction = 0 then 0 else whole + 1 + fraction
  | _ => whole

/-- The length of an exponent introduced by `mark`; `0` if it has no digit. -/
def exponentLength (mark : UInt8) : Bytes → ℕ
  | b :: t =>
    if toLower b = mark then
      let digits := ((splitSign t).2.takeWhile isDigit).length
      if digits = 0 then 0 else 1 + (t.length - (splitSign t).2.length) + digits
    else 0
  | [] => 0

/-- The length of the parenthesised part a `nan` may carry; `0` if it is not closed. -/
def nanSuffixLength : Bytes → ℕ
  | 40 :: t =>
    let word := (t.takeWhile fun b => isDigit b || b = 95 ||
      (97 ≤ (toLower b).toNat && (toLower b).toNat ≤ 122)).length
    if (t.drop word).head? = some 41 then word + 2 else 0
  | _ => 0

/-- The length of the longest unsigned floating-point numeral at the start of `t`. -/
def floatLength (t : Bytes) : ℕ :=
  let lower := t.map toLower
  if utf8 "infinity" <+: lower then 8
  else if utf8 "inf" <+: lower then 3
  else if utf8 "nan" <+: lower then 3 + nanSuffixLength (t.drop 3)
  else if utf8 "0x" <+: lower ∧ mantissaLength isHexDigit (t.drop 2) ≠ 0 then
    -- without hexadecimal digits behind it, `0x` is read as the numeral `0`
    let mantissa := mantissaLength isHexDigit (t.drop 2)
    2 + mantissa + exponentLength 112 (t.drop (2 + mantissa))
  else
    let mantissa := mantissaLength isDigit t
    if mantissa = 0 then 0 else mantissa + exponentLength 101 (t.drop mantissa)

/-- The longest floating-point numeral at the start of `t`, after white space, as `strtod`
takes it: decimal or hexadecimal, an infinity or a NaN, with an optional sign. -/
def floatPrefix (t : Bytes) : Option Bytes :=
  let numeral := t.dropWhile isSpace
  let body := (splitSign numeral).2
  if floatLength body = 0 then none
  else some (numeral.take (numeral.length - body.length + floatLength body))

example : floatPrefix (utf8 " -1.5e+3kg") = some (utf8 "-1.5e+3") := by decide

end Bytes
