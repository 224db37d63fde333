import Mathlib.Algebra.Order.Field.Rat
import Mathlib.Algebra.Order.Group.Abs
import SageStore.Foundation.DecimalNumber

/-!
# What the client runs on

The client's texts are `QString`s; here they are bytes, and `QString::fromStdString` is the identity
on them. This assumes of every text that reaches the client that it is valid UTF-8 and does not
begin with a byte order mark: `fromStdString` decodes UTF-8, replaces what is none, and drops such a
mark. The replies of the server are encoded as JSON, which texts that are not valid UTF-8 cannot
be.

Conversions to integers are modelled; white space and letter case of Unicode, translations and
floating-point numbers are operations of a structure.
-/

namespace SageStore

open Bytes

/-- The operations of Qt that the client calls. -/
structure Qt where
  trimmed : Bytes → Bytes
  /-- Digits are no white space. -/
  trimmed_digits : ∀ t, isDigits t = true → trimmed t = t
  /-- `QString::compare` without regard to case finds no difference. -/
  equalsIgnoringCase : Bytes → Bytes → Bool
  /-- The translation of a source text. -/
  tr : String → Bytes
  Double : Type
  /-- The value of a text, `0.0` if it is no number. -/
  toDouble : Bytes → Double
  ofInt : ℤ → Double
  add : Double → Double → Double
  mul : Double → Double → Double
  /-- `QString::number` with two decimals. -/
  number : Double → Bytes

/-- `QString::toInt` with its flag, to base 10 and in the C locale, as documented: the text may have
white space around it and a sign in front, must be digits otherwise, and is no number if it does not
fit 32 bits. Of white space the documentation says no more than that; here it is that of ASCII. -/
def Qt.toInt? (t : Bytes) : Option ℤ :=
  let signed := splitSign (trim t)
  let value : ℤ := if signed.1 then -digitsValue signed.2 else digitsValue signed.2
  if isDigits signed.2 = true ∧ -2 ^ 31 ≤ value ∧ value < 2 ^ 31 then some value else none

/-- `QString::toInt`: `0`, as documented, for a text that is no such number. -/
def Qt.toInt (t : Bytes) : ℤ := (Qt.toInt? t).getD 0

/-! ### What Qt documents -/

/-- White space of Unicode, as `QChar::isSpace` knows it. -/
def Qt.isSpaceChar (c : Char) : Bool :=
  (9 ≤ c.toNat && c.toNat ≤ 13) || (0x2000 ≤ c.toNat && c.toNat ≤ 0x200A) ||
    c.toNat ∈ [0x20, 0x85, 0xA0, 0x1680, 0x2028, 0x2029, 0x202F, 0x205F, 0x3000]

/-- No white space stands at the ends of a text. -/
def Qt.IsTight (cs : List Char) : Prop :=
  cs.head?.all (fun c => !Qt.isSpaceChar c) = true ∧
    cs.getLast?.all (fun c => !Qt.isSpaceChar c) = true

instance (cs : List Char) : Decidable (Qt.IsTight cs) :=
  inferInstanceAs (Decidable (_ ∧ _))

/-- An ASCII letter whose only case variant is the other ASCII letter. The others are K, which
the Kelvin sign folds to, and S, which the long s folds to. -/
def Qt.isPlainLetter (b : UInt8) : Bool :=
  97 ≤ (toLower b).toNat && (toLower b).toNat ≤ 122 && toLower b ≠ 107 && toLower b ≠ 115

/-- The documented behaviour of `QString::trimmed` and of `QString::compare` without regard to
case, as far as ASCII decides it. -/
structure Qt.Documented (qt : Qt) : Prop where
  /-- White space is removed from both ends. -/
  trimmed_pad : ∀ l t r, (∀ b ∈ l, isSpace b = true) → (∀ b ∈ r, isSpace b = true) →
    qt.trimmed (l ++ (t ++ r)) = qt.trimmed t
  /-- Nothing else is removed. -/
  trimmed_tight : ∀ cs, Qt.IsTight cs → qt.trimmed (cs.flatMap String.utf8EncodeChar) =
    cs.flatMap String.utf8EncodeChar
  equalsIgnoringCase_iff : ∀ t u, u.all Qt.isPlainLetter = true →
    (qt.equalsIgnoringCase t u = true ↔ t.map toLower = u.map toLower)

/-- A literal with ASCII white space around it is trimmed to the literal. -/
theorem Qt.Documented.trimmed_of_trim {qt : Qt} (h : qt.Documented) {t : Bytes} {s : String}
    (ht : trim t = utf8 s) (hs : Qt.IsTight s.toList) : qt.trimmed t = utf8 s := by
  obtain ⟨l, r, hl, hr, heq⟩ := exists_trim t
  rw [heq, h.trimmed_pad l _ r hl hr, ht]
  exact h.trimmed_tight s.toList hs

/-! ### A concrete Qt -/

/-- The value of digits with at most one point among them, `0` for another text. -/
def decimalValue (t : Bytes) : ℚ :=
  let whole := t.takeWhile isDigit
  match t.drop whole.length with
  | 46 :: fraction =>
    if isDigits (whole ++ fraction) then digitsValue (whole ++ fraction) / 10 ^ fraction.length
    else 0
  | _ => if isDigits t then digitsValue t else 0

/-- A number rounded to two decimals. -/
def twoDecimals (x : ℚ) : Bytes :=
  let cents := (|x| * 100 + 1 / 2).floor.natAbs
  (if x < 0 then utf8 "-" else []) ++ decimal (cents / 100) ++ utf8 "." ++
    decimal (cents / 10 % 10) ++ decimal (cents % 10)

/-- Qt on ASCII texts, in the language of the source, with exact numbers for the floating-point
numbers. -/
def Qt.plain : Qt where
  trimmed := trim
  trimmed_digits _ := trim_of_isDigits
  equalsIgnoringCase s t := s.map toLower = t.map toLower
  tr := utf8
  Double := ℚ
  toDouble := decimalValue
  ofInt n := n
  add := (· + ·)
  mul := (· * ·)
  number := twoDecimals

/-- No byte of a character that is no white space is white space. -/
theorem Qt.isSpace_of_isSpaceChar {c : Char} (h : Qt.isSpaceChar c = false) :
    ∀ b ∈ String.utf8EncodeChar c, isSpace b = false := by
  intro b hb
  by_cases hascii : c.val.toNat ≤ 127
  · -- an ASCII character is its own byte
    have henc : String.utf8EncodeChar c = [UInt8.ofNat c.val.toNat] := by
      unfold String.utf8EncodeChar
      simp only [if_pos hascii]
    rw [henc] at hb
    obtain rfl := List.mem_singleton.mp hb
    have hval : (UInt8.ofNat c.val.toNat).toNat = c.toNat := by
      rw [UInt8.toNat_ofNat']
      exact Nat.mod_eq_of_lt (by omega)
    simp only [isSpaceChar, List.mem_cons, Bool.or_eq_false_iff, decide_eq_false_iff_not,
      not_or] at h
    rw [isSpace, hval, Bool.or_eq_false_iff]
    exact ⟨decide_eq_false h.2.1, h.1.1⟩
  · -- the bytes of the others are above the white space of ASCII
    have hge : 128 ≤ b.toNat := utf8EncodeChar_ge (by omega) b hb
    simp only [isSpace, Bool.or_eq_false_iff, Bool.and_eq_false_iff, decide_eq_false_iff_not]
    omega

theorem Qt.plain_documented : Qt.plain.Documented where
  trimmed_pad l t r hl hr := trim_pad hl hr
  trimmed_tight cs h := by
    refine trim_eq_self (fun b hb => ?_) fun b hb => ?_
    · -- the first byte is one of the first character
      cases cs with
      | nil => cases hb
      | cons c cs =>
        have hc : Qt.isSpaceChar c = false := Bool.not_eq_true' _ ▸ h.1
        refine Qt.isSpace_of_isSpaceChar hc b ?_
        rw [List.flatMap_cons, List.head?_append_of_ne_nil _ (utf8EncodeChar_ne_nil c)] at hb
        exact List.mem_of_mem_head? hb
    · cases cs using List.reverseRecOn with
      | nil => cases hb
      | append_singleton cs c =>
        have hlast := h.2
        rw [List.getLast?_concat] at hlast
        have hc : Qt.isSpaceChar c = false := Bool.not_eq_true' _ ▸ hlast
        refine Qt.isSpace_of_isSpaceChar hc b ?_
        rw [List.flatMap_append, List.flatMap_singleton,
          List.getLast?_append_of_ne_nil _ (utf8EncodeChar_ne_nil c)] at hb
        exact List.mem_of_mem_getLast? hb
  equalsIgnoringCase_iff t u _ := decide_eq_true_iff

/-! ### Exact numbers -/

/-- The value of an exponent. -/
def exponentValue : Bytes → ℤ
  | [] => 0
  | _ :: t => if (splitSign t).1 then -digitsValue (splitSign t).2 else digitsValue (splitSign t).2

/-- The number that a finite decimal number denotes. -/
def numberValue (t : Bytes) : ℚ :=
  let body := (splitSign t).2
  let mantissa := mantissaLength isDigit body
  let value := decimalValue (body.take mantissa) * 10 ^ exponentValue (body.drop mantissa)
  if (splitSign t).1 then -value else value

/-- Floating-point numbers are taken for the numbers they stand for: `value` says which, and
no operation rounds. -/
structure Qt.Exact (qt : Qt) (value : qt.Double → ℚ) : Prop where
  toDouble : ∀ t, IsDecimalNumber t → value (qt.toDouble t) = numberValue t
  ofInt : ∀ n, value (qt.ofInt n) = n
  add : ∀ x y, value (qt.add x y) = value x + value y
  mul : ∀ x y, value (qt.mul x y) = value x * value y

/-- `Qt.plain`, with signs and exponents of numbers. -/
def Qt.exact : Qt := { Qt.plain with toDouble := numberValue }

theorem Qt.exact_exact : Qt.exact.Exact (fun x : ℚ => x) where
  toDouble _ _ := rfl
  ofInt _ := rfl
  add _ _ := rfl
  mul _ _ := rfl

/-- A numeral is read as its number if that fits 32 bits, and as `0` if it does not. -/
theorem Qt.toInt_decimal (n : ℕ) : Qt.toInt (decimal n) = if n < 2 ^ 31 then (n : ℤ) else 0 := by
  have hdigits := isDigits_decimal n
  have hsign : splitSign (decimal n) = (false, decimal n) := splitSign_of_isDigits hdigits
  unfold toInt toInt?
  simp only [trim_of_isDigits hdigits, hsign, digitsValue_decimal, hdigits, Bool.false_eq_true,
    if_false, true_and]
  by_cases hlt : n < 2 ^ 31
  · rw [if_pos hlt, if_pos ⟨by omega, by omega⟩]
    rfl
  · rw [if_neg hlt, if_neg (by omega)]
    rfl

example : numberValue (utf8 "-1.5e2") = -150 := by decide +kernel

example : Qt.plain.number (Qt.plain.mul (Qt.plain.toDouble (utf8 "10.99")) (Qt.plain.ofInt 3)) =
    utf8 "32.97" := by decide +kernel

end SageStore
