import SageStore.Foundation.Numerals
import SageStore.Foundation.Table

/-!
# What the server runs on

The server stands on code that is not part of the repository: SQLite, the floating-point
unit and its text conversions. Each is a structure of the operations the server calls,
with the documented behaviour the proofs rely on as fields.

SQLite converts a text bound to a column by the column's affinity. Columns declared
`INTEGER` have integer affinity, `DATETIME` and `BOOLEAN` numeric affinity and `FLOAT` real
affinity; `VARCHAR` and `TEXT` columns keep the text.
-/

namespace SageStore

open Bytes

/-- `u` is the text `t`, or the rendering of a number. -/
def Renders (t u : Bytes) : Prop := u = t ∨ ∀ b ∈ u, b.toNat < 128

/-- A number's text is valid UTF-8 if the text that it was given by is. -/
theorem Renders.isUtf8 {t u : Bytes} (h : Renders t u) (ht : IsUtf8 t) : IsUtf8 u := by
  rcases h with rfl | h
  · exact ht
  · exact .of_ascii h

/-- Column affinities: the value a bound text is stored as, and compared as, in an integer
column, and the text that columns of numeric and real affinity give back for it. -/
structure Sqlite where
  integer : Bytes → Cell
  numeric : Bytes → Bytes
  real : Bytes → Bytes
  /-- A bound text is never NULL. -/
  integer_ne_null : ∀ t, integer t ≠ .null
  /-- A string of digits that fits 64 signed bits is the integer it denotes. -/
  integer_digits : ∀ t, isDigits t = true → digitsValue t < 2 ^ 63 →
    integer t = .int (digitsValue t)
  integer_renders : ∀ t, Renders t (integer t).toText
  numeric_renders : ∀ t, Renders t (numeric t)
  real_renders : ∀ t, Renders t (real t)

/-- Floating-point numbers, as far as the server computes with them. -/
structure Doubles where
  Double : Type
  /-- The value of a numeral, if it is in range. -/
  ofNumeral : Bytes → Option Double
  /-- Conversion of an integer. -/
  ofInt : ℤ → Double
  add : Double → Double → Double
  sub : Double → Double → Double
  mul : Double → Double → Double
  div : Double → Double → Double
  le : Double → Double → Bool
  /-- `std::to_string`. -/
  toText : Double → Bytes
  toText_ascii : ∀ x, ∀ b ∈ toText x, b.toNat < 128

/-- What the server runs on. -/
structure Platform where
  sqlite : Sqlite
  doubles : Doubles

/-- `std::stod`: the value of the numeral at the start of a text. -/
def Doubles.stod (d : Doubles) (t : Bytes) : Option d.Double :=
  (floatPrefix (cstr t)).bind d.ofNumeral

/-! ### A concrete platform -/

/-- SQLite on the texts the server's own clients send: strings of digits are integers, and
every other text stays a text. -/
def Sqlite.digits : Sqlite where
  integer t := if isDigits t then .int (digitsValue t) else .text t
  numeric t := t
  real t := t
  integer_ne_null t := by split <;> simp
  integer_digits t h _ := if_pos h
  integer_renders t := by
    split
    · exact Or.inr (ofInt_ascii _)
    · exact Or.inl rfl
  numeric_renders _ := Or.inl rfl
  real_renders _ := Or.inl rfl

/-- Integers in the place of floating-point numbers: enough wherever no fraction occurs. -/
def Doubles.integers : Doubles where
  Double := ℤ
  ofNumeral t := some (digitsValue (t.takeWhile isDigit))
  ofInt n := n
  add := (· + ·)
  sub := (· - ·)
  mul := (· * ·)
  div := (· / ·)
  le x y := x ≤ y
  toText := Bytes.ofInt
  toText_ascii := Bytes.ofInt_ascii

/-- The platform on which the runs of this development are evaluated. -/
def Platform.plain : Platform := ⟨.digits, .integers⟩

end SageStore
