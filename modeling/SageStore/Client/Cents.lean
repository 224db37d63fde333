import Mathlib.Data.Rat.Floor
import Mathlib.Tactic.Linarith
import SageStore.Client.Qt

/-!
# Numbers with two decimals

`QString::number` with two decimals writes the nearest whole number of cents (`centsText`). The
text of a number of cents denotes it (`numberValue_centsText`), and what is shown of another
number is off by up to half a cent (`Qt.RoundsToCents`): it denotes the number exactly if that is
a whole number of cents (`Qt.RoundsToCents.numberValue_number_iff`).
-/

namespace SageStore

open Bytes

/-! ### Texts -/

/-- A number of cents, as a price with two decimals. -/
def centsText (cents : ℕ) : Bytes :=
  decimal (cents / 100) ++ utf8 "." ++ decimal (cents / 10 % 10) ++ decimal (cents % 10)

theorem decimal_of_lt_ten {d : ℕ} (h : d < 10) : decimal d = [UInt8.ofNat (48 + d)] := by
  interval_cases d <;> decide

theorem digitsValue_append_decimal (t : Bytes) {d : ℕ} (h : d < 10) :
    digitsValue (t ++ decimal d) = 10 * digitsValue t + d := by
  rw [decimal_of_lt_ten h, digitsValue, List.foldl_append, List.foldl_cons, List.foldl_nil]
  have hdigit : (UInt8.ofNat (48 + d)).toNat = 48 + d := by
    rw [UInt8.toNat_ofNat']
    omega
  rw [hdigit, digitsValue]
  omega

theorem isDigits_append_decimal {t : Bytes} (h : ∀ b ∈ t, isDigit b = true) (n : ℕ) :
    isDigits (t ++ decimal n) = true := by
  obtain ⟨hne, hall⟩ := isDigits_iff.mp (isDigits_decimal n)
  refine isDigits_iff.mpr ⟨List.append_ne_nil_of_right_ne_nil _ hne, fun b hb => ?_⟩
  rcases List.mem_append.mp hb with hb | hb
  · exact h b hb
  · exact hall b hb

/-- The two digits after the point. -/
def fractionText (c : ℕ) : Bytes := decimal (c / 10 % 10) ++ decimal (c % 10)

/-- An amount is printed as its whole part, a point and two digits. -/
theorem centsText_eq (c : ℕ) : centsText c = decimal (c / 100) ++ 46 :: fractionText c := by
  have hpoint : utf8 "." = [46] := by decide
  rw [centsText, hpoint, List.append_assoc, List.append_assoc]
  rfl

/-- Without the point, the digits are those of the number of cents. -/
theorem digits_centsText (c : ℕ) :
    isDigits (decimal (c / 100) ++ fractionText c) = true ∧
      digitsValue (decimal (c / 100) ++ fractionText c) = c := by
  have hwhole := (isDigits_iff.mp (isDigits_decimal (c / 100))).2
  have htens := (isDigits_iff.mp (isDigits_append_decimal hwhole (c / 10 % 10))).2
  rw [fractionText, ← List.append_assoc]
  refine ⟨isDigits_append_decimal htens _, ?_⟩
  rw [digitsValue_append_decimal _ (Nat.mod_lt _ (by decide)),
    digitsValue_append_decimal _ (Nat.mod_lt _ (by decide)), digitsValue_decimal]
  omega

theorem length_fractionText (c : ℕ) : (fractionText c).length = 2 := by
  rw [fractionText, decimal_of_lt_ten (Nat.mod_lt _ (by decide)),
    decimal_of_lt_ten (Nat.mod_lt _ (by decide))]
  rfl

theorem isMantissa_centsText (c : ℕ) : IsMantissa (centsText c) :=
  centsText_eq c ▸ .point (digits_centsText c).1

theorem isDecimalNumber_centsText (c : ℕ) : IsDecimalNumber (centsText c) := by
  have h := IsDecimalNumber.mk .none (isMantissa_centsText c) .none
  rwa [List.nil_append, List.append_nil] at h

/-- A printed amount reads as the amount. -/
theorem decimalValue_centsText (c : ℕ) : decimalValue (centsText c) = c / 100 := by
  have hwhole := (isDigits_iff.mp (isDigits_decimal (c / 100))).2
  have htake : (centsText c).takeWhile isDigit = decimal (c / 100) := by
    rw [centsText_eq, List.takeWhile_append_of_pos hwhole, List.takeWhile_cons_of_neg (by decide),
      List.append_nil]
  have hdrop : (centsText c).drop (decimal (c / 100)).length = 46 :: fractionText c := by
    rw [centsText_eq, List.drop_left]
  unfold decimalValue
  simp only [htake, hdrop]
  rw [if_pos (digits_centsText c).1, (digits_centsText c).2, length_fractionText]
  norm_num

/-- A price in cents has no sign. -/
theorem splitSign_centsText (c : ℕ) : splitSign (centsText c) = (false, centsText c) := by
  obtain ⟨hne, hall⟩ := isDigits_iff.mp (isDigits_decimal (c / 100))
  rw [centsText_eq]
  generalize decimal (c / 100) = whole at hne hall
  cases whole with
  | nil => exact absurd rfl hne
  | cons b whole =>
    have hb := hall b List.mem_cons_self
    rw [List.cons_append]
    unfold splitSign
    split
    · next h => rw [(List.cons.inj h).1] at hb; exact absurd hb (by decide)
    · next h => rw [(List.cons.inj h).1] at hb; exact absurd hb (by decide)
    · rfl

/-- The text of a price in cents denotes it. -/
theorem numberValue_centsText (c : ℕ) : numberValue (centsText c) = c / 100 := by
  have hlength : mantissaLength isDigit (centsText c) = (centsText c).length := by
    have h := (isMantissa_centsText c).mantissaLength_append .none
    rwa [List.append_nil] at h
  unfold numberValue
  simp only [splitSign_centsText, hlength, List.take_length, List.drop_length,
    decimalValue_centsText, exponentValue, zpow_zero, mul_one]
  rfl

/-- Different amounts are printed differently. -/
theorem centsText_injective : Function.Injective centsText := by
  intro c d h
  have hvalue := congrArg numberValue h
  rw [numberValue_centsText, numberValue_centsText] at hvalue
  have hcast : (c : ℚ) = d := by linarith
  exact_mod_cast hcast

/-! ### Rounding -/

/-- The nearest number of cents, the larger one if two are nearest. -/
def nearestCents (v : ℚ) : ℕ := (v * 100 + 1 / 2).floor.natAbs

/-- A number is printed as its nearest cents. -/
theorem twoDecimals_of_nonneg {v : ℚ} (h : 0 ≤ v) :
    twoDecimals v = centsText (nearestCents v) := by
  rw [twoDecimals, if_neg (not_lt.mpr h), abs_of_nonneg h]
  rfl

/-- The nearest cents are half a cent away at most. -/
theorem abs_sub_nearestCents {v : ℚ} (h : 0 ≤ v) : |v * 100 - nearestCents v| ≤ 1 / 2 := by
  have hfloor : (0 : ℤ) ≤ ⌊v * 100 + 1 / 2⌋ := Int.floor_nonneg.mpr (by linarith)
  have hcents : (nearestCents v : ℤ) = ⌊v * 100 + 1 / 2⌋ := Int.natAbs_of_nonneg hfloor
  have hcast : (nearestCents v : ℚ) = (⌊v * 100 + 1 / 2⌋ : ℤ) := by
    rw [← hcents, Int.cast_natCast]
  have hle := Int.floor_le (v * 100 + 1 / 2)
  have hlt := Int.lt_floor_add_one (v * 100 + 1 / 2)
  rw [hcast, abs_le]
  constructor <;> linarith

/-- A number without a fraction of a cent. -/
def IsCents (x : ℚ) : Prop := ∃ c : ℤ, x * 100 = c

/-- `QString::number` with two decimals writes a decimal number, which is a number of cents that
is nearest to the one it is given. -/
def Qt.RoundsToCents (qt : Qt) (value : qt.Double → ℚ) : Prop :=
  ∀ x, IsDecimalNumber (qt.number x) ∧
    ∃ c : ℤ, numberValue (qt.number x) * 100 = c ∧ |value x * 100 - c| ≤ 1 / 2

/-- Whole numbers that are less than one apart are the same. -/
theorem eq_of_abs_sub_lt {m n : ℤ} (h : |(m : ℚ) - n| < 1) : m = n := by
  rw [← Int.cast_sub, ← Int.cast_abs] at h
  have hlt : |m - n| < 1 := by exact_mod_cast h
  exact sub_eq_zero.mp (Int.abs_lt_one_iff.mp hlt)

/-- What is shown of a number denotes it, exactly if it has no fraction of a cent. -/
theorem Qt.RoundsToCents.numberValue_number_iff {qt : Qt} {value : qt.Double → ℚ}
    (h : qt.RoundsToCents value) (x : qt.Double) :
    numberValue (qt.number x) = value x ↔ IsCents (value x) := by
  obtain ⟨-, c, hc, hnear⟩ := h x
  constructor
  · exact fun hshown => ⟨c, by rw [← hshown, hc]⟩
  · rintro ⟨m, hm⟩
    have hlt : |(m : ℚ) - c| < 1 := by
      rw [← hm]
      linarith
    have heq : numberValue (qt.number x) * 100 = value x * 100 := by
      rw [hc, hm, eq_of_abs_sub_lt hlt]
    linarith

/-- A number with two decimals is a number of cents behind its sign. -/
theorem twoDecimals_eq (x : ℚ) :
    twoDecimals x = (if x < 0 then utf8 "-" else []) ++ centsText (nearestCents |x|) := by
  simp only [twoDecimals, centsText, nearestCents, List.append_assoc]

theorem isDecimalNumber_neg_centsText (c : ℕ) : IsDecimalNumber (utf8 "-" ++ centsText c) := by
  have h := IsDecimalNumber.mk .minus (isMantissa_centsText c) .none
  rwa [List.append_nil] at h

theorem numberValue_neg_centsText (c : ℕ) : numberValue (utf8 "-" ++ centsText c) = -(c / 100) := by
  rw [← numberValue_centsText]
  have hsign : splitSign (utf8 "-" ++ centsText c) = (true, centsText c) := rfl
  unfold numberValue
  simp only [hsign, splitSign_centsText]
  rfl

/-- `Qt.exact` rounds to cents. -/
theorem Qt.exact_roundsToCents : Qt.exact.RoundsToCents (fun x : ℚ => x) := by
  intro (x : ℚ)
  change IsDecimalNumber (twoDecimals x) ∧
    ∃ c : ℤ, numberValue (twoDecimals x) * 100 = c ∧ |x * 100 - c| ≤ 1 / 2
  have hnear := abs_sub_nearestCents (abs_nonneg x)
  rw [twoDecimals_eq]
  by_cases hneg : x < 0
  · rw [if_pos hneg, numberValue_neg_centsText]
    refine ⟨isDecimalNumber_neg_centsText _, -nearestCents |x|, ?_, ?_⟩
    · push_cast
      ring
    · rw [abs_of_neg hneg, ← abs_neg] at hnear
      rw [abs_of_neg hneg]
      refine le_trans (le_of_eq (congrArg abs ?_)) hnear
      push_cast
      ring
  · rw [if_neg hneg, List.nil_append, numberValue_centsText]
    refine ⟨isDecimalNumber_centsText _, nearestCents |x|, ?_, ?_⟩
    · push_cast
      ring
    · rw [abs_of_nonneg (le_of_not_gt hneg)] at hnear ⊢
      exact_mod_cast hnear

end SageStore
