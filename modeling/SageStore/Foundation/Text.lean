import Mathlib.Data.Nat.Digits.Defs
import Mathlib.Data.Nat.Digits.Lemmas
import Mathlib.Data.List.TakeWhile

/-!
# Byte strings

A text is the list of its bytes, as a C++ `std::string` is. String literals are read as
their UTF-8 encoding (`utf8`), so that a literal of the source and the text it is compared
with live in one type.

Three notions recur:

* `cstr` — what a NUL-terminated reader sees of a text: the bytes before the first NUL;
* `isDigits`, `digitsValue`, `decimal` — unsigned decimal numerals, and the canonical one;
* `IsUtf8` — being the encoding of some list of characters. The canonical numerals and
  every NUL-truncation of a UTF-8 text are UTF-8 (`IsUtf8.decimal`, `IsUtf8.cstr`).
-/

/-- A text, as the list of its bytes. -/
abbrev Bytes := List UInt8

/-- The UTF-8 encoding of a string literal. -/
def utf8 (s : String) : Bytes := s.toList.flatMap String.utf8EncodeChar

instance : Coe String Bytes := ⟨utf8⟩

/-- Different strings have different encodings. -/
theorem utf8_injective : Function.Injective utf8 := by
  intro a b h
  have henc (s : String) : (utf8 s).toByteArray = s.toByteArray := String.utf8Encode_toList
  exact String.toByteArray_inj.mp (by rw [← henc a, ← henc b, h])

namespace Bytes

/-- Two texts up to the first separator, and what follows it. -/
theorem append_cons_inj {α : Type*} {c : α} {t t' r r' : List α} (ht : c ∉ t) (ht' : c ∉ t') :
    t ++ c :: r = t' ++ c :: r' ↔ t = t' ∧ r = r' := by
  refine ⟨fun h => ?_, fun h => by rw [h.1, h.2]⟩
  induction t generalizing t' with
  | nil =>
    cases t' with
    | nil => exact ⟨rfl, (List.cons.inj h).2⟩
    | cons b t' => exact absurd (List.cons.inj h).1 fun heq => ht' (heq ▸ List.mem_cons_self)
  | cons a t ih =>
    cases t' with
    | nil => exact absurd (List.cons.inj h).1.symm fun heq => ht (heq ▸ List.mem_cons_self)
    | cons b t' =>
      obtain ⟨rfl, hrest⟩ := List.cons.inj h
      obtain ⟨rfl, rfl⟩ := ih (fun hc => ht (List.mem_cons_of_mem a hc))
        (fun hc => ht' (List.mem_cons_of_mem a hc)) hrest
      exact ⟨rfl, rfl⟩

/-! ### NUL-terminated reading -/

/-- What a NUL-terminated reader sees of `t`: the bytes before its first NUL. -/
def cstr (t : Bytes) : Bytes := t.takeWhile (· ≠ 0)

@[simp] theorem cstr_nil : cstr [] = [] := rfl

theorem zero_notMem_cstr (t : Bytes) : (0 : UInt8) ∉ cstr t := by
  intro h
  simpa using List.mem_takeWhile_imp h

/-- A text without NUL is read whole. -/
theorem cstr_eq_self {t : Bytes} (h : (0 : UInt8) ∉ t) : cstr t = t :=
  List.takeWhile_eq_self_iff.mpr fun b hb => by
    simpa using fun h0 : b = 0 => h (h0 ▸ hb)

/-- A text is read whole exactly when it holds no NUL. -/
theorem cstr_eq_self_iff {t : Bytes} : cstr t = t ↔ (0 : UInt8) ∉ t :=
  ⟨fun h => h ▸ zero_notMem_cstr t, cstr_eq_self⟩

@[simp] theorem cstr_cstr (t : Bytes) : cstr (cstr t) = cstr t :=
  cstr_eq_self (zero_notMem_cstr t)

/-- The text before the first NUL runs on through a part without NUL. -/
theorem cstr_append_of_notMem {t : Bytes} (h : (0 : UInt8) ∉ t) (u : Bytes) :
    cstr (t ++ u) = t ++ cstr u := by
  induction t with
  | nil => rfl
  | cons b t ih =>
    have hb : b ≠ 0 := fun h0 => h (h0 ▸ List.mem_cons_self)
    rw [List.cons_append, cstr, List.takeWhile_cons_of_pos (by simpa using hb), List.cons_append]
    exact congrArg _ (ih fun h' => h (List.mem_cons_of_mem b h'))

/-! ### Decimal numerals -/

/-- A byte is an ASCII digit. -/
def isDigit (b : UInt8) : Bool := 48 ≤ b.toNat && b.toNat ≤ 57

/-- A text is a nonempty string of ASCII digits. -/
def isDigits (t : Bytes) : Bool := !t.isEmpty && t.all isDigit

theorem ne_nil_of_isDigits {t : Bytes} (h : isDigits t = true) : t ≠ [] := by
  rintro rfl
  cases h

/-- The number a string of digits denotes, leading zeros allowed. -/
def digitsValue (t : Bytes) : ℕ := t.foldl (fun n b => 10 * n + (b.toNat - 48)) 0

/-- The canonical decimal numeral of `n`. -/
def decimal (n : ℕ) : Bytes :=
  if n = 0 then [48] else (Nat.digits 10 n).reverse.map fun d => UInt8.ofNat (48 + d)

/-- The numeral of an integer, with a minus sign if it is negative. -/
def ofInt (n : ℤ) : Bytes := if n < 0 then 45 :: decimal n.natAbs else decimal n.natAbs

@[simp] theorem ofInt_natCast (n : ℕ) : ofInt n = decimal n := by
  rw [ofInt, if_neg (by omega), Int.natAbs_natCast]

private theorem toNat_digit {d : ℕ} (h : d < 10) : (UInt8.ofNat (48 + d)).toNat = 48 + d := by
  rw [UInt8.toNat_ofNat']
  exact Nat.mod_eq_of_lt (by omega)

private theorem foldl_digits (ds : List ℕ) (h : ∀ d ∈ ds, d < 10) :
    ((ds.reverse.map fun d => UInt8.ofNat (48 + d)).foldl
      (fun n b => 10 * n + (b.toNat - 48)) 0) = Nat.ofDigits 10 ds := by
  -- the list starts at the last digit, which the reader meets at the end
  induction ds with
  | nil => rfl
  | cons d ds ih =>
    have hd : d < 10 := h d List.mem_cons_self
    rw [List.reverse_cons, List.map_append, List.foldl_append,
      ih fun d' hd' => h d' (List.mem_cons_of_mem d hd')]
    simp only [List.map_cons, List.map_nil, List.foldl_cons, List.foldl_nil, toNat_digit hd,
      Nat.ofDigits_cons]
    omega

/-- A canonical numeral denotes its number. -/
@[simp] theorem digitsValue_decimal (n : ℕ) : digitsValue (decimal n) = n := by
  unfold decimal
  split
  · next h => subst h; rfl
  · rw [digitsValue, foldl_digits _ fun d hd => Nat.digits_lt_base (by norm_num) hd,
      Nat.ofDigits_digits]

/-- Different numbers have different numerals. -/
theorem decimal_injective : Function.Injective decimal :=
  Function.LeftInverse.injective digitsValue_decimal

@[simp] theorem decimal_inj {m n : ℕ} : decimal m = decimal n ↔ m = n :=
  decimal_injective.eq_iff

/-- Every byte of a canonical numeral is an ASCII digit. -/
theorem isDigit_of_mem_decimal {n : ℕ} {b : UInt8} (h : b ∈ decimal n) : isDigit b = true := by
  unfold decimal at h
  split at h
  · obtain rfl : b = 48 := by simpa using h
    rfl
  · obtain ⟨d, hd, rfl⟩ := List.mem_map.mp h
    have hlt : d < 10 := Nat.digits_lt_base (by norm_num) (List.mem_reverse.mp hd)
    simp only [isDigit, toNat_digit hlt, Bool.and_eq_true, decide_eq_true_eq]
    omega

/-- The numerals of different integers differ. -/
theorem ofInt_injective : Function.Injective ofInt := by
  -- a canonical numeral does not begin with a minus sign
  have hminus (m n : ℕ) : (45 : UInt8) :: decimal m ≠ decimal n := by
    intro h
    have hdigit : isDigit 45 = true := isDigit_of_mem_decimal (n := n) (h ▸ List.mem_cons_self)
    exact absurd hdigit (by decide)
  intro m n h
  simp only [ofInt] at h
  split_ifs at h with hm hn hn
  · have habs := decimal_injective (List.cons.inj h).2
    omega
  · exact absurd h (hminus _ _)
  · exact absurd h.symm (hminus _ _)
  · have habs := decimal_injective h
    omega

/-- A numeral is ASCII. -/
theorem ofInt_ascii (n : ℤ) : ∀ b ∈ ofInt n, b.toNat < 128 := by
  have hdigit (m : ℕ) : ∀ b ∈ decimal m, b.toNat < 128 := by
    intro b hb
    have := isDigit_of_mem_decimal hb
    simp only [isDigit, Bool.and_eq_true, decide_eq_true_eq] at this
    omega
  intro b hb
  rw [ofInt] at hb
  split at hb
  · rcases List.mem_cons.mp hb with rfl | hb
    · decide
    · exact hdigit _ b hb
  · exact hdigit _ b hb

theorem decimal_ne_nil (n : ℕ) : decimal n ≠ [] := by
  unfold decimal
  split
  · simp
  · next h => simpa [Nat.digits_eq_nil_iff_eq_zero] using h

theorem ofInt_ne_nil (n : ℤ) : ofInt n ≠ [] := by
  rw [ofInt]
  split
  · exact List.cons_ne_nil _ _
  · exact decimal_ne_nil _

@[simp] theorem isDigits_decimal (n : ℕ) : isDigits (decimal n) = true := by
  simp only [isDigits, Bool.and_eq_true, Bool.not_eq_true', List.isEmpty_eq_false_iff,
    List.all_eq_true]
  exact ⟨decimal_ne_nil n, fun b hb => isDigit_of_mem_decimal hb⟩

/-- A numeral is a text of digits that is not empty. -/
theorem isDigits_iff {t : Bytes} : isDigits t = true ↔ t ≠ [] ∧ ∀ b ∈ t, isDigit b = true := by
  rw [isDigits, Bool.and_eq_true, List.all_eq_true]
  simp

/-- A string of digits denotes zero exactly when all its digits are zeros. -/
theorem digitsValue_eq_zero_iff {t : Bytes} (h : isDigits t = true) :
    digitsValue t = 0 ↔ ∀ b ∈ t, b = 48 := by
  have hall : ∀ b ∈ t, isDigit b = true := List.all_eq_true.mp (Bool.and_eq_true_iff.mp h).2
  clear h
  -- the reader's accumulator starts at zero, and any number it has reached is kept
  suffices hfold : ∀ n, t.foldl (fun n b => 10 * n + (b.toNat - 48)) n = 0 ↔
      n = 0 ∧ ∀ b ∈ t, b = 48 from (hfold 0).trans (and_iff_right rfl)
  induction t with
  | nil => simp
  | cons b t ih =>
    intro n
    have hb : 48 ≤ b.toNat := by
      have := hall b List.mem_cons_self
      simp only [isDigit, Bool.and_eq_true, decide_eq_true_eq] at this
      exact this.1
    have hzero : b.toNat - 48 = 0 ↔ b = 48 := by
      rw [← UInt8.toNat_inj]
      show _ ↔ b.toNat = 48
      omega
    have hsum : 10 * n + (b.toNat - 48) = 0 ↔ n = 0 ∧ b.toNat - 48 = 0 := by omega
    rw [List.foldl_cons, ih fun b' hb' => hall b' (List.mem_cons_of_mem b hb'),
      List.forall_mem_cons, hsum, hzero, and_assoc]

/-- A string of digits holds no NUL, so it is read whole. -/
theorem cstr_of_isDigits {t : Bytes} (h : isDigits t = true) : cstr t = t := by
  refine cstr_eq_self fun h0 => ?_
  have hall := List.all_eq_true.mp (Bool.and_eq_true_iff.mp h).2 0 h0
  simp [isDigit] at hall

@[simp] theorem cstr_decimal (n : ℕ) : cstr (decimal n) = decimal n :=
  cstr_of_isDigits (isDigits_decimal n)

/-! ### UTF-8 -/

/-- A text is valid UTF-8: the encoding of some list of characters. -/
def IsUtf8 (t : Bytes) : Prop := ∃ cs : List Char, t = cs.flatMap String.utf8EncodeChar

@[simp] theorem IsUtf8.nil : IsUtf8 [] := ⟨[], rfl⟩

@[simp] theorem IsUtf8.utf8 (s : String) : IsUtf8 (utf8 s) := ⟨s.toList, rfl⟩

/-- Valid texts are concatenated to valid texts. -/
theorem IsUtf8.append {t u : Bytes} : IsUtf8 t → IsUtf8 u → IsUtf8 (t ++ u) := by
  rintro ⟨cs, rfl⟩ ⟨ds, rfl⟩
  exact ⟨cs ++ ds, by rw [List.flatMap_append]⟩

theorem IsUtf8.flatten {ts : List Bytes} (h : ∀ t ∈ ts, IsUtf8 t) : IsUtf8 ts.flatten := by
  induction ts with
  | nil => exact .nil
  | cons t ts ih =>
    exact (h t List.mem_cons_self).append (ih fun u hu => h u (List.mem_cons_of_mem t hu))

theorem toNat_charOfNat {n : ℕ} (h : n < 128) : (Char.ofNat n).toNat = n := by
  rw [Char.ofNat, dif_pos (Or.inl (by omega))]
  rfl

/-- An ASCII character is its own byte. -/
theorem utf8EncodeChar_ofNat {b : UInt8} (hb : b.toNat < 128) :
    String.utf8EncodeChar (Char.ofNat b.toNat) = [b] := by
  have hval : (Char.ofNat b.toNat).val.toNat = b.toNat := toNat_charOfNat hb
  unfold String.utf8EncodeChar
  simp only [hval, if_pos (show b.toNat ≤ 127 by omega), UInt8.ofNat_toNat]

/-- An ASCII text is the encoding of the characters with its codes. -/
theorem flatMap_utf8EncodeChar {t : Bytes} (h : ∀ b ∈ t, b.toNat < 128) :
    (t.map fun b => Char.ofNat b.toNat).flatMap String.utf8EncodeChar = t := by
  induction t with
  | nil => rfl
  | cons b t ih =>
    rw [List.map_cons, List.flatMap_cons, utf8EncodeChar_ofNat (h b List.mem_cons_self),
      ih fun b' hb' => h b' (List.mem_cons_of_mem b hb')]
    rfl

/-- An ASCII text is valid UTF-8. -/
theorem IsUtf8.of_ascii {t : Bytes} (h : ∀ b ∈ t, b.toNat < 128) : IsUtf8 t :=
  ⟨t.map fun b => Char.ofNat b.toNat, (flatMap_utf8EncodeChar h).symm⟩

@[simp] theorem IsUtf8.ofInt (n : ℤ) : IsUtf8 (ofInt n) := .of_ascii (ofInt_ascii n)

@[simp] theorem IsUtf8.decimal (n : ℕ) : IsUtf8 (decimal n) :=
  .of_ascii fun b hb => by
    have := isDigit_of_mem_decimal hb
    simp only [isDigit, Bool.and_eq_true, decide_eq_true_eq] at this
    omega

theorem utf8EncodeChar_ne_nil (c : Char) : String.utf8EncodeChar c ≠ [] := by
  unfold String.utf8EncodeChar
  dsimp only
  split_ifs <;> simp

/-- The bytes of a character that is not ASCII are not ASCII. -/
theorem utf8EncodeChar_ge {c : Char} (h : 128 ≤ c.val.toNat) :
    ∀ b ∈ String.utf8EncodeChar c, 128 ≤ b.toNat := by
  have hbyte {n : ℕ} (h0 : 128 ≤ n) (h : n < 256) : 128 ≤ (UInt8.ofNat n).toNat := by
    rw [UInt8.toNat_ofNat', Nat.mod_eq_of_lt h]
    exact h0
  unfold String.utf8EncodeChar
  intro b hb
  dsimp only at hb
  rw [if_neg (by omega)] at hb
  -- two, three or four bytes
  split at hb
  · simp only [List.mem_cons, List.not_mem_nil, or_false] at hb
    rcases hb with rfl | rfl <;> exact hbyte (by omega) (by omega)
  · split at hb <;> simp only [List.mem_cons, List.not_mem_nil, or_false] at hb
    · rcases hb with rfl | rfl | rfl <;> exact hbyte (by omega) (by omega)
    · rcases hb with rfl | rfl | rfl | rfl <;> exact hbyte (by omega) (by omega)

/-- The encoding of a character holds a NUL only for U+0000. -/
private theorem utf8EncodeChar_cases (c : Char) :
    String.utf8EncodeChar c = [0] ∨
      (∀ b ∈ String.utf8EncodeChar c, b ≠ 0) := by
  have ne_zero {n : ℕ} (h0 : 0 < n) (h : n < 256) : UInt8.ofNat n ≠ 0 := by
    intro he
    have := congrArg UInt8.toNat he
    rw [UInt8.toNat_ofNat', Nat.mod_eq_of_lt h] at this
    simp at this
    omega
  rcases Nat.eq_zero_or_pos c.val.toNat with h0 | hpos
  · left
    unfold String.utf8EncodeChar
    simp [h0]
  · -- in each of the four lengths, every byte is a positive number below 256
    right
    unfold String.utf8EncodeChar
    intro b hb
    dsimp only at hb
    split at hb
    · obtain rfl := List.mem_singleton.mp hb
      exact ne_zero hpos (by omega)
    · split at hb
      · simp only [List.mem_cons, List.not_mem_nil, or_false] at hb
        rcases hb with rfl | rfl <;> exact ne_zero (by omega) (by omega)
      · split at hb <;> simp only [List.mem_cons, List.not_mem_nil, or_false] at hb
        · rcases hb with rfl | rfl | rfl <;> exact ne_zero (by omega) (by omega)
        · rcases hb with rfl | rfl | rfl | rfl <;> exact ne_zero (by omega) (by omega)

/-- A NUL-terminated reader sees a valid prefix of a valid text: the cut falls between two
characters. -/
theorem IsUtf8.cstr {t : Bytes} : IsUtf8 t → IsUtf8 (cstr t) := by
  rintro ⟨cs, rfl⟩
  induction cs with
  | nil => exact .nil
  | cons c cs ih =>
    rw [List.flatMap_cons]
    rcases utf8EncodeChar_cases c with h | h
    · -- the reader stops at this character
      rw [h, List.singleton_append, Bytes.cstr, List.takeWhile_cons_of_neg (by simp)]
      exact .nil
    · rw [cstr_append_of_notMem fun h0 => h 0 h0 rfl]
      exact IsUtf8.append ⟨[c], by simp⟩ ih

/-- The same notion as that of the core library, where it is decided. -/
theorem isUtf8_iff {t : Bytes} : IsUtf8 t ↔ t.toByteArray.IsValidUTF8 := by
  constructor
  · rintro ⟨cs, rfl⟩
    exact ⟨cs, rfl⟩
  · rintro ⟨cs, h⟩
    refine ⟨cs, ?_⟩
    simpa [List.utf8Encode] using congrArg (fun b => b.data.toList) h

instance (t : Bytes) : Decidable (IsUtf8 t) := decidable_of_iff _ isUtf8_iff.symm

/-- Behind valid UTF-8, a text decides by itself whether the whole is valid. -/
theorem isUtf8_utf8_append (s : String) (t : Bytes) : IsUtf8 (utf8 s ++ t) ↔ IsUtf8 t := by
  unfold utf8
  induction s.toList with
  | nil => rfl
  | cons c cs ih =>
    have hcancel := @ByteArray.isValidUTF8_utf8Encode_singleton_append_iff
      (cs.flatMap String.utf8EncodeChar ++ t).toByteArray c
    rw [List.flatMap_cons, List.append_assoc, ← ih, isUtf8_iff, isUtf8_iff,
      List.toByteArray_append]
    simpa [List.utf8Encode] using hcancel

end Bytes
