import SageStore.Foundation.Numerals

/-!
# Finite decimal numbers

The grammar of decimal numbers with an optional sign, point and exponent, as a predicate of
whole texts, and its relation to the prefix that `floatPrefix` takes: a text is a decimal
number exactly when that prefix is the whole text and is spelled with digits, signs, a point
and an `e` (`isDecimalNumber_iff`). The other numerals, which `floatPrefix` takes as well, are
infinities, NaNs and hexadecimal numbers, and need other letters.
-/

namespace Bytes

/-- A sign, or none. -/
inductive IsSign : Bytes → Prop
  | none : IsSign []
  | plus : IsSign [43]
  | minus : IsSign [45]

/-- Digits, with a point before, between or after them. -/
inductive IsMantissa : Bytes → Prop
  | whole {w : Bytes} : isDigits w = true → IsMantissa w
  | point {w f : Bytes} : isDigits (w ++ f) = true → IsMantissa (w ++ 46 :: f)

/-- An exponent, or none. -/
inductive IsExponent : Bytes → Prop
  | none : IsExponent []
  | some {mark : UInt8} {sign digits : Bytes} : toLower mark = 101 → IsSign sign →
    isDigits digits = true → IsExponent (mark :: (sign ++ digits))

/-- A finite decimal number: a sign, a mantissa and an exponent, and nothing else. -/
inductive IsDecimalNumber : Bytes → Prop
  | mk {sign mantissa exponent : Bytes} : IsSign sign → IsMantissa mantissa →
    IsExponent exponent → IsDecimalNumber (sign ++ (mantissa ++ exponent))

/-- The bytes decimal numbers are spelled with. -/
def isDecimalByte (b : UInt8) : Bool := isDigit b || b ∈ [43, 45, 46, 69, 101]

/-! ### Spelling -/

section Spelling

variable {t : Bytes} {b : UInt8}

theorem isDecimalByte_of_isDigit (h : isDigit b = true) : isDecimalByte b = true := by
  rw [isDecimalByte, h, Bool.true_or]

theorem toLower_of_isDigit (h : isDigit b = true) : toLower b = b := by
  simp only [isDigit, Bool.and_eq_true, decide_eq_true_eq] at h
  rw [toLower, if_neg]
  simp only [Bool.and_eq_true, decide_eq_true_eq]
  omega

/-- The mark of an exponent is an `e`, in either case. -/
theorem mark_eq {mark : UInt8} (h : toLower mark = 101) : mark = 69 ∨ mark = 101 := by
  unfold toLower at h
  split at h
  · left
    have hsum : (mark + 32).toNat = 101 := congrArg UInt8.toNat h
    rw [UInt8.toNat_add] at hsum
    have hlt := mark.toNat_lt
    rw [← UInt8.toNat_inj]
    show mark.toNat = 69
    change (mark.toNat + 32) % 256 = 101 at hsum
    omega
  · exact Or.inr h

theorem isDecimalByte_toLower (h : isDecimalByte b = true) : isDecimalByte (toLower b) = true := by
  rcases Bool.or_eq_true_iff.mp h with hdigit | hmem
  · rwa [toLower_of_isDigit hdigit]
  · have hmem : b = 43 ∨ b = 45 ∨ b = 46 ∨ b = 69 ∨ b = 101 := by simpa using hmem
    rcases hmem with rfl | rfl | rfl | rfl | rfl <;> decide

theorem IsSign.spelled (h : IsSign t) : ∀ b ∈ t, isDecimalByte b = true := by
  intro b hb
  cases h with
  | none => cases hb
  | plus => rw [List.mem_singleton.mp hb]; decide
  | minus => rw [List.mem_singleton.mp hb]; decide

theorem IsMantissa.spelled (h : IsMantissa t) : ∀ b ∈ t, isDecimalByte b = true := by
  cases h with
  | whole hw => exact fun b hb => isDecimalByte_of_isDigit ((isDigits_iff.mp hw).2 b hb)
  | @point w f hwf =>
    have hall := (isDigits_iff.mp hwf).2
    intro b hb
    rcases List.mem_append.mp hb with hb | hb
    · exact isDecimalByte_of_isDigit (hall b (List.mem_append_left f hb))
    · rcases List.mem_cons.mp hb with rfl | hb
      · decide
      · exact isDecimalByte_of_isDigit (hall b (List.mem_append_right w hb))

theorem IsExponent.spelled (h : IsExponent t) : ∀ b ∈ t, isDecimalByte b = true := by
  cases h with
  | none => simp
  | @some mark sign digits hmark hsign hdigits =>
    intro b hb
    rcases List.mem_cons.mp hb with rfl | hb
    · rcases mark_eq hmark with rfl | rfl <;> decide
    · rcases List.mem_append.mp hb with hb | hb
      · exact hsign.spelled b hb
      · exact isDecimalByte_of_isDigit ((isDigits_iff.mp hdigits).2 b hb)

theorem IsDecimalNumber.spelled (h : IsDecimalNumber t) :
    ∀ b ∈ t, isDecimalByte b = true := by
  obtain ⟨hsign, hmantissa, hexponent⟩ := h
  intro b hb
  rcases List.mem_append.mp hb with hb | hb
  · exact hsign.spelled b hb
  · rcases List.mem_append.mp hb with hb | hb
    · exact hmantissa.spelled b hb
    · exact hexponent.spelled b hb

/-- What a text of decimal bytes begins with, in lower case, is spelled with decimal bytes. -/
theorem isDecimalByte_of_isPrefix {w : Bytes} (h : ∀ b ∈ t, isDecimalByte b = true)
    (hw : w <+: t.map toLower) : ∀ b ∈ w, isDecimalByte b = true := by
  intro b hb
  obtain ⟨b', hb', rfl⟩ := List.mem_map.mp (hw.subset hb)
  exact isDecimalByte_toLower (h b' hb')

/-- The numeral at the start of a text of decimal bytes is a decimal one. -/
theorem floatLength_of_isDecimalByte (h : ∀ b ∈ t, isDecimalByte b = true) :
    floatLength t = if mantissaLength isDigit t = 0 then 0
      else mantissaLength isDigit t + exponentLength 101 (t.drop (mantissaLength isDigit t)) := by
  -- each of the other numerals begins with a word that has another letter
  have hno {w : String} {b : UInt8} (hb : b ∈ utf8 w) (hbad : Bytes.isDecimalByte b = false) :
      ¬ utf8 w <+: t.map toLower :=
    fun hw => absurd (isDecimalByte_of_isPrefix h hw b hb) (by rw [hbad]; decide)
  have hinfinity : ¬ utf8 "infinity" <+: t.map toLower := hno (b := 110) (by decide) (by decide)
  have hinf : ¬ utf8 "inf" <+: t.map toLower := hno (b := 110) (by decide) (by decide)
  have hnan : ¬ utf8 "nan" <+: t.map toLower := hno (b := 110) (by decide) (by decide)
  have hhex : ¬ utf8 "0x" <+: t.map toLower := hno (b := 120) (by decide) (by decide)
  unfold floatLength
  simp only [if_neg hinfinity, if_neg hinf, if_neg hnan, if_neg fun hand => hhex (And.left hand)]

end Spelling

/-! ### Scanning a decimal number -/

section Scanning

variable {t sign mantissa exponent : Bytes}

/-- A text that begins with no sign. -/
def Unsigned (t : Bytes) : Prop := ∀ b rest, t = b :: rest → b ≠ 43 ∧ b ≠ 45

/-- A sign before an unsigned text is split off. -/
theorem splitSign_append (hsign : IsSign sign) (ht : Unsigned t) :
    (splitSign (sign ++ t)).2 = t := by
  cases hsign with
  | none =>
    rw [List.nil_append]
    unfold splitSign
    split
    · next rest => exact absurd rfl (ht _ _ rfl).2
    · next rest => exact absurd rfl (ht _ _ rfl).1
    · rfl
  | plus => rfl
  | minus => rfl

/-- What `splitSign` takes off is a sign. -/
theorem splitSign_spec (t : Bytes) : ∃ sign, IsSign sign ∧ t = sign ++ (splitSign t).2 := by
  unfold splitSign
  split
  · exact ⟨[45], .minus, rfl⟩
  · exact ⟨[43], .plus, rfl⟩
  · exact ⟨[], .none, rfl⟩

theorem unsigned_of_isDigits (h : isDigits t = true) : Unsigned t := by
  rintro b rest rfl
  have hb := (isDigits_iff.mp h).2 b List.mem_cons_self
  constructor <;> rintro rfl <;> exact absurd hb (by decide)

/-- No mantissa begins with a sign. -/
theorem IsMantissa.unsigned (h : IsMantissa mantissa) (u : Bytes) : Unsigned (mantissa ++ u) := by
  -- a mantissa starts with a digit or with the point, and neither is a sign
  cases h with
  | whole hw =>
    obtain ⟨hne, hall⟩ := isDigits_iff.mp hw
    match mantissa, hne, hw with
    | b :: w, _, hw =>
      rintro _ rest heq
      obtain ⟨rfl, -⟩ := List.cons.inj heq
      exact unsigned_of_isDigits hw _ _ rfl
  | @point w f hwf =>
    match w, hwf with
    | [], _ =>
      rintro b rest heq
      obtain ⟨rfl, -⟩ := List.cons.inj heq
      decide
    | b :: w, hwf =>
      rintro _ rest heq
      obtain ⟨rfl, -⟩ := List.cons.inj heq
      exact unsigned_of_isDigits hwf _ _ rfl

theorem IsMantissa.ne_nil (h : IsMantissa mantissa) : mantissa ≠ [] := by
  cases h with
  | whole hw => exact (isDigits_iff.mp hw).1
  | point => simp

/-- The digits in front of an exponent end where it begins. -/
theorem takeWhile_exponent {w : Bytes} (hw : ∀ b ∈ w, isDigit b = true)
    (hx : IsExponent exponent) : (w ++ exponent).takeWhile isDigit = w := by
  rw [List.takeWhile_append_of_pos hw]
  cases hx with
  | none => simp
  | @some mark sign digits hmark =>
    have hnot : isDigit mark = false := by rcases mark_eq hmark with rfl | rfl <;> decide
    rw [List.takeWhile_cons_of_neg (by simp [hnot]), List.append_nil]

/-- The scanner of mantissas takes a mantissa whole. -/
theorem IsMantissa.mantissaLength_append (h : IsMantissa mantissa) (hx : IsExponent exponent) :
    mantissaLength isDigit (mantissa ++ exponent) = mantissa.length := by
  unfold mantissaLength
  cases h with
  | whole hw =>
    rw [takeWhile_exponent (isDigits_iff.mp hw).2 hx]
    dsimp only
    rw [List.drop_left]
    split
    · next rest =>
      -- an exponent does not begin with a point
      generalize hu : (46 :: rest : Bytes) = u at hx
      cases hx with
      | none => cases hu
      | some hmark =>
        obtain ⟨rfl, -⟩ := List.cons.inj hu
        exact absurd hmark (by decide)
    · rfl
  | @point w f hwf =>
    obtain ⟨hne, hall⟩ := isDigits_iff.mp hwf
    have hw : ∀ b ∈ w, isDigit b = true := fun b hb => hall b (List.mem_append_left f hb)
    have hf : ∀ b ∈ f, isDigit b = true := fun b hb => hall b (List.mem_append_right w hb)
    have htake : (w ++ 46 :: f ++ exponent).takeWhile isDigit = w := by
      rw [List.append_assoc, List.takeWhile_append_of_pos hw, List.cons_append,
        List.takeWhile_cons_of_neg (by decide), List.append_nil]
    have hdrop : (w ++ 46 :: f ++ exponent).drop w.length = 46 :: (f ++ exponent) := by
      rw [List.append_assoc, List.drop_left, List.cons_append]
    have hlength : w.length + f.length ≠ 0 := by
      rw [← List.length_append]
      exact fun h0 => hne (List.length_eq_zero_iff.mp h0)
    rw [htake]
    dsimp only
    rw [hdrop]
    change (if w.length + ((f ++ exponent).takeWhile isDigit).length = 0 then 0
      else w.length + 1 + ((f ++ exponent).takeWhile isDigit).length) = _
    rw [takeWhile_exponent hf hx, if_neg hlength, List.length_append, List.length_cons]
    omega

/-- The scanner of exponents takes an exponent whole. -/
theorem IsExponent.exponentLength_eq (h : IsExponent exponent) :
    exponentLength 101 exponent = exponent.length := by
  cases h with
  | none => rfl
  | @some mark sign digits hmark hsign hdigits =>
    obtain ⟨hne, hall⟩ := isDigits_iff.mp hdigits
    have hsplit : (splitSign (sign ++ digits)).2 = digits :=
      splitSign_append hsign (unsigned_of_isDigits hdigits)
    have htake : digits.takeWhile isDigit = digits := List.takeWhile_eq_self_iff.mpr hall
    have hlength : digits.length ≠ 0 := fun h0 => hne (List.length_eq_zero_iff.mp h0)
    rw [exponentLength, if_pos hmark, hsplit, htake]
    dsimp only
    rw [if_neg hlength, List.length_cons, List.length_append]
    omega

/-- A decimal number is the numeral at its start. -/
theorem IsDecimalNumber.floatPrefix_eq (h : IsDecimalNumber t) : floatPrefix t = some t := by
  have hbytes := h.spelled
  obtain ⟨hsign, hmantissa, hexponent⟩ := h
  next sign mantissa exponent =>
  have hspace : (sign ++ (mantissa ++ exponent)).dropWhile isSpace =
      sign ++ (mantissa ++ exponent) := by
    cases hu : sign ++ (mantissa ++ exponent) with
    | nil => rfl
    | cons b u =>
      -- no decimal byte is white space
      have hb : isDecimalByte b = true := hbytes b (hu ▸ List.mem_cons_self)
      refine List.dropWhile_cons_of_neg ?_
      rcases Bool.or_eq_true_iff.mp hb with hdigit | hmem
      · simp only [isDigit, Bool.and_eq_true, decide_eq_true_eq] at hdigit
        simp only [isSpace, Bool.or_eq_true, Bool.and_eq_true, decide_eq_true_eq]
        omega
      · have hmem : b = 43 ∨ b = 45 ∨ b = 46 ∨ b = 69 ∨ b = 101 := by simpa using hmem
        rcases hmem with rfl | rfl | rfl | rfl | rfl <;> decide
  have hsplit : (splitSign (sign ++ (mantissa ++ exponent))).2 = mantissa ++ exponent :=
    splitSign_append hsign (hmantissa.unsigned exponent)
  have hbody : ∀ b ∈ mantissa ++ exponent, isDecimalByte b = true :=
    fun b hb => hbytes b (List.mem_append_right sign hb)
  have hlength : floatLength (mantissa ++ exponent) = (mantissa ++ exponent).length := by
    have hm : mantissa.length ≠ 0 := fun h0 => hmantissa.ne_nil (List.length_eq_zero_iff.mp h0)
    rw [floatLength_of_isDecimalByte hbody, hmantissa.mantissaLength_append hexponent, if_neg hm,
      List.drop_left, hexponent.exponentLength_eq, List.length_append]
  have hpos : (mantissa ++ exponent).length ≠ 0 := by
    rw [List.length_append]
    have hm := List.length_pos_of_ne_nil hmantissa.ne_nil
    omega
  unfold floatPrefix
  simp only [hspace, hsplit, hlength, if_neg hpos]
  rw [List.take_of_length_le (by rw [List.length_append]; omega)]

/-- What the scanner of mantissas takes is a mantissa. -/
theorem isMantissa_take (h : mantissaLength isDigit t ≠ 0) :
    IsMantissa (t.take (mantissaLength isDigit t)) := by
  have hw : ∀ b ∈ t.takeWhile isDigit, isDigit b = true := fun b hb => List.mem_takeWhile_imp hb
  have hhead : t.take (t.takeWhile isDigit).length = t.takeWhile isDigit :=
    (List.prefix_iff_eq_take.mp (List.takeWhile_prefix _)).symm
  unfold mantissaLength at h ⊢
  dsimp only at h ⊢
  split at h
  · next rest hdrop =>
    have hzero : ¬ (t.takeWhile isDigit).length + (rest.takeWhile isDigit).length = 0 := by
      intro h0
      exact h (if_pos h0)
    have hf : rest.take (rest.takeWhile isDigit).length = rest.takeWhile isDigit :=
      (List.prefix_iff_eq_take.mp (List.takeWhile_prefix _)).symm
    -- the digits, the point, and the digits behind it
    have htake : t.take ((t.takeWhile isDigit).length + 1 + (rest.takeWhile isDigit).length) =
        t.takeWhile isDigit ++ 46 :: rest.takeWhile isDigit := by
      rw [Nat.add_assoc, List.take_add, hhead, hdrop, Nat.add_comm 1, List.take_succ_cons, hf]
    rw [if_neg hzero, htake]
    refine .point (isDigits_iff.mpr ⟨fun hnil => hzero ?_, fun b hb => ?_⟩)
    · rw [← List.length_append, hnil, List.length_nil]
    · exact (List.mem_append.mp hb).elim (hw b) fun hb => List.mem_takeWhile_imp hb
  · next hno =>
    rw [hhead]
    exact .whole (isDigits_iff.mpr ⟨fun hnil => h (by rw [hnil, List.length_nil]), hw⟩)

/-- A text that the scanner of exponents takes whole is an exponent. -/
theorem isExponent_of_length_le (h : t.length ≤ exponentLength 101 t) : IsExponent t := by
  match t with
  | [] => exact .none
  | b :: u =>
    obtain ⟨sign, hsign, hu⟩ := splitSign_spec u
    rw [exponentLength] at h
    by_cases hmark : toLower b = 101
    · rw [if_pos hmark] at h
      dsimp only at h
      by_cases hne : ((splitSign u).2.takeWhile isDigit).length = 0
      · rw [if_pos hne, List.length_cons] at h
        omega
      · rw [if_neg hne] at h
        -- the digits reach to the end of the text
        have hlength : u.length = sign.length + (splitSign u).2.length := by
          conv_lhs => rw [hu, List.length_append]
        have hle := (List.takeWhile_prefix isDigit (l := (splitSign u).2)).length_le
        rw [List.length_cons] at h
        have hall : (splitSign u).2.takeWhile isDigit = (splitSign u).2 :=
          (List.takeWhile_prefix isDigit).eq_of_length_le (by omega)
        have hdigits : isDigits (splitSign u).2 = true := by
          refine isDigits_iff.mpr ⟨fun hnil => hne ?_, fun b hb => ?_⟩
          · rw [hnil, List.takeWhile_nil, List.length_nil]
          · exact List.mem_takeWhile_imp (hall.symm ▸ hb)
        rw [hu]
        exact .some hmark hsign hdigits
    · rw [if_neg hmark, List.length_cons] at h
      omega

/-- **Finite decimal numbers.** A text is one exactly when the numeral at its start is the whole
text, and its bytes are those decimal numbers are spelled with. -/
theorem isDecimalNumber_iff :
    IsDecimalNumber t ↔ floatPrefix t = some t ∧ ∀ b ∈ t, isDecimalByte b = true := by
  refine ⟨fun h => ⟨h.floatPrefix_eq, h.spelled⟩, ?_⟩
  rintro ⟨hfloat, hbytes⟩
  unfold floatPrefix at hfloat
  dsimp only at hfloat
  split at hfloat
  · cases hfloat
  · next hpos =>
    have htake := Option.some.inj hfloat
    -- nothing in front of the numeral was skipped
    have hspace : t.dropWhile isSpace = t := by
      refine (List.dropWhile_suffix isSpace).eq_of_length_le ?_
      have hle := congrArg List.length htake
      rw [List.length_take] at hle
      omega
    rw [hspace] at htake hpos
    obtain ⟨sign, hsign, ht⟩ := splitSign_spec t
    generalize (splitSign t).2 = body at htake hpos ht
    subst ht
    have hbody : ∀ b ∈ body, isDecimalByte b = true :=
      fun b hb => hbytes b (List.mem_append_right sign hb)
    -- nothing behind it was left
    have hlength : body.length ≤ floatLength body := by
      have hle := congrArg List.length htake
      rw [List.length_take, List.length_append] at hle
      omega
    rw [floatLength_of_isDecimalByte hbody] at hlength hpos
    split at hlength
    · next h0 => exact absurd (if_pos h0) hpos
    · next hm =>
      have hx : IsExponent (body.drop (mantissaLength isDigit body)) := by
        refine isExponent_of_length_le ?_
        rw [List.length_drop]
        omega
      rw [← List.take_append_drop (mantissaLength isDigit body) body]
      exact .mk hsign (isMantissa_take hm) hx

end Scanning

end Bytes
