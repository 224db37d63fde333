import SageStore.Client.SupplierCatalogView

/-!
# What an import creates

A line is trimmed before it is split, and each cell after. The test for a header compares the
first cell as it is before that, so that white space behind the name hides a header.
-/

namespace SageStore

open Bytes

namespace SupplierCatalogView

variable (folding : CaseFolding)

/-- The name of the first column, in any letter case. -/
def isHeaderName (t : List Char) : Bool := folding.equals t "supplierId".toList

/-- The product that the import is to create for a line, if any. -/
def expected (line : List Char) : Option SuppliersProductInfo :=
  let cells := line.splitOn ','
  if line.all Qt.isSpaceChar || cells.length < 3 ||
      isHeaderName folding (trimmed (cells.getD 0 [])) then none
  else some
    { id := []
      supplierID := toStdString (trimmed (cells.getD 0 []))
      productTypeId := toStdString (trimmed (cells.getD 1 []))
      code := toStdString (trimmed (cells.getD 2 [])) }

/-- A header with white space between the name of the first column and the comma. -/
def HidesHeader (line : List Char) : Prop :=
  3 ≤ (line.splitOn ',').length ∧
    isHeaderName folding (trimmed ((line.splitOn ',').getD 0 [])) = true ∧
    ((line.splitOn ',').getD 0 []).getLast?.any Qt.isSpaceChar = true

/-- The product that the import creates for a line, if any. -/
def created (line : List Char) : Option SuppliersProductInfo :=
  let columns := (trimmed line).splitOn ','
  if (trimmed line).isEmpty || columns.length < 3 ||
      isHeaderName folding (columns.getD 0 []) then none
  else some
    { id := []
      supplierID := toStdString (trimmed (columns.getD 0 []))
      productTypeId := toStdString (trimmed (columns.getD 1 []))
      code := toStdString (trimmed (columns.getD 2 [])) }

/-! ### The loop -/

/-- A line adds the product that it creates and counts it, in an `int`. -/
theorem importLine_eq (acc : List SuppliersProductInfo × ℤ) (line : List Char) :
    importLine folding acc line = match created folding line with
      | none => acc
      | some x => (acc.1 ++ [x], (acc.2 + 1).bmod (2 ^ 32)) := by
  unfold importLine created isHeaderName
  dsimp only
  cases (trimmed line).isEmpty with
  | true => rfl
  | false =>
    by_cases hlength : ((trimmed line).splitOn ',').length < 3
    · simp only [Bool.false_eq_true, if_false, if_pos hlength, decide_eq_true hlength,
        Bool.or_true, Bool.true_or, if_true]
    · simp only [Bool.false_eq_true, if_false, if_neg hlength, decide_eq_false hlength,
        Bool.or_false, Bool.false_or]
      split <;> rfl

/-- The calls are counted, in 32 bits. -/
theorem foldl_importLine (lines : List (List Char)) (calls : List SuppliersProductInfo) :
    lines.foldl (importLine folding) (calls, (calls.length : ℤ).bmod (2 ^ 32)) =
      (calls ++ lines.filterMap (created folding),
        ((calls ++ lines.filterMap (created folding)).length : ℤ).bmod (2 ^ 32)) := by
  induction lines generalizing calls with
  | nil => simp
  | cons line lines ih =>
    rw [List.foldl_cons, importLine_eq, List.filterMap_cons]
    cases created folding line with
    | none => exact ih calls
    | some x =>
      have hstep : (((calls.length : ℤ).bmod (2 ^ 32)) + 1).bmod (2 ^ 32) =
          ((calls ++ [x]).length : ℤ).bmod (2 ^ 32) := by
        rw [Int.bmod_add_bmod, List.length_append]
        rfl
      dsimp only
      rw [hstep, ih (calls ++ [x]), List.append_assoc, List.singleton_append]

/-- The products that are created are those of the lines, in order. -/
theorem importCsvFile_created (text : List Char) :
    (importCsvFile folding (some text)).created =
      (readLines text).filterMap (created folding) := by
  have hloop := foldl_importLine folding (readLines text) []
  rw [List.nil_append] at hloop
  unfold importCsvFile
  dsimp only
  rw [show ([], (0 : ℤ)) = ([], (([] : List SuppliersProductInfo).length : ℤ).bmod (2 ^ 32))
    from rfl, hloop]
  split <;> rfl

/-- The counter is zero again after every 2^32 products. -/
theorem bmod_eq_zero_iff (n : ℕ) : (n : ℤ).bmod (2 ^ 32) = 0 ↔ 2 ^ 32 ∣ n := by
  rw [← Int.dvd_iff_bmod_eq_zero]
  exact Int.natCast_dvd_natCast

/-- The import says that it has imported rows, unless their number is `0` in 32 bits. -/
theorem importCsvFile_imported (text : List Char) :
    (importCsvFile folding (some text)).imported = true ↔
      ¬2 ^ 32 ∣ ((readLines text).filterMap (created folding)).length := by
  have hloop := foldl_importLine folding (readLines text) []
  rw [List.nil_append] at hloop
  rw [← bmod_eq_zero_iff]
  unfold importCsvFile
  dsimp only
  rw [show ([], (0 : ℤ)) = ([], (([] : List SuppliersProductInfo).length : ℤ).bmod (2 ^ 32))
    from rfl, hloop]
  dsimp only
  generalize (((readLines text).filterMap (created folding)).length : ℤ).bmod (2 ^ 32) = count
  split
  next h => exact iff_of_false Bool.false_ne_true (not_not_intro h)
  next h => exact iff_of_true rfl h

/-! ### The cells -/

section Cells

variable {folding} {line : List Char}

theorem isSpaceChar_comma : Qt.isSpaceChar ',' = false := by decide

/-- Trimming a line leaves the number of its columns: a comma is no white space. -/
theorem length_columns (line : List Char) :
    ((trimmed line).splitOn ',').length = (line.splitOn ',').length :=
  Cells.length_splitOn_strip isSpaceChar_comma line

/-- A cell of the trimmed line is trimmed to what the cell of the line is. -/
theorem trimmed_column (line : List Char) (i : ℕ) :
    trimmed (((trimmed line).splitOn ',').getD i []) = trimmed ((line.splitOn ',').getD i []) := by
  have hmap := Cells.map_strip_splitOn (p := Qt.isSpaceChar) isSpaceChar_comma line
  have hcell (cells : List (List Char)) :
      (cells.map trimmed).getD i [] = trimmed (cells.getD i []) := by
    rw [List.getD_eq_getElem?_getD, List.getD_eq_getElem?_getD, List.getElem?_map]
    cases cells[i]? <;> rfl
  exact (hcell _).symm.trans ((congrArg (·.getD i []) hmap).trans (hcell _))

/-- The first cell keeps the white space behind it. -/
theorem firstColumn (h : 3 ≤ (line.splitOn ',').length) :
    ((trimmed line).splitOn ',').getD 0 [] =
      ((line.splitOn ',').getD 0 []).dropWhile Qt.isSpaceChar := by
  have hhead := Cells.head?_splitOn_strip (p := Qt.isSpaceChar) isSpaceChar_comma
    (Cells.mem_of_splitOn (lt_of_lt_of_le (by decide) h))
  rw [List.getD_eq_getElem?_getD, List.getD_eq_getElem?_getD, ← List.head?_eq_getElem?,
    ← List.head?_eq_getElem?]
  unfold trimmed
  rw [hhead]
  cases (line.splitOn ',').head? <;> rfl

/-- A line is skipped if it is nothing but white space. -/
theorem isEmpty_trimmed (line : List Char) :
    (trimmed line).isEmpty = line.all Qt.isSpaceChar := by
  rw [Bool.eq_iff_iff, List.isEmpty_iff, List.all_eq_true]
  exact Cells.strip_eq_nil_iff

/-- A header name has no white space at its ends, in any letter case. -/
theorem isHeaderName_ends {t : List Char} (h : isHeaderName folding t = true) :
    (∀ c ∈ t.head?, Qt.isSpaceChar c = false) ∧ ∀ c ∈ t.getLast?, Qt.isSpaceChar c = false := by
  have hmap : t.map folding.fold = "supplierId".toList.map folding.fold := of_decide_eq_true h
  have hfold {c d : Char} (hd : Qt.isSpaceChar d = false) (heq : folding.fold c = folding.fold d) :
      Qt.isSpaceChar c = false := by
    rw [← folding.isSpaceChar_fold, heq, folding.isSpaceChar_fold, hd]
  constructor
  · intro c hc
    have hhead := congrArg List.head? hmap
    rw [List.head?_map, List.head?_map, Option.mem_def.mp hc] at hhead
    exact hfold (d := 's') (by decide) (Option.some.inj hhead)
  · intro c hc
    have hlast := congrArg List.getLast? hmap
    rw [List.getLast?_map, List.getLast?_map, Option.mem_def.mp hc] at hlast
    exact hfold (d := 'd') (by decide) (Option.some.inj hlast)

/-- The test of the loop misses a header exactly when white space stands behind the name. -/
theorem isHeaderName_dropWhile (t : List Char) :
    isHeaderName folding (t.dropWhile Qt.isSpaceChar) = true ↔
      isHeaderName folding (trimmed t) = true ∧
        ¬t.getLast?.any Qt.isSpaceChar = true := by
  -- a name is no white space, so what stands last in the text stands last in the name
  have hlast {u : List Char} (hu : u ≠ []) (hdrop : t.dropWhile Qt.isSpaceChar = u) :
      t.getLast? = u.getLast? := by
    rw [← List.takeWhile_append_dropWhile (p := Qt.isSpaceChar) (l := t), hdrop,
      List.getLast?_append_of_ne_nil _ hu]
  have hne {u : List Char} (h : isHeaderName folding u = true) : u ≠ [] := by
    rintro rfl
    have hmap : [] = "supplierId".toList.map folding.fold := of_decide_eq_true h
    exact absurd (congrArg List.length hmap) (by simp)
  constructor
  · intro h
    have hends := isHeaderName_ends h
    have hstrip : trimmed t = t.dropWhile Qt.isSpaceChar := Cells.rdropWhile_eq_self hends.2
    refine ⟨hstrip.symm ▸ h, ?_⟩
    rw [hlast (hne h) rfl]
    cases hc : (t.dropWhile Qt.isSpaceChar).getLast? with
    | none => simp
    | some c => simp [hends.2 c hc]
  · rintro ⟨h, hspace⟩
    have hdrop : t.dropWhile Qt.isSpaceChar ≠ [] := by
      intro hnil
      refine hne h ?_
      rw [trimmed, Cells.strip, hnil]
      rfl
    rw [hlast hdrop rfl] at hspace
    have hstrip : trimmed t = t.dropWhile Qt.isSpaceChar := by
      refine Cells.rdropWhile_eq_self fun c hc => ?_
      rw [Option.mem_def.mp hc] at hspace
      exact Bool.not_eq_true _ ▸ hspace
    rwa [hstrip] at h

end Cells

/-- The loop creates what is expected, and a product for each hidden header. -/
theorem created_eq (line : List Char) :
    created folding line = expected folding line ∧ ¬HidesHeader folding line ∨
      (created folding line).isSome = true ∧ expected folding line = none ∧
        HidesHeader folding line := by
  unfold created expected HidesHeader
  simp only [length_columns, trimmed_column, isEmpty_trimmed]
  by_cases hlength : (line.splitOn ',').length < 3
  · -- fewer than three columns create nothing
    refine .inl ⟨?_, fun h => absurd h.1 (by omega)⟩
    simp only [hlength, decide_true, Bool.or_true, Bool.true_or]
  · -- a line with a comma is not blank
    have hcomma : ',' ∈ line := Cells.mem_of_splitOn (by omega)
    have hblank : line.all Qt.isSpaceChar = false := by
      rw [Bool.eq_false_iff, ne_eq, List.all_eq_true]
      exact fun hall => absurd (hall ',' hcomma) (by decide)
    obtain ⟨hmissed, hfound⟩ :=
      @isHeaderName_dropWhile folding ((line.splitOn ',').getD 0 [])
    rw [firstColumn (by omega)]
    simp only [hblank, hlength, decide_false, Bool.or_false, Bool.false_or]
    by_cases hname : isHeaderName folding (trimmed ((line.splitOn ',').getD 0 [])) = true
    · by_cases hspace : ((line.splitOn ',').getD 0 []).getLast?.any Qt.isSpaceChar = true
      · -- the white space behind the name hides the header
        refine .inr ⟨?_, if_pos hname, by omega, hname, hspace⟩
        rw [if_neg fun h => (hmissed h).2 hspace]
        rfl
      · refine .inl ⟨?_, fun h => hspace h.2.2⟩
        rw [if_pos (hfound ⟨hname, hspace⟩), if_pos hname]
    · refine .inl ⟨?_, fun h => hname h.2.1⟩
      rw [if_neg fun h => hname (hmissed h).1, if_neg hname]

/-- The products of a text are those that are expected, exactly if none of its lines hides a
header. -/
theorem filterMap_created_eq_iff (lines : List (List Char)) :
    lines.filterMap (created folding) = lines.filterMap (expected folding) ↔
      ∀ line ∈ lines, ¬HidesHeader folding line := by
  have hle (line : List Char) : expected folding line = none ∨
      created folding line = expected folding line := by
    rcases created_eq folding line with h | h
    · exact .inr h.1
    · exact .inl h.2.1
  rw [Cells.filterMap_eq_iff hle]
  refine forall₂_congr fun line _ => ?_
  rcases created_eq folding line with ⟨h, hhides⟩ | ⟨h, hnone, hhides⟩
  · exact iff_of_true h hhides
  · -- a product is created where none is expected
    refine iff_of_false (fun heq => ?_) (not_not_intro hhides)
    rw [heq, hnone] at h
    exact Bool.false_ne_true h

/-- **When an import is exact.** It creates exactly the products it is expected to create, and says
whether there were any, after counting them in an `int` that does not overflow, if and only if no
header is hidden behind white space and there are fewer than `2 ^ 31` products to create. Beyond
that C++ leaves the count undefined; here it wraps around, and `2 ^ 32` products are taken for
none. -/
theorem importCsvFile_exact_iff (text : List Char) :
    ((importCsvFile folding (some text)).created =
        (readLines text).filterMap (expected folding) ∧
      ((importCsvFile folding (some text)).imported = true ↔
        (importCsvFile folding (some text)).created ≠ []) ∧
      (importCsvFile folding (some text)).created.length < 2 ^ 31) ↔
    (∀ line ∈ readLines text, ¬HidesHeader folding line) ∧
      ((readLines text).filterMap (expected folding)).length < 2 ^ 31 := by
  have hexact := filterMap_created_eq_iff folding (readLines text)
  rw [importCsvFile_imported, importCsvFile_created, hexact]
  refine and_congr_right fun hhides => ?_
  rw [hexact.mpr hhides, ne_eq, ← List.length_eq_zero_iff]
  -- what is left is about the number of products, which is counted modulo `2 ^ 32`
  generalize ((readLines text).filterMap (expected folding)).length = n
  refine and_iff_right_of_imp fun hlt => ⟨fun hdvd hzero => hdvd (hzero ▸ dvd_zero _), ?_⟩
  intro hne hdvd
  exact absurd (Nat.le_of_dvd (Nat.pos_of_ne_zero hne) hdvd) (by omega)

end SupplierCatalogView

/-! ### A hidden header -/

theorem Qt.isSpaceChar_of_letter {c : Char} (hlow : 65 ≤ c.toNat) (hhigh : c.toNat ≤ 122) :
    Qt.isSpaceChar c = false := by
  simp [isSpaceChar]
  omega

/-- Case folding on ASCII. -/
def CaseFolding.ascii : CaseFolding where
  fold := Char.toLower
  isSpaceChar_fold c := by
    unfold Char.toLower
    split
    next h =>
      -- neither a capital letter nor its small letter is white space
      have hlow : 65 ≤ c.toNat := h.1
      have hhigh : c.toNat ≤ 90 := h.2
      have hval : (c.val + ('a'.val - 'A'.val)).toNat = c.toNat + 32 := by
        rw [UInt32.toNat_add]
        exact Nat.mod_eq_of_lt (by change c.toNat + 32 < 2 ^ 32; omega)
      rw [Qt.isSpaceChar_of_letter hlow (by omega)]
      exact Qt.isSpaceChar_of_letter (le_of_le_of_eq (by omega) hval.symm)
        (le_of_eq_of_le hval (by omega))
    next => rfl
  fold_ascii _ _ := rfl

namespace SupplierCatalogView

theorem importCsvFile_not_exact :
    ¬∀ (folding : CaseFolding) (text : List Char),
      (importCsvFile folding (some text)).created =
          (readLines text).filterMap (expected folding) ∧
        ((importCsvFile folding (some text)).imported = true ↔
          (importCsvFile folding (some text)).created ≠ []) := by
  intro h
  have hcreated := (h .ascii "supplierId ,productTypeId,code\n1,1,A\n".toList).1
  exact absurd (congrArg List.length hcreated) (by decide +kernel)

example : importCsvFile .ascii
    (some "SUPPLIERID,productTypeId,code\n\n 1 , 2,A 1\n3,4\n".toList) =
    ⟨[⟨[], utf8 "1", utf8 "2", utf8 "A 1"⟩], none, true⟩ := by
  decide +kernel

end SupplierCatalogView

end SageStore
