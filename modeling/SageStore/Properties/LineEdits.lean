import SageStore.Client.LineEditor
import SageStore.Properties.InvoiceAmounts

/-!
# Edits of single cells of a line

The table of lines sends a whole row when one of its cells was changed, with the price rounded to
two decimals, and does not send a row whose normalised texts are those of the stored line. So an
edit of the quantity or of the product carries the stored price exactly if that is a whole number
of cents, and a price that is entered is sent, and sent as it is, exactly if it is a whole number
of cents and the stored price does not round to it (`keepsPrice_iff`).

Prices are exact decimals (`QtNumbers.Exact`): the loss is that of the rounding to two decimals.
-/

namespace SageStore

open Bytes

/-! ### Prices in cents -/

/-- A price without a fraction of a cent. -/
def IsWholeCents (v : ℚ) : Prop := ∃ c : ℕ, v * 100 = c

/-! ### Rounding -/

section Rounding

variable {qt : QtNumbers} {value : qt.Double → ℚ} {cents : ℚ → ℕ}

/-- A whole number of cents is rounded to itself. -/
theorem QtNumbers.Exact.cents_eq (h : qt.Exact value cents) {v : ℚ} {c : ℕ} (hv : v * 100 = c) :
    cents v = c := by
  have hnonneg : 0 ≤ v := by
    have hc : (0 : ℚ) ≤ c := Nat.cast_nonneg c
    linarith
  have hnear := h.nearest v hnonneg
  rw [hv] at hnear
  have heq : (c : ℤ) = cents v := eq_of_abs_sub_lt (by push_cast; linarith)
  exact_mod_cast heq.symm

/-- What a price is rounded to is the price, exactly if that is a whole number of cents. -/
theorem QtNumbers.Exact.numberValue_cents_iff (h : qt.Exact value cents) (v : ℚ) :
    numberValue (centsText (cents v)) = v ↔ IsWholeCents v := by
  rw [numberValue_centsText]
  constructor
  · intro heq
    exact ⟨cents v, by linarith⟩
  · rintro ⟨c, hc⟩
    rw [h.cents_eq hc]
    linarith

end Rounding

/-! ### Texts of stored lines -/

/-- A decimal number has no white space. -/
theorem isSpaceChar_of_isDecimalByte {b : UInt8} (h : isDecimalByte b = true) :
    b.toNat < 128 ∧ Qt.isSpaceChar (Char.ofNat b.toNat) = false := by
  have hcode : (48 ≤ b.toNat ∧ b.toNat ≤ 57) ∨ b.toNat ∈ [43, 45, 46, 69, 101] := by
    rcases Bool.or_eq_true_iff.mp h with hdigit | hmem
    · left
      simpa [isDigit] using hdigit
    · right
      have hmem : b = 43 ∨ b = 45 ∨ b = 46 ∨ b = 69 ∨ b = 101 := by simpa using hmem
      rcases hmem with rfl | rfl | rfl | rfl | rfl <;> decide
  have hlt : b.toNat < 128 := by
    simp only [List.mem_cons, List.not_mem_nil, or_false] at hcode
    omega
  refine ⟨hlt, ?_⟩
  simp only [Qt.isSpaceChar, toNat_charOfNat hlt, List.mem_cons, List.not_mem_nil, or_false,
    Bool.or_eq_false_iff, Bool.and_eq_false_iff, decide_eq_false_iff_not] at hcode ⊢
  omega

/-- A decimal number is not trimmed. -/
theorem Qt.Documented.trimmed_decimalNumber {qt : Qt} (h : qt.Documented) {t : Bytes}
    (ht : IsDecimalNumber t) : qt.trimmed t = t := by
  have hbyte : ∀ b ∈ t, b.toNat < 128 ∧ Qt.isSpaceChar (Char.ofNat b.toNat) = false :=
    fun b hb => isSpaceChar_of_isDecimalByte (ht.spelled b hb)
  have hencode := flatMap_utf8EncodeChar fun b hb => (hbyte b hb).1
  have htight : Qt.IsTight (t.map fun b => Char.ofNat b.toNat) := by
    constructor
    · rw [List.head?_map, Option.all_map, Option.all_eq_true]
      intro b hb
      simp [(hbyte b (List.mem_of_mem_head? hb)).2]
    · rw [List.getLast?_map, Option.all_map, Option.all_eq_true]
      intro b hb
      simp [(hbyte b (List.mem_of_mem_getLast? hb)).2]
  have htrimmed := h.trimmed_tight _ htight
  rwa [hencode] at htrimmed

theorem Qt.Documented.trimmed_nil {qt : Qt} (h : qt.Documented) : qt.trimmed [] = [] :=
  h.trimmed_tight [] (by decide)

/-- `toInt` reads the numerals of its range. -/
theorem Qt.toInt?_decimal {n : ℕ} (h : n < 2 ^ 31) : Qt.toInt? (decimal n) = some (n : ℤ) := by
  have hdigits := isDigits_decimal n
  unfold Qt.toInt?
  simp only [trim_of_isDigits hdigits, splitSign_of_isDigits hdigits, digitsValue_decimal, hdigits,
    Bool.false_eq_true, if_false, true_and]
  exact if_pos (by omega)

section Parsing

variable (kind : OrderKind) (qt : QtNumbers) {value : qt.Double → ℚ} {cents : ℚ → ℕ}

/-- Both views parse quantities alike. -/
theorem parseQuantity_eq : kind.parseQuantity qt = PurchaseView.parsePositiveInteger qt := by
  cases kind <;> rfl

/-- Both views parse prices alike. -/
theorem parsePrice_eq : kind.parsePrice qt = PurchaseView.parseNonNegativeDecimal qt := by
  cases kind <;> rfl

/-- A quantity that is stored is normalised to itself. -/
theorem parseQuantity_decimal {n : ℕ} (hpos : 0 < n) (hlt : n < 2 ^ 31) :
    kind.parseQuantity qt (decimal n) = some (decimal n) := by
  rw [parseQuantity_eq, PurchaseView.parsePositiveInteger,
    qt.trimmed_digits _ (isDigits_decimal n), Qt.toInt?_decimal hlt, Option.bind_some,
    if_neg (by omega), ofInt_natCast]

/-- A price is normalised to its number of cents. -/
theorem parsePrice_of (h : qt.Exact value cents) {t : Bytes} (ht : IsDecimalNumber (qt.trimmed t))
    (hnonneg : 0 ≤ numberValue (qt.trimmed t)) :
    kind.parsePrice qt t = some (centsText (cents (numberValue (qt.trimmed t)))) := by
  obtain ⟨x, hx, hvalue⟩ := Option.map_eq_some_iff.mp (h.toDouble? _ ht)
  have hsign : ¬ qt.isNegative x = true := by
    rw [h.isNegative, hvalue]
    exact not_lt.mpr hnonneg
  rw [parsePrice_eq, PurchaseView.parseNonNegativeDecimal, hx, Option.bind_some, if_neg hsign,
    h.number x (hvalue ▸ hnonneg), hvalue]

end Parsing

/-- A stored line whose cells can be edited: it refers to a product, its quantity is a positive
number of 32 bits, and its price is a decimal number that is not negative. -/
structure OrderRecord.Editable (record : OrderRecord) : Prop where
  productTypeId : ∃ n : ℕ, record.productTypeId = decimal n
  quantity : ∃ n : ℕ, 0 < n ∧ n < 2 ^ 31 ∧ record.quantity = decimal n
  price : IsDecimalNumber record.price
  price_nonneg : 0 ≤ numberValue record.price

/-- The price of a line as a number. -/
def OrderRecord.priceValue (record : OrderRecord) : ℚ := numberValue record.price

section Rows

variable (kind : OrderKind) {qt : QtNumbers} {value : qt.Double → ℚ} {cents : ℚ → ℕ}
  {records : List OrderRecord} {record : OrderRecord}

/-- The line that a row is sent as after a change. -/
def RecordRow.sent (kind : OrderKind) (qt : QtNumbers) (records : List OrderRecord)
    (row : RecordRow) (c : RowChange) : Option OrderRecord :=
  (row.change kind qt records c).2.bind Emission.edit?

/-- A cell whose text is valid and is not the one that is tracked has its row sent. -/
theorem edit_onItemChanged (item : TableItem) (parse : Bytes → Option Bytes) (message : String)
    (set : TableItem → RecordRow) :
    (RecordRow.onItemChanged kind qt records item parse message set).2.bind Emission.edit? =
      (parse item.text).bind fun normalized =>
        if item.userRole = normalized then none
        else ((set item).persistOrderRecordRow kind qt records).2.bind Emission.edit? := by
  rw [RecordRow.onItemChanged]
  cases parse item.text with
  | none => rfl
  | some normalized =>
    dsimp only
    rw [Option.bind_some]
    split <;> rfl

/-- The price a row was filled with is normalised to its number of cents. -/
theorem parsePrice_stored (hqt : qt.Documented) (h : qt.Exact value cents)
    (hrecord : record.Editable) :
    kind.parsePrice qt record.price = some (centsText (cents record.priceValue)) := by
  have htrimmed := hqt.trimmed_decimalNumber hrecord.price
  have hprice := parsePrice_of kind qt h (htrimmed.symm ▸ hrecord.price)
    (htrimmed.symm ▸ hrecord.price_nonneg)
  rwa [htrimmed] at hprice

/-- A stored quantity is parsed to itself. -/
theorem parseQuantity_stored (hrecord : record.Editable) :
    kind.parseQuantity qt record.quantity = some record.quantity := by
  obtain ⟨n, hpos, hlt, hquantity⟩ := hrecord.quantity
  rw [hquantity]
  exact parseQuantity_decimal kind qt hpos hlt

theorem trimmed_productTypeId (qt : QtNumbers) (hrecord : record.Editable) :
    qt.trimmed record.productTypeId = record.productTypeId ∧ record.productTypeId ≠ [] := by
  obtain ⟨n, hproduct⟩ := hrecord.productTypeId
  rw [hproduct]
  exact ⟨qt.trimmed_digits _ (isDigits_decimal n), decimal_ne_nil n⟩

/-- A stored line is compared by its product, its quantity and its number of cents. -/
theorem matchesOrderRecordSnapshot_iff (hqt : qt.Documented) (h : qt.Exact value cents)
    (hrecord : record.Editable) {productTypeId quantity price : Bytes} :
    kind.matchesOrderRecordSnapshot qt record productTypeId quantity price = true ↔
      record.productTypeId = productTypeId ∧ record.quantity = quantity ∧
        centsText (cents record.priceValue) = price := by
  rw [OrderKind.matchesOrderRecordSnapshot, parsePrice_stored kind hqt h hrecord,
    parseQuantity_stored kind hrecord]
  simp [and_assoc]

/-! ### One change of a row as it was filled -/

variable (hqt : qt.Documented) (h : qt.Exact value cents) (hrecord : record.Editable)
  (hfind : records.find? (fun r => r.id = record.id) = some record)
include hqt h hrecord hfind

/-- **What is sent of a row whose texts are valid**: its normalised texts, unless they are those of
the stored line. -/
theorem edit_persistOrderRecordRow {row : RecordRow} {quantity price : Bytes}
    (hid : row.id.text = record.id) (horder : row.orderId.text = record.orderId)
    (hproduct : qt.trimmed row.productTypeId.text ≠ [])
    (hquantity : kind.parseQuantity qt row.quantity.text = some quantity)
    (hprice : kind.parsePrice qt row.price.text = some price) :
    (row.persistOrderRecordRow kind qt records).2.bind Emission.edit? =
      if record.productTypeId = qt.trimmed row.productTypeId.text ∧ record.quantity = quantity ∧
          centsText (cents record.priceValue) = price then none
      else
        some ⟨record.id, record.orderId, qt.trimmed row.productTypeId.text, quantity, price⟩ := by
  rw [RecordRow.persistOrderRecordRow]
  dsimp only
  rw [if_neg hproduct, hquantity]
  dsimp only
  rw [hprice]
  dsimp only
  rw [hid, horder, hfind, Option.any_some]
  simp only [matchesOrderRecordSnapshot_iff kind hqt h hrecord]
  split <;> rfl

/-- **A quantity.** If the text is another quantity than the stored one, the row is sent with it
and with the price rounded to cents; and nothing is sent otherwise. -/
theorem sent_quantity (text : Bytes) :
    (RecordRow.ofRecord record).sent kind qt records (.quantity text) =
      (kind.parseQuantity qt text).bind fun quantity =>
        if record.quantity = quantity then none
        else some ⟨record.id, record.orderId, record.productTypeId, quantity,
          centsText (cents record.priceValue)⟩ := by
  obtain ⟨htrimmed, hne⟩ := trimmed_productTypeId qt hrecord
  let item := (TableItem.create record.quantity).setText text
  have hsent : (RecordRow.ofRecord record).sent kind qt records (.quantity text) =
      (RecordRow.onItemChanged kind qt records item (kind.parseQuantity qt)
        "Quantity must be a positive integer." fun item =>
          { RecordRow.ofRecord record with quantity := item }).2.bind Emission.edit? := rfl
  rw [hsent, edit_onItemChanged]
  refine Option.bind_congr fun quantity hquantity =>
    if_ctx_congr Iff.rfl (fun _ => rfl) fun hother => ?_
  rw [edit_persistOrderRecordRow kind hqt h hrecord hfind rfl rfl (htrimmed.symm ▸ hne) hquantity
    (parsePrice_stored kind hqt h hrecord)]
  -- the quantity tells the row from the stored line
  exact (if_neg fun hsame => hother hsame.2.1).trans (by rw [← htrimmed]; rfl)

/-- **A product.** If it is another one than the stored one, the row is sent with it and with the
price rounded to cents. -/
theorem sent_product (choice : Bytes) :
    (RecordRow.ofRecord record).sent kind qt records (.product choice) =
      if qt.trimmed choice = [] ∨ record.productTypeId = qt.trimmed choice then none
      else some ⟨record.id, record.orderId, qt.trimmed choice, record.quantity,
        centsText (cents record.priceValue)⟩ := by
  let row := { RecordRow.ofRecord record with productTypeId := .create choice }
  have hsent : (RecordRow.ofRecord record).sent kind qt records (.product choice) =
      (if choice = [] then (RecordRow.ofRecord record, none)
        else row.persistOrderRecordRow kind qt records).2.bind Emission.edit? := rfl
  rw [hsent]
  by_cases hchoice : choice = []
  · rw [if_pos hchoice, hchoice, hqt.trimmed_nil, if_pos (Or.inl rfl)]
    rfl
  rw [if_neg hchoice]
  by_cases hempty : qt.trimmed choice = []
  · rw [if_pos (Or.inl hempty), RecordRow.persistOrderRecordRow]
    dsimp only
    rw [show qt.trimmed row.productTypeId.text = [] from hempty, if_pos rfl]
    rfl
  · have hid : row.id.text = record.id := rfl
    rw [edit_persistOrderRecordRow kind hqt h hrecord hfind hid rfl hempty
      (parseQuantity_stored kind hrecord) (parsePrice_stored kind hqt h hrecord)]
    -- the other texts are those of the stored line
    refine if_congr ⟨fun hsame => Or.inr hsame.1, fun hsame => ?_⟩ rfl rfl
    exact ⟨hsame.resolve_left hempty, rfl, rfl⟩

/-- **A price.** It is rounded to cents, and the row is sent if the stored price is rounded to
other cents. -/
theorem sent_price {text : Bytes} (htext : IsDecimalNumber (qt.trimmed text))
    (hnonneg : 0 ≤ numberValue (qt.trimmed text)) :
    (RecordRow.ofRecord record).sent kind qt records (.price text) =
      if cents record.priceValue = cents (numberValue (qt.trimmed text)) then none
      else some ⟨record.id, record.orderId, record.productTypeId, record.quantity,
        centsText (cents (numberValue (qt.trimmed text)))⟩ := by
  obtain ⟨htrimmed, hne⟩ := trimmed_productTypeId qt hrecord
  have hparse := parsePrice_of kind qt h htext hnonneg
  let item := (TableItem.create record.price).setText text
  have hsent : (RecordRow.ofRecord record).sent kind qt records (.price text) =
      (RecordRow.onItemChanged kind qt records item (kind.parsePrice qt)
        "Price must be a non-negative number." fun item =>
          { RecordRow.ofRecord record with price := item }).2.bind Emission.edit? := rfl
  rw [hsent, edit_onItemChanged, show kind.parsePrice qt item.text = _ from hparse,
    Option.bind_some]
  by_cases htracked : record.price = centsText (cents (numberValue (qt.trimmed text)))
  · -- the stored price is the rounded one, so it is rounded to itself
    have hcents : cents record.priceValue = cents (numberValue (qt.trimmed text)) := by
      refine h.cents_eq ?_
      rw [OrderRecord.priceValue, htracked, numberValue_centsText]
      linarith
    rw [if_pos hcents]
    exact if_pos htracked
  · -- the row is compared with the record, both rounded
    refine (if_neg htracked).trans ?_
    rw [edit_persistOrderRecordRow kind hqt h hrecord hfind rfl rfl (htrimmed.symm ▸ hne)
      (parseQuantity_stored kind hrecord) hparse]
    refine if_congr ⟨fun hsame => centsText_injective hsame.2.2, fun hsame => ?_⟩ rfl ?_
    · exact ⟨htrimmed.symm, rfl, congrArg centsText hsame⟩
    · rw [← htrimmed]
      rfl

end Rows

/-! ### The table -/

namespace RecordsTable

variable (kind : OrderKind) (qt : QtNumbers)

/-- The table after some changes of rows. -/
def run (table : RecordsTable) (changes : List (ℕ × RowChange)) : RecordsTable :=
  changes.foldl (fun table c => (table.change kind qt c.1 c.2).1) table

/-- The line that is sent when a row is changed. -/
def sent (table : RecordsTable) (row : ℕ) (c : RowChange) : Option OrderRecord :=
  (table.change kind qt row c).2.bind Emission.edit?

/-- A change of a row leaves the other rows, and the lines the table was filled with. -/
theorem change_of_ne (table : RecordsTable) {row i : ℕ} (c : RowChange) (hne : row ≠ i) :
    (table.change kind qt row c).1.rows[i]? = table.rows[i]? ∧
      (table.change kind qt row c).1.currentRecords = table.currentRecords := by
  rw [change]
  split
  · exact ⟨rfl, rfl⟩
  · exact ⟨List.getElem?_set_ne hne, rfl⟩

/-- Edits of other rows leave a row as it is. -/
theorem run_of_ne (table : RecordsTable) {i : ℕ} {changes : List (ℕ × RowChange)}
    (hne : ∀ c ∈ changes, c.1 ≠ i) :
    (table.run kind qt changes).rows[i]? = table.rows[i]? ∧
      (table.run kind qt changes).currentRecords = table.currentRecords := by
  induction changes generalizing table with
  | nil => exact ⟨rfl, rfl⟩
  | cons c changes ih =>
    obtain ⟨hrow, hrecords⟩ := change_of_ne kind qt table c.2 (hne c List.mem_cons_self)
    obtain ⟨hrow', hrecords'⟩ := ih (table.change kind qt c.1 c.2).1 fun c' hc' =>
      hne c' (List.mem_cons_of_mem c hc')
    exact ⟨hrow'.trans hrow, hrecords'.trans hrecords⟩

/-- A row that was not changed since the table was filled is sent as the row of its line. -/
theorem sent_run {records : List OrderRecord} {i : ℕ} {record : OrderRecord}
    (hi : records[i]? = some record) {others : List (ℕ × RowChange)}
    (hothers : ∀ c ∈ others, c.1 ≠ i) (c : RowChange) :
    ((fillRecordsTable records).run kind qt others).sent kind qt i c =
      (RecordRow.ofRecord record).sent kind qt records c := by
  obtain ⟨hrow, hrecords⟩ := run_of_ne kind qt (fillRecordsTable records) hothers
  have hfilled : (fillRecordsTable records).rows[i]? = some (.ofRecord record) := by
    rw [fillRecordsTable, List.getElem?_map, hi]
    rfl
  rw [sent, change, hrow.trans hfilled, hrecords]
  rfl

end RecordsTable

/-- A line is found by its identifier, if no other line has it. -/
theorem find?_of_nodup {records : List OrderRecord} (h : (records.map OrderRecord.id).Nodup)
    {record : OrderRecord} (hmem : record ∈ records) :
    records.find? (fun r => r.id = record.id) = some record := by
  cases hfind : records.find? fun r => r.id = record.id with
  | none =>
    have hother := List.find?_eq_none.mp hfind record hmem
    simp at hother
  | some r =>
    have hid : r.id = record.id := by simpa using List.find?_some hfind
    exact congrArg some (List.inj_on_of_nodup_map h (List.mem_of_find?_eq_some hfind) hmem hid)

/-! ### Prices that are kept -/

/-- **What a change of a row is to send.** After a change of the quantity or of the product, a line
with the stored price, if it sends one; after a price was entered that is not the stored one, a line
with that price. -/
def KeepsPrice (kind : OrderKind) (qt : QtNumbers) (table : RecordsTable) (row : ℕ)
    (record : OrderRecord) : RowChange → Prop
  | .price text =>
    IsDecimalNumber (qt.trimmed text) → 0 ≤ numberValue (qt.trimmed text) →
      numberValue (qt.trimmed text) ≠ record.priceValue →
        ∃ edit, table.sent kind qt row (.price text) = some edit ∧
          edit.priceValue = numberValue (qt.trimmed text)
  | c => ∀ edit, table.sent kind qt row c = some edit → edit.priceValue = record.priceValue

/-- A change that rounding does not spoil: the price that is sent has no fraction of a cent, or
nothing is to be sent; and a price that is entered is not the one to which the stored price is
rounded. -/
def RowChange.Unspoiled (kind : OrderKind) (qt : QtNumbers) (cents : ℚ → ℕ)
    (record : OrderRecord) : RowChange → Prop
  | .quantity text => IsWholeCents record.priceValue ∨
      ∀ quantity, kind.parseQuantity qt text = some quantity → record.quantity = quantity
  | .product choice => IsWholeCents record.priceValue ∨
      qt.trimmed choice = [] ∨ record.productTypeId = qt.trimmed choice
  | .price text =>
    IsDecimalNumber (qt.trimmed text) → 0 ≤ numberValue (qt.trimmed text) →
      numberValue (qt.trimmed text) = record.priceValue ∨
        IsWholeCents (numberValue (qt.trimmed text)) ∧
          cents record.priceValue ≠ cents (numberValue (qt.trimmed text))

section KeepsPrice

variable (kind : OrderKind) {qt : QtNumbers} {value : qt.Double → ℚ} {cents : ℚ → ℕ}
  {records : List OrderRecord} {record : OrderRecord}

/-- A line that is sent with the rounded price has the stored one, exactly if that is a whole
number of cents. -/
theorem rounded_iff (h : qt.Exact value cents) {sent : Option OrderRecord}
    (hprice : ∀ edit ∈ sent, edit.price = centsText (cents record.priceValue)) :
    (∀ edit, sent = some edit → edit.priceValue = record.priceValue) ↔
      IsWholeCents record.priceValue ∨ sent = none := by
  cases hsent : sent with
  | none => simp
  | some edit =>
    have hvalue : edit.priceValue = record.priceValue ↔ IsWholeCents record.priceValue := by
      rw [OrderRecord.priceValue, hprice edit hsent]
      exact h.numberValue_cents_iff _
    simp [hvalue]

section Changes

variable (hqt : qt.Documented) (h : qt.Exact value cents) (hrecord : record.Editable)
  (hfind : records.find? (fun r => r.id = record.id) = some record)
include hqt h hrecord hfind

/-- A new quantity keeps the price if that is in cents, or if there is nothing to send. -/
theorem sent_quantity_keeps_iff (text : Bytes) :
    (∀ edit, (RecordRow.ofRecord record).sent kind qt records (.quantity text) = some edit →
        edit.priceValue = record.priceValue) ↔
      (RowChange.quantity text).Unspoiled kind qt cents record := by
  rw [sent_quantity kind hqt h hrecord hfind]
  refine (rounded_iff h fun edit hedit => ?_).trans (or_congr_right ?_)
  · obtain ⟨quantity, -, hif⟩ := Option.bind_eq_some_iff.mp hedit
    obtain rfl := Option.some.inj (Option.ite_none_left_eq_some.mp hif).2
    rfl
  · rw [Option.bind_eq_none_iff]
    simp

/-- Another product keeps the price if that is in cents, or if there is nothing to send. -/
theorem sent_product_keeps_iff (choice : Bytes) :
    (∀ edit, (RecordRow.ofRecord record).sent kind qt records (.product choice) = some edit →
        edit.priceValue = record.priceValue) ↔
      (RowChange.product choice).Unspoiled kind qt cents record := by
  rw [sent_product kind hqt h hrecord hfind]
  refine (rounded_iff h fun edit hedit => ?_).trans (or_congr_right ?_)
  · obtain rfl := Option.some.inj (Option.ite_none_left_eq_some.mp hedit).2
    rfl
  · rw [ite_eq_left_iff]
    simp only [reduceCtorEq, imp_false, not_not]

/-- A price other than the stored one is sent as it is if it is in cents, and those are not the
ones to which the stored price is rounded. -/
theorem sent_price_keeps_iff {text : Bytes} (htext : IsDecimalNumber (qt.trimmed text))
    (hnonneg : 0 ≤ numberValue (qt.trimmed text)) :
    (numberValue (qt.trimmed text) ≠ record.priceValue →
        ∃ edit, (RecordRow.ofRecord record).sent kind qt records (.price text) = some edit ∧
          edit.priceValue = numberValue (qt.trimmed text)) ↔
      (numberValue (qt.trimmed text) = record.priceValue ∨
        IsWholeCents (numberValue (qt.trimmed text)) ∧
          cents record.priceValue ≠ cents (numberValue (qt.trimmed text))) := by
  rw [sent_price kind hqt h hrecord hfind htext hnonneg]
  generalize numberValue (qt.trimmed text) = entered
  constructor
  · intro hkeeps
    by_cases hsame : entered = record.priceValue
    · exact Or.inl hsame
    · obtain ⟨edit, hedit, hprice⟩ := hkeeps hsame
      obtain ⟨hcents, hline⟩ := Option.ite_none_left_eq_some.mp hedit
      obtain rfl := Option.some.inj hline
      exact Or.inr ⟨(h.numberValue_cents_iff entered).mp hprice, hcents⟩
  · intro hunspoiled hne
    obtain ⟨hwhole, hcents⟩ := hunspoiled.resolve_left hne
    exact ⟨_, if_neg hcents, (h.numberValue_cents_iff entered).mpr hwhole⟩

end Changes

/-- **When an edit keeps the price.** -/
theorem keepsPrice_iff (kind : OrderKind) (hqt : qt.Documented) (h : qt.Exact value cents)
    {records : List OrderRecord} (hids : (records.map OrderRecord.id).Nodup) {i : ℕ}
    {record : OrderRecord} (hi : records[i]? = some record) (hrecord : record.Editable)
    {others : List (ℕ × RowChange)} (hothers : ∀ c ∈ others, c.1 ≠ i) (c : RowChange) :
    KeepsPrice kind qt ((RecordsTable.fillRecordsTable records).run kind qt others) i record c ↔
      c.Unspoiled kind qt cents record := by
  have hfind := find?_of_nodup hids (List.mem_of_getElem? hi)
  have hsent := RecordsTable.sent_run kind qt hi hothers c
  cases c with
  | quantity text =>
    change (∀ edit, _ = some edit → _) ↔ _
    rw [hsent]
    exact sent_quantity_keeps_iff kind hqt h hrecord hfind text
  | product choice =>
    change (∀ edit, _ = some edit → _) ↔ _
    rw [hsent]
    exact sent_product_keeps_iff kind hqt h hrecord hfind choice
  | price text =>
    refine forall_congr' fun htext => forall_congr' fun hnonneg => ?_
    rw [hsent]
    exact sent_price_keeps_iff kind hqt h hrecord hfind htext hnonneg

end KeepsPrice

theorem QtNumbers.exact_documented : Qt.Documented QtNumbers.exact.toQt :=
  ⟨Qt.plain_documented.trimmed_pad, Qt.plain_documented.trimmed_tight,
    Qt.plain_documented.equalsIgnoringCase_iff⟩

/-- A line with a price of three decimals. -/
def preciseLine : OrderRecord := ⟨"7", "1", "1", "2", "10.994"⟩

/-- The table with this line. -/
def preciseTable : RecordsTable := .fillRecordsTable [preciseLine]

/-- A new quantity sends the line with another price. -/
theorem not_keepsPrice_quantity (kind : OrderKind) :
    ¬KeepsPrice kind .exact preciseTable 0 preciseLine (.quantity "3") := by
  intro hkeeps
  have hsent : (preciseTable.sent kind .exact 0 (.quantity "3")).map OrderRecord.price =
      some (utf8 "10.99") := by cases kind <;> decide +kernel
  obtain ⟨edit, hedit, hprice⟩ := Option.map_eq_some_iff.mp hsent
  have hkept := hkeeps edit hedit
  rw [OrderRecord.priceValue, hprice] at hkept
  exact absurd hkept (by decide +kernel)

/-- The price `10.99` that is entered for `10.994` is not sent. -/
theorem not_keepsPrice_price (kind : OrderKind) :
    ¬KeepsPrice kind .exact preciseTable 0 preciseLine (.price "10.99") := by
  intro hkeeps
  have hsent : preciseTable.sent kind .exact 0 (.price "10.99") = none := by
    cases kind <;> decide +kernel
  have htrimmed : QtNumbers.exact.trimmed (utf8 "10.99") = utf8 "10.99" := by decide +kernel
  have hnumber : IsDecimalNumber (utf8 "10.99") := isDecimalNumber_centsText 1099
  have hnonneg : 0 ≤ numberValue (utf8 "10.99") := by decide +kernel
  have hentered : numberValue (utf8 "10.99") ≠ preciseLine.priceValue := by decide +kernel
  obtain ⟨edit, hedit, -⟩ := hkeeps (htrimmed.symm ▸ hnumber) (htrimmed.symm ▸ hnonneg)
    (htrimmed.symm ▸ hentered)
  rw [hsent] at hedit
  cases hedit

/-- **A price that is not kept**, in neither view. -/
theorem preciseLine_not_kept :
    (¬KeepsPrice .sales .exact preciseTable 0 preciseLine (.quantity "3") ∧
      ¬KeepsPrice .sales .exact preciseTable 0 preciseLine (.price "10.99")) ∧
    ¬KeepsPrice .purchase .exact preciseTable 0 preciseLine (.quantity "3") ∧
      ¬KeepsPrice .purchase .exact preciseTable 0 preciseLine (.price "10.99") :=
  ⟨⟨not_keepsPrice_quantity .sales, not_keepsPrice_price .sales⟩,
    not_keepsPrice_quantity .purchase, not_keepsPrice_price .purchase⟩

/-- A line with a price in cents, of which the quantity is changed after another line was. -/
theorem keepsPrice_iff_second :
    let line : OrderRecord := ⟨"8", "1", "2", "1", "10.5"⟩
    let table := RecordsTable.fillRecordsTable [preciseLine, line]
    KeepsPrice .purchase .exact (table.run .purchase .exact [(0, .quantity "3")]) 1 line
      (.quantity "4") := by
  intro line table
  have hline : line.Editable :=
    ⟨⟨2, by decide +kernel⟩, ⟨1, by decide +kernel⟩, isDecimalNumber_iff.mpr (by decide +kernel),
      by decide +kernel⟩
  exact (keepsPrice_iff .purchase QtNumbers.exact_documented QtNumbers.exact_exact
    (by decide +kernel) rfl hline (by decide) _).mpr (Or.inl ⟨1050, by decide +kernel⟩)

end SageStore
