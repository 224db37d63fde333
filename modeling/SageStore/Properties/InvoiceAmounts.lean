import Mathlib.Algebra.BigOperators.Group.List.Basic
import SageStore.Client.Cents
import SageStore.Client.SalesView
import SageStore.Server.Steps

/-!
# The amounts of an invoice

The server stores quantities of 64 bits, and the invoice preview reads them into 32. A quantity
that does not fit is read as `0`, and the preview goes on. Amounts are shown with two decimals. So
the text that is shown bills what is stored exactly if all quantities on the lines fit and all
amounts are whole numbers of cents (`bills_iff`). The arithmetic behind the text is exact here
(`Qt.Exact`): what is lost besides is lost when a number is written (`Qt.RoundsToCents`).
-/

namespace SageStore

open Bytes BusinessLogic

variable {qt : Qt} {value : qt.Double → ℚ}

/-- A line as the server admits it: its quantity is a positive number of 64 bits, and its price
is a number. -/
structure OrderRecord.Admitted (record : OrderRecord) : Prop where
  quantity : ∃ n : ℕ, 0 < n ∧ n < 2 ^ 63 ∧ record.quantity = decimal n
  price : IsDecimalNumber record.price

/-- The exact amount of a line: its price times its quantity. -/
def OrderRecord.amount (record : OrderRecord) : ℚ :=
  numberValue record.price * digitsValue record.quantity

/-- A line of the text of an invoice. -/
def itemText (product quantity price amount : Bytes) : Bytes :=
  utf8 " - " ++ product ++ utf8 " | " ++ quantity ++ utf8 " x " ++ price ++ utf8 " = " ++ amount ++
    utf8 "\n"

/-- A text shows a number: it is a decimal number that denotes it. -/
def Shows (t : Bytes) (x : ℚ) : Prop := IsDecimalNumber t ∧ numberValue t = x

/-- A line of the text of an invoice bills a line of an order: it shows the quantity as it is
stored, and the amount, whatever price it shows. -/
def ItemBills (data : ReferenceData) (item : Bytes) (record : OrderRecord) : Prop :=
  ∃ price amount, IsDecimalNumber price ∧ Shows amount record.amount ∧
    item = itemText (SalesViewModel.productTypeLabel data record.productTypeId) record.quantity
      price amount

/-- What stands above the items of an invoice. -/
def Invoice.header (qt : Qt) (invoice : Invoice qt.Double) : Bytes :=
  qt.tr "SageStore Invoice" ++ utf8 "\n" ++
  qt.tr "Order ID" ++ utf8 ": " ++ invoice.orderId ++ utf8 "\n" ++
  qt.tr "Date" ++ utf8 ": " ++ invoice.date ++ utf8 "\n" ++
  qt.tr "Customer" ++ utf8 ": " ++ invoice.customer ++ utf8 "\n" ++
  qt.tr "Handled by" ++ utf8 ": " ++ invoice.handledBy ++ utf8 "\n" ++
  qt.tr "Status" ++ utf8 ": " ++ invoice.status ++ utf8 "\n\n" ++
  qt.tr "Items" ++ utf8 ":\n"

/-- The text that is shown bills the lines of an order: below the header it has an item for each
line, in their order, and nothing else but the sum of the amounts. -/
def Invoice.Bills (qt : Qt) (invoice : Invoice qt.Double) (data : ReferenceData)
    (records : List OrderRecord) : Prop :=
  ∃ items total, List.Forall₂ (ItemBills data) items records ∧
    Shows total (records.map OrderRecord.amount).sum ∧
    invoice.text qt = invoice.header qt ++ items.flatten ++ utf8 "\n" ++ qt.tr "Total" ++
      utf8 ": " ++ total ++ utf8 "\n"

/-! ### The total -/

/-- The total is the sum of the amounts. -/
theorem Invoice.value_total (h : qt.Exact value) (invoice : Invoice qt.Double) :
    value (invoice.total qt) = (invoice.lines.map fun line => value (line.amount qt)).sum := by
  suffices hfold : ∀ (lines : List (InvoiceLine qt.Double)) (total : qt.Double),
      value (lines.foldl (fun total line => qt.add total (line.amount qt)) total) =
        value total + (lines.map fun line => value (line.amount qt)).sum by
    rw [Invoice.total, hfold, h.ofInt, Int.cast_zero, zero_add]
  intro lines
  induction lines with
  | nil => exact fun total => (add_zero _).symm
  | cons line lines ih =>
    intro total
    rw [List.foldl_cons, ih, h.add, List.map_cons, List.sum_cons, add_assoc]

/-- Amounts in cents add up to cents. -/
theorem IsCents.sum {xs : List ℚ} (h : ∀ x ∈ xs, IsCents x) : IsCents xs.sum := by
  induction xs with
  | nil => exact ⟨0, by norm_num⟩
  | cons x xs ih =>
    obtain ⟨hx, hxs⟩ := List.forall_mem_cons.mp h
    obtain ⟨c, hc⟩ := hx
    obtain ⟨d, hd⟩ := ih hxs
    refine ⟨c + d, ?_⟩
    rw [List.sum_cons, add_mul, hc, hd, Int.cast_add]

/-! ### The text of an invoice -/

/-- A byte that decimal numbers are not spelled with stands in none. -/
theorem notMem_of_spelled {t : Bytes} {b : UInt8} (h : ∀ c ∈ t, isDecimalByte c = true)
    (hb : isDecimalByte b = false) : b ∉ t :=
  fun hmem => Bool.false_ne_true (hb ▸ h b hmem)

theorem spelled_ofInt (n : ℤ) : ∀ b ∈ Bytes.ofInt n, isDecimalByte b = true := by
  have hdigits (k : ℕ) : ∀ b ∈ decimal k, isDecimalByte b = true :=
    fun b hb => isDecimalByte_of_isDigit (isDigit_of_mem_decimal hb)
  rw [Bytes.ofInt]
  split
  · exact List.forall_mem_cons.mpr ⟨by decide, hdigits _⟩
  · exact hdigits _

/-- An item is read from the left: the product is known, the quantity and the price end with a
blank, and the amount with the line. -/
theorem itemText_append_inj {product quantity quantity' price price' amount amount' rest rest' :
      Bytes}
    (hquantity : ∀ b ∈ quantity, isDecimalByte b = true)
    (hquantity' : ∀ b ∈ quantity', isDecimalByte b = true)
    (hprice : IsDecimalNumber price) (hprice' : IsDecimalNumber price')
    (hamount : IsDecimalNumber amount) (hamount' : IsDecimalNumber amount') :
    itemText product quantity price amount ++ rest =
        itemText product quantity' price' amount' ++ rest' ↔
      quantity = quantity' ∧ price = price' ∧ amount = amount' ∧ rest = rest' := by
  have hspell (q p a r : Bytes) : itemText product q p a ++ r =
      (utf8 " - " ++ (product ++ utf8 " | ")) ++
        (q ++ 32 :: 120 :: 32 :: (p ++ 32 :: 61 :: 32 :: (a ++ 10 :: r))) := by
    have hx : utf8 " x " = [32, 120, 32] := by decide
    have heq : utf8 " = " = [32, 61, 32] := by decide
    have hnl : utf8 "\n" = [10] := by decide
    simp only [itemText, hx, heq, hnl, List.append_assoc, List.cons_append, List.nil_append]
  have hends (q q' : Bytes) (hq : ∀ b ∈ q, isDecimalByte b = true)
      (hq' : ∀ b ∈ q', isDecimalByte b = true) (c : UInt8) (hc : isDecimalByte c = false)
      (r r' : Bytes) : q ++ c :: r = q' ++ c :: r' ↔ q = q' ∧ r = r' :=
    append_cons_inj (notMem_of_spelled hq hc) (notMem_of_spelled hq' hc)
  rw [hspell, hspell, List.append_cancel_left_eq, hends _ _ hquantity hquantity' 32 (by decide)]
  simp only [List.cons.injEq, true_and, hends _ _ hprice.spelled hprice'.spelled 32 (by decide),
    hends _ _ hamount.spelled hamount'.spelled 10 (by decide)]

/-- The item of a line of an invoice. -/
def InvoiceLine.item (qt : Qt) (line : InvoiceLine qt.Double) : Bytes :=
  itemText line.product (Bytes.ofInt line.quantity) (qt.number line.price)
    (qt.number (line.amount qt))

/-- The text of an invoice is its header, its items and its total. -/
theorem Invoice.text_eq (qt : Qt) (invoice : Invoice qt.Double) :
    invoice.text qt = invoice.header qt ++ (invoice.lines.map (InvoiceLine.item qt)).flatten ++
      utf8 "\n" ++ qt.tr "Total" ++ utf8 ": " ++ qt.number (invoice.total qt) ++ utf8 "\n" := by
  rw [← List.flatMap_def]
  unfold text header InvoiceLine.item itemText
  rfl

/-! ### One line -/

/-- The line of the preview that is made from a line of the order. -/
def previewLine (qt : Qt) (data : ReferenceData) (record : OrderRecord) :
    InvoiceLine qt.Double where
  record := record
  product := SalesViewModel.productTypeLabel data record.productTypeId
  quantity := Qt.toInt record.quantity
  price := qt.toDouble record.price

/-- The quantity that is shown is the stored one exactly if that fits 32 bits. -/
theorem OrderRecord.Admitted.shown_quantity_iff {record : OrderRecord} (h : record.Admitted) :
    Bytes.ofInt (Qt.toInt record.quantity) = record.quantity ↔
      digitsValue record.quantity < 2 ^ 31 := by
  obtain ⟨n, hpos, -, hn⟩ := h.quantity
  rw [hn, digitsValue_decimal, Qt.toInt_decimal]
  constructor
  · intro hshown
    by_contra hlarge
    -- the quantity shown is `0`, and the one stored is positive
    rw [if_neg hlarge, ← ofInt_natCast n] at hshown
    have hzero := ofInt_injective hshown
    omega
  · intro hlt
    rw [if_pos hlt, ofInt_natCast]

/-- The amount of a line whose quantity fits is the exact one. -/
theorem value_previewLine_amount (h : qt.Exact value) (data : ReferenceData) {record : OrderRecord}
    (hadmitted : record.Admitted) (hfits : digitsValue record.quantity < 2 ^ 31) :
    value ((previewLine qt data record).amount qt) = record.amount := by
  obtain ⟨n, -, -, hn⟩ := hadmitted.quantity
  rw [hn, digitsValue_decimal] at hfits
  have hquantity : (previewLine qt data record).quantity = n := by
    change Qt.toInt record.quantity = n
    rw [hn, Qt.toInt_decimal, if_pos hfits]
  rw [InvoiceLine.amount, h.mul, h.ofInt, hquantity, OrderRecord.amount, hn, digitsValue_decimal,
    Int.cast_natCast]
  exact congrArg (· * (n : ℚ)) (h.toDouble _ hadmitted.price)

/-- What the preview shows of a line: its quantity and its amount, as they are billed. -/
structure ShowsLine (qt : Qt) (data : ReferenceData) (record : OrderRecord) : Prop where
  quantity : Bytes.ofInt (Qt.toInt record.quantity) = record.quantity
  amount : numberValue (qt.number ((previewLine qt data record).amount qt)) = record.amount

/-- A line is shown as it is billed, exactly if its quantity fits 32 bits and its amount has no
fraction of a cent. -/
theorem showsLine_iff (h : qt.Exact value) (hnumber : qt.RoundsToCents value)
    (data : ReferenceData) {record : OrderRecord} (hadmitted : record.Admitted) :
    ShowsLine qt data record ↔ digitsValue record.quantity < 2 ^ 31 ∧ IsCents record.amount := by
  constructor
  · rintro ⟨hquantity, hamount⟩
    have hfits := hadmitted.shown_quantity_iff.mp hquantity
    have hvalue := value_previewLine_amount h data hadmitted hfits
    exact ⟨hfits, hvalue ▸ (hnumber.numberValue_number_iff _).mp (hamount.trans hvalue.symm)⟩
  · rintro ⟨hfits, hcents⟩
    have hvalue := value_previewLine_amount h data hadmitted hfits
    exact ⟨hadmitted.shown_quantity_iff.mpr hfits,
      ((hnumber.numberValue_number_iff _).mpr (hvalue ▸ hcents)).trans hvalue⟩

/-! ### The preview -/

/-- A preview lists a line for each line of the model. -/
theorem buildInvoicePreview_eq (qt : Qt) {model : SalesModel} {order : SaleOrder}
    (horder : order ∈ model.orders) :
    ∃ invoice, SalesViewModel.buildInvoicePreview qt model order.id = some invoice ∧
      invoice.orderId = order.id ∧
        invoice.lines = model.orderRecords.map (previewLine qt model.referenceData) := by
  obtain ⟨found, hfound⟩ : ∃ found, (model.orders.find? fun o => o.id = order.id) = some found :=
    Option.isSome_iff_exists.mp (List.find?_isSome.mpr ⟨order, horder, decide_eq_true rfl⟩)
  have hid : found.id = order.id := by simpa using List.find?_some hfound
  refine ⟨_, congrArg (Option.map _) hfound, hid, rfl⟩

/-- Items of one order, with whatever follows them, show the same of each line. -/
theorem showsLine_of_items (hnumber : qt.RoundsToCents value) (data : ReferenceData)
    {items : List Bytes} {records : List OrderRecord}
    (hadmitted : ∀ record ∈ records, record.Admitted)
    (hitems : List.Forall₂ (ItemBills data) items records) {rest rest' : Bytes}
    (h : (records.map fun record => (previewLine qt data record).item qt).flatten ++ rest =
      items.flatten ++ rest') :
    ∀ record ∈ records, ShowsLine qt data record := by
  induction hitems with
  | nil => exact List.forall_mem_nil _
  | @cons item record items records hitem _ ih =>
    obtain ⟨hrecord, hrecords⟩ := List.forall_mem_cons.mp hadmitted
    obtain ⟨price, amount, hprice, ⟨hamount, hvalue⟩, rfl⟩ := hitem
    obtain ⟨n, -, -, hn⟩ := hrecord.quantity
    have hspelled : ∀ b ∈ record.quantity, isDecimalByte b = true := by
      rw [hn, ← ofInt_natCast]
      exact spelled_ofInt n
    rw [List.map_cons, List.flatten_cons, List.flatten_cons, List.append_assoc,
      List.append_assoc] at h
    obtain ⟨hquantity, -, hshown, hrest⟩ := (itemText_append_inj (spelled_ofInt _) hspelled
      (hnumber _).1 hprice (hnumber _).1 hamount).mp h
    refine List.forall_mem_cons.mpr ⟨⟨hquantity, ?_⟩, ih hrecords hrest⟩
    rw [hshown, hvalue]

/-- A line that is shown as it is billed has such an item. -/
theorem ShowsLine.itemBills (hnumber : qt.RoundsToCents value) {data : ReferenceData}
    {record : OrderRecord} (h : ShowsLine qt data record) :
    ItemBills data ((previewLine qt data record).item qt) record := by
  refine ⟨_, _, (hnumber (qt.toDouble record.price)).1, ⟨(hnumber _).1, h.amount⟩, ?_⟩
  rw [← h.quantity]
  rfl

/-- An invoice with a line for each line of an order bills them, exactly if all quantities fit 32
bits and no amount has a fraction of a cent. -/
theorem Invoice.bills_iff_forall (h : qt.Exact value) (hnumber : qt.RoundsToCents value)
    {data : ReferenceData} {records : List OrderRecord}
    (hadmitted : ∀ record ∈ records, record.Admitted) {invoice : Invoice qt.Double}
    (hlines : invoice.lines = records.map (previewLine qt data)) :
    invoice.Bills qt data records ↔
      ∀ record ∈ records, digitsValue record.quantity < 2 ^ 31 ∧ IsCents record.amount := by
  have hline (record) (hrecord : record ∈ records) :=
    showsLine_iff h hnumber data (hadmitted record hrecord)
  have htext := invoice.text_eq qt
  rw [hlines, List.map_map] at htext
  constructor
  · -- behind the header the text shows one item for each line, whatever the total is
    rintro ⟨items, total, hitems, -, hshown⟩
    rw [htext] at hshown
    simp only [List.append_assoc, List.append_cancel_left_eq] at hshown
    exact fun record hrecord => (hline record hrecord).mp
      (showsLine_of_items hnumber data hadmitted hitems hshown record hrecord)
  · intro hcond
    refine ⟨_, _, ?_, ⟨(hnumber _).1, ?_⟩, htext⟩
    · rw [List.forall₂_map_left_iff, List.forall₂_same]
      exact fun record hrecord =>
        ((hline record hrecord).mpr (hcond record hrecord)).itemBills hnumber
    · -- the total is the sum of amounts in cents, so it is in cents as well
      have hsum : value (invoice.total qt) = (records.map OrderRecord.amount).sum := by
        rw [invoice.value_total h, hlines, List.map_map]
        exact congrArg List.sum (List.map_congr_left fun record hrecord =>
          value_previewLine_amount h data (hadmitted record hrecord) (hcond record hrecord).1)
      rw [← hsum]
      refine (hnumber.numberValue_number_iff _).mpr ?_
      rw [hsum]
      refine IsCents.sum fun x hx => ?_
      obtain ⟨record, hrecord, rfl⟩ := List.mem_map.mp hx
      exact (hcond record hrecord).2

/-- **Invoices bill what is stored.** The text of the preview of an order with lines that the
server admits shows each with its quantity and its amount, and the sum of the amounts, exactly if
all quantities fit 32 bits and no amount has a fraction of a cent. -/
theorem bills_iff (h : qt.Exact value) (hnumber : qt.RoundsToCents value) {model : SalesModel}
    {order : SaleOrder} (horder : order ∈ model.orders)
    (hadmitted : ∀ record ∈ model.orderRecords, record.Admitted) :
    ∃ invoice, SalesViewModel.buildInvoicePreview qt model order.id = some invoice ∧
      (invoice.Bills qt model.referenceData model.orderRecords ↔
        ∀ record ∈ model.orderRecords,
          digitsValue record.quantity < 2 ^ 31 ∧ IsCents record.amount) := by
  obtain ⟨invoice, hinvoice, -, hlines⟩ := buildInvoicePreview_eq qt horder
  exact ⟨invoice, hinvoice, Invoice.bills_iff_forall h hnumber hadmitted hlines⟩

/-- The model of a view that shows one order with two lines. -/
def twoLines : SalesModel where
  orderRecords := [⟨utf8 "1", utf8 "1", utf8 "1", utf8 "1", utf8 "10.99"⟩,
    ⟨utf8 "2", utf8 "1", utf8 "1", utf8 "2", utf8 "10.995"⟩]
  lastOrderId := utf8 "1"
  orders := [⟨utf8 "1", utf8 "2024-02-19", utf8 "1", utf8 "1", utf8 "1", utf8 "Pending"⟩]
  referenceData := ⟨[], [], [], []⟩

/-- An order is billed whose amounts, of 10.99 and of 21.99, are in cents. -/
theorem bills_iff_twoLines :
    ∃ invoice, SalesViewModel.buildInvoicePreview .exact twoLines (utf8 "1") = some invoice ∧
      (invoice.Bills .exact twoLines.referenceData twoLines.orderRecords ↔
        ∀ record ∈ twoLines.orderRecords,
          digitsValue record.quantity < 2 ^ 31 ∧ IsCents record.amount) := by
  have horder : (⟨utf8 "1", utf8 "2024-02-19", utf8 "1", utf8 "1", utf8 "1", utf8 "Pending"⟩ :
      SaleOrder) ∈ twoLines.orders := List.mem_cons_self
  have hprice (t : Bytes) (h : floatPrefix t = some t ∧ t.all isDecimalByte = true) :
      IsDecimalNumber t := isDecimalNumber_iff.mpr ⟨h.1, List.all_eq_true.mp h.2⟩
  refine bills_iff Qt.exact_exact Qt.exact_roundsToCents horder (List.forall_mem_cons.mpr ⟨?_,
    List.forall_mem_singleton.mpr ?_⟩)
  · exact ⟨⟨1, by decide, by decide, by decide⟩, hprice _ (by decide +kernel)⟩
  · exact ⟨⟨2, by decide, by decide, by decide⟩, hprice _ (by decide +kernel)⟩

/-- The state in which the line of the initial setup has a quantity of 2^31 units. -/
def largeOrder : Session (Db .full) Exception :=
  (server .plain .full).run (server .plain .full).init
    [.plain "sales" "order-records" "PUT" "1" [("orderId", "1"), ("productTypeId", "1"),
      ("quantity", "2147483648"), ("price", "10.99")]]

/-- The invoices are listed, the first is selected, and its lines arrive. -/
def firstInvoice : SalesView Qt.exact.Double :=
  ((SalesView.machine .exact .plain noon .full).run
    (SalesView.machine .exact .plain noon .full).init
    [.act (.ordersList largeOrder.store), .act (.selectInvoice (some 0)),
      .deliver 0 largeOrder.store]).1

/-- What the preview shows of it. -/
def largeOrderText : Bytes :=
  utf8 "SageStore Invoice\nOrder ID: 1\nDate: 2024-02-19\nCustomer: 1\nHandled by: 1\n" ++
    utf8 "Status: Pending\n\nItems:\n - 1 | 0 x 10.99 = 0.00\n\nTotal: 0.00\n"

instance : DecidableEq (Invoice Qt.exact.Double) := inferInstanceAs (DecidableEq (Invoice ℚ))

/-- The invoice of that order shows no units and bills nothing. -/
theorem largeOrder_not_billed :
    (server .plain .full).Reachable largeOrder ∧
      ∃ invoice, firstInvoice.invoicePreview = some invoice ∧
        invoice.text .exact = largeOrderText ∧
        ¬invoice.Bills .exact firstInvoice.model.referenceData firstInvoice.model.orderRecords := by
  have hrecords : firstInvoice.model.orderRecords =
      [⟨utf8 "1", utf8 "1", utf8 "1", utf8 "2147483648", utf8 "10.99"⟩] := by decide +kernel
  have hpreview : firstInvoice.invoicePreview =
      SalesViewModel.buildInvoicePreview .exact firstInvoice.model (utf8 "1") := by decide +kernel
  have hids : firstInvoice.model.orders.map SaleOrder.id = [utf8 "1"] := by decide +kernel
  obtain ⟨order, horder, hid⟩ : ∃ order ∈ firstInvoice.model.orders, order.id = utf8 "1" :=
    List.mem_map.mp (hids ▸ List.mem_cons_self)
  obtain ⟨invoice, hinvoice, -, hlines⟩ := buildInvoicePreview_eq .exact horder
  rw [hid, ← hpreview] at hinvoice
  have htext : firstInvoice.invoicePreview.map (Invoice.text .exact) =
      some largeOrderText := by decide +kernel
  have hadmitted : ∀ record ∈ firstInvoice.model.orderRecords, record.Admitted := by
    rw [hrecords]
    exact List.forall_mem_singleton.mpr ⟨⟨2147483648, by decide, by decide, by decide +kernel⟩,
      isDecimalNumber_iff.mpr (by decide +kernel)⟩
  refine ⟨⟨_, rfl⟩, invoice, hinvoice, ?_, fun hbills => ?_⟩
  · rw [hinvoice] at htext
    exact Option.some.inj htext
  · have hfits := (Invoice.bills_iff_forall Qt.exact_exact Qt.exact_roundsToCents hadmitted
      hlines).mp hbills
    rw [hrecords] at hfits
    exact absurd (hfits _ List.mem_cons_self).1 (by decide +kernel)

end SageStore
