import SageStore.Foundation.DecimalNumber
import SageStore.Properties.OrderLines
import SageStore.Server.LineWrites

/-!
# The quantity and the price of a line

`getRequiredPositiveInteger` refuses the text `0`, and no other spelling of zero. So stored
quantities are positive as long as no line is written with a quantity of several zeros
(`quantities_positive_iff`).

`getRequiredNumber` accepts a price when `std::stod` finds a numeral at its start, whatever
follows the numeral, and a numeral need not be a finite decimal number. An accepted price is
one when the numeral is the whole text and has only the bytes of decimal numbers. Every reader
then reads one number in the stored price, unless the database has rounded the price out of the
range of the numbers (`price_decimal_iff`).
-/

namespace SageStore

open Bytes Program BusinessLogic

variable {e : Enforcement} {p : Platform} {now : UtcTime} {req : RequestData}
  {faults : List (Option Exception)} {d d' : Db e} {reply : ResponseData}

/-- A cell holds a positive integer that fits 64 signed bits. -/
def Cell.IsPositive (c : Cell) : Prop := ∃ n : ℕ, c = .int n ∧ 1 ≤ n ∧ n < 2 ^ 63

/-- The quantity of every line is positive. -/
structure QuantitiesPositive (d : Db e) : Prop where
  purchase : ∀ r ∈ (d .purchaseOrderRecord).rows, Cell.IsPositive r.2.quantity
  sales : ∀ r ∈ (d .salesOrderRecord).rows, Cell.IsPositive r.2.quantity

/-- A text of two zeros or more. -/
def IsZeros (t : Bytes) : Prop := 2 ≤ t.length ∧ ∀ b ∈ t, b = 48

instance (t : Bytes) : Decidable (IsZeros t) := inferInstanceAs (Decidable (_ ∧ _))

/-- The request writes a line whose quantity is a text of several zeros. -/
def RequestData.WritesZeros (req : RequestData) : Prop :=
  req.WritesLine ∧ IsZeros (getOptionalDatasetValue req.dataset "quantity")

instance (req : RequestData) : Decidable req.WritesZeros :=
  inferInstanceAs (Decidable (_ ∧ _))

/-- A digit string other than `0` denotes zero only if it is several zeros. -/
theorem digitsValue_pos_iff {t : Bytes} (h : isDigits t = true) (hne : t ≠ utf8 "0") :
    1 ≤ digitsValue t ↔ ¬ IsZeros t := by
  have hlength : (∀ b ∈ t, b = 48) → 2 ≤ t.length := by
    intro hall
    match t, h, hne, hall with
    | [b], _, hne, hall => exact absurd (congrArg (· :: []) (hall b (by simp))) hne
    | _ :: _ :: _, _, _, _ => simp
  have hzero : IsZeros t ↔ digitsValue t = 0 := by
    rw [digitsValue_eq_zero_iff h]
    exact ⟨And.right, fun hall => ⟨hlength hall, hall⟩⟩
  rw [hzero]
  omega

/-- The quantity of a line that was built is positive, unless it is several zeros. -/
theorem quantity_isPositive_iff {component : String} {request : Dataset} {resourceId : Bytes}
    {x : OrderRecord} (h : buildOrderRecordOf component p request resourceId = .ok x) :
    Cell.IsPositive (OrderRecord.row p x).quantity ↔
      ¬ IsZeros (getOptionalDatasetValue request "quantity") := by
  obtain ⟨⟨htext, hdigits, hlt, hne⟩, -⟩ := buildOrderRecordOf_fields h
  have hcell : (OrderRecord.row p x).quantity = .int (digitsValue x.quantity) :=
    p.cell_of_isDigits hdigits hlt
  rw [← htext, ← digitsValue_pos_iff hdigits hne, hcell]
  constructor
  · rintro ⟨n, hn, hpos, -⟩
    obtain rfl : digitsValue x.quantity = n := by simpa using hn
    exact hpos
  · exact fun hpos => ⟨_, rfl, hpos, hlt⟩

/-- Rows whose quantities are positive stay so when a line is written that is not zero. -/
theorem LineWritten.isPositive {request : Dataset} {T T' : Table OrderRecordRow}
    (h : LineWritten p request T T') (hT : ∀ r ∈ T.rows, Cell.IsPositive r.2.quantity)
    (hzeros : ¬ IsZeros (getOptionalDatasetValue request "quantity")) :
    ∀ r ∈ T'.rows, Cell.IsPositive r.2.quantity := by
  obtain ⟨component, resourceId, x, hx, hputs⟩ := h
  intro r hr
  rcases hputs.only r hr with hr | heq
  · exact hT r hr
  · rw [heq]
    exact (quantity_isPositive_iff hx).mpr hzeros

/-- A line that is several zeros is there after it was written. -/
theorem LineWritten.not_isPositive {request : Dataset} {T T' : Table OrderRecordRow}
    (h : LineWritten p request T T')
    (hzeros : IsZeros (getOptionalDatasetValue request "quantity")) :
    ¬ ∀ r ∈ T'.rows, Cell.IsPositive r.2.quantity := by
  obtain ⟨component, resourceId, x, hx, hputs⟩ := h
  intro hall
  obtain ⟨r, hr, heq⟩ := hputs.there
  have hr := hall r hr
  rw [heq] at hr
  exact (quantity_isPositive_iff hx).mp hr hzeros

/-- A request that writes no line of a table leaves no line there that was not there before. -/
theorem lines_subset (hstep : ∀ t, TableStep p now req d t (d' t)) :
    (¬ (req.Addresses .salesOrderRecord ∧
        (req.method = utf8 "POST" ∨ req.method = utf8 "PUT")) →
      ∀ r ∈ (d' .salesOrderRecord).rows, r ∈ (d .salesOrderRecord).rows) ∧
    (¬ (req.Addresses .purchaseOrderRecord ∧
        (req.method = utf8 "POST" ∨ req.method = utf8 "PUT")) →
      ∀ r ∈ (d' .purchaseOrderRecord).rows, r ∈ (d .purchaseOrderRecord).rows) := by
  constructor
  · intro hno r hr
    have howner : (⟨.salesOrderRecord, OrderRecordRow.orderId, .saleOrder⟩ : ForeignKey Row) ∈
        lineOwners := List.mem_cons_self
    exact (line_step howner (hstep _) r hr).resolve_right fun h => hno h.1
  · intro hno r hr
    have howner : (⟨.purchaseOrderRecord, OrderRecordRow.orderId, .purchaseOrder⟩ :
        ForeignKey Row) ∈ lineOwners := List.mem_cons_of_mem _ List.mem_cons_self
    exact (line_step howner (hstep _) r hr).resolve_right fun h => hno h.1

/-- A request that writes no line of several zeros keeps the quantities positive. -/
theorem QuantitiesPositive.step {s : Session (Db e) Exception} (hs : (server p e).Reachable s)
    (h : QuantitiesPositive s.store) {ev : Event} (hev : ¬ ev.request.WritesZeros) :
    QuantitiesPositive ((server p e).step s ev).2.store := by
  have hstep := Server.step_spec hs ev
  obtain ⟨hsales, hpurchase⟩ := lines_subset hstep.table
  by_cases hw : ev.request.WritesLine
  · by_cases hreply : utf8 "error" ∈ ((server p e).step s ev).1.dataset
    · -- a write that is not accepted writes nothing
      rwa [hstep.unchanged_of_error (write_ne hw.2).2 hreply]
    · have hzeros : ¬ IsZeros (getOptionalDatasetValue ev.request.dataset "quantity") :=
        fun hz => hev ⟨hw, hz⟩
      -- the line that is written is positive, and the other table gets no line
      rcases lineWritten (s := { s with faults := ev.faults }) hw hreply with
        ⟨haddr, hwritten⟩ | ⟨haddr, hwritten⟩
      · refine ⟨fun r hr => h.purchase r (hpurchase (fun hp => ?_) r hr),
          hwritten.isPositive h.sales hzeros⟩
        exact absurd (haddr.unique hp.1) (by decide)
      · refine ⟨hwritten.isPositive h.purchase hzeros,
          fun r hr => h.sales r (hsales (fun hp => ?_) r hr)⟩
        exact absurd (haddr.unique hp.1) (by decide)
  · -- neither table gets a line
    refine ⟨fun r hr => h.purchase r (hpurchase (fun hp => ?_) r hr),
      fun r hr => h.sales r (hsales (fun hp => ?_) r hr)⟩
    · exact hw ⟨⟨_, by simp [lineTables], hp.1⟩, hp.2⟩
    · exact hw ⟨⟨_, by simp [lineTables], hp.1⟩, hp.2⟩

theorem quantitiesPositive_seed : QuantitiesPositive (seed e) where
  purchase := by
    have h : ∀ r ∈ (Table.ofRows (seedRows .purchaseOrderRecord)).rows,
        r.2.quantity = .int (1 : ℕ) := by decide
    exact fun r hr => ⟨1, h r hr, le_rfl, by norm_num⟩
  sales := by
    have h : ∀ r ∈ (Table.ofRows (seedRows .salesOrderRecord)).rows,
        r.2.quantity = .int (1 : ℕ) := by decide
    exact fun r hr => ⟨1, h r hr, le_rfl, by norm_num⟩

/-- **When quantities are positive.** In a run in which no request writes a line whose quantity
is a text of several zeros, the quantities of all lines are positive in every state that is
reached. A run in which such a request is accepted reaches a state in which they are not. -/
theorem quantities_positive_iff (p : Platform) (evs : List Event) :
    let M := server p .full
    let Positive := ∀ evs', evs' <+: evs → QuantitiesPositive (M.run M.init evs').store
    ((∀ ev ∈ evs, ¬ ev.request.WritesZeros) → Positive) ∧
      ∀ evs' ev, evs' ++ [ev] <+: evs → ev.request.WritesZeros →
        utf8 "error" ∉ (M.step (M.run M.init evs') ev).1.dataset → ¬ Positive := by
  refine ⟨fun hevs evs' hinitial => ?_, fun evs' ev hinitial hzeros hreply hpositive => ?_⟩
  · have hrun := Machine.Along.invariant (M := server p .full)
      (G := fun _ ev => ¬ ev.request.WritesZeros)
      (I := fun s => (server p .full).Reachable s ∧ QuantitiesPositive s.store)
      (fun s ev hI hev => ⟨hI.1.step ev, hI.2.step hI.1 hev⟩)
      ⟨(server p .full).reachable_init, quantitiesPositive_seed⟩
      ((server p .full).along_of_forall (fun ev hev => hevs ev (hinitial.subset hev)) _)
    exact hrun.2
  · -- the state this request leads to has a line whose quantity is zero
    have hafter := hpositive _ hinitial
    rw [Machine.run_append] at hafter
    rcases lineWritten hzeros.1 hreply with ⟨-, hwritten⟩ | ⟨-, hwritten⟩
    · exact hwritten.not_isPositive hzeros.2 hafter.sales
    · exact hwritten.not_isPositive hzeros.2 hafter.purchase

/-- A line for the sales order of the initial setup. -/
def postSaleLine (quantity price : String) : Event :=
  .plain "sales" "order-records" "POST" ""
    [("orderId", "1"), ("productTypeId", "1"), ("quantity", quantity), ("price", price)]

/-- After a line of five units is added, all quantities are positive. -/
theorem quantities_positive_iff_five :
    QuantitiesPositive ((server .plain .full).run (server .plain .full).init
      [postSaleLine "005" "2"]).store :=
  (quantities_positive_iff .plain [postSaleLine "005" "2"]).1 (by decide +kernel) _
    (List.prefix_refl _)

/-- A line with the quantity `00` is accepted. -/
theorem quantity_zero_stored :
    ¬ ∀ s : Session (Db .full) Exception, (server .plain .full).Reachable s →
      QuantitiesPositive s.store := by
  intro h
  have hafter := h _ ⟨[postSaleLine "00" "2"], rfl⟩
  have hzero : ∃ r ∈ (((server .plain .full).run (server .plain .full).init
      [postSaleLine "00" "2"]).store .salesOrderRecord).rows, r.2.quantity = .int 0 := by
    decide +kernel
  obtain ⟨r, hr, hquantity⟩ := hzero
  obtain ⟨n, hn, hpos, -⟩ := hafter.sales r hr
  have hn : (0 : ℤ) = n := by simpa using hquantity.symm.trans hn
  omega

/-! ### Prices -/

/-- A decimal number is read by `std::stod` as the number that it denotes, if that is in range. -/
theorem stod_of_isDecimalNumber {doubles : Doubles} {t : Bytes} (h : IsDecimalNumber t) :
    doubles.stod t = doubles.ofNumeral t := by
  have hnul : (0 : UInt8) ∉ t := fun h0 => absurd (h.spelled 0 h0) (by decide)
  rw [Doubles.stod, cstr_eq_self hnul, h.floatPrefix_eq]
  rfl

/-- The line that an accepted request writes has the price of the request, which `std::stod`
takes, and the column stores it. -/
theorem price_stored {s : Session (Db e) Exception} {ev : Event} (hw : ev.request.WritesLine)
    (hreply : utf8 "error" ∉ ((server p e).step s ev).1.dataset) :
    let price := getOptionalDatasetValue ev.request.dataset "price"
    let after := ((server p e).step s ev).2.store
    (p.doubles.stod price).isSome ∧
      ((∃ r ∈ (after .salesOrderRecord).rows, r.2.price = p.sqlite.real (cstr price)) ∨
        ∃ r ∈ (after .purchaseOrderRecord).rows, r.2.price = p.sqlite.real (cstr price)) := by
  intro price after
  obtain ⟨x, hprice, ⟨v, hv⟩, hthere⟩ : ∃ x : OrderRecord, x.price = price ∧
      (∃ v, p.doubles.stod x.price = some v) ∧
      ((∃ r ∈ (after .salesOrderRecord).rows, r.2 = OrderRecord.row p x) ∨
        ∃ r ∈ (after .purchaseOrderRecord).rows, r.2 = OrderRecord.row p x) := by
    rcases lineWritten (s := { s with faults := ev.faults }) hw hreply with
      ⟨-, component, resourceId, x, hx, hputs⟩ | ⟨-, component, resourceId, x, hx, hputs⟩
    · obtain ⟨-, hprice, hv⟩ := buildOrderRecordOf_fields hx
      exact ⟨x, hprice, hv, Or.inl hputs.there⟩
    · obtain ⟨-, hprice, hv⟩ := buildOrderRecordOf_fields hx
      exact ⟨x, hprice, hv, Or.inr hputs.there⟩
  have hstored : (OrderRecord.row p x).price = p.sqlite.real (cstr price) := by
    rw [← hprice]
    rfl
  refine ⟨by rw [← hprice, hv]; rfl, hthere.imp ?_ ?_⟩
  · rintro ⟨r, hr, heq⟩
    exact ⟨r, hr, by rw [heq, hstored]⟩
  · rintro ⟨r, hr, heq⟩
    exact ⟨r, hr, by rw [heq, hstored]⟩

/-- **When an accepted price is one finite decimal number to every reader.** The line of an
accepted request is stored with its price as the database gives it back. The price is a finite
decimal number, and `std::stod` and a reader of whole texts read the same number in what is stored,
exactly when the numeral that `std::stod` takes of the price is the whole text and is spelled as
decimal numbers are, and what is stored is in the range of the numbers: a price next to the end of
the range may be rounded beyond it.

`toDouble` is the reader of whole texts, which gives a decimal number in range its value, and the
database gives a decimal number back as one. -/
theorem price_decimal_iff (p : Platform) (e : Enforcement) (s : Session (Db e) Exception)
    {ev : Event} (hw : ev.request.WritesLine)
    (hreply : utf8 "error" ∉ ((server p e).step s ev).1.dataset)
    (toDouble : Bytes → p.doubles.Double)
    (htoDouble : ∀ t v, IsDecimalNumber t → p.doubles.ofNumeral t = some v → toDouble t = v)
    (hreal : ∀ t, IsDecimalNumber t → (p.doubles.ofNumeral t).isSome →
      IsDecimalNumber (p.sqlite.real t)) :
    let price := getOptionalDatasetValue ev.request.dataset "price"
    let stored := p.sqlite.real (cstr price)
    let after := ((server p e).step s ev).2.store
    ((∃ r ∈ (after .salesOrderRecord).rows, r.2.price = stored) ∨
      ∃ r ∈ (after .purchaseOrderRecord).rows, r.2.price = stored) ∧
    ((IsDecimalNumber price ∧ ∃ v, p.doubles.stod stored = some v ∧ toDouble stored = v) ↔
      floatPrefix (cstr price) = some price ∧ (∀ b ∈ price, isDecimalByte b = true) ∧
        (p.doubles.ofNumeral stored).isSome) := by
  intro price stored after
  obtain ⟨haccepted, hthere⟩ := price_stored hw hreply
  refine ⟨hthere, ?_⟩
  have hspelled : IsDecimalNumber price ↔
      floatPrefix (cstr price) = some price ∧ ∀ b ∈ price, isDecimalByte b = true := by
    rw [isDecimalNumber_iff]
    refine and_congr_left fun hbytes => ?_
    rw [cstr_eq_self fun h0 => absurd (hbytes 0 h0) (by decide)]
  rw [← and_assoc, ← hspelled]
  refine and_congr_right fun hdecimal => ?_
  -- the price is in range, because `std::stod` has accepted it
  have hnul : (0 : UInt8) ∉ price := fun h0 => absurd (hdecimal.spelled 0 h0) (by decide)
  have hdecimal' : IsDecimalNumber stored := by
    show IsDecimalNumber (p.sqlite.real (cstr price))
    rw [cstr_eq_self hnul]
    exact hreal price hdecimal (stod_of_isDecimalNumber hdecimal ▸ haccepted)
  rw [stod_of_isDecimalNumber hdecimal', Option.isSome_iff_exists]
  exact ⟨fun ⟨v, hv, _⟩ => ⟨v, hv⟩, fun ⟨v, hv⟩ => ⟨v, hv, htoDouble _ v hdecimal' hv⟩⟩

/-- The price `25.0` is accepted, and is one finite decimal number to both readers. -/
theorem price_decimal_iff_whole :
    let price := getOptionalDatasetValue (postSaleLine "5" "25.0").request.dataset "price"
    IsDecimalNumber price ∧ ∃ v : ℤ, Doubles.integers.stod (cstr price) = some v ∧
      (digitsValue ((cstr price).takeWhile isDigit) : ℤ) = v :=
  (price_decimal_iff .plain .full (server .plain .full).init
    (show (postSaleLine "5" "25.0").request.WritesLine by decide +kernel) (by decide +kernel)
    (fun t => (digitsValue (t.takeWhile isDigit) : ℤ))
    (fun _ _ _ hv => Option.some.inj hv) fun _ ht _ => ht).2.mpr
      ⟨by decide +kernel, by decide +kernel, rfl⟩

/-- The price `1.5abc` is accepted. -/
theorem price_not_decimal_accepted :
    ¬ ∀ (s : Session (Db .full) Exception) (ev : Event), (server .plain .full).Reachable s →
      ev.request.WritesLine → utf8 "error" ∉ ((server .plain .full).step s ev).1.dataset →
      IsDecimalNumber (getOptionalDatasetValue ev.request.dataset "price") := by
  intro h
  have hdecimal := h _ (postSaleLine "1" "1.5abc") (server .plain .full).reachable_init
    (by decide +kernel) (by decide +kernel)
  have hfloat := hdecimal.floatPrefix_eq
  revert hfloat
  decide +kernel

end SageStore
