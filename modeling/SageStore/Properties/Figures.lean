import Mathlib.Algebra.Order.BigOperators.Group.List
import SageStore.Client.ApiManager
import SageStore.Server.Steps

/-!
# The units in stock

The figures about the stock add up the quantities of all stock rows in 64 bits. Every stored
quantity is read as the number it is, since all that write stock rows keep it a count
(`WellFormed`); but nothing bounds their sum. So the figure is exact as long as the sum fits
(`totalUnits_exact_iff`).
-/

namespace SageStore

open Bytes Program BusinessLogic

variable {e : Enforcement}

/-! ### Reading a figure -/

/-- What a record holds under a key. -/
theorem column_record {fields : List (String × Bytes)}
    (hnodup : (fields.map fun f => utf8 f.1).Nodup) {key : String} {value : Bytes}
    (hmem : (key, value) ∈ fields) : column (record fields).dataset key = [value] := by
  have hnodup' :
      ((fields.map fun f => (f.1, fun _ : Unit => f.2)).map fun c => utf8 c.1).Nodup := by
    rwa [List.map_map]
  exact column_listing hnodup' (c := (key, fun _ => value)) (List.mem_map_of_mem hmem)

/-- The request asks for figures. -/
def RequestData.AsksFor (req : RequestData) (submodule : String) : Prop :=
  req.module = utf8 "analytics" ∧ req.submodule = utf8 submodule ∧ req.method = utf8 "GET"

/-! ### Sums in 64 bits -/

/-- The exact sum of the quantities of some stock rows. -/
def unitsOf (rows : List (ℕ × InventoryRow)) : ℤ :=
  (rows.map fun r => r.2.quantityAvailable.toInt).sum

/-- A number fits 64 signed bits. -/
def FitsInt64 (n : ℤ) : Prop := -2 ^ 63 ≤ n ∧ n < 2 ^ 63

/-- Wrapping around changes nothing exactly if the number fits. -/
theorem bmod_eq_self_iff {n : ℤ} : n.bmod (2 ^ 64) = n ↔ FitsInt64 n := by
  unfold FitsInt64
  constructor
  · intro h
    have hlow := Int.le_bmod (x := n) (m := 2 ^ 64) (by norm_num)
    have hhigh := Int.bmod_lt (x := n) (m := 2 ^ 64) (by norm_num)
    rw [h] at hlow hhigh
    norm_num at hlow hhigh ⊢
    exact ⟨hlow, hhigh⟩
  · rintro ⟨hlow, hhigh⟩
    refine Int.bmod_eq_of_le ?_ ?_ <;> norm_num at hlow hhigh ⊢ <;> assumption

/-- A sum that wraps around at each step is the exact sum, wrapped around once. -/
theorem foldl_bmod {α : Type} (f : α → ℤ) (xs : List α) (total : ℤ) :
    xs.foldl (fun total x => (total + f x).bmod (2 ^ 64)) (total.bmod (2 ^ 64)) =
      (total + (xs.map f).sum).bmod (2 ^ 64) := by
  induction xs generalizing total with
  | nil => simp
  | cons x xs ih =>
    rw [List.foldl_cons, Int.bmod_add_bmod, ih, List.map_cons, List.sum_cons, add_assoc]

/-! ### The units in stock -/

/-- A stored quantity is read as the number it is. -/
theorem WellFormed.parseInteger_quantity {d : Db e} (hwf : WellFormed d)
    {r : ℕ × InventoryRow} (hr : r ∈ (d .inventory).rows) :
    AnalyticsModule.parseInteger r.2.quantityAvailable.toText = r.2.quantityAvailable.toInt ∧
      0 ≤ r.2.quantityAvailable.toInt := by
  obtain ⟨-, n, hn, hlt⟩ := hwf.stocks r hr
  rw [hn, Cell.toText_int, ofInt_natCast, AnalyticsModule.parseInteger,
    stoll_of_isDigits (isDigits_decimal n), digitsValue_decimal, if_pos hlt]
  exact ⟨rfl, Int.natCast_nonneg n⟩

/-- The figure is the exact sum, wrapped around. -/
theorem WellFormed.totalUnits_eq {d : Db e} (hwf : WellFormed d) :
    AnalyticsModule.totalUnits ((d .inventory).rows.map fun r =>
      inventoryRepository.fromCurrentRow r.1 r.2) =
      (unitsOf (d .inventory).rows).bmod (2 ^ 64) := by
  have hfold := foldl_bmod (fun x : Inventory => AnalyticsModule.parseInteger x.quantityAvailable)
    ((d .inventory).rows.map fun r => inventoryRepository.fromCurrentRow r.1 r.2) 0
  rw [List.map_map, zero_add] at hfold
  refine hfold.trans (congrArg (fun quantities : List ℤ => quantities.sum.bmod (2 ^ 64)) ?_)
  exact List.map_congr_left fun r hr => (hwf.parseInteger_quantity hr).1

/-- What the server reports as the units in stock. -/
theorem column_totalUnits (p : Platform) (now : UtcTime) {req : RequestData}
    (hreq : req.AsksFor "inventory") (d : Db e) (snap : Option (Db e)) :
    column (executeTask p now req ⟨d, snap, []⟩).1.dataset "totalUnitsAvailable" =
      [ofInt (AnalyticsModule.totalUnits ((d .inventory).rows.map fun r =>
        inventoryRepository.fromCurrentRow r.1 r.2))] := by
  obtain ⟨module, submodule, method, resourceId, dataset⟩ := req
  obtain ⟨rfl, rfl, rfl⟩ :
    module = utf8 "analytics" ∧ submodule = utf8 "inventory" ∧ method = utf8 "GET" := hreq
  exact column_record (by dsimp only [List.map]; decide) (List.mem_of_getElem? (i := 2) rfl)

/-- The sum of the first rows is at most the sum of all. -/
theorem WellFormed.unitsOf_le {d : Db e} (hwf : WellFormed d) {rows : List (ℕ × InventoryRow)}
    (h : rows <+: (d .inventory).rows) :
    0 ≤ unitsOf rows ∧ unitsOf rows ≤ unitsOf (d .inventory).rows := by
  obtain ⟨rest, hrest⟩ := h
  have hnonneg : ∀ some : List (ℕ × InventoryRow), some ⊆ (d .inventory).rows →
      0 ≤ unitsOf some := by
    intro some hsome
    refine List.sum_nonneg fun n hn => ?_
    obtain ⟨r, hr, rfl⟩ := List.mem_map.mp hn
    exact (hwf.parseInteger_quantity (hsome hr)).2
  have hsplit : unitsOf (d .inventory).rows = unitsOf rows + unitsOf rest := by
    rw [← hrest, unitsOf, List.map_append, List.sum_append]
    rfl
  have hrows := hnonneg rows (hrest ▸ List.subset_append_left rows rest)
  have hothers := hnonneg rest (hrest ▸ List.subset_append_right rows rest)
  exact ⟨hrows, by omega⟩

/-- **The units in stock.** In every reachable state each stored quantity is read as the number
it is. The figure is the exact sum of the quantities, and adding them up overflows at no row,
exactly if that sum fits 64 signed bits. -/
theorem totalUnits_exact_iff {p : Platform} {s : Session (Db e) Exception}
    (hs : (server p e).Reachable s) (now : UtcTime) {req : RequestData}
    (hreq : req.AsksFor "inventory") :
    (∀ r ∈ (s.store .inventory).rows,
      AnalyticsModule.parseInteger r.2.quantityAvailable.toText = r.2.quantityAvailable.toInt) ∧
    (column ((server p e).step s ⟨now, req, []⟩).1.dataset "totalUnitsAvailable" =
      [ofInt (unitsOf (s.store .inventory).rows)] ↔ unitsOf (s.store .inventory).rows < 2 ^ 63) ∧
    ((∀ rows, rows <+: (s.store .inventory).rows → FitsInt64 (unitsOf rows)) ↔
      unitsOf (s.store .inventory).rows < 2 ^ 63) := by
  have hwf := (Server.wellFormed hs).1
  have hall := hwf.unitsOf_le (List.prefix_refl _)
  refine ⟨fun r hr => (hwf.parseInteger_quantity hr).1, ?_, ?_⟩
  · -- the figure is the sum, wrapped once
    have hfigure := column_totalUnits p now hreq s.store s.snapshot
    rw [hwf.totalUnits_eq] at hfigure
    have hreported : column ((server p e).step s ⟨now, req, []⟩).1.dataset "totalUnitsAvailable" =
        [ofInt ((unitsOf (s.store .inventory).rows).bmod (2 ^ 64))] := hfigure
    rw [hreported, List.singleton_inj, ofInt_injective.eq_iff, bmod_eq_self_iff]
    exact ⟨fun h => h.2, fun h => ⟨by linarith [hall.1], h⟩⟩
  · constructor
    · exact fun h => (h _ (List.prefix_refl _)).2
    · -- no partial sum exceeds the whole, since no quantity is negative
      intro h rows hrows
      have hle := hwf.unitsOf_le hrows
      exact ⟨by linarith [hle.1], by linarith [hle.2]⟩

/-- The request for the figures about the stock. -/
def inventoryAnalyticsRequest : RequestData :=
  ⟨utf8 "analytics", utf8 "inventory", utf8 "GET", [], ∅⟩

/-- A second product, and these quantities in stock of the two. -/
def shelves (first second : String) : List Event :=
  [.plain "inventory" "product-types" "POST" "" [("code", "P2"), ("barcode", "1"), ("name", "P2"),
      ("description", "P2"), ("lastPrice", "1"), ("unit", "unit"), ("isImported", "0")],
    .plain "inventory" "stocks" "PUT" "1" [("productTypeId", "1"), ("quantityAvailable", first),
      ("employeeId", "1")],
    .plain "inventory" "stocks" "POST" "" [("productTypeId", "2"), ("quantityAvailable", second),
      ("employeeId", "1")]]

/-- Five units of one product and seven of the other are twelve. -/
theorem totalUnits_exact_iff_shelves :
    let s := (server .plain .full).run (server .plain .full).init (shelves "5" "7")
    column ((server .plain .full).step s ⟨noon, inventoryAnalyticsRequest, []⟩).1.dataset
        "totalUnitsAvailable" = [ofInt (unitsOf (s.store .inventory).rows)] ∧
      (∀ rows, rows <+: (s.store .inventory).rows → FitsInt64 (unitsOf rows)) ∧
      unitsOf (s.store .inventory).rows = 12 := by
  intro s
  have hunits : unitsOf (s.store .inventory).rows = 12 := by decide +kernel
  have hfits : unitsOf (s.store .inventory).rows < 2 ^ 63 := by rw [hunits]; decide
  have hs : (server .plain .full).Reachable s := ⟨_, rfl⟩
  have hreq : inventoryAnalyticsRequest.AsksFor "inventory" := ⟨rfl, rfl, rfl⟩
  obtain ⟨-, hfigure, hsums⟩ := totalUnits_exact_iff hs noon hreq
  exact ⟨hfigure.mpr hfits, hsums.mpr hfits, hunits⟩

/-- The largest quantity in stock of each product. -/
def fullShelves : List Event := shelves "9223372036854775807" "9223372036854775807"

/-- With full shelves the figure is negative. -/
theorem totalUnits_wraps :
    (server .plain .full).Reachable ((server .plain .full).run (server .plain .full).init
      fullShelves) ∧
    column ((server .plain .full).step ((server .plain .full).run (server .plain .full).init
      fullShelves) ⟨noon, inventoryAnalyticsRequest, []⟩).1.dataset "totalUnitsAvailable" =
        [utf8 "-2"] ∧
    unitsOf (((server .plain .full).run (server .plain .full).init fullShelves).store
      .inventory).rows = 18446744073709551614 :=
  ⟨⟨_, rfl⟩, by decide +kernel, by decide +kernel⟩

end SageStore
