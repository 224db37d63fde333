import Std.Data.TreeMap.Lemmas
import Mathlib.Data.Finset.Insert
import Mathlib.Data.List.Lex
import SageStore.Client.Qt

/-!
# The analytics view model

The server's figures reach the client as a `QVariantMap`, keys with a value each. The view model
turns the map into rows of a label and a text: first the keys the view asks for, in the order in
which it asks, then whatever else the map holds.
-/

namespace SageStore

open Bytes

/-! ### Texts in order -/

/-- The place of a byte among the bytes in the order of UTF-16: the lead bytes of `U+E000` to
`U+FFFF` stand behind those of the characters that UTF-16 writes with surrogates. -/
def Qt.codeUnitRank (b : UInt8) : ℕ :=
  if b.toNat = 0xEE ∨ b.toNat = 0xEF then b.toNat + 0x100 else b.toNat

/-- `QString::compare`, code unit by code unit. -/
def Qt.compare (s t : Bytes) : Ordering :=
  Ord.compare (s.map Qt.codeUnitRank) (t.map Qt.codeUnitRank)

/-- `operator<` on `QString`s. -/
def Qt.lt (s t : Bytes) : Bool := Qt.compare s t == .lt

theorem Qt.codeUnitRank_injective : Function.Injective Qt.codeUnitRank := by
  intro a b h
  have ha := a.toNat_lt
  have hb := b.toNat_lt
  unfold codeUnitRank at h
  refine UInt8.toNat_inj.mp ?_
  split_ifs at h <;> omega

instance : Std.TransCmp Qt.compare where
  eq_swap := Std.OrientedOrd.eq_swap
  isLE_trans := Std.TransOrd.isLE_trans

instance : Std.LawfulEqCmp Qt.compare where
  compare_self := Std.ReflOrd.compare_self
  eq_of_compare h :=
    List.map_injective_iff.mpr Qt.codeUnitRank_injective (Std.LawfulEqOrd.eq_of_compare h)

theorem Qt.compare_swap (s t : Bytes) : Qt.compare s t = (Qt.compare t s).swap :=
  Std.OrientedCmp.eq_swap

/-- What does not stand after another text stands before it or is that text. -/
theorem Qt.not_lt (s t : Bytes) : (!Qt.lt t s) = (Qt.compare s t).isLE := by
  rw [Qt.lt, Qt.compare_swap s t]
  cases Qt.compare t s <;> rfl

/-- The order of texts is total. -/
theorem Qt.lt_of_not_lt_of_ne {s t : Bytes} (h : Qt.lt t s = false) (hne : s ≠ t) :
    Qt.lt s t = true := by
  have hgt : Qt.compare t s ≠ .lt := beq_eq_false_iff_ne.mp h
  have heq : Qt.compare t s ≠ .eq := fun h => hne (Std.LawfulEqCmp.eq_of_compare h).symm
  rw [Qt.lt, Qt.compare_swap s t]
  cases hc : Qt.compare t s
  · exact absurd hc hgt
  · exact absurd hc heq
  · rfl

/-- A list without duplicates is sorted into ascending order. -/
theorem Qt.pairwise_mergeSort {keys : List Bytes} (h : keys.Nodup) :
    (keys.mergeSort fun s t => !Qt.lt t s).Pairwise fun s t => Qt.lt s t = true := by
  have hsorted : (keys.mergeSort fun s t => !Qt.lt t s).Pairwise
      fun s t => (!Qt.lt t s) = true := by
    refine List.pairwise_mergeSort (fun a b c hab hbc => ?_) (fun a b => ?_) keys
    · rw [Qt.not_lt] at hab hbc ⊢
      exact Std.TransCmp.isLE_trans hab hbc
    · rw [Qt.not_lt, Qt.not_lt, Qt.compare_swap a b]
      cases Qt.compare b a <;> rfl
  have hnodup := (keys.mergeSort_perm fun s t => !Qt.lt t s).nodup_iff.mpr h
  refine (hsorted.and hnodup).imp fun hst => ?_
  exact Qt.lt_of_not_lt_of_ne (Bool.not_eq_true' _ ▸ hst.1) hst.2

/-! ### Values -/

/-- The values of `QVariant`, and what the client does with them and with the numbers in them. -/
structure QVariants (qt : Qt) where
  QVariant : Type
  /-- `QVariant()`, the value of a key that a map does not hold. -/
  invalid : QVariant
  ofString : Bytes → QVariant
  isValid : QVariant → Bool
  isNull : QVariant → Bool
  toDouble : QVariant → qt.Double
  /-- `toLongLong` with its flag. -/
  toLongLong? : QVariant → Option ℤ
  toString : QVariant → Bytes
  /-- `QString::number` with one decimal. -/
  numberOneDecimal : qt.Double → Bytes
  /-- `QString::arg`: the lowest place marker of a text replaced by another text. -/
  arg : Bytes → Bytes → Bytes

variable {qt : Qt}

abbrev QVariantMap (q : QVariants qt) := Std.TreeMap Bytes q.QVariant Qt.compare

/-- `QMap::value`. -/
def QVariantMap.value {q : QVariants qt} (metrics : QVariantMap q) (key : Bytes) : q.QVariant :=
  metrics.getD key q.invalid

namespace AnalyticsKeys

namespace Sales

def totalOrders : Bytes := utf8 "totalOrders"
def totalOrderLines : Bytes := utf8 "totalOrderLines"
def totalRevenue : Bytes := utf8 "totalRevenue"
def averageOrderValue : Bytes := utf8 "averageOrderValue"
def uniqueCustomers : Bytes := utf8 "uniqueCustomers"
def totalPurchaseCost : Bytes := utf8 "totalPurchaseCost"
def grossProfit : Bytes := utf8 "grossProfit"
def grossMarginPercent : Bytes := utf8 "grossMarginPercent"
def draftOrders : Bytes := utf8 "draftOrders"
def confirmedOrders : Bytes := utf8 "confirmedOrders"
def invoicedOrders : Bytes := utf8 "invoicedOrders"

end Sales

namespace Inventory

def totalProductTypes : Bytes := utf8 "totalProductTypes"
def totalStockRecords : Bytes := utf8 "totalStockRecords"
def totalUnitsAvailable : Bytes := utf8 "totalUnitsAvailable"
def importedProductTypes : Bytes := utf8 "importedProductTypes"
def zeroStockRecords : Bytes := utf8 "zeroStockRecords"
def totalPurchaseOrders : Bytes := utf8 "totalPurchaseOrders"
def openPurchaseOrders : Bytes := utf8 "openPurchaseOrders"
def receivedPurchaseOrders : Bytes := utf8 "receivedPurchaseOrders"
def totalPurchaseSpend : Bytes := utf8 "totalPurchaseSpend"
def inventoryValueEstimate : Bytes := utf8 "inventoryValueEstimate"

end Inventory

end AnalyticsKeys

namespace AnalyticsViewModel

open AnalyticsKeys

/-- The label of each key that has one. -/
def metricLabels : List (Bytes × String) :=
  [(Sales.totalOrders, "Total orders"), (Sales.totalOrderLines, "Total order lines"),
    (Sales.uniqueCustomers, "Unique customers"), (Sales.totalRevenue, "Revenue"),
    (Sales.totalPurchaseCost, "Purchase cost"), (Sales.grossProfit, "Gross profit"),
    (Sales.grossMarginPercent, "Gross margin"), (Sales.averageOrderValue, "Average order value"),
    (Sales.draftOrders, "Draft orders"), (Sales.confirmedOrders, "Confirmed orders"),
    (Sales.invoicedOrders, "Invoiced orders"), (Inventory.totalProductTypes, "Product types"),
    (Inventory.totalStockRecords, "Stock records"),
    (Inventory.totalUnitsAvailable, "Units available"),
    (Inventory.zeroStockRecords, "Zero-stock records"),
    (Inventory.importedProductTypes, "Imported product types"),
    (Inventory.totalPurchaseOrders, "Purchase orders"),
    (Inventory.openPurchaseOrders, "Open purchase orders"),
    (Inventory.receivedPurchaseOrders, "Received purchase orders"),
    (Inventory.totalPurchaseSpend, "Purchase spend"),
    (Inventory.inventoryValueEstimate, "Inventory value")]

def labelForMetric (qt : Qt) (key : Bytes) : Bytes :=
  match metricLabels.find? (·.1 = key) with
  | some label => qt.tr label.2
  | none => key

def moneyKeys : List Bytes :=
  [Sales.totalRevenue, Sales.totalPurchaseCost, Sales.grossProfit, Sales.averageOrderValue,
    Inventory.totalPurchaseSpend, Inventory.inventoryValueEstimate]

variable (q : QVariants qt)

def formatMetricValue (key : Bytes) (value : q.QVariant) : Bytes :=
  if !q.isValid value || q.isNull value then utf8 "0"
  else if moneyKeys.contains key then qt.number (q.toDouble value)
  else if key = Sales.grossMarginPercent then
    q.arg (qt.tr "%1%") (q.numberOneDecimal (q.toDouble value))
  else match q.toLongLong? value with
    | some integerValue => ofInt integerValue
    | none => q.toString value

/-- The row of a key: its label and its value. -/
def metricRow (metrics : QVariantMap q) (key : Bytes) : Bytes × Bytes :=
  (labelForMetric qt key, formatMetricValue q key (metrics.value key))

/-- One step of the loop over the ordered keys: `rows` and `seenKeys` so far. -/
def orderedStep (metrics : QVariantMap q) (acc : List (Bytes × Bytes) × Finset Bytes)
    (key : Bytes) : List (Bytes × Bytes) × Finset Bytes :=
  if metrics.contains key then (acc.1 ++ [metricRow q metrics key], insert key acc.2) else acc

/-- The rows of a page, whose keys come first and in the order in which the page names them: the
eleven of `salesMetrics`, or the ten of `inventoryMetrics`. -/
def normalizeMetrics (metrics : QVariantMap q) (orderedKeys : List Bytes) :
    List (Bytes × Bytes) :=
  let (rows, seenKeys) := orderedKeys.foldl (orderedStep q metrics) ([], ∅)
  let extraKeys := metrics.foldl
    (fun extraKeys key _ => if key ∉ seenKeys then extraKeys ++ [key] else extraKeys) []
  (extraKeys.mergeSort fun s t => !Qt.lt t s).foldl
    (fun rows key => rows ++ [metricRow q metrics key]) rows

end AnalyticsViewModel

end SageStore
