import SageStore.Foundation.Buckets
import SageStore.Client.AnalyticsViewModel

/-!
# One row for each metric

The view model splits the keys of the map in two: those it was asked for and the others. The set
of keys that the first loop has seen is what the second loop leaves out, so each key gets one
row.
-/

namespace SageStore

open Bytes

namespace AnalyticsViewModel

variable {qt : Qt} (q : QVariants qt) (metrics : QVariantMap q)

/-- The keys that a view asks for and the map holds. -/
def presentKeys (orderedKeys : List Bytes) : List Bytes :=
  orderedKeys.filter (metrics.contains ·)

/-- The keys of the map that the view does not ask for, in ascending order. -/
def extraKeys (orderedKeys : List Bytes) : List Bytes :=
  (metrics.keys.filter fun key => !orderedKeys.contains key).mergeSort fun s t => !Qt.lt t s

/-- The first loop makes a row for each ordered key of the map, and has seen those keys. -/
theorem foldl_orderedStep (orderedKeys : List Bytes) (rows : List (Bytes × Bytes))
    (seenKeys : Finset Bytes) : orderedKeys.foldl (orderedStep q metrics) (rows, seenKeys) =
      (rows ++ (presentKeys q metrics orderedKeys).map (metricRow q metrics),
        seenKeys ∪ (presentKeys q metrics orderedKeys).toFinset) := by
  induction orderedKeys generalizing rows seenKeys with
  | nil => simp [presentKeys]
  | cons key orderedKeys ih =>
    unfold presentKeys at ih ⊢
    rw [List.foldl_cons, List.filter_cons]
    by_cases hkey : metrics.contains key = true
    · have hstep : orderedStep q metrics (rows, seenKeys) key =
          (rows ++ [metricRow q metrics key], insert key seenKeys) := if_pos hkey
      rw [hstep, ih, if_pos hkey, List.map_cons, List.append_assoc, List.toFinset_cons,
        Finset.union_insert, Finset.insert_union]
      rfl
    · have hstep : orderedStep q metrics (rows, seenKeys) key = (rows, seenKeys) := if_neg hkey
      rw [hstep, ih, if_neg hkey]

/-- The second loop collects the keys of the map that the first has not seen. -/
theorem foldl_extraKeys (seenKeys : Finset Bytes) : metrics.foldl
    (fun extraKeys key _ => if key ∉ seenKeys then extraKeys ++ [key] else extraKeys) [] =
      metrics.keys.filter (· ∉ seenKeys) := by
  let step (extraKeys : List Bytes) (key : Bytes) : List Bytes :=
    if key ∉ seenKeys then extraKeys ++ [key] else extraKeys
  have hfold (keys extraKeys : List Bytes) :
      keys.foldl step extraKeys = extraKeys ++ keys.filter (· ∉ seenKeys) := by
    induction keys generalizing extraKeys with
    | nil => simp
    | cons key keys ih =>
      rw [List.foldl_cons, ih, List.filter_cons]
      by_cases hseen : key ∉ seenKeys
      · rw [if_pos (decide_eq_true hseen), show step extraKeys key = _ from if_pos hseen,
          List.append_assoc]
        rfl
      · rw [if_neg (by rwa [decide_eq_true_iff]), show step extraKeys key = _ from if_neg hseen]
  change metrics.foldl (fun extraKeys key _ => step extraKeys key) [] = _
  rw [Std.TreeMap.foldl_eq_foldl_keys, hfold, List.nil_append]

/-- What the first loop has not seen is what the view does not ask for. -/
theorem filter_not_seen (orderedKeys : List Bytes) :
    metrics.keys.filter (· ∉ (presentKeys q metrics orderedKeys).toFinset) =
      metrics.keys.filter fun key => !orderedKeys.contains key := by
  refine List.filter_congr fun key hkey => ?_
  have hmem : metrics.contains key = true := Std.TreeMap.mem_keys.mp hkey
  simp only [List.mem_toFinset, presentKeys, List.mem_filter, hmem, and_true, decide_not,
    List.contains_eq_mem]

/-- The rows are those of the ordered keys of the map and those of its other keys. -/
theorem normalizeMetrics_eq (orderedKeys : List Bytes) : normalizeMetrics q metrics orderedKeys =
    (presentKeys q metrics orderedKeys ++ extraKeys q metrics orderedKeys).map
      (metricRow q metrics) := by
  have hrows (keys : List Bytes) (rows : List (Bytes × Bytes)) :
      keys.foldl (fun rows key => rows ++ [metricRow q metrics key]) rows =
        rows ++ keys.map (metricRow q metrics) := by
    rw [List.foldl_append_eq_append, ← List.flatMap_def, ← List.map_eq_flatMap]
  unfold normalizeMetrics
  rw [foldl_orderedStep]
  dsimp only
  rw [foldl_extraKeys, Finset.empty_union, filter_not_seen, hrows, List.nil_append,
    List.map_append]
  rfl

/-- The extra keys are those that the list does not name. -/
theorem mem_extraKeys {orderedKeys : List Bytes} {key : Bytes} :
    key ∈ extraKeys q metrics orderedKeys ↔ metrics.contains key = true ∧ key ∉ orderedKeys := by
  rw [extraKeys, List.mem_mergeSort, List.mem_filter, Std.TreeMap.mem_keys,
    Std.TreeMap.mem_iff_contains, Bool.not_eq_true', ← Bool.not_eq_true, List.contains_iff_mem]

theorem nodup_keys : metrics.keys.Nodup := Std.TreeMap.nodup_keys

/-- The keys of the rows are those of the map, each once. -/
theorem perm_keys {orderedKeys : List Bytes} (h : orderedKeys.Nodup) :
    (presentKeys q metrics orderedKeys ++ extraKeys q metrics orderedKeys).Perm metrics.keys := by
  refine List.Perm.trans (List.Perm.append_left _ (List.mergeSort_perm _ _)) ?_
  refine Buckets.perm_preferred_append (nodup_keys q metrics) h (fun key => ?_) fun key => ?_
  · rw [Std.TreeMap.mem_keys, Std.TreeMap.mem_iff_contains]
  · rw [Bool.not_eq_true', ← Bool.not_eq_true, List.contains_iff_mem]

/-- Every metric of the map has one row: first the ordered keys that the map holds, in their
order, then the others, in ascending order. -/
theorem normalizeMetrics_rows (orderedKeys : List Bytes) (h : orderedKeys.Nodup) :
    ∃ extra : List Bytes,
      normalizeMetrics q metrics orderedKeys =
        (orderedKeys.filter (metrics.contains ·) ++ extra).map (fun key =>
          (labelForMetric qt key, formatMetricValue q key (metrics.value key))) ∧
      extra.Pairwise (fun s t => Qt.lt s t = true) ∧
      (∀ key, key ∈ extra ↔ metrics.contains key = true ∧ key ∉ orderedKeys) ∧
      (orderedKeys.filter (metrics.contains ·) ++ extra).Perm metrics.keys := by
  refine ⟨extraKeys q metrics orderedKeys, normalizeMetrics_eq q metrics orderedKeys, ?_,
    fun key => mem_extraKeys q metrics, perm_keys q metrics h⟩
  exact Qt.pairwise_mergeSort ((nodup_keys q metrics).filter _)

/-! ### A concrete map -/

/-- Values that are texts: what the client receives from the server. -/
def textVariants : QVariants Qt.exact where
  QVariant := Option Bytes
  invalid := none
  ofString := some
  isValid := Option.isSome
  isNull := Option.isNone
  toDouble v := Qt.exact.toDouble (v.getD [])
  toLongLong? v := if isDigits (v.getD []) then some (digitsValue (v.getD [])) else none
  toString v := v.getD []
  numberOneDecimal x := (twoDecimals x).dropLast
  arg t u := u ++ t.drop 2

def someMetrics : QVariantMap textVariants :=
  .ofList [(utf8 "grossMarginPercent", some (utf8 "25.00")), (utf8 "note", some (utf8 "checked")),
    (utf8 "totalRevenue", some (utf8 "80")), (utf8 "averageItems", some (utf8 "3")),
    (utf8 "totalOrders", some (utf8 "2"))] Qt.compare

theorem normalizeMetrics_rows_someMetrics :
    [AnalyticsKeys.Sales.totalOrders, AnalyticsKeys.Sales.draftOrders,
      AnalyticsKeys.Sales.totalRevenue].Nodup ∧
    ∃ extra : List Bytes,
      normalizeMetrics textVariants someMetrics [AnalyticsKeys.Sales.totalOrders,
        AnalyticsKeys.Sales.draftOrders, AnalyticsKeys.Sales.totalRevenue] =
        ([AnalyticsKeys.Sales.totalOrders, AnalyticsKeys.Sales.draftOrders,
          AnalyticsKeys.Sales.totalRevenue].filter (someMetrics.contains ·) ++ extra).map
          (fun key => (labelForMetric Qt.exact key,
            formatMetricValue textVariants key (someMetrics.value key))) ∧
      extra.Pairwise (fun s t => Qt.lt s t = true) ∧
      (∀ key, key ∈ extra ↔ someMetrics.contains key = true ∧
        key ∉ [AnalyticsKeys.Sales.totalOrders, AnalyticsKeys.Sales.draftOrders,
          AnalyticsKeys.Sales.totalRevenue]) ∧
      ([AnalyticsKeys.Sales.totalOrders, AnalyticsKeys.Sales.draftOrders,
        AnalyticsKeys.Sales.totalRevenue].filter (someMetrics.contains ·) ++ extra).Perm
          someMetrics.keys :=
  ⟨by decide, normalizeMetrics_rows textVariants someMetrics _ (by decide)⟩

example : [AnalyticsKeys.Sales.totalRevenue, AnalyticsKeys.Sales.grossMarginPercent, utf8 "note",
    utf8 "absent"].map (metricRow textVariants someMetrics) =
    [(utf8 "Revenue", utf8 "80.00"), (utf8 "Gross margin", utf8 "25.0%"),
      (utf8 "note", utf8 "checked"), (utf8 "absent", utf8 "0")] := by
  decide +kernel

end AnalyticsViewModel

end SageStore
