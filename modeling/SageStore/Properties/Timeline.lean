import Std.Time.Date.PlainDate
import SageStore.Foundation.Buckets
import SageStore.Client.AnalyticsView

/-!
# What an order timeline counts

The first loop finds the latest date of the orders (`foldl_laterDate_mem`,
`le_foldl_laterDate`). In the second loop the points are buckets, and the bucket of an order is
the number of days from the first day of the window to its date (`countOrder_eq_place`).
-/

namespace SageStore

open Bytes

/-! ### Arithmetic of dates -/

namespace QDate

/-- The null date is before every date. -/
theorem toJulianDay_none_lt (day : JulianDay) : toJulianDay none < toJulianDay (some day) := by
  have := day.inRange.1
  change (-2 ^ 63 : ℤ) < day.jd
  omega

/-- A date is known by its day number, the null date by its own. -/
theorem toJulianDay_injective {date other : QDate}
    (h : date.toJulianDay = other.toJulianDay) : date = other := by
  -- the null date has the least day number, which no date has
  cases date with
  | none =>
    cases other with
    | none => rfl
    | some day => exact absurd h (toJulianDay_none_lt day).ne
  | some day =>
    cases other with
    | none => exact absurd h (toJulianDay_none_lt day).ne'
    | some day' =>
      obtain ⟨jd, hjd⟩ := day
      obtain ⟨jd', hjd'⟩ := day'
      obtain rfl : jd = jd' := h
      rfl

/-- A day that lies within the limits is reached. -/
theorem addDays_some {day : JulianDay} {days : ℤ} (hlow : -784350574879 ≤ day.jd + days)
    (hhigh : day.jd + days ≤ 784354017364) :
    addDays (some day) days = some ⟨day.jd + days, hlow, hhigh⟩ :=
  dif_pos ⟨hlow, hhigh⟩

end QDate

namespace AnalyticsView

variable (qt : Qt) (calendar : Calendar) {Order : Type*} (date : Order → Bytes)
  (secondaryPredicate : Order → Bool)

/-! ### The latest date -/

/-- A step of the first loop keeps its date or takes the one of the order. -/
theorem laterDate_eq_or (anchor : QDate) (order : Order) :
    laterDate qt calendar date anchor order = anchor ∨
      laterDate qt calendar date anchor order = parseIsoDate qt calendar (date order) := by
  unfold laterDate
  dsimp only
  split
  · exact .inr rfl
  · exact .inl rfl

/-- The later of two dates is taken. -/
theorem le_laterDate (anchor : QDate) (order : Order) :
    anchor.toJulianDay ≤ (laterDate qt calendar date anchor order).toJulianDay ∧
      (parseIsoDate qt calendar (date order)).toJulianDay ≤
        (laterDate qt calendar date anchor order).toJulianDay := by
  unfold laterDate QDate.lt
  cases parseIsoDate qt calendar (date order) with
  | none =>
    cases anchor with
    | none => exact ⟨le_rfl, le_rfl⟩
    | some a => exact ⟨le_rfl, (QDate.toJulianDay_none_lt a).le⟩
  | some day =>
    cases anchor with
    | none => exact ⟨(QDate.toJulianDay_none_lt day).le, le_rfl⟩
    | some a =>
      simp only [QDate.isValid, Option.isSome_some, Bool.true_and, Bool.not_true, Bool.false_or,
        decide_eq_true_eq]
      split
      next hlt => exact ⟨hlt.le, le_rfl⟩
      next hle => exact ⟨le_rfl, not_lt.mp hle⟩

/-- The first loop ends with the date it began with, or with that of an order. -/
theorem foldl_laterDate_mem (anchor : QDate) (orders : List Order) :
    orders.foldl (laterDate qt calendar date) anchor = anchor ∨
      ∃ order ∈ orders, orders.foldl (laterDate qt calendar date) anchor =
        parseIsoDate qt calendar (date order) := by
  induction orders generalizing anchor with
  | nil => exact .inl rfl
  | cons order orders ih =>
    rw [List.foldl_cons]
    rcases ih (laterDate qt calendar date anchor order) with h | ⟨order', hmem, h⟩
    · rcases laterDate_eq_or qt calendar date anchor order with h' | h'
      · exact .inl (h.trans h')
      · exact .inr ⟨order, List.mem_cons_self, h.trans h'⟩
    · exact .inr ⟨order', List.mem_cons_of_mem _ hmem, h⟩

/-- No order has a date after the one that the first loop ends with. -/
theorem le_foldl_laterDate (anchor : QDate) (orders : List Order) :
    anchor.toJulianDay ≤ (orders.foldl (laterDate qt calendar date) anchor).toJulianDay ∧
      ∀ order ∈ orders, (parseIsoDate qt calendar (date order)).toJulianDay ≤
        (orders.foldl (laterDate qt calendar date) anchor).toJulianDay := by
  induction orders generalizing anchor with
  | nil => exact ⟨le_rfl, fun _ h => absurd h List.not_mem_nil⟩
  | cons order orders ih =>
    obtain ⟨hanchor, hdate⟩ := le_laterDate qt calendar date anchor order
    obtain ⟨hstart, horders⟩ := ih (laterDate qt calendar date anchor order)
    refine ⟨hanchor.trans hstart, fun order' hmem => ?_⟩
    rcases List.mem_cons.mp hmem with rfl | hmem
    · exact hdate.trans hstart
    · exact horders order' hmem

/-- The latest date of the orders, if some order has a date. -/
def IsLatest (orders : List Order) (anchor : JulianDay) : Prop :=
  (∃ order ∈ orders, parseIsoDate qt calendar (date order) = some anchor) ∧
    ∀ order ∈ orders, ∀ day, parseIsoDate qt calendar (date order) = some day →
      day.jd ≤ anchor.jd

/-- **The first loop** finds the latest date, if some order has one. -/
theorem isLatest_anchorDate {orders : List Order}
    (h : ∃ order ∈ orders, (parseIsoDate qt calendar (date order)).isValid = true) :
    ∃ anchor, anchorDate qt calendar date orders = some anchor ∧
      IsLatest qt calendar date orders anchor := by
  obtain ⟨order, hmem, hvalid⟩ := h
  obtain ⟨day, hday⟩ := Option.isSome_iff_exists.mp hvalid
  obtain ⟨-, hle⟩ := le_foldl_laterDate qt calendar date none orders
  -- some order has a date, so the loop does not end with the null date
  have hne : orders.foldl (laterDate qt calendar date) none ≠ none := by
    intro hnone
    have hlt := QDate.toJulianDay_none_lt day
    have := hle order hmem
    rw [hday, hnone] at this
    exact absurd this (not_le.mpr hlt)
  obtain ⟨anchor, hanchor⟩ := Option.ne_none_iff_exists'.mp hne
  refine ⟨anchor, ?_, ?_, fun order' hmem' day' hday' => ?_⟩
  · unfold anchorDate
    rw [hanchor]
    rfl
  · rcases foldl_laterDate_mem qt calendar date none orders with hnone | ⟨order', hmem', h'⟩
    · exact absurd hnone hne
    · exact ⟨order', hmem', h'.symm.trans hanchor⟩
  · have := hle order' hmem'
    rw [hday', hanchor] at this
    exact this

/-- Orders in another order have the same latest date. -/
theorem IsLatest.unique {orders orders' : List Order} (hperm : orders'.Perm orders)
    {anchor anchor' : JulianDay} (h : IsLatest qt calendar date orders anchor)
    (h' : IsLatest qt calendar date orders' anchor') : anchor' = anchor := by
  obtain ⟨⟨order, hmem, hanchor⟩, hle⟩ := h
  obtain ⟨⟨order', hmem', hanchor'⟩, hle'⟩ := h'
  -- each of the two dates is one of an order on the other list
  have hjd : anchor'.jd = anchor.jd := le_antisymm
    (hle order' (hperm.mem_iff.mp hmem') anchor' hanchor')
    (hle' order (hperm.mem_iff.mpr hmem) anchor hanchor)
  exact Option.some.inj (@QDate.toJulianDay_injective (some anchor') _ hjd)

/-! ### The points -/

section Points

variable {start anchor : JulianDay}

/-- The point of an order: the number of days from the first day of the window to its date. -/
def pointIndex (start anchor : JulianDay) (order : Order) : Option ℕ :=
  (parseIsoDate qt calendar (date order)).bind fun day =>
    if start.jd ≤ day.jd ∧ day.jd ≤ anchor.jd then some (day.jd - start.jd).toNat else none

/-- What an order adds to its point. -/
def raisePoint (order : Order) (point : TimelinePoint) : TimelinePoint :=
  ⟨point.label, point.primaryValue + 1,
    point.secondaryValue + if secondaryPredicate order then 1 else 0⟩

/-- The index of a date in the window is in range. -/
theorem dayIndex_eq {day : JulianDay} (hanchor : anchor.jd = start.jd + 6)
    (hlow : start.jd ≤ day.jd) (hhigh : day.jd ≤ anchor.jd) :
    dayIndex (some start) (some day) = day.jd - start.jd := by
  have hdays : QDate.daysTo (some start) (some day) = day.jd - start.jd := rfl
  rw [dayIndex, hdays]
  exact Int.bmod_eq_of_le (by omega) (by omega)

/-- Neither test of the second loop drops an order of the window. -/
theorem countOrder_eq_place (hanchor : anchor.jd = start.jd + 6) {points : List TimelinePoint}
    (hlength : points.length = 7) (order : Order) :
    countOrder qt calendar date secondaryPredicate (some start) (some anchor) points order =
      Buckets.place (pointIndex qt calendar date start anchor)
        (raisePoint secondaryPredicate) points order := by
  unfold countOrder Buckets.place pointIndex
  cases parseIsoDate qt calendar (date order) with
  | none => rfl
  | some day =>
    -- the two tests compare day numbers
    have hlow : QDate.lt (some day) (some start) = decide (day.jd < start.jd) := rfl
    have hhigh : QDate.lt (some anchor) (some day) = decide (anchor.jd < day.jd) := rfl
    simp only [hlow, hhigh, hlength, Option.bind_some, QDate.isValid, Option.isSome_some,
      Bool.not_true, Bool.false_or]
    by_cases hin : start.jd ≤ day.jd ∧ day.jd ≤ anchor.jd
    · -- in the window the index is one of the seven
      have hout : ¬(decide (day.jd < start.jd) || decide (anchor.jd < day.jd)) = true := by
        simp only [Bool.or_eq_true, decide_eq_true_eq]
        omega
      have hrange : ¬(decide (day.jd - start.jd < 0) ||
          decide (day.jd - start.jd ≥ ((7 : ℕ) : ℤ))) = true := by
        simp only [Bool.or_eq_true, decide_eq_true_eq]
        omega
      rw [if_neg hout, if_pos hin, dayIndex_eq hanchor hin.1 hin.2, if_neg hrange]
      unfold raisePoint
      cases secondaryPredicate order with
      | true => exact List.modify_modify_eq ..
      | false => rfl
    · -- outside of it the order is skipped, and has no bucket
      have hout : (decide (day.jd < start.jd) || decide (anchor.jd < day.jd)) = true := by
        simp only [Bool.or_eq_true, decide_eq_true_eq]
        omega
      rw [if_pos hout, if_neg hin]

/-- **The second loop** puts every order into its bucket. -/
theorem foldl_countOrder (hanchor : anchor.jd = start.jd + 6) {points : List TimelinePoint}
    (hlength : points.length = 7) (orders : List Order) :
    orders.foldl (countOrder qt calendar date secondaryPredicate (some start) (some anchor))
      points = Buckets.dispatch (pointIndex qt calendar date start anchor)
        (raisePoint secondaryPredicate) points orders := by
  unfold Buckets.dispatch
  induction orders generalizing points with
  | nil => rfl
  | cons order orders ih =>
    rw [List.foldl_cons, List.foldl_cons,
      countOrder_eq_place qt calendar date secondaryPredicate hanchor hlength]
    exact ih ((Buckets.length_place order).trans hlength)

/-- A point counts the orders that raise it. -/
theorem foldl_raisePoint (orders : List Order) (point : TimelinePoint) :
    orders.foldl (fun point order => raisePoint secondaryPredicate order point) point =
      ⟨point.label, point.primaryValue + orders.length,
        point.secondaryValue + orders.countP secondaryPredicate⟩ := by
  induction orders generalizing point with
  | nil => rfl
  | cons order orders ih =>
    rw [List.foldl_cons, ih, List.length_cons, List.countP_cons]
    simp only [raisePoint, Nat.add_comm, Nat.add_left_comm]

/-- An order is in the bucket of a day of the window if its date is that day. -/
theorem pointIndex_eq_some_iff {order : Order} {day : JulianDay} {i : ℕ}
    (hanchor : anchor.jd = start.jd + 6) (hi : i < 7) (hday : day.jd = start.jd + i) :
    pointIndex qt calendar date start anchor order = some i ↔
      parseIsoDate qt calendar (date order) = some day := by
  unfold pointIndex
  cases parseIsoDate qt calendar (date order) with
  | none => simp
  | some day' =>
    rw [Option.bind_some, Option.some.injEq]
    constructor
    · intro h
      split_ifs at h with hin
      -- the index counts the days since the start
      have hsub : (day'.jd - start.jd).toNat = i := Option.some.inj h
      have hjd : day'.jd = day.jd := by omega
      exact Option.some.inj (@QDate.toJulianDay_injective (some day') _ hjd)
    · rintro rfl
      rw [if_pos ⟨by omega, by omega⟩]
      exact congrArg some (by omega)

/-- The orders with a date in the window are those that have a point. -/
theorem pointIndex_any (hanchor : anchor.jd = start.jd + 6) (order : Order) :
    (pointIndex qt calendar date start anchor order).any (· < 7) =
      (parseIsoDate qt calendar (date order)).any fun day =>
        anchor.jd - 6 ≤ day.jd ∧ day.jd ≤ anchor.jd := by
  unfold pointIndex
  cases parseIsoDate qt calendar (date order) with
  | none => rfl
  | some day =>
    rw [Option.bind_some, Option.any_some]
    split_ifs with hin
    · rw [Option.any_some, Bool.eq_iff_iff, decide_eq_true_iff, decide_eq_true_iff]
      omega
    · rw [Option.any_none, eq_comm, decide_eq_false_iff_not]
      omega

end Points

/-- The timeline of orders with dates: its window is the week up to the latest date. -/
theorem buildOrderTimeline_eq {orders : List Order} {anchor start : JulianDay}
    (hanchor : anchorDate qt calendar date orders = some anchor)
    (hstart : QDate.addDays (some anchor) (-6) = some start)
    (hsix : anchor.jd = start.jd + 6) :
    buildOrderTimeline qt calendar date secondaryPredicate orders =
      Buckets.dispatch (pointIndex qt calendar date start anchor)
        (raisePoint secondaryPredicate)
        ((List.range 7).map fun (offset : ℕ) =>
          ⟨calendar.toString (QDate.addDays (some start) offset), 0, 0⟩) orders := by
  unfold buildOrderTimeline
  rw [hanchor]
  dsimp only
  rw [hstart]
  exact foldl_countOrder qt calendar date secondaryPredicate hsix (by simp) orders

/-- The point of the `i`-th day counts the orders of that day. -/
theorem getElem?_buildOrderTimeline {orders : List Order} {anchor start : JulianDay}
    (hanchor : anchorDate qt calendar date orders = some anchor)
    (hstart : QDate.addDays (some anchor) (-6) = some start)
    (hsix : anchor.jd = start.jd + 6) {i : ℕ} (hi : i < 7) {day : JulianDay}
    (hday : QDate.addDays (some start) i = some day) (hjd : day.jd = start.jd + i) :
    (buildOrderTimeline qt calendar date secondaryPredicate orders)[i]? =
      some ⟨calendar.toString (some day),
        orders.countP (fun order => parseIsoDate qt calendar (date order) = some day),
        orders.countP (fun order => parseIsoDate qt calendar (date order) = some day ∧
          secondaryPredicate order = true)⟩ := by
  rw [buildOrderTimeline_eq qt calendar date secondaryPredicate hanchor hstart hsix,
    Buckets.getElem?_dispatch, List.getElem?_map, List.getElem?_range hi, Option.map_some,
    Option.map_some, foldl_raisePoint, hday, Nat.zero_add, Nat.zero_add,
    ← List.countP_eq_length_filter, List.countP_filter]
  -- the orders in the bucket are those of the day
  have hindex (order : Order) : pointIndex qt calendar date start anchor order = some i ↔
      parseIsoDate qt calendar (date order) = some day :=
    pointIndex_eq_some_iff qt calendar date hsix hi hjd
  simp only [hindex, Bool.decide_and, Bool.and_comm, Bool.decide_eq_true]

/-- The primary values count the orders in each bucket. -/
theorem map_primaryValue {orders : List Order} {anchor start : JulianDay}
    (hanchor : anchorDate qt calendar date orders = some anchor)
    (hstart : QDate.addDays (some anchor) (-6) = some start)
    (hsix : anchor.jd = start.jd + 6) :
    (buildOrderTimeline qt calendar date secondaryPredicate orders).map (·.primaryValue) =
      (List.range 7).map fun j => orders.countP fun order =>
        pointIndex qt calendar date start anchor order = some j := by
  rw [buildOrderTimeline_eq qt calendar date secondaryPredicate hanchor hstart hsix]
  refine List.ext_getElem? fun j => ?_
  rw [List.getElem?_map, Buckets.getElem?_dispatch, List.getElem?_map, List.getElem?_map,
    Option.map_map, Option.map_map]
  by_cases hj : j < 7
  · rw [List.getElem?_range hj, Option.map_some, Option.map_some, Function.comp_apply,
      Function.comp_apply, foldl_raisePoint, ← List.countP_eq_length_filter]
    exact congrArg some (Nat.zero_add _)
  · -- there are seven points
    have hnone : (List.range 7)[j]? = none := by
      rw [List.getElem?_eq_none_iff, List.length_range]
      omega
    rw [hnone]
    rfl

/-- The order of the orders does not matter. -/
theorem buildOrderTimeline_perm {orders orders' : List Order} {anchor start : JulianDay}
    (hanchor : anchorDate qt calendar date orders = some anchor)
    (hanchor' : anchorDate qt calendar date orders' = some anchor)
    (hstart : QDate.addDays (some anchor) (-6) = some start)
    (hsix : anchor.jd = start.jd + 6) (hperm : orders'.Perm orders) :
    buildOrderTimeline qt calendar date secondaryPredicate orders' =
      buildOrderTimeline qt calendar date secondaryPredicate orders := by
  rw [buildOrderTimeline_eq qt calendar date secondaryPredicate hanchor hstart hsix,
    buildOrderTimeline_eq qt calendar date secondaryPredicate hanchor' hstart hsix]
  refine Buckets.dispatch_perm (fun order order' point => ?_) hperm
  simp only [raisePoint, Nat.add_right_comm]

/-- Every date of an order is far enough from the limits for a week before it to exist. -/
theorem exists_start {dateText : Bytes} {anchor : JulianDay}
    (h : parseIsoDate qt calendar dateText = some anchor) :
    ∃ start, QDate.addDays (some anchor) (-6) = some start ∧ anchor.jd = start.jd + 6 ∧
      ∀ i : ℕ, i < 7 → ∃ day, QDate.addDays (some start) i = some day ∧ day.jd = start.jd + i := by
  have hrange := calendar.fromString_range _ anchor h
  refine ⟨_, QDate.addDays_some (by omega) (by omega), ?_, fun i hi => ?_⟩
  · exact (Int.neg_add_cancel_right anchor.jd 6).symm
  · exact ⟨_, QDate.addDays_some (by dsimp only; omega) (by dsimp only; omega), rfl⟩

/-- What the timeline of orders says, `anchor` being the latest of their dates. -/
structure CountsDays (orders : List Order) (anchor : JulianDay) : Prop where
  latest : (∃ order ∈ orders, parseIsoDate qt calendar (date order) = some anchor) ∧
    ∀ order ∈ orders, ∀ day, parseIsoDate qt calendar (date order) = some day →
      day.jd ≤ anchor.jd
  length : (buildOrderTimeline qt calendar date secondaryPredicate orders).length = 7
  /-- The `i`-th point is that of the day `anchor - 6 + i`. -/
  points : ∀ i : ℕ, i < 7 → ∃ (day : JulianDay) (point : TimelinePoint),
    day.jd = anchor.jd - 6 + i ∧
    (buildOrderTimeline qt calendar date secondaryPredicate orders)[i]? = some point ∧
    point.label = calendar.toString (some day) ∧
    point.primaryValue =
      orders.countP (fun order => parseIsoDate qt calendar (date order) = some day) ∧
    point.secondaryValue =
      orders.countP (fun order => parseIsoDate qt calendar (date order) = some day ∧
        secondaryPredicate order = true) ∧
    point.secondaryValue ≤ point.primaryValue
  /-- No order of the window is skipped for its index. -/
  index : ∀ order ∈ orders, ∀ day, parseIsoDate qt calendar (date order) = some day →
    anchor.jd - 6 ≤ day.jd →
    0 ≤ dayIndex (QDate.addDays (some anchor) (-6)) (some day) ∧
      dayIndex (QDate.addDays (some anchor) (-6)) (some day) < 7
  sum : ((buildOrderTimeline qt calendar date secondaryPredicate orders).map
      (·.primaryValue)).sum =
    orders.countP (fun order => (parseIsoDate qt calendar (date order)).any fun day =>
      anchor.jd - 6 ≤ day.jd ∧ day.jd ≤ anchor.jd)
  perm : ∀ orders' : List Order, orders'.Perm orders →
    buildOrderTimeline qt calendar date secondaryPredicate orders' =
      buildOrderTimeline qt calendar date secondaryPredicate orders

/-- Orders of which some has a date are counted by their days, in whatever order they come. -/
theorem buildOrderTimeline_counts (orders : List Order)
    (h : ∃ order ∈ orders, (parseIsoDate qt calendar (date order)).isValid = true) :
    ∃ anchor, CountsDays qt calendar date secondaryPredicate orders anchor := by
  obtain ⟨anchor, hanchor, hlatest⟩ := isLatest_anchorDate qt calendar date h
  obtain ⟨order, hmem, hday⟩ := hlatest.1
  obtain ⟨start, hstart, hsix, hdays⟩ := exists_start qt calendar hday
  refine ⟨anchor, hlatest, ?_, fun i hi => ?_, fun order' hmem' day hday' hlow => ?_, ?_,
    fun orders' hperm => ?_⟩
  · rw [buildOrderTimeline_eq qt calendar date secondaryPredicate hanchor hstart hsix,
      Buckets.length_dispatch, List.length_map, List.length_range]
  · -- the point at an index has the day and the orders of its bucket
    obtain ⟨day, hday', hjd⟩ := hdays i hi
    refine ⟨day, _, by omega, getElem?_buildOrderTimeline qt calendar date secondaryPredicate
      hanchor hstart hsix hi hday' hjd, rfl, rfl, rfl, ?_⟩
    exact List.countP_mono_left fun order _ hboth => decide_eq_true (of_decide_eq_true hboth).1
  · -- the latest day is the last of the window
    have hhigh := hlatest.2 order' hmem' day hday'
    rw [hstart, dayIndex_eq hsix (by omega) hhigh]
    omega
  · -- every order with a date in the window is in one bucket
    rw [map_primaryValue qt calendar date secondaryPredicate hanchor hstart hsix,
      Buckets.sum_countP_index]
    simp only [pointIndex_any qt calendar date hsix]
  · -- the latest date is found in either order
    obtain ⟨order, hmem, hvalid⟩ := h
    obtain ⟨anchor', hanchor', hlatest'⟩ :=
      isLatest_anchorDate qt calendar date ⟨order, hperm.mem_iff.mpr hmem, hvalid⟩
    obtain rfl := hlatest.unique qt calendar date hperm hlatest'
    exact buildOrderTimeline_perm qt calendar date secondaryPredicate hanchor hanchor' hstart
      hsix hperm

end AnalyticsView

/-! ### A concrete calendar -/

open Std.Time in
/-- The date that a text gives as `yyyy-MM-dd`; there is no year 0. -/
def isoDate? (t : Bytes) : Option PlainDate :=
  let year := digitsValue (t.take 4)
  let month : ℤ := digitsValue ((t.drop 5).take 2)
  let day : ℤ := digitsValue ((t.drop 8).take 2)
  if t.length = 10 ∧ isDigits (t.take 4 ++ (t.drop 5).take 2 ++ (t.drop 8).take 2) = true ∧
      t[4]? = some 45 ∧ t[7]? = some 45 ∧ year ≠ 0 then
    if hmonth : 1 ≤ month ∧ month ≤ 12 then
      if hday : 1 ≤ day ∧ day ≤ 31 then
        PlainDate.ofYearMonthDay? (.ofNat year) (.ofInt month hmonth) (.ofInt day hday)
      else none
    else none
  else none

open Std.Time in
/-- The calendar of the library, whose days are counted from the first of January 1970. -/
def gregorian : Calendar where
  fromString t := (isoDate? t).bind fun date =>
    let jd := date.toEpochDay.toInt + 2440588
    if h : -2000000 ≤ jd ∧ jd ≤ 6000000 then some ⟨jd, by omega⟩ else none
  fromString_range t day h := by
    obtain ⟨date, -, hday⟩ := Option.bind_eq_some_iff.mp h
    dsimp only at hday
    split at hday
    next hrange => exact Option.some.inj hday ▸ hrange
    next => cases hday
  toString date := date.elim [] fun day =>
    let date := PlainDate.ofEpochDay (.ofInt (day.jd - 2440588))
    let dayOfMonth := date.day.val.toNat
    decimal (dayOfMonth / 10) ++ decimal (dayOfMonth % 10) ++ utf8 " " ++
      utf8 (["Jan", "Feb", "Mar", "Apr", "May", "Jun", "Jul", "Aug", "Sep", "Oct", "Nov",
        "Dec"].getD (date.month.val.toNat - 1) "")
  currentDate := ⟨2460000, by decide⟩

/-- Orders on both sides of the end of a February, one before the window and one undated. -/
def someOrders : List SaleOrder :=
  [⟨utf8 "1", utf8 "2024-02-29", utf8 "1", utf8 "1", utf8 "1", utf8 "Invoiced"⟩,
    ⟨utf8 "2", utf8 "soon", utf8 "1", utf8 "1", utf8 "1", utf8 "Draft"⟩,
    ⟨utf8 "3", utf8 " 2024-03-02", utf8 "1", utf8 "1", utf8 "1", utf8 "Draft"⟩,
    ⟨utf8 "4", utf8 "2024-02-24", utf8 "1", utf8 "1", utf8 "1", utf8 "invoiced"⟩,
    ⟨utf8 "5", utf8 "2024-02-29", utf8 "1", utf8 "1", utf8 "1", utf8 "Confirmed"⟩]

namespace AnalyticsView

theorem buildOrderTimeline_counts_someOrders : ∃ anchor, CountsDays Qt.exact gregorian
    SaleOrder.date
    (fun order => canonicalSalesStatus Qt.exact order.status = utf8 "Invoiced") someOrders
    anchor :=
  buildOrderTimeline_counts Qt.exact gregorian SaleOrder.date _ someOrders (by decide +kernel)

example : salesTimeline Qt.exact gregorian someOrders =
    [⟨utf8 "25 Feb", 0, 0⟩, ⟨utf8 "26 Feb", 0, 0⟩, ⟨utf8 "27 Feb", 0, 0⟩, ⟨utf8 "28 Feb", 0, 0⟩,
      ⟨utf8 "29 Feb", 2, 1⟩, ⟨utf8 "01 Mar", 0, 0⟩, ⟨utf8 "02 Mar", 1, 0⟩] := by
  decide +kernel

end AnalyticsView

end SageStore
