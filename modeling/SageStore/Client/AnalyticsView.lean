import SageStore.Server.Repositories
import SageStore.Client.Statuses

/-!
# The order timelines

A timeline shows the last seven days up to the latest order: for each day how many orders bear
its date, and how many of them are in the status that the chart follows. Dates are texts of the
server; a text that is no date belongs to no day.
-/

namespace SageStore

open Bytes

/-! ### Dates -/

/-- A day by its Julian day number, within the limits of `QDate`. -/
structure JulianDay where
  jd : ℤ
  inRange : -784350574879 ≤ jd ∧ jd ≤ 784354017364
deriving DecidableEq

/-- A day, or the null date. -/
abbrev QDate := Option JulianDay

namespace QDate

def fromJulianDay (jd : ℤ) : QDate :=
  if h : -784350574879 ≤ jd ∧ jd ≤ 784354017364 then some ⟨jd, h⟩ else none

/-- The number that dates are compared by: that of the null date is below all others. -/
def toJulianDay : QDate → ℤ
  | some day => day.jd
  | none => -2 ^ 63

def isValid (date : QDate) : Bool := date.isSome

/-- `operator<`. -/
def lt (date other : QDate) : Bool := date.toJulianDay < other.toJulianDay

/-- The null date if there is no such day. -/
def addDays (date : QDate) (days : ℤ) : QDate :=
  date.bind fun day => fromJulianDay (day.jd + days)

/-- `0` if one of the dates is null. -/
def daysTo (date other : QDate) : ℤ :=
  match date, other with
  | some day, some day' => day'.jd - day.jd
  | _, _ => 0

end QDate

/-- The Gregorian calendar: the dates that texts give, and the texts of dates. -/
structure Calendar where
  /-- `QDate::fromString` with the format `yyyy-MM-dd`. -/
  fromString : Bytes → QDate
  /-- A year has four digits, so that every date a text gives is far from the limits. -/
  fromString_range : ∀ t day, fromString t = some day → -2000000 ≤ day.jd ∧ day.jd ≤ 6000000
  /-- `QDate::toString` with the format `dd MMM`. -/
  toString : QDate → Bytes
  currentDate : JulianDay

/-- `TimelineChartWidget::Point`: the values count orders, which doubles do exactly. -/
structure TimelinePoint where
  label : Bytes
  primaryValue : ℕ
  secondaryValue : ℕ
deriving DecidableEq

namespace AnalyticsView

variable (qt : Qt) (calendar : Calendar)

def parseIsoDate (dateText : Bytes) : QDate := calendar.fromString (qt.trimmed dateText)

section

variable {Order : Type*} (date : Order → Bytes) (secondaryPredicate : Order → Bool)

/-- The latest date so far, after one more order. -/
def laterDate (anchorDate : QDate) (order : Order) : QDate :=
  let date := parseIsoDate qt calendar (date order)
  if date.isValid && (!anchorDate.isValid || anchorDate.lt date) then date else anchorDate

/-- The last day of the window: that of the latest order, or today. -/
def anchorDate (orders : List Order) : QDate :=
  let anchorDate := orders.foldl (laterDate qt calendar date) none
  if anchorDate.isValid then anchorDate else some calendar.currentDate

/-- `const int index`: the number of days into the window, as a number of 32 bits. -/
def dayIndex (startDate date : QDate) : ℤ := (startDate.daysTo date).bmod (2 ^ 32)

/-- The point of an order in the window is raised. -/
def countOrder (startDate anchorDate : QDate) (points : List TimelinePoint) (order : Order) :
    List TimelinePoint :=
  let date := parseIsoDate qt calendar (date order)
  if !date.isValid || date.lt startDate || anchorDate.lt date then points
  else
    let index := dayIndex startDate date
    if index < 0 || index ≥ points.length then points
    else
      let points := points.modify index.toNat fun point =>
        { point with primaryValue := point.primaryValue + 1 }
      if secondaryPredicate order then
        points.modify index.toNat fun point =>
          { point with secondaryValue := point.secondaryValue + 1 }
      else points

def buildOrderTimeline (orders : List Order) : List TimelinePoint :=
  let anchorDate := anchorDate qt calendar date orders
  let startDate := anchorDate.addDays (-6)
  let points := (List.range 7).map fun (offset : ℕ) =>
    (⟨calendar.toString (startDate.addDays offset), 0, 0⟩ : TimelinePoint)
  orders.foldl (countOrder qt calendar date secondaryPredicate startDate anchorDate) points

end

/-- The series of `refreshSalesTimeline`. -/
def salesTimeline (orders : List SaleOrder) : List TimelinePoint :=
  buildOrderTimeline qt calendar SaleOrder.date
    (fun order => canonicalSalesStatus qt order.status = utf8 "Invoiced") orders

end AnalyticsView

end SageStore
