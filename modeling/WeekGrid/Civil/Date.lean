import WeekGrid.Decimal.Written

/-!
Calendar dates of the years 1 to 9999, counted by days: day 1 is Monday 1 January of the year 1. A week
starts on Monday and belongs to the year of its Thursday.
-/
namespace WeekGrid

namespace Civil

def isLeap (year : Nat) : Bool := year % 4 == 0 && (year % 100 != 0 || year % 400 == 0)

def monthLengths (year : Nat) : List Nat :=
  [31, if isLeap year then 29 else 28, 31, 30, 31, 30, 31, 31, 30, 31, 30, 31]

/-- The length of a month numbered from 1; no other number is a month. -/
def monthLength (year month : Nat) : Nat :=
  if month = 0 then 0 else (monthLengths year).getD (month - 1) 0

def daysBeforeYear (year : Nat) : Nat :=
  let past := year - 1
  past * 365 + past / 4 - past / 100 + past / 400

def daysBeforeMonth (year month : Nat) : Nat := ((monthLengths year).take (month - 1)).foldr (· + ·) 0

def IsDate (year month day : Nat) : Prop :=
  1 ≤ year ∧ year ≤ 9999 ∧ 1 ≤ day ∧ day ≤ monthLength year month

instance (year month day : Nat) : Decidable (IsDate year month day) :=
  inferInstanceAs (Decidable (_ ∧ _))

end Civil

structure Date where
  year : Nat
  month : Nat
  day : Nat
  isDate : Civil.IsDate year month day
  deriving DecidableEq

namespace Date

open Civil

def make? (year month day : Nat) : Option Date :=
  if h : IsDate year month day then some ⟨year, month, day, h⟩ else none

def first : Date := ⟨1, 1, 1, by decide⟩

instance : Inhabited Date := ⟨first⟩

def dayOfYear (d : Date) : Nat := daysBeforeMonth d.year d.month + d.day

/-- The number of a day, counted from 1. -/
def dayNumber (d : Date) : Nat := daysBeforeYear d.year + d.dayOfYear

/-- The year that a day number lies in: whole cycles of 400, 100, 4 and 1 years are taken out in turn,
and the last day of a cycle does not open another. -/
def yearOf (number : Nat) : Nat :=
  let n := number - 1
  let inCycle := n % 146097
  let centuries := min 3 (inCycle / 36524)
  let inCentury := inCycle - centuries * 36524
  let inFour := inCentury % 1461
  400 * (n / 146097) + 100 * centuries + 4 * (inCentury / 1461) + min 3 (inFour / 365) + 1

def monthAndDay : List Nat → Nat → Nat → Nat × Nat
  | [], month, day => (month, day)
  | length :: rest, month, day =>
    if day ≤ length then (month, day) else monthAndDay rest (month + 1) (day - length)

def ofDayNumber? (number : Nat) : Option Date :=
  let year := yearOf number
  let (month, day) := monthAndDay (monthLengths year) 1 (number - daysBeforeYear year)
  make? year month day

/-- The day of the week, Monday being 1 and Sunday 7. -/
def isoWeekday (d : Date) : Nat := (d.dayNumber - 1) % 7 + 1

def thursdayNumber (d : Date) : Nat := d.dayNumber + 4 - d.isoWeekday

/-- The year that a date's week belongs to. -/
def isoYear (d : Date) : Nat := yearOf d.thursdayNumber

def isoWeek (d : Date) : Nat := (d.thursdayNumber - daysBeforeYear d.isoYear - 1) / 7 + 1

def ofIsoWeek? (year week weekday : Nat) : Option Date :=
  let fourth := daysBeforeYear year + 4
  let monday := fourth - (fourth - 1) % 7
  ofDayNumber? (monday + 7 * (week - 1) + (weekday - 1))

/-- The text `dd/mm/year`; the year is not padded. -/
def slashed (d : Date) : String :=
  String.ofList (paddedDigits 2 d.day ++ '/' :: paddedDigits 2 d.month ++ '/' :: Nat.toDigits 10 d.year)

def dashed (d : Date) : String :=
  String.ofList
    (paddedDigits 4 d.year ++ '-' :: paddedDigits 2 d.month ++ '-' :: paddedDigits 2 d.day)

end Date
end WeekGrid
