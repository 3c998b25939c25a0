import WeekGrid.Text.Blank

/-!
The days that a timetable has rows for, by their French names.
-/
namespace WeekGrid.Timetable

inductive Weekday where
  | monday
  | tuesday
  | wednesday
  | thursday
  | friday
  | saturday
  deriving DecidableEq, Repr

namespace Weekday

def all : List Weekday := [monday, tuesday, wednesday, thursday, friday, saturday]

def iso : Weekday → Nat
  | monday => 1
  | tuesday => 2
  | wednesday => 3
  | thursday => 4
  | friday => 5
  | saturday => 6

theorem iso_range (d : Weekday) : 1 ≤ d.iso ∧ d.iso ≤ 6 := by
  cases d <;> decide

/-- The number of a day where Sunday is 1. -/
def number (d : Weekday) : Nat := d.iso + 1

def frenchName : Weekday → String
  | monday => "lundi"
  | tuesday => "mardi"
  | wednesday => "mercredi"
  | thursday => "jeudi"
  | friday => "vendredi"
  | saturday => "samedi"

/-- The day of a name in any mix of cases, with white space around. No character outside ASCII has a
letter of these names as its lower case, so ASCII lower-casing is enough. -/
def ofFrench? (name : String) : Option Weekday :=
  let lower := String.ofList ((Text.strip name.toList).map Char.toLower)
  all.find? fun day => day.frenchName == lower

theorem ofFrench?_frenchName (d : Weekday) : ofFrench? d.frenchName = some d := by
  cases d <;> decide

end Weekday
end WeekGrid.Timetable
