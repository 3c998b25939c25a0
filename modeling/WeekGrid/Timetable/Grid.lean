import WeekGrid.Keyed
import WeekGrid.Timetable.Header
import WeekGrid.Timetable.Weekday

/-!
The two axes of the grid. Time rulers hang below the header and give each left edge a time label; group
rows stand to the right of their day's cell and give two heights a group each: the lower edge belongs to
the first half of the group, the upper edge raised by half the height to the second. Where several rulers
or rows claim one place, the last one has it.
-/
namespace WeekGrid.Timetable

open Page (Elements Box Bounds TextPiece)

inductive Half where
  | a
  | b
  deriving DecidableEq, Repr

def Half.letter : Half → String
  | a => "A"
  | b => "B"

/-- A row of the grid: a half of a numbered group on a day. -/
structure Row where
  group : Int
  half : Half
  day : Weekday
  deriving DecidableEq, Repr

/-- Time labels by the left edge that they mark. -/
abbrev TimeAxis := List (Binary64 × String)

/-- Rows by the rounded height of the cells in them. -/
abbrev GroupAxis := List (Binary64 × Row)

def rulers (elements : Elements) : List Box :=
  elements.boxes.filter fun box => box.color == some rulerColor

def firstLabel? (texts : List TextPiece) : Option String :=
  texts.findSome? fun t =>
    let label := Text.trimmed t.text
    if label = "" then none else some label

/-- The mark that a time ruler sets: it touches the header from below and has a label. -/
def timeMark? (elements : Elements) (header : Bounds) (ruler : Box) : Option (Binary64 × String) :=
  if ruler.bounds.top.same header.bottom then
    (firstLabel? (Page.textsWithin elements.texts ruler.bounds)).map (ruler.x, ·)
  else none

def timeAxis (elements : Elements) (header : Bounds) : TimeAxis :=
  Keyed.ofPairs Binary64.same ((rulers elements).filterMap (timeMark? elements header))

/-- The number of a group, which is the second character of its label. -/
def groupNumber? (label : String) : Option Nat :=
  match label.toList with
  | _ :: c :: _ => if '0' ≤ c ∧ c ≤ '9' then some (c.toNat - '0'.toNat) else none
  | _ => none

/-- Day cells stand one unit to the right of the header's left edge. -/
def isDayCell (header : Bounds) (ruler : Box) : Bool := ruler.x.same (header.left + 1)

def dayOf? (elements : Elements) (cell : Box) : Option Weekday :=
  match Page.textsWithin elements.texts cell.bounds with
  | first :: _ => Weekday.ofFrench? first.text
  | [] => none

/-- Whether a ruler is a group row of a day: inside its height, and at its right edge. -/
def isRowOf (day : Bounds) (ruler : Box) : Bool :=
  ruler.bounds.top.le day.top && day.bottom.le ruler.bounds.bottom &&
    ruler.bounds.left.same day.right

def groupOf? (elements : Elements) (row : Box) : Option Nat :=
  match Page.textsWithin elements.texts row.bounds with
  | first :: _ => groupNumber? first.text
  | [] => none

def heightPlaces : Int := 4

def roundHeight (y : Binary64) : Except Fault Binary64 := y.roundPlaces heightPlaces

def rowMarks (day : Weekday) (group : Nat) (row : Box) : Except Fault (List (Binary64 × Row)) := do
  let low ← roundHeight row.bounds.bottom
  let high ← roundHeight (row.bounds.top + row.height / 2)
  return [(low, ⟨group, .a, day⟩), (high, ⟨group, .b, day⟩)]

/-- The group rows of a page in order, each with its day and its group: day by day, the rows of a day in
drawing order. -/
def groupRows (elements : Elements) (header : Bounds) : List (Weekday × Nat × Box) :=
  ((rulers elements).filter (isDayCell header)).flatMap fun cell =>
    match dayOf? elements cell with
    | none => []
    | some day =>
      ((rulers elements).filter (isRowOf cell.bounds)).filterMap fun row =>
        (groupOf? elements row).map fun group => (day, group, row)

def groupAxis (elements : Elements) (header : Bounds) : Except Fault GroupAxis := do
  let marks ← (groupRows elements header).mapM fun (day, group, row) => rowMarks day group row
  return Keyed.ofPairs Binary64.same marks.flatten

end WeekGrid.Timetable
