import WeekGrid.Binary64.Whole
import WeekGrid.Civil.Reading
import WeekGrid.Page.Elements
import WeekGrid.Text.Front
import WeekGrid.Text.Numeral
import WeekGrid.Timetable.Palette

/-!
The week header: the first text inside the first header-coloured box, of the form
`Semaine 12 (47) : du 18/11/2024 au 23/11/2024` with any text around it.
-/
namespace WeekGrid.Timetable

open Page (Elements Box Bounds)

structure Header where
  weekNumber : Nat
  weekInYear : Nat
  start : DateTime
  finish : DateTime
  deriving DecidableEq

/-- A header with the bounds of its box, on which the grid is anchored. -/
structure PlacedHeader where
  header : Header
  bounds : Bounds
  deriving DecidableEq

/-- The four variable parts of a header text. -/
structure HeaderText where
  week : List Char
  weekInYear : List Char
  start : List Char
  finish : List Char
  deriving DecidableEq

namespace HeaderText

def datePattern : String := "dd/dd/dddd"

def atFront? (cs : List Char) : Option HeaderText := do
  let cs ← Text.afterWord? "Semaine " cs
  let (week, cs) ← Text.takeDigits? cs
  let cs ← Text.afterWord? " (" cs
  let (weekInYear, cs) ← Text.takeDigits? cs
  let cs ← Text.afterWord? ") : du " cs
  let (start, cs) ← Text.takeShape? datePattern cs
  let cs ← Text.afterWord? " au " cs
  let (finish, _) ← Text.takeShape? datePattern cs
  return ⟨week, weekInYear, start, finish⟩

/-- The parts of the leftmost header text inside a text. -/
def find? : List Char → Option HeaderText
  | [] => none
  | c :: cs => (atFront? (c :: cs)).or (find? cs)

def weekNumber (digits : List Char) : Except Failure Nat :=
  match Text.readNatural? digits with
  | some n => return n
  | none => throw (.faulted .tooManyDigits)

/-- The header that a text announces; both dates have to exist, and are taken as midnight in Paris. -/
def read (text : String) : Except Failure Header :=
  match find? text.toList with
  | none => throw (.refused (.headerTextUnparseable text))
  | some parts =>
    match Civil.readSlashed? parts.start, Civil.readSlashed? parts.finish with
    | some start, some finish => do
      return ⟨← weekNumber parts.week, ← weekNumber parts.weekInYear,
        .midnight start (some .paris), .midnight finish (some .paris)⟩
    | _, _ => throw (.refused (.headerTextUnparseable text))

end HeaderText

def readHeader (elements : Elements) : Except Failure PlacedHeader :=
  match elements.boxes.find? fun box => box.color == some headerColor with
  | none => throw (.refused .headerBoxNotFound)
  | some box =>
    match Page.textsWithin elements.texts box.bounds with
    | [] => throw (.refused .headerTextsNotFound)
    | first :: _ => do return ⟨← HeaderText.read first.text, box.bounds⟩

end WeekGrid.Timetable
