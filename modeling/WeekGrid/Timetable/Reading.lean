import WeekGrid.Timetable.Cell

/-!
From the elements of a page to the lessons of a week. A lesson cell counts if its height has a row, both
its edges have time labels that are times of day, and its texts fit its kind; all other boxes are passed
over.
-/
namespace WeekGrid.Timetable

open Page (Elements Box Bounds)

/-- The hour and the minute that a label such as `13:30` names. -/
def timeOfDay? (label : String) : Option (Nat × Nat) :=
  match Text.split [':'] label.toList with
  | [hour, minute] =>
    match Text.readInteger? hour, Text.readInteger? minute with
    | some hour, some minute =>
      if 0 ≤ hour ∧ hour < 24 ∧ 0 ≤ minute ∧ minute < 60 then some (hour.toNat, minute.toNat)
      else none
    | _, _ => none
  | _ => none

/-- The time that a label names on a day of the week of a base time; Paris time if the base has no zone. -/
def lessonTime (label : String) (base : DateTime) (day : Weekday) : Except Fault (Option DateTime) :=
  match timeOfDay? label with
  | none => return none
  | some (hour, minute) =>
    match Date.ofIsoWeek? base.date.isoYear base.date.isoWeek day.iso with
    | some date => return some ⟨date, hour, minute, some (base.zone.getD .paris)⟩
    | none => throw .yearOutOfRange

def CellKind.topDrop : CellKind → Binary64
  | lecture => 6
  | _ => 4

def bottomDrop : Binary64 := 6

def cellLines (elements : Elements) (kind : CellKind) (bounds : Bounds) : List String :=
  ((Page.textsWithin elements.texts (bounds.lowered kind.topDrop bottomDrop)).map
    fun t => Text.trimmed t.text).filter (· ≠ "")

/-- The place of a cell in the grid: its row, and the labels of its edges. -/
def placeOf? (times : TimeAxis) (groups : GroupAxis) (bounds : Bounds) :
    Except Fault (Option (Row × String × String)) := do
  let height ← roundHeight bounds.bottom
  return do
    let row ← Keyed.get? Binary64.same height groups
    let start ← Keyed.get? Binary64.same bounds.left times
    let finish ← Keyed.get? Binary64.same bounds.right times
    return (row, start, finish)

def lessonOf? (elements : Elements) (base : DateTime) (times : TimeAxis) (groups : GroupAxis)
    (courses : CourseTable) (kind : CellKind) (bounds : Bounds) : Except Failure (Option Lesson) := do
  match ← (placeOf? times groups bounds).mapError .faulted with
  | none => return none
  | some (row, startLabel, finishLabel) =>
    let start? ← (lessonTime startLabel base row.day).mapError .faulted
    let finish? ← (lessonTime finishLabel base row.day).mapError .faulted
    match start?, finish? with
    | some start, some finish =>
      let lines := cellLines elements kind bounds
      let session? ← session? courses groups kind bounds row lines
      return session?.map fun session => ⟨start, finish, session⟩
    | _, _ => return none

/-- The lessons of some boxes in order, up to the first failure. -/
def lessonsOf (elements : Elements) (base : DateTime) (times : TimeAxis) (groups : GroupAxis)
    (courses : CourseTable) : List Box → Except Failure (List Lesson)
  | [] => return []
  | box :: boxes =>
    match CellKind.ofColor? box.color with
    | none => lessonsOf elements base times groups courses boxes
    | some kind => do
      let lesson? ← lessonOf? elements base times groups courses kind box.bounds
      let more ← lessonsOf elements base times groups courses boxes
      return lesson?.toList ++ more

def readLessons (elements : Elements) (base : DateTime) (times : TimeAxis) (groups : GroupAxis)
    (courses : CourseTable) : Except Failure (List Lesson) :=
  lessonsOf elements base times groups courses elements.boxes

def readTimetable (elements : Elements) (courses : CourseTable) : Except Failure Schedule := do
  let placed ← readHeader elements
  let times := timeAxis elements placed.bounds
  let groups ← (groupAxis elements placed.bounds).mapError .faulted
  let lessons ← readLessons elements placed.header.start times groups courses
  return ⟨placed.header, lessons⟩

end WeekGrid.Timetable
