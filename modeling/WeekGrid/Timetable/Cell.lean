import WeekGrid.Text.Cut
import WeekGrid.Timetable.Lesson

/-!
Reading the texts of a lesson cell. A lecture or project cell of several lines ends with teacher and room,
the room perhaps twice; the other cells have code, teacher and room in one line, with dashes between. A
cell whose texts do not fit is no lesson.
-/
namespace WeekGrid.Timetable

open Page (Bounds)

def distinctWords : List (List Char) → List (List Char) → List (List Char)
  | seen, [] => seen
  | seen, word :: rest =>
    if seen.contains word then distinctWords seen rest else distinctWords (seen ++ [word]) rest

/-- A code without repeated words: `R1.01 R1.01` is `R1.01`. -/
def withoutRepeats (code : List Char) : List Char :=
  Text.join [' '] (distinctWords [] (Text.words code))

/-- The pieces between separators without white space around them; empty pieces are dropped, blank ones
are kept as empty texts, so that a missing teacher does not shift the room. -/
def splitParts (separator : List Char) (text : List Char) : List (List Char) :=
  ((Text.split separator text).filter (· ≠ [])).map Text.strip

/-- Takes the room off the end of some lines, and the teacher before it; where the room stands twice, the
teacher is one line further up. The lines that are left come second. -/
def popRoomAndTeacher (lines : List String) : Option (String × String) × List String :=
  match lines.reverse with
  | [] => (none, [])
  | [_] => (none, [])
  | room :: teacher :: rest =>
    if teacher = room then
      match rest with
      | [] => (none, [])
      | teacher :: rest => (some (room, teacher), rest.reverse)
    else (some (room, teacher), rest.reverse)

def joinLines (lines : List String) : String :=
  String.ofList (Text.join [' '] (lines.map String.toList))

/-- The first line of a lecture cell: the code, and the label after the first ` -`, if there is one. -/
def lectureHead (first : String) : String × List String :=
  let (code, label) := (Text.cut? [' ', '-'] first.toList).getD (first.toList, [])
  let label := Text.strip label
  (String.ofList (withoutRepeats (Text.strip code)), if label = [] then [] else [String.ofList label])

def lecture? (courses : CourseTable) (lines : List String) : Except Failure (Option Session) :=
  match lines with
  | [] => return none
  | first :: rest =>
    let (code, label) := lectureHead first
    match popRoomAndTeacher rest with
    | (none, _) => return none
    | (some (room, teacher), rest) => do
      return some (.lecture code (joinLines (label ++ rest)) (← courses.name code) teacher room)

def threeParts? (separator : List Char) (line : String) : Option (String × String × String) :=
  match splitParts separator line.toList with
  | code :: teacher :: room :: _ =>
    some (String.ofList code, String.ofList teacher, String.ofList room)
  | _ => none

def spacedDash : List Char := [' ', '-', ' ']

def GroupedKind.separator : GroupedKind → List Char
  | practical => spacedDash
  | tutorial => ['-']
  | exam => ['-']

def GroupedKind.audience (kind : GroupedKind) (row : Row) : Audience :=
  match kind with
  | practical => ⟨row.group, some row.half⟩
  | tutorial => ⟨row.group, none⟩
  | exam => ⟨row.group, none⟩

def grouped? (courses : CourseTable) (kind : GroupedKind) (row : Row) (lines : List String) :
    Except Failure (Option Session) :=
  match lines with
  | [] => return none
  | first :: _ =>
    match threeParts? kind.separator first with
    | none => return none
    | some (code, teacher, room) => do
      return some (.grouped kind (kind.audience row) code teacher (← courses.name code) room)

/-- How many rows are marked well inside a cell, at least two units from its edges. -/
def rowsInside (bounds : Bounds) (groups : GroupAxis) : Nat :=
  (groups.filter fun (y, _) => (bounds.bottom + 2).lt y && y.lt (bounds.top - 2)).length

/-- The project session of a cell with a single line. A cell over other rows is for the whole group. -/
def projectLine? (courses : CourseTable) (groups : GroupAxis) (bounds : Bounds) (row : Row)
    (line : String) : Except Failure (Option Session) :=
  match threeParts? spacedDash line with
  | none => return none
  | some (code, teacher, room) => do
    let half := if rowsInside bounds groups = 0 then some row.half else none
    return some (.project (some ⟨row.group, half⟩) code teacher (← courses.name code) none room)

/-- The project session of a cell with several lines; its subject may be in no course table. -/
def projectLines? (courses : CourseTable) (lines : List String) : Except Failure (Option Session) :=
  match popRoomAndTeacher lines with
  | (none, _) => return none
  | (some (room, teacher), rest) =>
    let description := joinLines rest
    if description = "" then return none
    else match Text.words description.toList with
    | [] => throw (.faulted .descriptionWithoutWord)
    | word :: _ =>
      let code := String.ofList word
      match courses.name? code with
      | none => return some (.other description teacher room)
      | some courseName =>
        let label := ((Text.cut? spacedDash description.toList).map (·.2)).getD []
        return some (.project none code teacher courseName (some (String.ofList label)) room)

def project? (courses : CourseTable) (groups : GroupAxis) (bounds : Bounds) (row : Row)
    (lines : List String) : Except Failure (Option Session) :=
  match lines with
  | [line] => projectLine? courses groups bounds row line
  | lines => projectLines? courses lines

def session? (courses : CourseTable) (groups : GroupAxis) (kind : CellKind) (bounds : Bounds)
    (row : Row) (lines : List String) : Except Failure (Option Session) :=
  match kind with
  | .lecture => lecture? courses lines
  | .practical => grouped? courses .practical row lines
  | .tutorial => grouped? courses .tutorial row lines
  | .exam => grouped? courses .exam row lines
  | .project => project? courses groups bounds row lines

end WeekGrid.Timetable
