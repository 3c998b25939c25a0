import WeekGrid.Courses.Reference
import WeekGrid.Json.Reader

/-!
Course tables from files: a JSON object of course names by course code, in UTF-8.
-/
namespace WeekGrid.Courses

open Timetable (CourseTable)

/-- The members of an object whose values are all texts. -/
def textMembers? : List (String × Json) → Option CourseTable
  | [] => some []
  | (code, .text name) :: rest => (textMembers? rest).map ((code, name) :: ·)
  | _ => none

def ofJson? : Json → Option CourseTable
  | .object members => textMembers? members
  | _ => none

def ofFile (file : String) (content : Text.Bytes) : Except Fault CourseTable := do
  let chars ← match Text.decode? content with
    | some chars => pure chars
    | none => throw .malformedUtf8
  match ofJson? (← Json.ofChars chars) with
  | some table => return table
  | none => throw (.notACourseTable file)

end WeekGrid.Courses
