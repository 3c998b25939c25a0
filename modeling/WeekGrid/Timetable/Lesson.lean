import WeekGrid.Timetable.Grid

/-!
Lessons: what is taught, by whom, where and to which group, and the timetable of a week.
-/
namespace WeekGrid.Timetable

/-- Who attends a lesson: a numbered group, or one half of it. -/
structure Audience where
  group : Int
  half : Option Half
  deriving DecidableEq, Repr

def Audience.label (a : Audience) : String :=
  "G" ++ toString a.group ++ (match a.half with | some half => half.letter | none => "")

/-- The kinds of lesson that are for one group and have a code, a teacher and a room. -/
inductive GroupedKind where
  | practical
  | tutorial
  | exam
  deriving DecidableEq, Repr

inductive Session where
  | lecture (code label courseName teacher room : String)
  | grouped (kind : GroupedKind) (audience : Audience) (code teacher courseName room : String)
  /-- A project session; without an audience it is open to every group. -/
  | project (audience : Option Audience) (code teacher courseName : String) (label : Option String)
      (room : String)
  /-- A cell in the project colour whose subject is in no course table. -/
  | other (description teacher room : String)
  deriving DecidableEq, Repr

def Session.kindName : Session → String
  | lecture .. => "CM"
  | grouped .practical .. => "TP"
  | grouped .tutorial .. => "TD"
  | grouped .exam .. => "DS"
  | project .. => "SAE"
  | other .. => "OTHER"

structure Lesson where
  start : DateTime
  finish : DateTime
  session : Session
  deriving DecidableEq

structure Schedule where
  header : Header
  lessons : List Lesson
  deriving DecidableEq

abbrev CourseTable := List (String × String)

namespace CourseTable

def name? (courses : CourseTable) (code : String) : Option String :=
  Keyed.get? (· == ·) code courses

/-- The name of a course that has to be in the table. -/
def name (courses : CourseTable) (code : String) : Except Failure String :=
  match courses.name? code with
  | some name => return name
  | none => throw (.refused (.unknownCourseCode code))

end CourseTable
end WeekGrid.Timetable
