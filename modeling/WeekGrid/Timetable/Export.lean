import WeekGrid.Json.Basic
import WeekGrid.Timetable.Lesson

/-!
A timetable as a JSON value. Times are written with a space between date and time, halves and kinds as
their letters.
-/
namespace WeekGrid.Timetable

def textOrNull : Option String → Json
  | some s => .text s
  | none => .null

def Audience.toJson (a : Audience) : Json :=
  .object [("main", .integer a.group), ("sub", textOrNull (a.half.map Half.letter))]

def audienceOrNull : Option Audience → Json
  | some a => a.toJson
  | none => .null

/-- The members of a session; the name of its kind comes last. -/
def Session.toJson (s : Session) : Json :=
  let kind := ("type", Json.text s.kindName)
  match s with
  | lecture code label courseName teacher room =>
    .object [("code", .text code), ("raw_lesson", .text label), ("course_name", .text courseName),
      ("teacher", .text teacher), ("room", .text room), kind]
  | grouped _ audience code teacher courseName room =>
    .object [("group", audience.toJson), ("code", .text code), ("teacher", .text teacher),
      ("course_name", .text courseName), ("room", .text room), kind]
  | project audience code teacher courseName label room =>
    .object [("group", audienceOrNull audience), ("code", .text code), ("teacher", .text teacher),
      ("course_name", .text courseName), ("raw_lesson", textOrNull label), ("room", .text room), kind]
  | other description teacher room =>
    .object [("description", .text description), ("teacher", .text teacher), ("room", .text room), kind]

def Lesson.toJson (l : Lesson) : Json :=
  .object [("start_date", .text l.start.spaced), ("end_date", .text l.finish.spaced),
    ("variant", l.session.toJson)]

def Header.toJson (h : Header) : Json :=
  .object [("week_number", .integer h.weekNumber), ("week_number_in_year", .integer h.weekInYear),
    ("start_date", .text h.start.spaced), ("end_date", .text h.finish.spaced)]

def Schedule.toJson (t : Schedule) : Json :=
  .object [("header", t.header.toJson), ("lessons", .array (t.lessons.map Lesson.toJson))]

end WeekGrid.Timetable
