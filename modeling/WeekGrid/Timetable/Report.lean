import WeekGrid.Timetable.Lesson

/-!
A timetable as lines of text for people.
-/
namespace WeekGrid.Timetable

def reportLine (name value : String) : String := "  " ++ name ++ value

def audienceLine (label : String) : String := reportLine "Group:   " label

/-- A label has a line of its own unless it is empty. -/
def labelLines (label : String) : List String :=
  if label = "" then [] else [reportLine "Label:   " label]

def Session.report (s : Session) : List String :=
  let first (subject teacher room : String) : List String :=
    [reportLine "Type:    " s.kindName, subject, reportLine "Teacher: " teacher,
      reportLine "Room:    " room]
  let subject (code : String) : String := reportLine "Subject: " code
  let course (name : String) : String := reportLine "Lesson:  " name
  match s with
  | lecture code label courseName teacher room =>
    first (subject code) teacher room ++ course courseName :: labelLines label
  | grouped _ audience code teacher courseName room =>
    first (subject code) teacher room ++ [audienceLine audience.label, course courseName]
  | project audience code teacher courseName label room =>
    let who := match audience with
      | some audience => audience.label
      | none => "All groups"
    first (subject code) teacher room ++ [audienceLine who, course courseName] ++
      labelLines (label.getD "")
  | other description teacher room =>
    first (reportLine "Description: " description) teacher room

/-- The lines of a lesson with its place in the report, after an empty one. -/
def Lesson.report (index : Nat) (l : Lesson) : List String :=
  ["", "Lesson " ++ toString index ++ ":",
    reportLine "Time:    " (l.start.clock ++ " - " ++ l.finish.clock)] ++ l.session.report

def reportRule : String := String.ofList (List.replicate 64 '=')

def Schedule.reportLines (t : Schedule) : List String :=
  let h := t.header
  let title := "Week " ++ toString h.weekNumber ++ " (" ++ toString h.weekInYear ++ "): " ++
    h.start.date.slashed ++ " - " ++ h.finish.date.slashed
  [reportRule, title, reportRule] ++
    if t.lessons = [] then ["No lessons found in the document."]
    else (toString t.lessons.length ++ " lessons") ::
      (t.lessons.mapIdx fun index lesson => lesson.report (index + 1)).flatten ++ [""]

def Schedule.report (t : Schedule) : String := String.join (t.reportLines.map (· ++ "\n"))

end WeekGrid.Timetable
