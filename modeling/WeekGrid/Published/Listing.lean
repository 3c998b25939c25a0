import WeekGrid.Civil.Reading
import WeekGrid.Failure
import WeekGrid.Text.Front
import WeekGrid.Text.Numeral

/-!
Directory listings of published timetables: one file a week for each year of study, named like
`A1_S12.pdf`. An entry is a link to such a file with a time stamp later on the same line. Entries are
sorted by week; those of one week stay in the order of the page.
-/
namespace WeekGrid.Published

inductive YearOfStudy where
  | first
  | second
  | third
  deriving DecidableEq, Repr

namespace YearOfStudy

def name : YearOfStudy → String
  | first => "A1"
  | second => "A2"
  | third => "A3"

def all : List YearOfStudy := [first, second, third]

def ofName? (name : String) : Option YearOfStudy := all.find? fun year => year.name == name

theorem ofName?_name (year : YearOfStudy) : ofName? year.name = some year := by
  cases year <;> decide

end YearOfStudy

structure Entry where
  fileName : String
  lastUpdated : DateTime
  weekNumber : Nat
  year : YearOfStudy
  url : String
  deriving DecidableEq

def defaultSite : String := "http://edt-iut-info.unilim.fr/edt"

def directoryUrl (site : String) (year : YearOfStudy) : String :=
  String.ofList (site.toList.reverse.dropWhile (· == '/')).reverse ++ "/" ++ year.name ++ "/"

/-- A link in a listing: the digits of its week and the text of its time stamp. -/
structure Link where
  week : List Char
  stamp : List Char
  deriving DecidableEq

namespace Link

def stampPattern : String := "dddd-dd-dd dd:dd"

/-- The first time stamp on the rest of a line, and what follows it. -/
def findStamp? : List Char → Option (List Char × List Char)
  | [] => none
  | c :: cs =>
    match Text.takeShape? stampPattern (c :: cs) with
    | some found => some found
    | none => if c = '\n' then none else findStamp? cs

def atFront? (year : YearOfStudy) (cs : List Char) : Option (Link × List Char) := do
  let cs ← Text.afterWord? ("href=\"" ++ year.name ++ "_S") cs
  let (week, cs) ← Text.takeDigits? cs
  let cs ← Text.afterWord? ".pdf\"" cs
  let (stamp, cs) ← findStamp? cs
  return (⟨week, stamp⟩, cs)

/-- The links of a text in order; the number counts the characters of the last link still to pass. -/
def scan (year : YearOfStudy) : Nat → List Char → List Link
  | _, [] => []
  | pass + 1, _ :: cs => scan year pass cs
  | 0, c :: cs =>
    match atFront? year (c :: cs) with
    | some (link, rest) => link :: scan year (cs.length - rest.length) cs
    | none => scan year 0 cs

def all (year : YearOfStudy) (html : String) : List Link := scan year 0 html.toList

def fileName (year : YearOfStudy) (link : Link) : String :=
  String.ofList (year.name.toList ++ '_' :: 'S' :: link.week ++ ['.', 'p', 'd', 'f'])

/-- The entry of a link. A time stamp that is no time counts as the first time of all. -/
def entry (site : String) (year : YearOfStudy) (link : Link) : Except Fault Entry :=
  match Text.readNatural? link.week with
  | none => throw .tooManyDigits
  | some week =>
    return {
      fileName := link.fileName year
      lastUpdated := (Civil.readStamp? link.stamp).getD (.midnight .first none)
      weekNumber := week
      year := year
      url := directoryUrl site year ++ link.fileName year }

end Link

def sortByWeek (entries : List Entry) : List Entry :=
  entries.mergeSort fun e f => decide (e.weekNumber ≤ f.weekNumber)

def readListing (html : String) (year : YearOfStudy) (site : String) : Except Fault (List Entry) := do
  return sortByWeek (← (Link.all year html).mapM (Link.entry site year))

def entryOfWeek? (week : Int) (entries : List Entry) : Option Entry :=
  entries.find? fun e => (e.weekNumber : Int) == week

end WeekGrid.Published
