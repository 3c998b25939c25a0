import WeekGrid.CommandLine.Request
import WeekGrid.Courses.Reading
import WeekGrid.Page.Document
import WeekGrid.Published.Retrieval
import WeekGrid.Timetable.Export
import WeekGrid.Timetable.Reading
import WeekGrid.Timetable.Report

/-!
A run of the program as a function of its arguments, the files it can read and the responses of the
network. Nothing is printed before the whole timetable is known. A refusal is reported in one line; other
failures end the run as they are.
-/
namespace WeekGrid.CommandLine

open Published (Web YearOfStudy)
open Text (Bytes)
open Timetable (CourseTable)

/-- What a run can read: files by their names, and the responses of the network. -/
structure Surroundings where
  files : List (String × Bytes)
  web : Web

def Surroundings.file? (s : Surroundings) (name : String) : Option Bytes :=
  Keyed.get? (· == ·) name s.files

/-- What a run leaves behind: its exit status unless a fault ended it, what it wrote to the two standard
streams, but for the log lines that `-v` puts on the second, and the addresses it asked for. -/
structure Outcome where
  ending : Except Fault Nat
  output : String
  errors : String
  requests : List String

namespace Outcome

def ofUsage (error : UsageError) : Outcome :=
  ⟨.ok 2, "", "timetable: error: " ++ error.message ++ "\n", []⟩

def refused (message : String) (requests : List String) : Outcome :=
  ⟨.ok 1, "", "Error: " ++ message ++ "\n", requests⟩

/-- The end of a run that has its text, or has failed. -/
def ofResult (result : Except Failure String) (requests : List String) : Outcome :=
  match result with
  | .ok text => ⟨.ok 0, text, "", requests⟩
  | .error (.refused refusal) => refused refusal.message requests
  | .error (.faulted fault) => ⟨.error fault, "", "", requests⟩

end Outcome

def Request.write (r : Request) (t : Timetable.Schedule) : String :=
  if r.json then t.toJson.render ++ "\n" else t.report

def Request.courses (r : Request) (s : Surroundings) : Except Fault CourseTable :=
  match r.courseFile? with
  | none => return Courses.reference
  | some name => match s.file? name with
    | some content => Courses.ofFile name content
    | none => throw (.fileNotFound name)

def readDocument (leading : Binary64) (courses : CourseTable) (source : String) (content : Bytes) :
    Except Failure Timetable.Schedule := do
  Timetable.readTimetable (← Page.extract leading source content) courses

/-- What is printed for a document of which the content is known or refused. -/
def Request.answer (r : Request) (s : Surroundings) (source : String)
    (content : Except Refusal Bytes) : Except Failure String := do
  let courses ← match r.courses s with
    | .ok courses => pure courses
    | .error fault => throw (.faulted fault)
  match content with
  | .ok content => return r.write (← readDocument r.leading courses source content)
  | .error refusal => throw (.refused refusal)

def Surroundings.document (s : Surroundings) (name : String) : Except Refusal Bytes :=
  match s.file? name with
  | some content => return content
  | none => throw (Page.missingFile name)

def Request.runPublished (r : Request) (s : Surroundings) (year : YearOfStudy) (week : Int) : Outcome :=
  let got := Published.retrieveYear s.web year week r.listingUrl
  match got.fault, got.file with
  | some fault, _ => ⟨.error fault, "", "", got.requests⟩
  | none, some content =>
    .ofResult (r.answer s (Page.sourceOfBytes content) (.ok content)) got.requests
  | none, none =>
    .refused ("no timetable published for " ++ year.name ++ " week " ++ toString week) got.requests

def Request.run (r : Request) (s : Surroundings) : Outcome :=
  match r.source with
  | .error error => .ofUsage error
  | .ok (.published year week) => r.runPublished s year week
  | .ok (.file name) => .ofResult (r.answer s name (s.document name)) []

def joinedLines (lines : List String) : String := String.join (lines.map (· ++ "\n"))

def usage : String := joinedLines [
  "usage: timetable [-h] [--year \x7bA1,A2,A3\x7d] [--week N] [--listing-url URL]",
  "                 [--course-codes FILE] [--leading N] [--json] [-v]",
  "                 [pdf]"]

def help : String := joinedLines [
  "Extract the weekly class timetable from a timetable PDF.",
  "",
  "positional arguments:",
  "  pdf                   Path to the PDF file",
  "",
  "options:",
  "  -h, --help            show this help message and exit",
  "  --year \x7bA1,A2,A3\x7d     Fetch the published timetable for this year of study",
  "                        instead of a local file",
  "  --week N              Week number to fetch (with --year)",
  "  --listing-url URL     Directory listing root",
  "                        (default: " ++ Published.defaultSite ++ ")",
  "  --course-codes FILE   JSON object mapping course codes to course names",
  "  --leading N           Line advance used by T* and ' (default: 14)",
  "  --json                Print the timetable as JSON",
  "  -v, --verbose         Log skipped cells and interpreter details"]

def run (s : Surroundings) (arguments : List String) : Outcome :=
  match Request.ofArguments arguments with
  | .error .help => ⟨.ok 0, usage ++ "\n" ++ help, "", []⟩
  | .error (.usage error) => .ofUsage error
  | .ok request => request.run s

end WeekGrid.CommandLine
