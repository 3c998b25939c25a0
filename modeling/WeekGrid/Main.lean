import WeekGrid.CommandLine.Run

/-!
The program. It reads the files that its arguments name and reports the outcome of the run; it reaches no
network, so that every address is without a route.
-/
namespace WeekGrid

open CommandLine (Request)

/-- The files that a run can read, as far as they are there. -/
def readFiles (names : List String) : IO (List (String × Text.Bytes)) :=
  names.filterMapM fun (name : String) => do
    try
      return some (name, (← IO.FS.readBinFile name).toList)
    catch _ =>
      return none

def filesNamed (arguments : List String) : List String :=
  match Request.ofArguments arguments with
  | .ok request => request.pdf.toList ++ request.courseFile?.toList
  | .error _ => []

def faultLine (fault : Fault) : String :=
  "timetable: " ++ fault.message?.getD "the input cannot be read" ++ "\n"

end WeekGrid

def main (arguments : List String) : IO UInt32 := do
  let files ← WeekGrid.readFiles (WeekGrid.filesNamed arguments)
  let outcome := WeekGrid.CommandLine.run ⟨files, []⟩ arguments
  (← IO.getStdout).putStr outcome.output
  let stderr ← IO.getStderr
  match outcome.ending with
  | .ok status =>
    if status = 2 then stderr.putStr WeekGrid.CommandLine.usage
    stderr.putStr outcome.errors
    return status.toUInt32
  | .error fault =>
    stderr.putStr (WeekGrid.faultLine fault)
    return 1
