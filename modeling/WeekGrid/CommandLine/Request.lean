import WeekGrid.CommandLine.Argument
import WeekGrid.Page.Traversal
import WeekGrid.Text.Numeral

/-!
What the arguments of the program ask for. They are read from left to right; a later value of a setting
replaces an earlier one, and the first plain argument that is no setting's value names the file to be read.
After the mark `--` every argument is plain. Arguments that are left over are an error.
-/
namespace WeekGrid.CommandLine

open Published (YearOfStudy)

structure Request where
  pdf : Option String
  year : Option YearOfStudy
  week : Option Int
  listingUrl : String
  courseCodes : Option String
  leading : Binary64
  json : Bool
  verbose : Bool
  deriving DecidableEq

namespace Request

def default : Request where
  pdf := none
  year := none
  week := none
  listingUrl := Published.defaultSite
  courseCodes := none
  leading := Page.Library.defaultLeading
  json := false
  verbose := false

/-- Why the arguments are not carried out. -/
inductive Interruption where
  | help
  | usage (error : UsageError)
  deriving DecidableEq, Repr

instance : Coe UsageError Interruption := ⟨.usage⟩

def assign (r : Request) (setting : Setting) (value : String) : Except Interruption Request :=
  match setting with
  | .year => match YearOfStudy.ofName? value with
    | some year => return { r with year := some year }
    | none => throw (.usage (.unknownYear value))
  | .week => match Text.readInteger? value.toList with
    | some week => return { r with week := some week }
    | none => throw (.usage (.notAnInteger .week value))
  | .listingUrl => return { r with listingUrl := value }
  | .courseCodes => return { r with courseCodes := some value }
  | .leading => match Text.readReal? value.toList with
    | some leading => return { r with leading := leading }
    | none => throw (.usage (.notANumber .leading value))

def turnOn (r : Request) : Switch → Except Interruption Request
  | .help => throw .help
  | .json => return { r with json := true }
  | .verbose => return { r with verbose := true }

/-- A switch and the switches whose letters are written behind it; letters from one that is no switch on are
left over, behind a dash of their own. -/
def switches (s : Switch) : List Char → Except Interruption (List Switch × List String)
  | [] => return ([s], [])
  | c :: behind =>
    if c = '=' then throw (.usage (.unexpectedValue s (String.ofList behind)))
    else if c = '-' then throw (.usage (.unexpectedValue s (String.ofList (c :: behind))))
    else match Switch.ofLetter? c with
      | some t => do
        let (more, left) ← switches t behind
        return (s :: more, left)
      | none => return ([s], [String.ofList ('-' :: c :: behind)])

structure Draft where
  request : Request
  left : List String

namespace Draft

def leave (d : Draft) (texts : List String) : Draft := { d with left := d.left ++ texts }

def putPlain (d : Draft) (text : String) : Draft :=
  match d.request.pdf with
  | none => { d with request := { d.request with pdf := some text } }
  | some _ => d.leave [text]

/-- The arguments after the mark; the mark itself goes with a file next to it, and is left over otherwise. -/
def putTail (d : Draft) (afterFile : Bool) : Option (List String) → Draft
  | none => d
  | some texts =>
    if afterFile then d.leave texts
    else match d.request.pdf, texts with
      | some _, _ => d.leave ("--" :: texts)
      | none, [] => d
      | none, text :: rest => { d with request := { d.request with pdf := some text } }.leave rest

/-- Reads arguments and then the tail; the flag tells whether the file was the argument before. -/
def read (tail : Option (List String)) (d : Draft) (afterFile : Bool) :
    List Argument → Except Interruption Draft
  | [] => return d.putTail afterFile tail
  | .plain text :: rest => read tail (d.putPlain text) d.request.pdf.isNone rest
  | .unknown text :: rest => read tail (d.leave [text]) false rest
  | .setting s (some value) :: rest => do
    read tail { d with request := ← d.request.assign s value } false rest
  | .setting s none :: .plain value :: rest => do
    read tail { d with request := ← d.request.assign s value } false rest
  | .setting s none :: _ => throw (.usage (.missingValue s))
  | .switch s behind :: rest => do
    let (on, left) ← switches s behind
    read tail ({ d with request := ← on.foldlM turnOn d.request }.leave left) false rest

end Draft

def splitAtMark : List String → List String × Option (List String)
  | [] => ([], none)
  | text :: texts =>
    if text = "--" then ([], some texts)
    else
      let (front, tail) := splitAtMark texts
      (text :: front, tail)

def ofArguments (arguments : List String) : Except Interruption Request :=
  let (front, tail) := splitAtMark arguments
  match front.mapM Argument.ofText with
  | .error error => throw (.usage error)
  | .ok front => do
    let draft ← Draft.read tail ⟨default, []⟩ false front
    if draft.left = [] then return draft.request else throw (.usage (.unrecognized draft.left))

inductive Source where
  | published (year : YearOfStudy) (week : Int)
  | file (name : String)
  deriving DecidableEq, Repr

/-- A year of study goes before a file; a file without a name is none. -/
def source (r : Request) : Except UsageError Source :=
  match r.year, r.week, r.pdf with
  | some year, some week, _ => return .published year week
  | some _, none, _ => throw .missingWeek
  | none, _, some name => if name = "" then throw .nothingToRead else return .file name
  | none, _, none => throw .nothingToRead

def courseFile? (r : Request) : Option String := r.courseCodes.filter (· ≠ "")

end Request
end WeekGrid.CommandLine
