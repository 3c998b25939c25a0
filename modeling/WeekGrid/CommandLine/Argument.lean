import WeekGrid.Failure
import WeekGrid.Published.Listing
import WeekGrid.Text.Cut

/-!
The arguments of the program one by one. An option is a setting, which takes a value, or a switch, which
takes none. Long options may be cut short as long as one option is left that they can mean; switches of
one letter may be written together behind one dash. What looks like a negative number is a plain argument.
-/
namespace WeekGrid.CommandLine

open Published (YearOfStudy)

inductive Setting where
  | year
  | week
  | listingUrl
  | courseCodes
  | leading
  deriving DecidableEq, Repr

def Setting.name : Setting → String
  | year => "--year"
  | week => "--week"
  | listingUrl => "--listing-url"
  | courseCodes => "--course-codes"
  | leading => "--leading"

inductive Switch where
  | help
  | json
  | verbose
  deriving DecidableEq, Repr

namespace Switch

/-- The letter that stands for a switch behind one dash. -/
def letter? : Switch → Option Char
  | help => some 'h'
  | json => none
  | verbose => some 'v'

def longName : Switch → String
  | help => "--help"
  | json => "--json"
  | verbose => "--verbose"

def name (s : Switch) : String :=
  match s.letter? with
  | some c => String.ofList ['-', c, '/'] ++ s.longName
  | none => s.longName

def ofLetter? (c : Char) : Option Switch := [help, json, verbose].find? fun s => s.letter? == some c

end Switch

inductive Flag where
  | setting (s : Setting)
  | switch (s : Switch)
  deriving DecidableEq, Repr

namespace Flag

def longName : Flag → String
  | setting s => s.name
  | switch s => s.longName

def all : List Flag := [switch .help, setting .year, setting .week, setting .listingUrl,
  setting .courseCodes, setting .leading, switch .json, switch .verbose]

/-- The options whose long name begins with a text. -/
def startingWith (start : List Char) : List Flag := all.filter fun f => start.isPrefixOf f.longName.toList

def ofLongName? (name : List Char) : Option Flag := all.find? fun f => f.longName.toList == name

theorem ofLongName?_longName (f : Flag) : ofLongName? f.longName.toList = some f := by
  rcases f with s | s <;> cases s <;> decide

end Flag

/-- What is wrong with the arguments. -/
inductive UsageError where
  | ambiguous (argument : String) (candidates : List Flag)
  | missingValue (setting : Setting)
  | unexpectedValue (switch : Switch) (value : String)
  | notAnInteger (setting : Setting) (value : String)
  | notANumber (setting : Setting) (value : String)
  | unknownYear (value : String)
  | unrecognized (arguments : List String)
  | missingWeek
  | nothingToRead
  deriving DecidableEq, Repr

namespace UsageError

def yearChoice : String :=
  "(choose from " ++ ", ".intercalate (YearOfStudy.all.map fun y => Text.quoted y.name) ++ ")"

def message : UsageError → String
  | ambiguous argument candidates =>
    "ambiguous option: " ++ argument ++ " could match " ++
      ", ".intercalate (candidates.map Flag.longName)
  | missingValue s => "argument " ++ s.name ++ ": expected one argument"
  | unexpectedValue s value =>
    "argument " ++ s.name ++ ": ignored explicit argument " ++ Text.quoted value
  | notAnInteger s value => "argument " ++ s.name ++ ": invalid int value: " ++ Text.quoted value
  | notANumber s value => "argument " ++ s.name ++ ": invalid float value: " ++ Text.quoted value
  | unknownYear value =>
    "argument " ++ Setting.year.name ++ ": invalid choice: " ++ Text.quoted value ++ " " ++ yearChoice
  | unrecognized arguments => "unrecognized arguments: " ++ Text.joinWords arguments
  | missingWeek => "--year requires --week"
  | nothingToRead => "a PDF path or --year/--week is required"

end UsageError

inductive Argument where
  /-- A file name or the value of the setting before it. -/
  | plain (text : String)
  /-- A setting, with its value if that is written behind an equals sign. -/
  | setting (s : Setting) (value : Option String)
  /-- A switch, with what is written behind it: more letters, or an equals sign and a value. -/
  | switch (s : Switch) (behind : List Char)
  | unknown (text : String)
  deriving DecidableEq, Repr

namespace Argument

/-- Whether a text without its minus sign is a number: digits, or a point with digits behind it. -/
def isUnsigned (cs : List Char) : Bool :=
  match cs.dropWhile Text.isDigit with
  | [] => !cs.isEmpty
  | '.' :: fraction => !fraction.isEmpty && fraction.all Text.isDigit
  | _ => false

def withoutLineFeed (cs : List Char) : List Char :=
  if cs.getLast? = some '\n' then cs.dropLast else cs

def ofFlag (flag : Flag) (behind : List Char) : Argument :=
  match flag with
  | .setting s => .setting s (if behind = [] then none else some (String.ofList (behind.drop 1)))
  | .switch s => .switch s behind

/-- An argument that begins with a dash but is no option. -/
def ofOther (text : String) : Argument :=
  let cs := text.toList
  if isUnsigned (withoutLineFeed (cs.drop 1)) || cs.contains ' ' then plain text else unknown text

def splitName (cs : List Char) : List Char × List Char :=
  (cs.takeWhile (· ≠ '='), cs.dropWhile (· ≠ '='))

theorem splitName_append (cs : List Char) : (splitName cs).1 ++ (splitName cs).2 = cs :=
  List.takeWhile_append_dropWhile

def ofLong (text : String) : Except UsageError Argument :=
  let (name, behind) := splitName text.toList
  match Flag.ofLongName? name with
  | some flag => return ofFlag flag behind
  | none => match Flag.startingWith name with
    | [] => return ofOther text
    | [flag] => return ofFlag flag behind
    | candidates => throw (.ambiguous text candidates)

def ofText (text : String) : Except UsageError Argument :=
  match text.toList with
  | '-' :: '-' :: _ => ofLong text
  | '-' :: c :: behind => match Switch.ofLetter? c with
    | some s => return .switch s behind
    | none => return ofOther text
  | _ => return .plain text

end Argument
end WeekGrid.CommandLine
