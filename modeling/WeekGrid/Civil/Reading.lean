import WeekGrid.Civil.DateTime
import WeekGrid.Text.Blank
import WeekGrid.Text.Digits

/-!
Reading dates and times by a pattern. A pattern is a list of parts; a part offers its readings in order
of preference, and the first combination that fits is taken, which must use the whole text.
-/
namespace WeekGrid.Civil

open Text

inductive Part where
  | day
  | month
  | year
  | hour
  | minute
  | mark (c : Char)
  | blanks
  deriving DecidableEq

/-- The readings of two characters as a number, if the first is `tens` and the second is accepted. -/
def twoDigits (tens : Char) (ones : Char → Bool) : List Char → List (Nat × List Char)
  | c :: d :: rest =>
    if c = tens ∧ ones d then [(10 * (digitValue? c).getD 0 + (digitValue? d).getD 0, rest)] else []
  | _ => []

def oneDigit (accept : Char → Bool) : List Char → List (Nat × List Char)
  | c :: rest => if accept c then [((digitValue? c).getD 0, rest)] else []
  | [] => []

def between (low high c : Char) : Bool := low ≤ c && c ≤ high

def blankRuns : List Char → List (Nat × List Char)
  | c :: rest => if isBlank c then blankRuns rest ++ [(0, rest)] else []
  | [] => []

def yearReading (cs : List Char) : List (Nat × List Char) :=
  let digits := cs.take 4
  if digits.length = 4 ∧ digits.all isDigit then [(digitsValue digits, cs.drop 4)] else []

def Part.readings (part : Part) (cs : List Char) : List (Nat × List Char) :=
  match part with
  | day =>
    twoDigits '3' (between '0' '1') cs ++ twoDigits '1' isDigit cs ++ twoDigits '2' isDigit cs ++
      twoDigits '0' (between '1' '9') cs ++ oneDigit (between '1' '9') cs ++
      twoDigits ' ' (between '1' '9') cs
  | month =>
    twoDigits '1' (between '0' '2') cs ++ twoDigits '0' (between '1' '9') cs ++
      oneDigit (between '1' '9') cs
  | year => yearReading cs
  | hour =>
    twoDigits '2' (between '0' '3') cs ++ twoDigits '0' isDigit cs ++ twoDigits '1' isDigit cs ++
      oneDigit isDigit cs
  | minute =>
    ['0', '1', '2', '3', '4', '5'].flatMap (fun tens => twoDigits tens isDigit cs) ++
      oneDigit isDigit cs
  | mark c => match cs with
    | d :: rest => if d = c then [(0, rest)] else []
    | [] => []
  | blanks => blankRuns cs

/-- The values that the parts of a pattern read, in order of preference, with what is left. -/
def readings : List Part → List Char → List (List Nat × List Char)
  | [], cs => [([], cs)]
  | part :: parts, cs =>
    (part.readings cs).flatMap fun (value, rest) =>
      (readings parts rest).map fun (values, left) => (value :: values, left)

def readWhole? (parts : List Part) (text : List Char) : Option (List Nat) :=
  match (readings parts text).head? with
  | some (values, []) => some values
  | _ => none

/-- A date written `dd/mm/yyyy`; a leading zero may be missing, or a space in the day's place. -/
def readSlashed? (text : List Char) : Option Date :=
  match readWhole? [.day, .mark '/', .month, .mark '/', .year] text with
  | some [day, _, month, _, year] => Date.make? year month day
  | _ => none

def readStamp? (text : List Char) : Option DateTime :=
  match readWhole? [.year, .mark '-', .month, .mark '-', .day, .blanks, .hour, .mark ':', .minute]
      text with
  | some [year, _, month, _, day, _, hour, _, minute] =>
    (Date.make? year month day).map fun date => ⟨date, hour, minute, none⟩
  | _ => none

end WeekGrid.Civil
