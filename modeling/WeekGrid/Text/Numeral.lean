import WeekGrid.Binary64.Basic
import WeekGrid.Text.Blank
import WeekGrid.Text.Digits

/-!
Numbers written by people: white space around, a sign, digits of any script, single underscores between
digits. An integer of more than 4300 digits is not read.
-/
namespace WeekGrid.Text

/-- White space around a number; the four information separators do not count. -/
def isNumeralBlank (c : Char) : Bool := isBlank c && !(28 ≤ c.toNat && c.toNat ≤ 31)

def stripNumeral (cs : List Char) : List Char :=
  ((cs.dropWhile isNumeralBlank).reverse.dropWhile isNumeralBlank).reverse

/-- Whether every underscore has a digit on either side; the flag tells whether one stands before. -/
def underscoresJoinDigits : Bool → List Char → Bool
  | _, [] => true
  | digitBefore, '_' :: cs =>
    digitBefore && (cs.head?.any isDigit) && underscoresJoinDigits false cs
  | _, c :: cs => underscoresJoinDigits (isDigit c) cs

def withoutUnderscores? (cs : List Char) : Option (List Char) :=
  if underscoresJoinDigits false cs then some (cs.filter (· != '_')) else none

def takeSign : List Char → Bool × List Char
  | '-' :: cs => (true, cs)
  | '+' :: cs => (false, cs)
  | cs => (false, cs)

/-- The longest run of digits that is read as an integer; leading zeros count. -/
def digitLimit : Nat := 4300

def readNatural? (digits : List Char) : Option Nat :=
  if digits ≠ [] ∧ digits.all isDigit ∧ digits.length ≤ digitLimit then some (digitsValue digits)
  else none

def readInteger? (cs : List Char) : Option Int := do
  let plain ← withoutUnderscores? (stripNumeral cs)
  let (negative, digits) := takeSign plain
  let n ← readNatural? digits
  return if negative then -(n : Int) else n

def readNamedNumber? (negative : Bool) (cs : List Char) : Option Binary64 :=
  match String.ofList (cs.map Char.toLower) with
  | "inf" => some (.infinite negative)
  | "infinity" => some (.infinite negative)
  | "nan" => some .nan
  | _ => none

/-- The exponent part of a number: nothing, or `e`, a sign and at least one digit. -/
def readExponent? : List Char → Option Int
  | [] => some 0
  | c :: cs =>
    if c = 'e' ∨ c = 'E' then
      let (negative, digits) := takeSign cs
      if digits ≠ [] ∧ digits.all isDigit then
        some (if negative then -(digitsValue digits : Int) else digitsValue digits)
      else none
    else none

def readDigits? (negative : Bool) (cs : List Char) : Option Binary64 := do
  let whole := cs.takeWhile isDigit
  let afterWhole := cs.dropWhile isDigit
  let (fraction, tail) := match afterWhole with
    | '.' :: rest => (rest.takeWhile isDigit, rest.dropWhile isDigit)
    | rest => ([], rest)
  if whole ++ fraction = [] then none
  let exponent ← readExponent? tail
  return Binary64.ofDecimal negative (digitsValue (whole ++ fraction)) (exponent - fraction.length)

def readReal? (cs : List Char) : Option Binary64 := do
  let plain ← withoutUnderscores? (stripNumeral cs)
  let (negative, body) := takeSign plain
  (readNamedNumber? negative body).or (readDigits? negative body)

end WeekGrid.Text
