import WeekGrid.Failure
import WeekGrid.Json.Basic
import WeekGrid.Keyed
import WeekGrid.Text.Front
import WeekGrid.Text.Numeral

/-!
Reading JSON text. Besides the standard's values, `NaN`, `Infinity` and `-Infinity` are numbers; a
repeated key keeps its place and its last value; a control character inside a string is refused.
-/
namespace WeekGrid.Json

def isSpace (c : Char) : Bool := c == ' ' || c == '\t' || c == '\n' || c == '\r'

def skipSpace (cs : List Char) : List Char := cs.dropWhile isSpace

def hexValue? (c : Char) : Option Nat :=
  if '0' ≤ c ∧ c ≤ '9' then some (c.toNat - 48)
  else if 'a' ≤ c ∧ c ≤ 'f' then some (c.toNat - 87)
  else if 'A' ≤ c ∧ c ≤ 'F' then some (c.toNat - 55)
  else none

def fourHex? : List Char → Option (Nat × List Char)
  | a :: b :: c :: d :: rest => do
    let n := ((← hexValue? a) * 16 + (← hexValue? b)) * 256 + (← hexValue? c) * 16 + (← hexValue? d)
    return (n, rest)
  | _ => none

def escaped? (c : Char) : Option Char :=
  [('"', '"'), ('\\', '\\'), ('/', '/'), ('b', '\x08'), ('f', '\x0c'), ('n', '\n'), ('r', '\r'),
    ('t', '\t')].lookup c

/-- One character of a string: itself, or what an escape stands for. A pair of surrogate numbers is one
character, and a lone one is replaced. -/
def readChar? : List Char → Option (Char × List Char)
  | [] => none
  | '\\' :: 'u' :: rest => do
    let (high, rest) ← fourHex? rest
    if 0xD800 ≤ high ∧ high < 0xDC00 then
      match rest with
      | '\\' :: 'u' :: more =>
        match fourHex? more with
        | some (low, after) =>
          if 0xDC00 ≤ low ∧ low < 0xE000 then
            return (Char.ofNat (0x10000 + (high - 0xD800) * 1024 + (low - 0xDC00)), after)
          else return ('\uFFFD', rest)
        | none => return ('\uFFFD', rest)
      | _ => return ('\uFFFD', rest)
    else if 0xDC00 ≤ high ∧ high < 0xE000 then return ('\uFFFD', rest)
    else return (Char.ofNat high, rest)
  | '\\' :: c :: rest => (escaped? c).map (·, rest)
  | c :: rest => if c = '\\' ∨ c.toNat < 32 then none else some (c, rest)

def readChars : Nat → List Char → Except Fault (List Char × List Char)
  | 0, _ => throw .malformedJson
  | _, '"' :: rest => return ([], rest)
  | fuel + 1, cs =>
    match readChar? cs with
    | some (c, rest) => do
      let (more, rest) ← readChars fuel rest
      return (c :: more, rest)
    | none => throw .malformedJson

def isAsciiDigit (c : Char) : Bool := '0' ≤ c && c ≤ '9'

/-- The whole part of a number: a single zero, or digits that do not begin with one. -/
def wholePart? : List Char → Option (List Char × List Char)
  | '0' :: rest => some (['0'], rest)
  | cs =>
    let digits := cs.takeWhile isAsciiDigit
    if digits = [] then none else some (digits, cs.dropWhile isAsciiDigit)

/-- A point and at least one digit; otherwise nothing is read. -/
def fractionPart : List Char → List Char × List Char
  | '.' :: rest =>
    let digits := rest.takeWhile isAsciiDigit
    if digits = [] then ([], '.' :: rest) else (digits, rest.dropWhile isAsciiDigit)
  | cs => ([], cs)

def exponentPart (cs : List Char) : Option Int × List Char :=
  match cs with
  | c :: rest =>
    if c = 'e' ∨ c = 'E' then
      let (negative, digits) := Text.takeSign rest
      let run := digits.takeWhile isAsciiDigit
      if run = [] then (none, cs)
      else
        let n : Int := Text.digitsValue run
        (some (if negative then -n else n), digits.dropWhile isAsciiDigit)
    else (none, cs)
  | [] => (none, [])

/-- A number without its sign; it is an integer if it has neither fraction nor exponent. -/
def readNumber (negative : Bool) (cs : List Char) : Except Fault (Json × List Char) :=
  match wholePart? cs with
  | none => throw .malformedJson
  | some (whole, rest) =>
    let (fraction, rest) := fractionPart rest
    let (exponent?, rest) := exponentPart rest
    if fraction = [] ∧ exponent?.isNone then
      match Text.readNatural? whole with
      | some n => return (integer (if negative then -(n : Int) else n), rest)
      | none => throw .tooManyDigits
    else
      let value := Binary64.ofDecimal negative (Text.digitsValue (whole ++ fraction))
        (exponent?.getD 0 - fraction.length)
      return (real value, rest)

def words : List (String × Json) :=
  [("null", null), ("true", boolean true), ("false", boolean false), ("NaN", real .nan),
    ("Infinity", real (.infinite false)), ("-Infinity", real (.infinite true))]

def readWord? (cs : List Char) : Option (Json × List Char) :=
  words.findSome? fun (word, value) => (Text.afterWord? word cs).map (value, ·)

mutual

def readValue : Nat → List Char → Except Fault (Json × List Char)
  | 0, _ => throw .malformedJson
  | fuel + 1, cs =>
    match cs with
    | '"' :: rest => do
      let (chars, rest) ← readChars rest.length.succ rest
      return (text (String.ofList chars), rest)
    | '[' :: rest => do
      match skipSpace rest with
      | ']' :: rest => return (array [], rest)
      | rest =>
        let (items, rest) ← readItems fuel rest
        return (array items, rest)
    | '\x7b' :: rest => do
      match skipSpace rest with
      | '\x7d' :: rest => return (object [], rest)
      | rest =>
        let (members, rest) ← readMembers fuel rest
        return (object (Keyed.ofPairs (· == ·) members), rest)
    | cs =>
      match readWord? cs with
      | some result => return result
      | none => match cs with
        | '-' :: rest => readNumber true rest
        | cs => readNumber false cs

def readItems : Nat → List Char → Except Fault (List Json × List Char)
  | 0, _ => throw .malformedJson
  | fuel + 1, cs => do
    let (item, rest) ← readValue fuel cs
    match skipSpace rest with
    | ',' :: rest =>
      let (items, rest) ← readItems fuel (skipSpace rest)
      return (item :: items, rest)
    | ']' :: rest => return ([item], rest)
    | _ => throw .malformedJson

def readMembers : Nat → List Char → Except Fault (List (String × Json) × List Char)
  | 0, _ => throw .malformedJson
  | fuel + 1, cs => do
    match cs with
    | '"' :: rest =>
      let (key, rest) ← readChars rest.length.succ rest
      match skipSpace rest with
      | ':' :: rest =>
        let (value, rest) ← readValue fuel (skipSpace rest)
        match skipSpace rest with
        | ',' :: rest =>
          let (members, rest) ← readMembers fuel (skipSpace rest)
          return ((String.ofList key, value) :: members, rest)
        | '\x7d' :: rest => return ([(String.ofList key, value)], rest)
        | _ => throw .malformedJson
      | _ => throw .malformedJson
    | _ => throw .malformedJson

end

/-- The value that a whole text is; white space may stand around it. Of any two steps of the reading one
uses up a character, so twice the length of the text bounds the steps. -/
def ofChars (cs : List Char) : Except Fault Json := do
  let (value, rest) ← readValue (2 * cs.length + 1) (skipSpace cs)
  match skipSpace rest with
  | [] => return value
  | _ => throw .malformedJson

end WeekGrid.Json
