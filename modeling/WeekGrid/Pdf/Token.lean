import WeekGrid.Failure
import WeekGrid.Pdf.Object
import WeekGrid.Text.Numeral

/-!
Tokens of PDF text, read one byte at a time. `Mode.step` says what a byte does to the token in progress
and which tokens it completes; a byte that ends a number, a name or a keyword is read again from the
start. A token in progress keeps its bytes in reverse.
-/
namespace WeekGrid.Pdf

open Text (Bytes)

/-- A complete token; a keyword comes with the place in its stream where it starts. -/
inductive Token where
  | value (object : Object)
  | keyword (start : Nat) (bytes : Bytes)

namespace Byte

def isBlank (b : UInt8) : Bool := b == 32 || (9 ≤ b && b ≤ 13)

def isDigit (b : UInt8) : Bool := 48 ≤ b && b ≤ 57

def isOctal (b : UInt8) : Bool := 48 ≤ b && b ≤ 55

def isLetter (b : UInt8) : Bool := (65 ≤ b && b ≤ 90) || (97 ≤ b && b ≤ 122)

def hexValue? (b : UInt8) : Option Nat :=
  if isDigit b then some (b.toNat - 48)
  else if 65 ≤ b && b ≤ 70 then some (b.toNat - 55)
  else if 97 ≤ b && b ≤ 102 then some (b.toNat - 87)
  else none

/-- The bytes that end a name or a keyword: white space and `# / % [ ] ( ) < > { }`. -/
def isDelimiter (b : UInt8) : Bool :=
  isBlank b || [35, 47, 37, 91, 93, 40, 41, 60, 62, 123, 125].contains b

def escaped? (b : UInt8) : Option UInt8 :=
  [(98, 8), (116, 9), (110, 10), (102, 12), (114, 13), (40, 40), (41, 41), (92, 92)].lookup b

end Byte

/-- What the token in progress is; `text` holds its bytes so far, the last one first. -/
inductive Mode where
  | main
  | comment
  | name (text : Bytes)
  | nameHex (text digits : Bytes)
  | number (text : Bytes)
  | decimal (text : Bytes)
  | keyword (start : Nat) (text : Bytes)
  /-- A string, with the number of its parentheses that are open. -/
  | string (depth : Nat) (text : Bytes)
  | escape (depth : Nat) (text octal : Bytes)
  /-- After a backslash and a carriage return, which takes a line feed along. -/
  | escapeReturn (depth : Nat) (text : Bytes)
  | opening
  | closing
  | hexString (text : Bytes)

namespace Mode

def valueOf (base : Nat) (digit : UInt8 → Nat) (reversed : Bytes) : Nat :=
  reversed.foldr (fun b n => base * n + digit b) 0

def numeral (reversed : Bytes) : List Char := reversed.reverse.map Text.latinChar

def finishNumber (text : Bytes) : List Token :=
  match Text.readInteger? (numeral text) with
  | some n => [.value (.integer n)]
  | none => []

def finishDecimal (text : Bytes) : List Token :=
  match Text.readReal? (numeral text) with
  | some x => [.value (.real x)]
  | none => []

def finishKeyword (start : Nat) (text : Bytes) : Token :=
  let bytes := text.reverse
  if bytes = ascii "true" then .value (.boolean true)
  else if bytes = ascii "false" then .value (.boolean false)
  else .keyword start bytes

/-- Hexadecimal digits taken in pairs; a lone last digit is its own value. -/
def hexPairs : Bytes → Bytes
  | a :: b :: rest =>
    (16 * (Byte.hexValue? a).getD 0 + (Byte.hexValue? b).getD 0).toUInt8 :: hexPairs rest
  | [a] => [((Byte.hexValue? a).getD 0).toUInt8]
  | [] => []

def finishHexString (text : Bytes) : Token :=
  .value (.string (hexPairs (text.reverse.filter fun b => !Byte.isBlank b)))

def octalByte (octal : Bytes) : Except Fault UInt8 :=
  let n := valueOf 8 (fun b => b.toNat - 48) octal
  if n < 256 then return n.toUInt8 else throw .octalOutOfRange

def begin (place : Nat) (b : UInt8) : Mode × List Token :=
  if Byte.isBlank b || b == 0 then (main, [])
  else if b == 37 then (comment, [])
  else if b == 47 then (name [], [])
  else if b == 43 || b == 45 || Byte.isDigit b then (number [b], [])
  else if b == 46 then (decimal [b], [])
  else if Byte.isLetter b then (keyword place [b], [])
  else if b == 40 then (string 1 [], [])
  else if b == 60 then (opening, [])
  else if b == 62 then (closing, [])
  else (main, [.keyword place [b]])

/-- Tokens that a byte completes before it is read from the start. -/
def finish (tokens : List Token) (place : Nat) (b : UInt8) : Mode × List Token :=
  let (mode, more) := begin place b
  (mode, tokens ++ more)

def stepName (text : Bytes) (place : Nat) (b : UInt8) : Mode × List Token :=
  if b == 35 then (nameHex text [], [])
  else if Byte.isDelimiter b then finish [.value (.name text.reverse)] place b
  else (name (b :: text), [])

def closeHex (text digits : Bytes) : Bytes :=
  if digits = [] then text
  else (valueOf 16 (fun b => (Byte.hexValue? b).getD 0) digits).toUInt8 :: text

def stepHexString (text : Bytes) (place : Nat) (b : UInt8) : Mode × List Token :=
  if Byte.isBlank b || (Byte.hexValue? b).isSome then (hexString (b :: text), [])
  else finish [finishHexString text] place b

def stepString (depth : Nat) (text : Bytes) (b : UInt8) : Mode × List Token :=
  if b == 92 then (escape depth text [], [])
  else if b == 40 then (string (depth + 1) (b :: text), [])
  else if b == 41 then
    if depth ≤ 1 then (main, [.value (.string text.reverse)])
    else (string (depth - 1) (b :: text), [])
  else (string depth (b :: text), [])

def stepEscape (depth : Nat) (text octal : Bytes) (b : UInt8) : Except Fault (Mode × List Token) :=
  if Byte.isOctal b && octal.length < 3 then return (escape depth text (b :: octal), [])
  else if octal ≠ [] then return stepString depth ((← octalByte octal) :: text) b
  else match Byte.escaped? b with
    | some c => return (string depth (c :: text), [])
    | none => return (if b == 13 then escapeReturn depth text else string depth text, [])

def step (mode : Mode) (place : Nat) (b : UInt8) : Except Fault (Mode × List Token) :=
  match mode with
  | main => return begin place b
  | comment => return (if b == 10 || b == 13 then main else comment, [])
  | name text => return stepName text place b
  | nameHex text digits =>
    if (Byte.hexValue? b).isSome && digits.length < 2 then return (nameHex text (b :: digits), [])
    else return stepName (closeHex text digits) place b
  | number text =>
    if Byte.isDigit b then return (number (b :: text), [])
    else if b == 46 then return (decimal (b :: text), [])
    else return finish (finishNumber text) place b
  | decimal text =>
    if Byte.isDigit b then return (decimal (b :: text), [])
    else return finish (finishDecimal text) place b
  | keyword start text =>
    if Byte.isDelimiter b then return finish [finishKeyword start text] place b
    else return (keyword start (b :: text), [])
  | string depth text => return stepString depth text b
  | escape depth text octal => stepEscape depth text octal b
  | escapeReturn depth text =>
    if b == 10 then return (string depth text, []) else return stepString depth text b
  | opening =>
    if b == 60 then return (main, [.keyword place [60, 60]]) else return stepHexString [] place b
  | closing =>
    if b == 62 then return (main, [.keyword place [62, 62]]) else return begin place b
  | hexString text => return stepHexString text place b

/-- A token where the bytes at hand run out, though its stream goes on: a line feed to come is no longer
part of a line end. -/
def crossPiece : Mode → Mode
  | escapeReturn depth text => string depth text
  | mode => mode

/-- A token at the end of its text, as if a line feed followed that is not part of what comes next. -/
def close : Mode → Except Fault (Mode × List Token)
  | main => return (main, [])
  | comment => return (main, [])
  | name text => return (main, [.value (.name text.reverse)])
  | nameHex text digits => return (name (closeHex text digits), [])
  | number text => return (main, finishNumber text)
  | decimal text => return (main, finishDecimal text)
  | keyword start text => return (main, [finishKeyword start text])
  | string depth text => return (string depth (10 :: text), [])
  | escape depth text octal =>
    if octal = [] then return (string depth text, [])
    else return (string depth ((← octalByte octal) :: text), [])
  | escapeReturn depth text => return (string depth (10 :: text), [])
  | opening => return (opening, [])
  | closing => return (main, [])
  | hexString text => return (hexString text, [])

/-- Whether nothing has been read of a token yet, so that it goes on in the next stream. -/
def isFresh : Mode → Bool
  | name text => text.isEmpty
  | nameHex text _ => text.isEmpty
  | string _ text => text.isEmpty
  | escape _ text _ => text.isEmpty
  | escapeReturn _ text => text.isEmpty
  | opening => true
  | closing => true
  | _ => false

def crossStream (mode : Mode) : Except Fault (Mode × List Token) :=
  let mode := mode.crossPiece
  if mode.isFresh then return (mode, []) else mode.close

end Mode
end WeekGrid.Pdf
