import WeekGrid.Pdf.Indirect
import WeekGrid.Text.Front
import WeekGrid.Text.Blank

/-!
Where the objects of a file are. The end of a file gives the place of a table, which gives the place of
each object. A file whose table cannot be read is searched line by line for objects, up to its trailer.
-/
namespace WeekGrid.Pdf

open Text (Bytes)

/-- The offsets of objects by their numbers, and the entries of the trailer. A file that was searched is
not relied on for the lengths of its streams. -/
structure CrossReference where
  offsets : List (Nat × Nat)
  trailer : List (String × Object)
  searched : Bool

namespace CrossReference

def readSection : Nat → Nat → List Token → Option (List (Nat × Nat) × List Token)
  | 0, _, tokens => some ([], tokens)
  | count + 1, number, .value (.integer offset) :: .value (.integer _) :: .keyword _ use :: tokens => do
    let (offsets, rest) ← readSection count (number + 1) tokens
    return (if use = ascii "n" then (number, offset.toNat) :: offsets else offsets, rest)
  | _, _, _ => none

/-- The sections of the table up to what is none; the number bounds the sections. -/
def readSections : Nat → List Token → Option (List (Nat × Nat) × List Token)
  | fuel + 1, .value (.integer first) :: .value (.integer count) :: tokens => do
    let (offsets, rest) ← readSection count.toNat first.toNat tokens
    let (more, rest) ← readSections fuel rest
    return (offsets ++ more, rest)
  | _, tokens => some ([], tokens)

def readTrailer? : List Token → Option (List (String × Object))
  | .keyword _ word :: tokens =>
    if word = ascii "trailer" then
      match Gathering.firstValue? ⟨[], []⟩ tokens with
      | some (.value (.dictionary entries)) => some entries
      | _ => none
    else none
  | _ => none

def afterLast? (word : Bytes) : Bytes → Option Bytes
  | [] => none
  | b :: rest =>
    match afterLast? word rest with
    | some found => some found
    | none => if word.isPrefixOf (b :: rest) then some ((b :: rest).drop word.length) else none

def tableOffset? (file : Bytes) : Option Nat := do
  match tokensFrom .main 0 (← afterLast? (ascii "startxref") file) with
  | .value (.integer n) :: _ => some n.toNat
  | _ => none

/-- The table with its trailer; the word in front of it does not matter. -/
def ofTable? (file : Bytes) : Option CrossReference := do
  let offset ← tableOffset? file
  match tokensFrom .main offset (file.drop offset) with
  | .keyword _ _ :: tokens =>
    let (offsets, rest) ← readSections tokens.length tokens
    return ⟨Keyed.ofPairs (· == ·) offsets, ← readTrailer? rest, false⟩
  | _ => none

/-- The lines of some bytes with the places where they start. A line ends with a carriage return, a line
feed or both; what no line end follows is no line. -/
def linesFrom (start place : Nat) (line : Bytes) : Bytes → List (Nat × Bytes)
  | [] => []
  | b :: rest =>
    if b = 10 ∨ (b = 13 ∧ rest.head? ≠ some 10) then
      (start, (b :: line).reverse) :: linesFrom (place + 1) (place + 1) [] rest
    else linesFrom start (place + 1) (b :: line) rest

def afterBlanks? : List Char → Option (List Char)
  | c :: cs => if Text.isBlank c then some (cs.dropWhile Text.isBlank) else none
  | [] => none

def objectNumber? (line : Bytes) : Option Nat := do
  let (number, cs) ← Text.takeDigits? (line.map Text.latinChar)
  let cs ← afterBlanks? cs
  let (_, cs) ← Text.takeDigits? cs
  let cs ← afterBlanks? cs
  let cs ← Text.afterWord? "obj" cs
  if cs.head?.any fun c => c.isAlphanum || c == '_' then none else Text.readNatural? number

def ofLines (file : Bytes) : CrossReference :=
  let lines := linesFrom 0 0 [] file
  let isTrailer := fun (line : Nat × Bytes) => (ascii "trailer").isPrefixOf line.2
  let found := (lines.takeWhile fun line => !isTrailer line).filterMap fun (place, line) =>
    (objectNumber? line).map (·, place)
  let trailer := do
    let (place, _) ← lines.find? isTrailer
    readTrailer? (tokensFrom .main place (file.drop place))
  ⟨Keyed.ofPairs (· == ·) found, trailer.getD [], true⟩

def ofFile (file : Bytes) : CrossReference := (ofTable? file).getD (ofLines file)

end CrossReference
end WeekGrid.Pdf
