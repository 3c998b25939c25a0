import WeekGrid.Pdf.Content

/-!
Indirect objects: a number, a generation, `obj` and a value. Values are gathered from tokens with one list
for each bracket that is open.
-/
namespace WeekGrid.Pdf

open Text (Bytes)

def tokensFrom (mode : Mode) (place : Nat) (bytes : Bytes) : List Token :=
  match bytes with
  | [] => match mode.close with
    | .ok (_, tokens) => tokens
    | .error _ => []
  | b :: rest =>
    match mode.step place b with
    | .ok (mode, tokens) => tokens ++ tokensFrom mode (place + 1) rest
    | .error _ => []

/-- A value that is complete: one that stands for itself, or the attributes of a stream whose keyword
starts at a place. -/
inductive Ending where
  | value (object : Object)
  | stream (attributes : List (String × Object)) (start : Nat)

/-- Values being gathered: the open brackets, and the values outside of them, the last one first. -/
structure Gathering where
  frames : List Frame
  values : List Object

namespace Gathering

def put (g : Gathering) (object : Object) : Gathering :=
  match g.frames with
  | [] => { g with values := object :: g.values }
  | frame :: frames => { g with frames := { frame with values := object :: frame.values } :: frames }

/-- Replaces the innermost two numbers by a reference to the object of the first. -/
def putReference (g : Gathering) : Gathering :=
  match g.frames with
  | [] => match g.values with
    | .integer _ :: .integer n :: values => { g with values := .reference n.toNat :: values }
    | _ => g
  | frame :: frames => match frame.values with
    | .integer _ :: .integer n :: values =>
      { g with frames := { frame with values := .reference n.toNat :: values } :: frames }
    | _ => g

def openBracket (g : Gathering) (bracket : Bracket) : Gathering :=
  { g with frames := ⟨bracket, []⟩ :: g.frames }

def isNull : Object → Bool
  | .null => true
  | _ => false

def valueOf? (frame : Frame) : Option Object :=
  match frame.bracket with
  | .dictionary => (dictionaryOf? frame.values.reverse).map fun entries =>
      .dictionary (entries.filter fun (_, value) => !isNull value)
  | _ => some (.array frame.values.reverse)

def closeBracket (g : Gathering) (bracket : Bracket) : Option Gathering :=
  match g.frames with
  | [] => some g
  | frame :: frames =>
    if frame.bracket = bracket then (valueOf? frame).map { g with frames := frames }.put else some g

def take (g : Gathering) : Token → Option Gathering
  | .value object => g.put object
  | .keyword _ bytes =>
    if bytes = ascii "[" then g.openBracket .array
    else if bytes = ascii "]" then g.closeBracket .array
    else if bytes = ascii "<<" then g.openBracket .dictionary
    else if bytes = ascii ">>" then g.closeBracket .dictionary
    else if bytes = ascii "\x7b" then g.openBracket .procedure
    else if bytes = ascii "\x7d" then g.closeBracket .procedure
    else if bytes = ascii "R" then g.putReference
    else if bytes = ascii "null" then g.put .null
    else g.put (.keyword bytes)

def firstValue? : Gathering → List Token → Option Ending
  | g, [] => g.values.getLast?.map .value
  | g, token :: tokens =>
    match token with
    | .keyword start bytes =>
      if bytes = ascii "endobj" ∨ bytes = ascii "startxref" then g.values.getLast?.map .value
      else if bytes = ascii "stream" then
        match g.values with
        | .dictionary attributes :: _ => some (.stream attributes start)
        | _ => some (.stream [] start)
      else do firstValue? (← g.take token) tokens
    | _ => do firstValue? (← g.take token) tokens

end Gathering

def indirect? (number : Nat) : List Token → Option Ending
  | .value (.integer n) :: .value (.integer _) :: .keyword _ bytes :: tokens =>
    if n = number ∧ bytes = ascii "obj" then Gathering.firstValue? ⟨[], []⟩ tokens else none
  | _ => none

def afterLine : Bytes → Bytes
  | [] => []
  | b :: rest =>
    if b = 10 then rest
    else if b = 13 then (match rest with | 10 :: rest => rest | rest => rest)
    else afterLine rest

/-- What stands in a file at an offset for an object of some number. -/
def endingAt? (file : Bytes) (number offset : Nat) : Option Ending :=
  indirect? number (tokensFrom .main offset (file.drop offset))

end WeekGrid.Pdf
