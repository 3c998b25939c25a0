import WeekGrid.Pdf.Token

/-!
Content streams as operands and operators. Brackets gather values into arrays and dictionaries; inside an
open bracket a keyword is a value like any other. An inline image's data is passed over up to its end
mark. `Reading.ofStreams` reads several streams as one text.
-/
namespace WeekGrid.Pdf

open Text (Bytes)

inductive Item where
  | operand (object : Object)
  | operator (keyword : Bytes)

/-- What content streams hold up to their end, or up to the failure that ends the reading. -/
structure Reading where
  items : List Item
  failure : Option Failure

inductive Bracket where
  | array
  | dictionary
  | procedure
  | inlineImage
  deriving DecidableEq

structure Frame where
  bracket : Bracket
  values : List Object

/-- The way through an inline image's data: bytes to pass over, then the search for the end mark, of
which some bytes have been met. -/
structure ImageData where
  attributes : List (String × Object)
  mark : Bytes
  pass : Nat
  met : Nat

/-- Streams are taken in pieces of this many bytes. -/
def pieceLength : Nat := 4096

structure Reader where
  mode : Mode
  image : Option ImageData
  frames : List Frame
  /-- The items so far, the last one first. -/
  items : List Item
  /-- The place in its stream of the next byte. -/
  place : Nat
  /-- How many bytes of the piece at hand are left. -/
  piece : Nat
  failure : Option Failure

namespace Reader

def start : Reader := ⟨.main, none, [], [], 0, pieceLength, none⟩

def fail (r : Reader) (failure : Failure) : Reader := { r with failure := some failure }

def putValue (r : Reader) (object : Object) : Reader :=
  match r.frames with
  | [] => { r with items := .operand object :: r.items }
  | frame :: frames => { r with frames := { frame with values := object :: frame.values } :: frames }

def putKeyword (r : Reader) (keyword : Bytes) : Reader :=
  match r.frames with
  | [] => { r with items := .operator keyword :: r.items }
  | _ => r.putValue (.keyword keyword)

def openBracket (r : Reader) (bracket : Bracket) : Reader :=
  { r with frames := ⟨bracket, []⟩ :: r.frames }

/-- Closes the innermost bracket and hands on its values; an end that does not match it is ignored. -/
def closeBracket (r : Reader) (bracket : Bracket) (use : Reader → List Object → Reader) : Reader :=
  match r.frames with
  | [] => r
  | frame :: frames =>
    if frame.bracket = bracket then use { r with frames := frames } frame.values.reverse else r

def closeDictionary (r : Reader) (values : List Object) : Reader :=
  match dictionaryOf? values with
  | some entries => r.putValue (.dictionary entries)
  | none => r.fail <| Refusal.scanFailed <|
      "Invalid dictionary construct: " ++ (Object.array values).describe

def firstFilter? (attributes : List (String × Object)) : Except Fault (Option Object) :=
  match get? "F" attributes with
  | none => return none
  | some (.name bytes) => return some (.name bytes)
  | some (.array (first :: _)) => return some first
  | some (.array []) => throw .filterEmpty
  | some (.string bytes) => if bytes = [] then throw .filterEmpty else return none
  | some (.dictionary _) => throw .filterWithoutFirst
  | some _ => throw .filterNotIndexable

def imageEnd : Bytes := ascii "EI"

def endMark (filter : Option Object) : Bytes :=
  match filter with
  | some (.name bytes) =>
    if bytes = ascii "ASCII85Decode" ∨ bytes = ascii "A85" then ascii "~>" else imageEnd
  | _ => imageEnd

/-- The data of an inline image begins three bytes after the start of `ID`; all open brackets are
forgotten. With a value missing there is no image. -/
def startImage (start : Nat) (r : Reader) (values : List Object) : Reader :=
  match dictionaryOf? values with
  | none => r
  | some attributes =>
    match firstFilter? attributes with
    | .error fault => r.fail fault
    | .ok filter =>
      { r with
        mode := .main
        frames := []
        image := some ⟨attributes, endMark filter, start + 3 - r.place, 0⟩
        piece := pieceLength }

def take (r : Reader) : Token → Reader
  | .value object => r.putValue object
  | .keyword start bytes =>
    if bytes = ascii "[" then r.openBracket .array
    else if bytes = ascii "]" then r.closeBracket .array fun r values => r.putValue (.array values)
    else if bytes = ascii "<<" then r.openBracket .dictionary
    else if bytes = ascii ">>" then r.closeBracket .dictionary closeDictionary
    else if bytes = ascii "\x7b" then r.openBracket .procedure
    else if bytes = ascii "\x7d" then
      r.closeBracket .procedure fun r values => r.putValue (.array values)
    else if bytes = ascii "BI" then r.openBracket .inlineImage
    else if bytes = ascii "ID" then r.closeBracket .inlineImage (startImage start)
    else r.putKeyword bytes

/-- Tokens in order; a failure or the start of image data drops the rest. -/
def takeAll : Reader → List Token → Reader
  | r, [] => r
  | r, token :: tokens =>
    let r := r.take token
    if r.failure.isSome || r.image.isSome then r else r.takeAll tokens

def takeStep (r : Reader) : Except Fault (Mode × List Token) → Reader
  | .error fault => r.fail fault
  | .ok (mode, tokens) => { r with mode := mode }.takeAll tokens

/-- Image data that is over: it becomes an operand, and its end mark an operator if that is a word. -/
def endImage (r : Reader) (image : ImageData) : Reader :=
  let r := { r with image := none }.putValue (.stream image.attributes [])
  if image.mark = imageEnd then r.putKeyword imageEnd else r

/-- A byte of image data. The mark must be followed by white space; where a byte does not fit, the search
goes on after it. -/
def stepImage (r : Reader) (image : ImageData) (b : UInt8) : Reader :=
  if 0 < image.pass then
    { r with image := some { image with pass := image.pass - 1 }, piece := pieceLength }
  else match image.mark.drop image.met with
    | [] => if Byte.isBlank b then r.endImage image else { r with image := some { image with met := 0 } }
    | expected :: _ =>
      { r with image := some { image with met := if b = expected then image.met + 1 else 0 } }

def refill (r : Reader) : Reader :=
  if r.piece = 0 then { r with mode := r.mode.crossPiece, piece := pieceLength } else r

def step (r : Reader) (b : UInt8) : Reader :=
  if r.failure.isSome then r
  else
    let place := r.place
    let r := r.refill
    let r := { r with place := place + 1, piece := r.piece - 1 }
    match r.image with
    | some image => r.stepImage image b
    | none => r.takeStep (r.mode.step place b)

def crossStream (r : Reader) : Reader :=
  if r.failure.isSome then r
  else
    let r := { r with place := 0, piece := pieceLength }
    match r.image with
    | some image => { r with image := some { image with pass := 0 } }
    | none => r.takeStep r.mode.crossStream

def readStream (r : Reader) (bytes : Bytes) : Reader := bytes.foldl step r.crossStream

def finish (r : Reader) : Reading :=
  let r := if r.failure.isSome || r.image.isSome then r else r.takeStep r.mode.close
  ⟨r.items.reverse, r.failure⟩

end Reader

namespace Reading

/-- The streams of a page or form read as one text; empty ones leave no trace, but there has to be one. -/
def ofStreams (streams : List Bytes) : Reading :=
  if streams = [] then ⟨[], some (Refusal.scanFailed "Unexpected EOF, file truncated?")⟩
  else ((streams.filter (· ≠ [])).foldl Reader.readStream Reader.start).finish

end Reading
end WeekGrid.Pdf
