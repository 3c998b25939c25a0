import WeekGrid.Decimal.Written
import WeekGrid.Keyed
import WeekGrid.Text.Quoted

/-!
The values of a PDF file and of its content streams, and the form in which messages show them.
-/
namespace WeekGrid.Pdf

open Text (Bytes)

/-- A value; names and keywords are kept as the bytes they are written with. -/
inductive Object where
  | null
  | boolean (value : Bool)
  | integer (value : Int)
  | real (value : Binary64)
  | string (bytes : Bytes)
  | name (bytes : Bytes)
  | keyword (bytes : Bytes)
  | array (items : List Object)
  | dictionary (entries : List (String × Object))
  | reference (number : Nat)
  | stream (attributes : List (String × Object)) (data : Bytes)
  deriving Inhabited

def ascii (s : String) : Bytes := s.toList.map fun c => c.toNat.toUInt8

namespace Object

def quotedName (bytes : Bytes) : String :=
  match Text.decode? bytes with
  | some cs => Text.quoted (String.ofList cs)
  | none => Text.quotedBytes bytes

mutual

def describe : Object → String
  | null => "None"
  | boolean value => if value then "True" else "False"
  | integer value => toString value
  | real value => value.text
  | string bytes => Text.quotedBytes bytes
  | name bytes => "/" ++ quotedName bytes
  | keyword bytes => "/" ++ Text.quotedBytes bytes
  | array items => "[" ++ describeItems items ++ "]"
  | dictionary entries => "\x7b" ++ describeEntries entries ++ "\x7d"
  | reference number => "<reference " ++ toString number ++ ">"
  | stream attributes _ => "<stream \x7b" ++ describeEntries attributes ++ "\x7d>"

def describeItems : List Object → String
  | [] => ""
  | [item] => item.describe
  | item :: rest => item.describe ++ ", " ++ describeItems rest

def describeEntries : List (String × Object) → String
  | [] => ""
  | [(key, value)] => Text.quoted key ++ ": " ++ value.describe
  | (key, value) :: rest =>
    Text.quoted key ++ ": " ++ value.describe ++ ", " ++ describeEntries rest

end

/-- The spelling of a name as a key: its text, or its quoted bytes if it is not UTF-8. -/
def nameText (bytes : Bytes) : String :=
  match Text.decode? bytes with
  | some cs => String.ofList cs
  | none => Text.quotedBytes bytes

def keyText : Object → String
  | name bytes => nameText bytes
  | other => other.describe

end Object

def entriesOf? : List Object → Option (List (String × Object))
  | [] => some []
  | [_] => none
  | key :: value :: rest =>
    (entriesOf? rest).map fun entries => (key.keyText, value) :: entries

/-- The dictionary of keys and values in turn: of two values under one key the later one counts. -/
def dictionaryOf? (items : List Object) : Option (List (String × Object)) :=
  (entriesOf? items).map (Keyed.ofPairs (· == ·))

def get? {α : Type} (key : String) (entries : List (String × α)) : Option α :=
  Keyed.get? (· == ·) key entries

end WeekGrid.Pdf
