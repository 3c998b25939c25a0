import WeekGrid.Pdf.CrossReference
import WeekGrid.Pdf.Inflate

/-!
The objects of a PDF file and the dictionary at its end. An object that cannot be read is missing.
-/
namespace WeekGrid.Pdf

open Text (Bytes)

/-- The objects of a file by number, in the order of its table, and the entries of its trailer. -/
structure Document where
  objects : List (Nat × Object)
  trailer : List (String × Object)

namespace Document

def streamLength (file : Bytes) (places : CrossReference) (attributes : List (String × Object)) : Nat :=
  match get? "Length" attributes with
  | some (.integer n) => n.toNat
  | some (.reference number) =>
    match places.offsets.lookup number with
    | some offset => match endingAt? file number offset with
      | some (.value (.integer n)) => n.toNat
      | _ => 0
    | none => 0
  | _ => 0

def beforeWord (word : Bytes) : Bytes → Bytes
  | [] => []
  | b :: rest => if word.isPrefixOf (b :: rest) then [] else b :: beforeWord word rest

/-- The data of a stream whose keyword starts at some place: as long as its attributes say, or, in a file that
was searched, up to the word at its end. -/
def dataAt (file : Bytes) (places : CrossReference) (attributes : List (String × Object))
    (start : Nat) : Bytes :=
  let data := afterLine (file.drop start)
  if places.searched then beforeWord (ascii "endstream") data
  else data.take (streamLength file places attributes)

def objectOf? (file : Bytes) (places : CrossReference) (number offset : Nat) : Option (Nat × Object) :=
  (endingAt? file number offset).map fun
    | .value object => (number, object)
    | .stream attributes start => (number, .stream attributes (dataAt file places attributes start))

def ofFile (file : Bytes) : Document :=
  let places := CrossReference.ofFile file
  ⟨places.offsets.filterMap fun (number, offset) => objectOf? file places number offset, places.trailer⟩

/-- Follows references, at most as often as there are objects; a reference to nothing is null. -/
def follow (doc : Document) : Nat → Object → Object
  | fuel + 1, .reference number =>
    match doc.objects.lookup number with
    | some object => follow doc fuel object
    | none => .null
  | 0, .reference _ => .null
  | _, object => object

def resolve (doc : Document) (object : Object) : Object := doc.follow (doc.objects.length + 1) object

def value (doc : Document) (key : String) (entries : List (String × Object)) : Object :=
  match get? key entries with
  | some object => doc.resolve object
  | none => .null

def entriesOf (doc : Document) (object : Object) : List (String × Object) :=
  match doc.resolve object with
  | .dictionary entries => entries
  | _ => []

def filters (doc : Document) (attributes : List (String × Object)) : List Object :=
  match doc.value "Filter" attributes with
  | .null => []
  | .array items => items.map doc.resolve
  | filter => [filter]

def isFlate : Object → Bool
  | .name bytes => bytes == ascii "FlateDecode" || bytes == ascii "Fl"
  | _ => false

/-- The data of a stream with its filters undone; what is no stream has no data. -/
def streamData (doc : Document) (object : Object) : Bytes :=
  match doc.resolve object with
  | .stream attributes data =>
    (doc.filters attributes).foldl
      (fun data filter => if isFlate filter then Inflate.inflate data else data) data
  | _ => []

end Document
end WeekGrid.Pdf
