import WeekGrid.Page.Traversal
import WeekGrid.Pdf.Document

/-!
The first page of a document: the leftmost leaf of the page tree, with the attributes that it inherits, and
the streams that it may invoke.
-/
namespace WeekGrid.Page

open Pdf (Object Document Reading)
open Text (Bytes)

/-- The attributes that a page takes from the nodes above it. -/
def inheritable : List String := ["Resources", "MediaBox", "CropBox", "Rotate"]

def hasName (key spelling : String) (entries : List (String × Object)) : Bool :=
  match Pdf.get? key entries with
  | some (.name bytes) => bytes == Pdf.ascii spelling
  | _ => false

def inherit (parent entries : List (String × Object)) : List (String × Object) :=
  entries ++ parent.filter fun (key, _) =>
    inheritable.contains key && (Pdf.get? key entries).isNone

/-- A node of the page tree to be visited, by its object number, with the entries of its parent. -/
structure Node where
  number : Nat
  parent : List (String × Object)

def nodesOf (parent : List (String × Object)) (kids : List Object) : List Node :=
  kids.filterMap fun
    | .reference number => some ⟨number, parent⟩
    | _ => none

def withoutNumber (number : Nat) (numbers : List Nat) : List Nat := numbers.filter (· ≠ number)

theorem length_withoutNumber_lt {number : Nat} {numbers : List Nat} (h : number ∈ numbers) :
    (withoutNumber number numbers).length < numbers.length :=
  List.length_filter_lt_length_iff_exists.2 ⟨number, h, by simp⟩

/-- The pages below some nodes, depth first; `remaining` holds the objects that have not been visited. -/
def pagesBelow (doc : Document) (remaining : List Nat) (nodes : List Node) :
    List (List (String × Object)) :=
  match nodes with
  | [] => []
  | node :: rest =>
    if _h : node.number ∈ remaining then
      let left := withoutNumber node.number remaining
      let entries := inherit node.parent (doc.entriesOf (.reference node.number))
      if hasName "Type" "Pages" entries then
        match doc.value "Kids" entries with
        | .array kids => pagesBelow doc left (nodesOf entries kids ++ rest)
        | _ => pagesBelow doc left rest
      else if hasName "Type" "Page" entries then entries :: pagesBelow doc left rest
      else pagesBelow doc left rest
    else pagesBelow doc remaining rest
termination_by (remaining.length, nodes.length)
decreasing_by
  all_goals first
    | exact Prod.Lex.left _ _ (length_withoutNumber_lt _h)
    | exact Prod.Lex.right _ (Nat.lt_succ_self _)

/-- The pages of the tree under the root, or else every object that is a page. -/
def pagesOf (doc : Document) (root : List (String × Object)) : List (List (String × Object)) :=
  let numbers := doc.objects.map (·.1)
  let found := match Pdf.get? "Pages" root with
    | some (.reference number) => pagesBelow doc numbers [⟨number, root⟩]
    | _ => []
  if found.isEmpty then
    doc.objects.filterMap fun (_, object) => match object with
      | .dictionary entries => if hasName "Type" "Page" entries then some entries else none
      | _ => none
  else found

def streamNumber? (doc : Document) : Nat → Object → Option Nat
  | fuel + 1, .reference number =>
    match doc.objects.lookup number with
    | some (.stream ..) => some number
    | some object => streamNumber? doc fuel object
    | none => none
  | _, _ => none

/-- What a value in a resource dictionary stands for; `numbers` are those of the streams in their table. -/
def externalObject (doc : Document) (numbers : List Nat) (object : Object) : ExternalObject :=
  match (streamNumber? doc (doc.objects.length + 1) object).bind (numbers.idxOf? ·) with
  | some index => .stream index
  | none => .other

def resources? (doc : Document) (numbers : List Nat) (object : Object) : Option Resources :=
  match doc.resolve object with
  | .dictionary entries =>
    match doc.value "XObject" entries with
    | .dictionary names => some ⟨names.map fun (name, object) => (name, externalObject doc numbers object)⟩
    | _ => some .none
  | _ => none

def streamNumbers (doc : Document) : List Nat :=
  doc.objects.filterMap fun (number, object) => match object with
    | .stream .. => some number
    | _ => none

def formStream (doc : Document) (numbers : List Nat) (number : Nat) : FormStream :=
  let attributes := match doc.resolve (.reference number) with
    | .stream attributes _ => attributes
    | _ => []
  { number := some number
    subtype := (Pdf.get? "Subtype" attributes).map doc.resolve
    resources := (Pdf.get? "Resources" attributes).bind (resources? doc numbers)
    content := Reading.ofStreams [doc.streamData (.reference number)] }

/-- The content streams of a page: one, several, or none if there is no entry for them. -/
def contentsOf (doc : Document) (page : List (String × Object)) : List Bytes :=
  match Pdf.get? "Contents" page with
  | none => []
  | some object =>
    match doc.resolve object with
    | .array items => items.map doc.streamData
    | object => [doc.streamData object]

def hasMediaBox (doc : Document) (page : List (String × Object)) : Bool :=
  match doc.value "MediaBox" page with
  | .null => false
  | _ => true

def notADocument : String := "No /Root object! - Is this really a PDF?"

/-- The texts and boxes of a file's first page; `source` is what messages call the file. Every page has to
have a media box. -/
def extract (leading : Binary64) (source : String) (file : Bytes) : Except Failure Elements :=
  let doc := Document.ofFile file
  match Pdf.get? "Root" doc.trailer with
  | none => throw (.refused (.documentOpen source notADocument))
  | some root =>
    match pagesOf doc (doc.entriesOf root) with
    | [] => throw (.refused .missingFirstPage)
    | page :: more =>
      if (page :: more).all (hasMediaBox doc) then
        let numbers := streamNumbers doc
        let library : Library := ⟨leading, numbers.map (formStream doc numbers)⟩
        let resources := ((Pdf.get? "Resources" page).bind (resources? doc numbers)).getD .none
        library.interpret (Reading.ofStreams (contentsOf doc page)) resources
      else throw (.faulted .missingMediaBox)

def sourceOfBytes (file : Bytes) : String := "<" ++ toString file.length ++ " bytes>"

def sourceOfStream : String := "<stream>"

def missingFile (name : String) : Refusal :=
  .documentOpen name ("[Errno 2] No such file or directory: " ++ Text.quoted name)

end WeekGrid.Page
