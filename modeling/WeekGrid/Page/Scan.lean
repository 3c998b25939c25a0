import WeekGrid.Page.Operator

/-!
Carrying out the operators of one content stream. A scan starts with no operands and an empty path, in a
given graphics state; it ends with the texts and boxes drawn and the forms invoked, in order. Operands do
not outlive the next operator, and an operator that cannot use its operands is passed over.
-/
namespace WeekGrid.Page

open Pdf (Object Item Reading)

/-- The part of the graphics state that forms inherit. -/
structure Graphics where
  matrix : Option Matrix
  color : Option String
  deriving DecidableEq

def Graphics.initial : Graphics := ⟨none, none⟩

inductive ExternalObject where
  /-- A stream, by its place in the table of streams. -/
  | stream (index : Nat)
  | other
  deriving DecidableEq, Repr

structure Resources where
  objects : List (String × ExternalObject)
  deriving DecidableEq, Repr

def Resources.none : Resources := ⟨[]⟩

/-- What tells streams apart: the page, an object by its number, or a stream without a number by its
place in the table. -/
inductive StreamKey where
  | page
  | object (number : Int)
  | unnumbered (index : Nat)
  deriving DecidableEq, Repr

/-- A stream that may be invoked: its object number, its subtype, its own resources and its content. -/
structure FormStream where
  number : Option Int
  subtype : Option Object
  resources : Option Resources
  content : Reading

def FormStream.isForm (form : FormStream) : Bool :=
  match form.subtype with
  | some (.name bytes) => Object.nameText bytes == "Form"
  | _ => false

def FormStream.key (form : FormStream) (index : Nat) : StreamKey :=
  match form.number with
  | some number => .object number
  | none => .unnumbered index

structure Job where
  key : StreamKey
  content : Reading
  resources : Resources
  graphics : Graphics

/-- What a scan looks up: the line advance, the streams of the document, the resources in force and the
streams that need not be invoked any more. -/
structure Scope where
  leading : Binary64
  streams : List FormStream
  resources : Resources
  isDone : StreamKey → Bool

structure Drawing where
  graphics : Graphics
  path : Path
  elements : Elements
  /-- The forms invoked, in order. -/
  invoked : List Job

namespace Drawing

def start (graphics : Graphics) : Drawing := ⟨graphics, .empty, .empty, []⟩

def translate (d : Drawing) (tx ty : Binary64) : Drawing :=
  let m := d.graphics.matrix.getD .identity
  { d with graphics := { d.graphics with matrix := some { m with e := m.e + tx, f := m.f + ty } } }

/-- Moves down by the line advance; without a text matrix there is no line to leave. -/
def nextLine (d : Drawing) (leading : Binary64) : Drawing :=
  { d with graphics :=
      { d.graphics with matrix := d.graphics.matrix.map fun m => { m with f := m.f - leading } } }

def anchor (d : Drawing) : Point :=
  match d.graphics.matrix with
  | some m => ⟨m.e, m.f⟩
  | none => ⟨0, 0⟩

def showText (d : Drawing) (text : String) : Drawing :=
  if text = "" then d
  else { d with elements := { d.elements with
      texts := d.elements.texts ++ [⟨d.anchor.x, d.anchor.y, text⟩] } }

def addBoxes (d : Drawing) (boxes : List Box) : Drawing :=
  { d with elements := { d.elements with boxes := d.elements.boxes ++ boxes } }

/-- The job of a name, if it stands for a form: in its own resources, or else in those in force. -/
def job? (scope : Scope) (graphics : Graphics) (name : String) : Option Job :=
  match Pdf.get? name scope.resources.objects with
  | some (.stream index) =>
    match scope.streams[index]? with
    | some form =>
      if form.isForm then
        some ⟨form.key index, form.content, form.resources.getD scope.resources, graphics⟩
      else none
    | none => none
  | _ => none

def invoke (d : Drawing) (scope : Scope) (name : String) : Drawing :=
  match job? scope d.graphics name with
  | some job => if scope.isDone job.key then d else { d with invoked := d.invoked ++ [job] }
  | none => d

def onPath (d : Drawing) (change : Path → Path) : Drawing := { d with path := change d.path }

/-- Draws the boxes among the subpaths in the colour in force, and drops the path. -/
def fill (d : Drawing) : Drawing :=
  (d.addBoxes (d.path.boxes d.graphics.color)).onPath fun _ => .empty

def setColor (d : Drawing) (color : String) : Drawing :=
  { d with graphics := { d.graphics with color := some color } }

def setMatrix (d : Drawing) (matrix : Matrix) : Drawing :=
  { d with graphics := { d.graphics with matrix := some matrix } }

end Drawing

/-- A scan in progress: the operands, the last one first, and the drawing. -/
structure Machine where
  operands : List Object
  drawing : Drawing

/-- What an operator does to a scan. It may break off with a mishap at any point; what it has done by then
stays done. -/
abbrev Handler := ExceptT Mishap (StateM Machine)

namespace Handler

def taking {α : Type} (t : Taking α) : Handler α := fun (m : Machine) =>
  match t.run m.operands with
  | (result, operands) => (result, ⟨operands, m.drawing⟩)

def draw (change : Drawing → Drawing) : Handler Unit :=
  modify fun m => { m with drawing := change m.drawing }

instance : MonadLift Taking Handler := ⟨taking⟩

end Handler

open Handler in
/-- What each operator does; the last operand is taken first. A box is drawn at once and is a subpath for a
later fill as well. -/
def Operator.handler (scope : Scope) (op : Operator) : Handler Unit :=
  match op with
  | box => do
    let height ← Taking.number op
    let width ← Taking.number op
    let y ← Taking.number op
    let x ← Taking.number op
    draw fun d => d.addBoxes [⟨x, y, width, height, d.graphics.color⟩]
    draw (·.onPath (·.addOutline x y width height))
  | moveTo => do
    let y ← Taking.number op
    let x ← Taking.number op
    draw (·.onPath (·.moveTo ⟨x, y⟩))
  | lineTo => do
    let y ← Taking.number op
    let x ← Taking.number op
    draw (·.onPath (·.lineTo ⟨x, y⟩))
  | closePath => draw (·.onPath (·.close))
  | fill => draw (·.fill)
  | dropPath => draw (·.onPath fun _ => .empty)
  | fillColor => do
    let b ← Taking.number op
    let g ← Taking.number op
    let r ← Taking.number op
    match hexColor r g b with
    | .ok color => draw (·.setColor color)
    | .error fault => throw (.fault fault)
  | beginText => draw (·.setMatrix .identity)
  | setMatrix => do
    let f ← Taking.number op
    let e ← Taking.number op
    let d ← Taking.number op
    let c ← Taking.number op
    let b ← Taking.number op
    let a ← Taking.number op
    draw (·.setMatrix ⟨a, b, c, d, e, f⟩)
  | moveText => do
    let ty ← Taking.number op
    let tx ← Taking.number op
    draw (·.translate tx ty)
  | moveTextAndLead => do
    let ty ← Taking.number op
    let tx ← Taking.number op
    draw (·.translate tx ty)
  | setLeading => do
    let _ ← Taking.number op
  | nextLine => draw (·.nextLine scope.leading)
  | showText => do
    let bytes ← Taking.string op
    draw (·.showText (Text.decodeText bytes))
  | showPieces => do
    let items ← Taking.array op
    draw (·.showText (joinedText items))
  | nextLineShow => do
    let bytes ← Taking.string op
    draw (·.nextLine scope.leading)
    draw (·.showText (Text.decodeText bytes))
  | nextLineSpacedShow => do
    let bytes ← Taking.string op
    let _ ← Taking.number op
    let _ ← Taking.number op
    draw (·.nextLine scope.leading)
    draw (·.showText (Text.decodeText bytes))
  | invoke => do
    let name ← Taking.name op
    draw (·.invoke scope name)

namespace Machine

def start (graphics : Graphics) : Machine := ⟨[], .start graphics⟩

/-- Tries an operator; what it took and drew before a mishap stays taken and drawn. -/
def perform (m : Machine) (scope : Scope) (op : Operator) : Machine × Option Mishap :=
  match (op.handler scope).run m with
  | (.ok _, m) => (m, none)
  | (.error mishap, m) => (m, some mishap)

/-- Reads one item. After an operator, known or not, no operands are left. -/
def step (scope : Scope) (m : Machine) : Item → Except Failure Machine
  | .operand object => return { m with operands := object :: m.operands }
  | .operator keyword =>
    match Operator.ofKeyword? keyword with
    | none => return { m with operands := [] }
    | some op =>
      match m.perform scope op with
      | (_, some (.fault fault)) => throw (.faulted fault)
      | (m, _) => return { m with operands := [] }

def run (scope : Scope) : Machine → List Item → Except Failure Machine
  | m, [] => return m
  | m, item :: items => do run scope (← m.step scope item) items

end Machine

/-- What a stream draws and invokes from a graphics state; a failure of the reading counts only after all
items before it. -/
def scan (scope : Scope) (graphics : Graphics) (content : Reading) : Except Failure Drawing := do
  let m ← Machine.run scope (Machine.start graphics) content.items
  match content.failure with
  | some failure => throw failure
  | none => return m.drawing

end WeekGrid.Page
