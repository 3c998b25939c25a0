import WeekGrid.Proofs.Binary64.Order
import WeekGrid.Proofs.Page.Pruning

/-!
Figures and how they are drawn: filled boxes as closed paths, and texts at places set by a text matrix. A page
on which figures are drawn one after another shows exactly these figures, in drawing order.
-/
namespace WeekGrid.Page

open Pdf (Object Item Reading)
open Text (Bytes)

/-- What number an operand is read as. -/
inductive ReadsAs : Object → Binary64 → Prop where
  | real (x : Binary64) : ReadsAs (.real x) x
  | integer {n : Int} {x : Binary64} (h : Binary64.ofInt? n = .ok x) : ReadsAs (.integer n) x

structure NumberOperand where
  object : Object
  value : Binary64
  reads : ReadsAs object value

def fillKeywords : List String := ["f", "F", "f*", "B", "B*", "b", "b*"]

/-- A filled box by two opposite corners, with its colour and the way it is filled. -/
structure FilledBox where
  left : NumberOperand
  bottom : NumberOperand
  right : NumberOperand
  top : NumberOperand
  red : NumberOperand
  green : NumberOperand
  blue : NumberOperand
  color : String
  fill : String
  left_lt_right : left.value.lt right.value = true
  bottom_lt_top : bottom.value.lt top.value = true
  hasColor : hexColor red.value green.value blue.value = .ok color
  isFill : fill ∈ fillKeywords

structure PlacedText where
  x : NumberOperand
  y : NumberOperand
  bytes : Bytes
  ne_nil : bytes ≠ []

inductive Figure where
  | box (box : FilledBox)
  | text (text : PlacedText)

namespace FilledBox

/-- How a box is drawn: `r g b rg x₁ y₁ m x₂ y₁ l x₂ y₂ l x₁ y₂ l h f`. -/
def segments (b : FilledBox) : List Segment :=
  [⟨[b.red.object, b.green.object, b.blue.object], Pdf.ascii "rg"⟩,
    ⟨[b.left.object, b.bottom.object], Pdf.ascii "m"⟩, ⟨[b.right.object, b.bottom.object], Pdf.ascii "l"⟩,
    ⟨[b.right.object, b.top.object], Pdf.ascii "l"⟩, ⟨[b.left.object, b.top.object], Pdf.ascii "l"⟩,
    ⟨[], Pdf.ascii "h"⟩, ⟨[], Pdf.ascii b.fill⟩]

def commands (b : FilledBox) : List Command :=
  [.setColor b.color, .moveTo ⟨b.left.value, b.bottom.value⟩, .lineTo ⟨b.right.value, b.bottom.value⟩,
    .lineTo ⟨b.right.value, b.top.value⟩, .lineTo ⟨b.left.value, b.top.value⟩, .closePath, .fill]

def shown (b : FilledBox) : Box :=
  ⟨b.left.value, b.bottom.value, b.right.value - b.left.value, b.top.value - b.bottom.value, some b.color⟩

end FilledBox

namespace PlacedText

/-- How a text is drawn: `BT 1 0 0 1 x y Tm (text) Tj ET`. -/
def segments (t : PlacedText) : List Segment :=
  [⟨[], Pdf.ascii "BT"⟩,
    ⟨[.integer 1, .integer 0, .integer 0, .integer 1, t.x.object, t.y.object], Pdf.ascii "Tm"⟩,
    ⟨[.string t.bytes], Pdf.ascii "Tj"⟩, ⟨[], Pdf.ascii "ET"⟩]

def commands (t : PlacedText) : List Command :=
  [.setMatrix .identity, .setMatrix ⟨1, 0, 0, 1, t.x.value, t.y.value⟩, .showText (Text.decodeText t.bytes)]

def shown (t : PlacedText) : TextPiece := ⟨t.x.value, t.y.value, Text.decodeText t.bytes⟩

end PlacedText

namespace Figure

def segments : Figure → List Segment
  | box b => b.segments
  | text t => t.segments

def items (f : Figure) : List Item := f.segments.flatMap Segment.items

def commands : Figure → List Command
  | box b => b.commands
  | text t => t.commands

def box? : Figure → Option Box
  | box b => some b.shown
  | text _ => none

def text? : Figure → Option TextPiece
  | box _ => none
  | text t => some t.shown

end Figure

theorem run_number (n : NumberOperand) (op : Operator) (rest : List Object) :
    (Taking.number op).run (n.object :: rest) = (.ok n.value, rest) := by
  rw [Taking.number, Taking.run_take_cons]
  obtain ⟨object, value, reads⟩ := n
  cases reads with
  | real => rfl
  | integer h => simp only [h]

theorem commandsFrom_segments {segments : List Segment} (commands : List (List Command))
    (h : List.Forall₂ (fun s now => called s.keyword s.operands.reverse = .ok now) segments commands)
    (items : List Item) :
    commandsFrom [] (segments.flatMap Segment.items ++ items) =
      (commandsFrom [] items).map (commands.flatten ++ ·) := by
  induction h with
  | nil => cases h : commandsFrom [] items <;> simp [h, Except.map]
  | @cons s now segments commands hnow _ ih =>
    rw [List.flatMap_cons, List.append_assoc, commandsFrom_segment, hnow, ih]
    cases commandsFrom [] items <;> simp [bind, Except.bind, Except.map]

theorem called_eq {keyword : Bytes} (op : Operator) {operands : List Object} {c : Command}
    (hop : Operator.ofKeyword? keyword = some op) (hrun : (op.command.run operands).1 = .ok c) :
    called keyword operands = .ok [c] := by
  simp [called, hop, hrun]

theorem called_moveTo (x y : NumberOperand) :
    called (Pdf.ascii "m") [y.object, x.object] = .ok [.moveTo ⟨x.value, y.value⟩] := by
  refine called_eq .moveTo (by decide) ?_
  simp only [Operator.command, run_bind, run_number, Taking.run_pure]

theorem called_lineTo (x y : NumberOperand) :
    called (Pdf.ascii "l") [y.object, x.object] = .ok [.lineTo ⟨x.value, y.value⟩] := by
  refine called_eq .lineTo (by decide) ?_
  simp only [Operator.command, run_bind, run_number, Taking.run_pure]

theorem called_fill {keyword : String} (h : keyword ∈ fillKeywords) :
    called (Pdf.ascii keyword) [] = .ok [.fill] := by
  have hall : ∀ keyword ∈ fillKeywords, Operator.ofKeyword? (Pdf.ascii keyword) = some .fill := by decide
  exact called_eq .fill (hall keyword h) rfl

theorem called_fillColor {r g b : NumberOperand} {color : String}
    (h : hexColor r.value g.value b.value = .ok color) :
    called (Pdf.ascii "rg") [b.object, g.object, r.object] = .ok [.setColor color] := by
  refine called_eq .fillColor (by decide) ?_
  simp only [Operator.command, run_bind, run_number, h, Taking.run_pure]

def NumberOperand.whole (n : Nat) (h : Binary64.ofInt? n = .ok (Binary64.ofInt n)) : NumberOperand :=
  ⟨.integer n, Binary64.ofInt n, .integer h⟩

def NumberOperand.one : NumberOperand := .whole 1 (by decide +kernel)

def NumberOperand.zero : NumberOperand := .whole 0 (by decide +kernel)

open NumberOperand in
theorem called_setMatrix (x y : NumberOperand) :
    called (Pdf.ascii "Tm") [y.object, x.object, .integer 1, .integer 0, .integer 0, .integer 1] =
      .ok [.setMatrix ⟨1, 0, 0, 1, x.value, y.value⟩] := by
  have hrun : ((Operator.command .setMatrix).run
      [y.object, x.object, one.object, zero.object, zero.object, one.object]).1 =
        .ok (.setMatrix ⟨one.value, zero.value, zero.value, one.value, x.value, y.value⟩) := by
    simp only [Operator.command, run_bind, run_number, Taking.run_pure]
  exact called_eq .setMatrix (by decide) hrun

theorem called_showText (bytes : Bytes) :
    called (Pdf.ascii "Tj") [.string bytes] = .ok [.showText (Text.decodeText bytes)] :=
  called_eq .showText (by decide) rfl

/-- The segments of a figure make its commands; the last one of a text is an unknown keyword. -/
theorem Figure.commandsFrom_items (f : Figure) (items : List Item) :
    commandsFrom [] (f.items ++ items) = (commandsFrom [] items).map (f.commands ++ ·) := by
  cases f with
  | box b =>
    refine commandsFrom_segments (b.commands.map ([·])) ?_ items
    exact .cons (called_fillColor b.hasColor) <| .cons (called_moveTo b.left b.bottom) <|
      .cons (called_lineTo b.right b.bottom) <| .cons (called_lineTo b.right b.top) <|
      .cons (called_lineTo b.left b.top) <| .cons rfl <| .cons (called_fill b.isFill) .nil
  | text t =>
    refine commandsFrom_segments (t.commands.map ([·]) ++ [[]]) ?_ items
    exact .cons rfl <| .cons (called_setMatrix t.x t.y) <| .cons (called_showText t.bytes) <|
      .cons rfl .nil

theorem commandsFrom_figures (figures : List Figure) :
    commandsFrom [] (figures.flatMap Figure.items) = .ok (figures.flatMap Figure.commands) := by
  induction figures with
  | nil => rfl
  | cons f figures ih =>
    rw [List.flatMap_cons, f.commandsFrom_items, ih]
    rfl

theorem spannedBox?_corners {left bottom right top : Binary64} (hx : left.lt right = true)
    (hy : bottom.lt top = true) (color : Option String) :
    spannedBox? [⟨left, bottom⟩, ⟨right, bottom⟩, ⟨right, top⟩, ⟨left, top⟩] color =
      some ⟨left, bottom, right - left, top - bottom, color⟩ := by
  simp [spannedBox?, distinct, ordered, Binary64.same_self_of_lt hx, Binary64.same_self_of_lt_right hx,
    Binary64.not_same_of_lt hx, Binary64.not_lt_of_lt hx, Binary64.same_self_of_lt hy,
    Binary64.same_self_of_lt_right hy, Binary64.not_same_of_lt hy, Binary64.not_lt_of_lt hy]

namespace Drawing

theorem carryOut_box {d : Drawing} (h : d.path = .empty) (scope : Scope) (b : FilledBox) :
    d.carryOut scope b.commands =
      ⟨⟨d.graphics.matrix, some b.color⟩, .empty, ⟨d.elements.texts, d.elements.boxes ++ [b.shown]⟩,
        d.invoked⟩ := by
  have hspan := spannedBox?_corners b.left_lt_right b.bottom_lt_top (some b.color)
  obtain ⟨graphics, path, elements, invoked⟩ := d
  cases h
  simp [FilledBox.commands, FilledBox.shown, apply, setColor, onPath, fill, addBoxes, Path.moveTo,
    Path.lineTo, Path.close, Path.boxes, Path.allFinished, Path.empty, hspan]

theorem carryOut_text (d : Drawing) (scope : Scope) (t : PlacedText) :
    d.carryOut scope t.commands =
      ⟨⟨some ⟨1, 0, 0, 1, t.x.value, t.y.value⟩, d.graphics.color⟩, d.path,
        ⟨d.elements.texts ++ [t.shown], d.elements.boxes⟩, d.invoked⟩ := by
  have hne := Text.decodeText_ne_empty t.ne_nil
  simp [PlacedText.commands, PlacedText.shown, apply, setMatrix, showText, anchor, hne]

/-- Figures drawn one after another are added in order; between two of them no path is pending. -/
theorem carryOut_figures {d : Drawing} (h : d.path = .empty) (scope : Scope) (figures : List Figure) :
    (d.carryOut scope (figures.flatMap Figure.commands)).elements =
        d.elements.append ⟨figures.filterMap Figure.text?, figures.filterMap Figure.box?⟩ ∧
      (d.carryOut scope (figures.flatMap Figure.commands)).invoked = d.invoked := by
  induction figures generalizing d with
  | nil => simp [Elements.append]
  | cons f figures ih =>
    rw [List.flatMap_cons, carryOut_append]
    cases f with
    | box b =>
      obtain ⟨helements, hinvoked⟩ := ih (d := d.carryOut scope b.commands) (by rw [carryOut_box h])
      rw [carryOut_box h] at helements hinvoked
      rw [Figure.commands, carryOut_box h]
      exact ⟨by simp [helements, Elements.append, List.filterMap_cons, Figure.box?, Figure.text?], hinvoked⟩
    | text t =>
      obtain ⟨helements, hinvoked⟩ := ih (d := d.carryOut scope t.commands) (by rw [carryOut_text]; exact h)
      rw [carryOut_text] at helements hinvoked
      rw [Figure.commands, carryOut_text]
      exact ⟨by simp [helements, Elements.append, List.filterMap_cons, Figure.box?, Figure.text?], hinvoked⟩

end Drawing

/-- A page on which figures are drawn shows these figures and nothing else: a box for each filled box and a text
for each placed text, in drawing order. -/
theorem interpret_figures (figures : List Figure) (library : Library) (resources : Resources) :
    library.interpret ⟨figures.flatMap Figure.items, none⟩ resources =
      .ok ⟨figures.filterMap Figure.text?, figures.filterMap Figure.box?⟩ := by
  have hscript : script ⟨figures.flatMap Figure.items, none⟩ = .ok (figures.flatMap Figure.commands) := by
    rw [script, commandsFrom_figures]
  obtain ⟨helements, hinvoked⟩ := Drawing.carryOut_figures (d := .start .initial) rfl
    (library.openScope resources) figures
  have hpage : StreamKey.page ∈ library.keys := List.mem_cons_self
  rw [Library.interpret, Library.traverse_cons_of_mem library hpage, Library.scanAlone, scan_eq, hscript]
  simp only [Except.map, bind, Except.bind, helements, hinvoked]
  simp [Drawing.start, Elements.append, Elements.empty, pure, Except.pure]

open NumberOperand in
def coveredText : List Figure :=
  let ten : NumberOperand := .whole 10 (by decide +kernel)
  let twenty : NumberOperand := .whole 20 (by decide +kernel)
  [.text ⟨ten, ten, Pdf.ascii "G1", by decide⟩,
    .box ⟨zero, zero, ten, twenty, one, zero, zero, "#FF0000", "B*", by decide +kernel, by decide +kernel,
      by decide +kernel, by decide⟩]

theorem coveredText_shown :
    Library.interpret ⟨Library.defaultLeading, []⟩ ⟨coveredText.flatMap Figure.items, none⟩ .none =
      .ok ⟨[⟨10, 10, "G1"⟩], [⟨0, 0, 10, 20, some "#FF0000"⟩]⟩ := by
  rw [interpret_figures]
  decide +kernel

end WeekGrid.Page
