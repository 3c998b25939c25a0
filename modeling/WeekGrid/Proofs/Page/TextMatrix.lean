import WeekGrid.Proofs.Binary64.Monotone
import WeekGrid.Proofs.Page.Channels
import WeekGrid.Proofs.Page.Figures
import WeekGrid.Proofs.Page.Ink

/-!
Where there is no text matrix yet. Texts are shown and moved as from the identity, but lines are not: a line move
leaves a drawing without a matrix as it is. So a scan that starts without a matrix shows what a scan from the identity
shows of the same commands, with the line moves left out that come before any matrix is set.
-/
namespace WeekGrid.Page

open Pdf (Object Item Reading)
open Text (Bytes)

/-- The commands that leave a text matrix behind, whether there was one or not. -/
def Command.setsMatrix : Command → Bool
  | .setMatrix _ => true
  | .translate .. => true
  | _ => false

def Command.onLine : Command → Command
  | .nextLine => .nothing
  | .nextLineShow text => .showText text
  | c => c

/-- Commands without the line moves that come before any matrix is set. -/
def heldOnLine : List Command → List Command
  | [] => []
  | c :: cs => if c.setsMatrix then c :: cs else c.onLine :: heldOnLine cs

theorem heldOnLine_eq_self_iff {cs : List Command} :
    heldOnLine cs = cs ↔ ∀ c ∈ cs.takeWhile (!·.setsMatrix), c.onLine = c := by
  induction cs with
  | nil => simp [heldOnLine]
  | cons c cs ih => cases h : c.setsMatrix <;> simp [heldOnLine, h, ih]

namespace Drawing

variable {d d' : Drawing} {scope : Scope}

theorem agree_step {channel : Channel} (h : d.Agree channel d') (scope : Scope) (c : Command) :
    (d.apply scope c).Agree channel (d'.apply scope c) := by
  by_cases hc : c.channel? = some channel
  · exact agree_apply h rfl hc
  · exact ((apply_agree d scope hc).trans h).trans (apply_agree d' scope hc).symm

theorem agree_carryOut {channel : Channel} (h : d.Agree channel d') (scope : Scope) (cs : List Command) :
    (d.carryOut scope cs).Agree channel (d'.carryOut scope cs) := by
  induction cs generalizing d d' with
  | nil => exact h
  | cons c cs ih => exact ih (agree_step h scope c)

/-- A drawing without a text matrix beside one with the identity; both show the same texts. -/
structure Unset (d d' : Drawing) : Prop where
  unset : d.graphics.matrix = none
  identity : d'.graphics.matrix = some .identity
  texts : d.elements.texts = d'.elements.texts

theorem Unset.anchor (h : d.Unset d') : d.anchor = d'.anchor := by
  simp only [Drawing.anchor, h.unset, h.identity]
  rfl

theorem Unset.showText (h : d.Unset d') (text : String) : (d.showText text).Unset (d'.showText text) := by
  unfold Drawing.showText
  split
  · exact h
  · exact ⟨h.unset, h.identity, by simp only [h.anchor, h.texts]⟩

theorem Unset.nextLine (h : d.Unset d') (leading : Binary64) : (d.nextLine leading).Unset d' :=
  ⟨by simp only [Drawing.nextLine, h.unset, Option.map_none], h.identity, h.texts⟩

theorem Unset.apply_of_setsMatrix (h : d.Unset d') {c : Command} (hc : c.setsMatrix = true) :
    (d.apply scope c).Agree .texts (d'.apply scope c) := by
  cases c with
  | setMatrix matrix => exact ⟨rfl, h.texts⟩
  | translate tx ty => exact ⟨by simp only [apply, translate, h.unset, h.identity]; rfl, h.texts⟩
  | _ => cases hc

theorem Unset.apply (h : d.Unset d') {c : Command} (hc : c.setsMatrix = false) :
    (d.apply scope c).Unset (d'.apply scope c.onLine) := by
  have hagree : c.channel? ≠ some .texts → (d.apply scope c).Unset (d'.apply scope c) := by
    intro hchannel
    obtain ⟨hmatrix, htexts⟩ := apply_agree d scope hchannel
    obtain ⟨hmatrix', htexts'⟩ := apply_agree d' scope hchannel
    exact ⟨hmatrix.trans h.unset, hmatrix'.trans h.identity, htexts.trans (h.texts.trans htexts'.symm)⟩
  cases c with
  | setMatrix => cases hc
  | translate => cases hc
  | nextLine => exact h.nextLine scope.leading
  | showText text => exact h.showText text
  | nextLineShow text => exact (h.nextLine scope.leading).showText text
  | nothing => exact h
  | _ => exact hagree (by simp [Command.channel?])

theorem Unset.texts_carryOut (h : d.Unset d') (scope : Scope) (cs : List Command) :
    (d.carryOut scope cs).elements.texts = (d'.carryOut scope (heldOnLine cs)).elements.texts := by
  induction cs generalizing d d' with
  | nil => exact h.texts
  | cons c cs ih =>
    rw [heldOnLine]
    cases hc : c.setsMatrix with
    | true => exact (agree_carryOut (h.apply_of_setsMatrix hc) scope cs).texts
    | false => exact ih (h.apply hc)

end Drawing

/-- What becomes of a content that is scanned without a text matrix, beside the same from the identity: both scans fail
alike, or the boxes and the strings shown are the same and the texts stand where they do from the identity without the
early line moves. -/
inductive UnsetOutcome (scope : Scope) (color : Option String) (content : Reading) : Prop where
  | failed (failure : Failure) (unset : scan scope ⟨none, color⟩ content = .error failure)
      (identity : scan scope ⟨some .identity, color⟩ content = .error failure)
  | drawn (cs : List Command) (d d' : Drawing) (hscript : script content = .ok cs)
      (unset : scan scope ⟨none, color⟩ content = .ok d)
      (identity : scan scope ⟨some .identity, color⟩ content = .ok d')
      (boxes : d.elements.boxes = d'.elements.boxes)
      (strings : d.elements.strings = d'.elements.strings)
      (texts : d.elements.texts =
        ((Drawing.start ⟨some .identity, color⟩).carryOut scope (heldOnLine cs)).elements.texts)
      (alike : (∀ c ∈ cs.takeWhile (!·.setsMatrix), c.onLine = c) → d.elements = d'.elements)

theorem scan_unset (scope : Scope) (color : Option String) (content : Reading) :
    UnsetOutcome scope color content := by
  cases hscript : script content with
  | error failure =>
    exact .failed failure (by rw [scan_eq, hscript]; rfl) (by rw [scan_eq, hscript]; rfl)
  | ok cs =>
    have hunset : (Drawing.start ⟨none, color⟩).Unset (.start ⟨some .identity, color⟩) := ⟨rfl, rfl, rfl⟩
    have hboxes : (Drawing.start ⟨none, color⟩).Agree .boxes (.start ⟨some .identity, color⟩) := ⟨rfl, rfl, rfl⟩
    have htexts := hunset.texts_carryOut scope cs
    have hsame := (Drawing.agree_carryOut hboxes scope cs).boxes
    have hink : (Drawing.start ⟨none, color⟩).SameInk (.start ⟨some .identity, color⟩) := ⟨rfl, rfl, rfl⟩
    have hstrings := (Drawing.sameInk_carryOut cs hink scope scope).strings
    have hscan (graphics : Graphics) :
        scan scope graphics content = .ok ((Drawing.start graphics).carryOut scope cs) := by rw [scan_eq, hscript]; rfl
    refine .drawn cs _ _ hscript (hscan _) (hscan _) hsame hstrings htexts fun h => ?_
    rw [heldOnLine_eq_self_iff.2 h] at htexts
    exact congrArg₂ Elements.mk htexts hsame

/-- What the line operators do, each read with its operands: with a matrix, a line move is a move of the text position
by the line advance, and without one it does nothing; showing on the next line is a line move and then showing. -/
structure MovesLines (scope : Scope) (m : Machine) : Prop where
  set : ∀ matrix, m.drawing.graphics.matrix = some matrix → ∃ e, e.level = matrix.e.level ∧
    m.run scope [.operator (Pdf.ascii "T*")] =
      .ok ⟨[], m.drawing.setMatrix { matrix with f := matrix.f - scope.leading }⟩ ∧
    m.run scope [.operand (.integer 0), .operand (.real (-scope.leading)), .operator (Pdf.ascii "Td")] =
      .ok ⟨[], m.drawing.setMatrix { matrix with e := e, f := matrix.f - scope.leading }⟩
  unset : m.drawing.graphics.matrix = none → m.run scope [.operator (Pdf.ascii "T*")] = .ok ⟨[], m.drawing⟩
  shown : ∀ bytes, m.run scope [.operand (.string bytes), .operator (Pdf.ascii "'")] =
    m.run scope [.operator (Pdf.ascii "T*"), .operand (.string bytes), .operator (Pdf.ascii "Tj")]
  shownSpaced : ∀ (wordSpace characterSpace : NumberOperand) (bytes : Bytes),
    m.run scope [.operand wordSpace.object, .operand characterSpace.object, .operand (.string bytes),
        .operator (Pdf.ascii "\"")] =
      m.run scope [.operator (Pdf.ascii "T*"), .operand (.string bytes), .operator (Pdf.ascii "Tj")]

section LineOperators

variable (scope : Scope) (m : Machine)

theorem run_nextLine (items : List Item) : m.run scope (.operator (Pdf.ascii "T*") :: items) =
    (⟨[], m.drawing.nextLine scope.leading⟩ : Machine).run scope items := by
  have hcalled : called (Pdf.ascii "T*") m.operands = .ok [.nextLine] := called_eq .nextLine (by decide) rfl
  exact Machine.run_operator hcalled scope items

theorem run_moveText (tx ty : NumberOperand) :
    m.run scope [.operand tx.object, .operand ty.object, .operator (Pdf.ascii "Td")] =
      .ok ⟨[], m.drawing.translate tx.value ty.value⟩ := by
  have hcalled : called (Pdf.ascii "Td") (ty.object :: tx.object :: m.operands) =
      .ok [.translate tx.value ty.value] := by
    refine called_eq .moveText (by decide) ?_
    simp only [Operator.command, run_bind, run_number, Taking.run_pure]
  rw [Machine.run_operand, Machine.run_operand, Machine.run_operator hcalled]
  rfl

theorem run_nextLine_showText (bytes : Bytes) :
    m.run scope [.operator (Pdf.ascii "T*"), .operand (.string bytes), .operator (Pdf.ascii "Tj")] =
      .ok ⟨[], (m.drawing.nextLine scope.leading).showText (Text.decodeText bytes)⟩ := by
  rw [run_nextLine, Machine.run_operand, Machine.run_operator (called_showText bytes)]
  rfl

theorem movesLines : MovesLines scope m where
  set matrix hmatrix := by
    refine ⟨matrix.e + 0, Binary64.level_add_zero _, ?_, ?_⟩
    · rw [run_nextLine, Drawing.nextLine, hmatrix]
      rfl
    · have htd := run_moveText scope m ⟨.integer 0, 0, .integer (by decide +kernel)⟩
        ⟨.real (-scope.leading), -scope.leading, .real _⟩
      rw [htd, Drawing.translate, hmatrix]
      rfl
  unset hmatrix := by
    have hline : m.drawing.nextLine scope.leading = m.drawing := by
      rw [Drawing.nextLine, hmatrix, Option.map_none, ← hmatrix]
    rw [run_nextLine, hline]
    rfl
  shown bytes := by
    have hcalled : called (Pdf.ascii "'") (.string bytes :: m.operands) =
        .ok [.nextLineShow (Text.decodeText bytes)] := called_eq .nextLineShow (by decide) rfl
    rw [run_nextLine_showText, Machine.run_operand, Machine.run_operator hcalled]
    rfl
  shownSpaced wordSpace characterSpace bytes := by
    have hcalled : called (Pdf.ascii "\"")
        (.string bytes :: characterSpace.object :: wordSpace.object :: m.operands) =
          .ok [.nextLineShow (Text.decodeText bytes)] := by
      refine called_eq .nextLineSpacedShow (by decide) ?_
      have hstring (operands : List Object) :
          (Taking.string .nextLineSpacedShow).run (.string bytes :: operands) = (.ok bytes, operands) := rfl
      simp only [Operator.command, run_bind, hstring, run_number, Taking.run_pure]
    rw [run_nextLine_showText, Machine.run_operand, Machine.run_operand, Machine.run_operand,
      Machine.run_operator hcalled]
    rfl

end LineOperators

/-- An unset text matrix is as good as the identity, save that line moves do nothing while it is unset; elsewhere the
line operators are a move by the line advance. -/
theorem unset_outcome_and_movesLines (scope : Scope) :
    (∀ color content, UnsetOutcome scope color content) ∧ ∀ m, MovesLines scope m :=
  ⟨scan_unset scope, movesLines scope⟩

def textAfter (items : List Item) : Reading :=
  ⟨items ++ [.operand (.string (Pdf.ascii "a")), .operator (Pdf.ascii "Tj")], none⟩

/-- A line move without a matrix leaves the next text at the origin, while it is moved down from the identity, and by a
move of the text position without a matrix. -/
theorem unsetLine_notMoved :
    let scope : Scope := ⟨14, [], .none, fun _ => false⟩
    let texts (matrix : Option Matrix) (items : List Item) : Except Failure (List TextPiece) :=
      (scan scope ⟨matrix, none⟩ (textAfter items)).map (·.elements.texts)
    texts none [.operator (Pdf.ascii "T*")] = .ok [⟨0, 0, "a"⟩] ∧
      texts (some .identity) [.operator (Pdf.ascii "T*")] = .ok [⟨0, -14, "a"⟩] ∧
      texts none [.operand (.integer 0), .operand (.real (-14)), .operator (Pdf.ascii "Td")] =
        .ok [⟨0, -14, "a"⟩] := by
  decide +kernel

end WeekGrid.Page
