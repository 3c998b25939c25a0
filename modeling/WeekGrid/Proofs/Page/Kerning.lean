import WeekGrid.Proofs.Page.Figures
import WeekGrid.Proofs.Text.Pieces

/-!
Strings shown in pieces. An array of strings and numbers is shown as one text at one place, as the string it is cut
from would be. The pieces are read one by one, though, so that a cut inside a character changes what is read: the two
texts are the same exactly if the string is cut cleanly.
-/
namespace WeekGrid.Page

open Pdf (Object Item)
open Text (Bytes CutsCleanly)

def stringsIn (items : List Object) : List Bytes :=
  items.filterMap fun
    | .string bytes => some bytes
    | _ => none

theorem joinedText_eq (items : List Object) :
    joinedText items = String.join ((stringsIn items).map Text.decodeText) := by
  rw [joinedText, stringsIn, List.map_filterMap]
  refine congrArg String.join (List.filterMap_congr fun item _ => ?_)
  cases item <;> rfl

theorem joinedText_eq_empty_iff (items : List Object) : joinedText items = "" ↔ (stringsIn items).flatten = [] := by
  rw [joinedText_eq, ← String.toList_inj, String.toList_join]
  simp only [List.flatMap_map, String.toList_empty, List.flatMap_eq_nil_iff, List.flatten_eq_nil_iff,
    String.toList_eq_nil_iff]
  refine forall₂_congr fun piece _ => ⟨fun h => ?_, fun h => by rw [h]; rfl⟩
  by_contra hne
  exact Text.decodeText_ne_empty hne h

/-- A scan that has added some texts at its anchor, has no operands left and is otherwise as it was. -/
def Machine.showing (m : Machine) (texts : List String) : Machine :=
  ⟨[], { m.drawing with elements := { m.drawing.elements with
    texts := m.drawing.elements.texts ++ texts.map fun text => ⟨m.drawing.anchor.x, m.drawing.anchor.y, text⟩ } }⟩

theorem Machine.showing_inj {m : Machine} {texts texts' : List String} :
    m.showing texts = m.showing texts' ↔ texts = texts' := by
  refine ⟨fun h => ?_, fun h => by rw [h]⟩
  have hinjective : Function.Injective fun text =>
      (⟨m.drawing.anchor.x, m.drawing.anchor.y, text⟩ : TextPiece) := fun _ _ heq => congrArg TextPiece.text heq
  have htexts := congrArg (fun m => m.drawing.elements.texts) h
  exact hinjective.list_map (List.append_cancel_left htexts)

theorem Machine.showing_eq (m : Machine) (text : String) :
    (⟨[], m.drawing.showText text⟩ : Machine) = m.showing (if text = "" then [] else [text]) := by
  unfold Drawing.showText
  split
  · simp [showing]
  · rfl

theorem run_showText (scope : Scope) (m : Machine) (bytes : Bytes) :
    m.run scope [.operand (.string bytes), .operator (Pdf.ascii "Tj")] =
      .ok (m.showing (if bytes = [] then [] else [Text.decodeText bytes])) := by
  have hcalled : called (Pdf.ascii "Tj") (.string bytes :: m.operands) = .ok [.showText (Text.decodeText bytes)] :=
    called_eq .showText (by decide) rfl
  have hempty : Text.decodeText bytes = "" ↔ bytes = [] :=
    ⟨fun h => Decidable.byContradiction fun hne => Text.decodeText_ne_empty hne h, fun h => by rw [h]; rfl⟩
  have hshown := m.showing_eq (Text.decodeText bytes)
  simp only [hempty] at hshown
  rw [Machine.run_operand, Machine.run_operator hcalled, ← hshown]
  rfl

theorem run_showPieces (scope : Scope) (m : Machine) (items : List Object) :
    m.run scope [.operand (.array items), .operator (Pdf.ascii "TJ")] =
      .ok (m.showing (if (stringsIn items).flatten = [] then [] else [joinedText items])) := by
  have hcalled : called (Pdf.ascii "TJ") (.array items :: m.operands) = .ok [.showText (joinedText items)] :=
    called_eq .showPieces (by decide) rfl
  have hshown := m.showing_eq (joinedText items)
  simp only [joinedText_eq_empty_iff] at hshown
  rw [Machine.run_operand, Machine.run_operator hcalled, ← hshown]
  rfl

/-- A string in pieces, with numbers between them, is shown as one text at the place of the string itself, or not at
all if the string is empty. It is the text of the string exactly if the string is cut cleanly. -/
theorem run_showPieces_outcome (scope : Scope) (m : Machine) (items : List Object) :
    ∃ shown, m.run scope [.operand (.array items), .operator (Pdf.ascii "TJ")] =
        .ok (m.showing (if (stringsIn items).flatten = [] then [] else [shown])) ∧
      m.run scope [.operand (.string (stringsIn items).flatten), .operator (Pdf.ascii "Tj")] =
        .ok (m.showing (if (stringsIn items).flatten = [] then [] else
          [Text.decodeText (stringsIn items).flatten])) ∧
      (shown = Text.decodeText (stringsIn items).flatten ↔ CutsCleanly (stringsIn items)) :=
  ⟨joinedText items, run_showPieces scope m items, run_showText scope m _,
    by rw [joinedText_eq]; exact Text.join_decodeText_eq_iff _⟩

theorem run_showPieces_eq_run_showText_iff (scope : Scope) (m : Machine) (items : List Object) :
    m.run scope [.operand (.array items), .operator (Pdf.ascii "TJ")] =
        m.run scope [.operand (.string (stringsIn items).flatten), .operator (Pdf.ascii "Tj")] ↔
      CutsCleanly (stringsIn items) := by
  rw [run_showPieces, run_showText, Except.ok.injEq, Machine.showing_inj, ← Text.join_decodeText_eq_iff,
    ← joinedText_eq]
  by_cases hempty : (stringsIn items).flatten = []
  · rw [if_pos hempty, if_pos hempty, (joinedText_eq_empty_iff items).2 hempty, hempty]
    exact iff_of_true rfl rfl
  · simp [hempty]

def pageShowing (object : Object) (keyword : String) : Pdf.Reading :=
  ⟨[.operator (Pdf.ascii "BT"), .operand object, .operator (Pdf.ascii keyword)], none⟩

/-- A letter of two bytes, and the same cut between them: the string is seen as one character, its pieces as two. -/
theorem cutLetter_shown_apart :
    Library.interpret ⟨Library.defaultLeading, []⟩ (pageShowing (.string [0xC3, 0xA9]) "Tj") .none =
        .ok ⟨[⟨0, 0, "é"⟩], []⟩ ∧
      Library.interpret ⟨Library.defaultLeading, []⟩
          (pageShowing (.array [.string [0xC3], .integer (-20), .string [0xA9]]) "TJ") .none =
        .ok ⟨[⟨0, 0, "Ã©"⟩], []⟩ := by
  rw [Library.interpret_eq_scanAlone, Library.interpret_eq_scanAlone]
  decide +kernel

end WeekGrid.Page
