import Mathlib.Data.List.Basic
import WeekGrid.Proofs.Page.Script

/-!
What a stream shows no matter where it starts. The graphics state moves texts and colours boxes, but the
strings that are shown, and the places and sizes of the boxes, depend on the commands alone.
-/
namespace WeekGrid.Page

open Pdf (Reading)

def Box.extent (b : Box) : Binary64 × Binary64 × Binary64 × Binary64 := (b.x, b.y, b.width, b.height)

namespace Elements

def strings (e : Elements) : List String := e.texts.map (·.text)

def extents (e : Elements) : List (Binary64 × Binary64 × Binary64 × Binary64) := e.boxes.map Box.extent

@[simp] theorem strings_empty : empty.strings = [] := rfl

@[simp] theorem extents_empty : empty.extents = [] := rfl

@[simp] theorem strings_append (e f : Elements) : (e.append f).strings = e.strings ++ f.strings := by
  simp [strings]

@[simp] theorem extents_append (e f : Elements) : (e.append f).extents = e.extents ++ f.extents := by
  simp [extents]

end Elements

theorem spannedBox?_extent (points : List Point) (color color' : Option String) :
    (spannedBox? points color).map Box.extent = (spannedBox? points color').map Box.extent := by
  unfold spannedBox?
  split
  · rfl
  · split <;> rfl

theorem Path.boxes_extent (p : Path) (color color' : Option String) :
    (p.boxes color).map Box.extent = (p.boxes color').map Box.extent := by
  simp only [boxes, List.map_filterMap]
  exact List.filterMap_congr fun s _ => spannedBox?_extent s.points color color'

/-- Two drawings that differ at most in their states, in the places of texts and in the colours of boxes. -/
structure Drawing.SameInk (d d' : Drawing) : Prop where
  path : d.path = d'.path
  strings : d.elements.strings = d'.elements.strings
  extents : d.elements.extents = d'.elements.extents

namespace Drawing

theorem sameInk_showText {d d' : Drawing} (h : SameInk d d') (text : String) :
    SameInk (d.showText text) (d'.showText text) := by
  unfold showText
  split
  · exact h
  · refine ⟨h.path, ?_, h.extents⟩
    have hs := h.strings
    simp only [Elements.strings, List.map_append] at hs ⊢
    rw [hs]
    rfl

theorem sameInk_addBoxes {d d' : Drawing} (h : SameInk d d') (boxes boxes' : List Box)
    (hboxes : boxes.map Box.extent = boxes'.map Box.extent) :
    SameInk (d.addBoxes boxes) (d'.addBoxes boxes') := by
  refine ⟨h.path, h.strings, ?_⟩
  have he := h.extents
  simp only [Elements.extents, addBoxes, List.map_append] at he ⊢
  rw [he, hboxes]

theorem sameInk_onPath {d d' : Drawing} (h : SameInk d d') (change : Path → Path) :
    SameInk (d.onPath change) (d'.onPath change) :=
  ⟨congrArg change h.path, h.strings, h.extents⟩

theorem sameInk_apply {d d' : Drawing} (h : SameInk d d') (scope scope' : Scope) (c : Command) :
    SameInk (d.apply scope c) (d'.apply scope' c) := by
  have hstate : ∀ e e' : Drawing, e.path = d.path → e.elements = d.elements → e'.path = d'.path →
      e'.elements = d'.elements → SameInk e e' := by
    intro e e' hp he hp' he'
    exact ⟨by rw [hp, hp', h.path], by rw [he, he', h.strings], by rw [he, he', h.extents]⟩
  have hline : SameInk (d.nextLine scope.leading) (d'.nextLine scope'.leading) :=
    hstate _ _ rfl rfl rfl rfl
  cases c with
  | box x y width height =>
    have hboxes := sameInk_addBoxes h [⟨x, y, width, height, d.graphics.color⟩]
      [⟨x, y, width, height, d'.graphics.color⟩] rfl
    exact sameInk_onPath hboxes (·.addOutline x y width height)
  | moveTo point => exact sameInk_onPath h (·.moveTo point)
  | lineTo point => exact sameInk_onPath h (·.lineTo point)
  | closePath => exact sameInk_onPath h (·.close)
  | dropPath => exact sameInk_onPath h fun _ => .empty
  | fill =>
    have hboxes := Path.boxes_extent d.path d.graphics.color d'.graphics.color
    rw [show d.path.boxes d'.graphics.color = d'.path.boxes d'.graphics.color by rw [h.path]] at hboxes
    exact sameInk_onPath (sameInk_addBoxes h _ _ hboxes) fun _ => .empty
  | showText text => exact sameInk_showText h text
  | nextLineShow text => exact sameInk_showText hline text
  | nextLine => exact hline
  | invoke name =>
    have hinvoke : ∀ (e : Drawing) (s : Scope),
        (e.invoke s name).path = e.path ∧ (e.invoke s name).elements = e.elements := by
      intro e s
      unfold invoke
      split
      · split <;> exact ⟨rfl, rfl⟩
      · exact ⟨rfl, rfl⟩
    exact hstate _ _ (hinvoke d scope).1 (hinvoke d scope).2 (hinvoke d' scope').1 (hinvoke d' scope').2
  | setColor color => exact hstate (d.setColor color) (d'.setColor color) rfl rfl rfl rfl
  | setMatrix matrix => exact hstate (d.setMatrix matrix) (d'.setMatrix matrix) rfl rfl rfl rfl
  | translate tx ty => exact hstate (d.translate tx ty) (d'.translate tx ty) rfl rfl rfl rfl
  | nothing => exact h

theorem sameInk_carryOut (cs : List Command) {d d' : Drawing} (h : SameInk d d') (scope scope' : Scope) :
    SameInk (d.carryOut scope cs) (d'.carryOut scope' cs) := by
  induction cs generalizing d d' with
  | nil => exact h
  | cons c cs ih => exact ih (sameInk_apply h scope scope' c)

end Drawing

/-- A stream that can be scanned in one state can be scanned in every state, and shows the same strings and
boxes of the same extents. -/
theorem scan_sameInk {scope : Scope} {graphics : Graphics} {content : Reading} {d : Drawing}
    (h : scan scope graphics content = .ok d) (scope' : Scope) (graphics' : Graphics) :
    ∃ d', scan scope' graphics' content = .ok d' ∧ d.SameInk d' := by
  rw [scan_eq] at h
  obtain ⟨cs, hcs, rfl⟩ := Outcome.map_eq_ok_iff.1 h
  refine ⟨(Drawing.start graphics').carryOut scope' cs, by rw [scan_eq, hcs]; rfl, ?_⟩
  have hstart : (Drawing.start graphics).SameInk (.start graphics') := ⟨rfl, rfl, rfl⟩
  exact Drawing.sameInk_carryOut cs hstart scope scope'

end WeekGrid.Page
