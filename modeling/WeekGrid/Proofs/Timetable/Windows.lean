import Mathlib.Logic.Relation
import WeekGrid.Proofs.Timetable.Justification

/-!
What of a page its timetable depends on: the first box in the colour of headers, the rulers and the lesson
cells, and the texts inside the windows that these boxes open. Pages that agree in this have the same
timetable or the same failure, whatever else is on them and however their boxes are interleaved.
-/
namespace WeekGrid.Timetable

open Page (Elements Box Bounds TextPiece)
open Relation (EqvGen)

/-- What a box is for, by its colour. -/
inductive Role where
  | header
  | ruler
  | cell
  deriving DecidableEq, Repr

def role? (box : Box) : Option Role :=
  if box.color == some headerColor then some .header
  else if box.color == some rulerColor then some .ruler
  else if (CellKind.ofColor? box.color).isSome then some .cell
  else none

def headerBox? (elements : Elements) : Option Box :=
  elements.boxes.find? fun box => box.color == some headerColor

def cellWindow? (cell : Box) : Option Bounds :=
  (CellKind.ofColor? cell.color).map fun kind => cell.bounds.lowered kind.topDrop bottomDrop

/-- All windows in which texts are looked for: those of the header, of the rulers and of the lesson cells. -/
def windows (elements : Elements) : List Bounds :=
  ((headerBox? elements).toList ++ rulers elements).map Box.bounds ++
    (lessonCells elements.boxes).filterMap cellWindow?

/-- Two pages that agree in the boxes with a role, each role by itself, and in what is seen through their
windows. Of the boxes in the colour of headers only the first one counts. -/
structure SameView (e e' : Elements) : Prop where
  header : headerBox? e = headerBox? e'
  rulers : rulers e = rulers e'
  cells : lessonCells e.boxes = lessonCells e'.boxes
  texts : ∀ window ∈ windows e, Page.textsWithin e.texts window = Page.textsWithin e'.texts window

namespace SameView

variable {e e' e'' : Elements}

theorem windows_eq (h : SameView e e') : windows e = windows e' := by
  rw [windows, windows, h.header, h.rulers, h.cells]

theorem refl (e : Elements) : SameView e e := ⟨rfl, rfl, rfl, fun _ _ => rfl⟩

theorem symm (h : SameView e e') : SameView e' e :=
  ⟨h.header.symm, h.rulers.symm, h.cells.symm,
    fun window hwindow => (h.texts window (h.windows_eq ▸ hwindow)).symm⟩

theorem trans (h : SameView e e') (h' : SameView e' e'') : SameView e e'' :=
  ⟨h.header.trans h'.header, h.rulers.trans h'.rulers, h.cells.trans h'.cells,
    fun window hwindow => (h.texts window hwindow).trans (h'.texts window (h.windows_eq ▸ hwindow))⟩

theorem texts_header (h : SameView e e') {box : Box} (hbox : headerBox? e = some box) :
    Page.textsWithin e.texts box.bounds = Page.textsWithin e'.texts box.bounds := by
  refine h.texts _ (List.mem_append_left _ (List.mem_map_of_mem (List.mem_append_left _ ?_)))
  rw [hbox]
  exact List.mem_singleton_self box

theorem texts_ruler (h : SameView e e') {ruler : Box} (hruler : ruler ∈ Timetable.rulers e) :
    Page.textsWithin e.texts ruler.bounds = Page.textsWithin e'.texts ruler.bounds :=
  h.texts _ (List.mem_append_left _ (List.mem_map_of_mem (List.mem_append_right _ hruler)))

theorem cellLines_eq (h : SameView e e') {cell : Box} (hcell : cell ∈ lessonCells e.boxes)
    {kind : CellKind} (hkind : CellKind.ofColor? cell.color = some kind) :
    cellLines e kind cell.bounds = cellLines e' kind cell.bounds := by
  have hwindow : cell.bounds.lowered kind.topDrop bottomDrop ∈ windows e := by
    refine List.mem_append_right _ (List.mem_filterMap.2 ⟨cell, hcell, ?_⟩)
    rw [cellWindow?, hkind]
    rfl
  rw [cellLines, cellLines, h.texts _ hwindow]

theorem readHeader_eq (h : SameView e e') : readHeader e = readHeader e' := by
  have hheader := h.header
  unfold readHeader
  cases hbox : headerBox? e with
  | none =>
    rw [hbox] at hheader
    unfold headerBox? at hbox hheader
    rw [hbox, ← hheader]
  | some box =>
    have htexts := h.texts_header hbox
    rw [hbox] at hheader
    unfold headerBox? at hbox hheader
    rw [hbox, ← hheader]
    simp only [htexts]

theorem timeAxis_eq (h : SameView e e') (header : Bounds) : timeAxis e header = timeAxis e' header := by
  have hmarks : (Timetable.rulers e).filterMap (timeMark? e header) =
      (Timetable.rulers e).filterMap (timeMark? e' header) := by
    refine List.filterMap_congr fun ruler hruler => ?_
    rw [timeMark?, timeMark?, h.texts_ruler hruler]
  rw [timeAxis, timeAxis, hmarks, h.rulers]

theorem dayOf?_eq (h : SameView e e') {cell : Box} (hcell : cell ∈ Timetable.rulers e) :
    dayOf? e cell = dayOf? e' cell := by
  rw [dayOf?, dayOf?, h.texts_ruler hcell]

theorem groupOf?_eq (h : SameView e e') {row : Box} (hrow : row ∈ Timetable.rulers e) :
    groupOf? e row = groupOf? e' row := by
  rw [groupOf?, groupOf?, h.texts_ruler hrow]

theorem groupRows_eq (h : SameView e e') (header : Bounds) : groupRows e header = groupRows e' header := by
  rw [groupRows, groupRows, ← h.rulers]
  refine List.flatMap_congr fun cell hcell => ?_
  rw [h.dayOf?_eq (List.mem_of_mem_filter hcell)]
  cases dayOf? e' cell with
  | none => rfl
  | some day =>
    refine List.filterMap_congr fun row hrow => ?_
    rw [h.groupOf?_eq (List.mem_of_mem_filter hrow)]

theorem groupAxis_eq (h : SameView e e') (header : Bounds) : groupAxis e header = groupAxis e' header := by
  rw [groupAxis, groupAxis, h.groupRows_eq]

end SameView

section Lessons

variable (e : Elements) (base : DateTime) (times : TimeAxis) (groups : GroupAxis) (courses : CourseTable)

theorem lessonsOf_lessonCells (boxes : List Box) :
    lessonsOf e base times groups courses (lessonCells boxes) = lessonsOf e base times groups courses boxes := by
  induction boxes with
  | nil => rfl
  | cons box boxes ih =>
    cases hkind : CellKind.ofColor? box.color with
    | none =>
      have hcells : lessonCells (box :: boxes) = lessonCells boxes := by simp [lessonCells, hkind]
      rw [hcells, ih, lessonsOf, hkind]
    | some kind =>
      have hcells : lessonCells (box :: boxes) = box :: lessonCells boxes := by simp [lessonCells, hkind]
      rw [hcells, lessonsOf, lessonsOf, hkind]
      simp only [ih]

theorem lessonsOf_congr {e e' : Elements} {cells : List Box}
    (h : ∀ cell ∈ cells, ∀ kind, CellKind.ofColor? cell.color = some kind →
      cellLines e kind cell.bounds = cellLines e' kind cell.bounds) :
    lessonsOf e base times groups courses cells = lessonsOf e' base times groups courses cells := by
  induction cells with
  | nil => rfl
  | cons cell cells ih =>
    obtain ⟨hcell, hcells⟩ := List.forall_mem_cons.1 h
    rw [lessonsOf, lessonsOf, ih hcells]
    cases hkind : CellKind.ofColor? cell.color with
    | none => rfl
    | some kind =>
      have hlesson : lessonOf? e base times groups courses kind cell.bounds =
          lessonOf? e' base times groups courses kind cell.bounds := by
        simp only [lessonOf?, hcell kind hkind]
      simp only [hlesson]

end Lessons

theorem SameView.readLessons_eq {e e' : Elements} (h : SameView e e') (base : DateTime) (times : TimeAxis)
    (groups : GroupAxis) (courses : CourseTable) :
    readLessons e base times groups courses = readLessons e' base times groups courses := by
  have hlines : ∀ cell ∈ lessonCells e.boxes, ∀ kind, CellKind.ofColor? cell.color = some kind →
      cellLines e kind cell.bounds = cellLines e' kind cell.bounds :=
    fun cell hcell kind hkind => h.cellLines_eq hcell hkind
  calc readLessons e base times groups courses
      = lessonsOf e base times groups courses (lessonCells e.boxes) :=
        (lessonsOf_lessonCells e base times groups courses e.boxes).symm
    _ = lessonsOf e' base times groups courses (lessonCells e.boxes) :=
        lessonsOf_congr base times groups courses hlines
    _ = lessonsOf e' base times groups courses (lessonCells e'.boxes) := by rw [h.cells]
    _ = readLessons e' base times groups courses :=
        lessonsOf_lessonCells e' base times groups courses e'.boxes

theorem SameView.readTimetable_eq {e e' : Elements} (h : SameView e e') (courses : CourseTable) :
    readTimetable e courses = readTimetable e' courses := by
  simp only [readTimetable, h.readHeader_eq, h.timeAxis_eq, h.groupAxis_eq, h.readLessons_eq]

/-- Changes that are not seen. A box is added that has no role, or one in the colour of headers after another
such box; a text is added outside all windows; or neighbouring boxes of different roles change places. -/
inductive Edit : Elements → Elements → Prop where
  | addIdleBox {texts before after} (box : Box) (h : role? box = none) :
      Edit ⟨texts, before ++ after⟩ ⟨texts, before ++ box :: after⟩
  | addHeaderBox {texts before after} (box first : Box) (hfirst : role? first = some .header)
      (hmem : first ∈ before) (h : role? box = some .header) :
      Edit ⟨texts, before ++ after⟩ ⟨texts, before ++ box :: after⟩
  | addText {before after boxes} (text : TextPiece)
      (h : ∀ window ∈ windows ⟨before ++ after, boxes⟩, window.contains text.x text.y = false) :
      Edit ⟨before ++ after, boxes⟩ ⟨before ++ text :: after, boxes⟩
  | swap {texts before after} (box other : Box) (h : role? box ≠ role? other) :
      Edit ⟨texts, before ++ box :: other :: after⟩ ⟨texts, before ++ other :: box :: after⟩

def withRole (role : Role) (boxes : List Box) : List Box := boxes.filter fun box => role? box = some role

theorem role?_eq_header_iff (box : Box) : role? box = some .header ↔ (box.color == some headerColor) = true := by
  unfold role?
  split
  · next h => simp [h]
  · next h => split <;> [skip; split] <;> simp [h]

theorem role?_eq_ruler_iff (box : Box) : role? box = some .ruler ↔ (box.color == some rulerColor) = true := by
  have hcolors : ∀ color : Option String, color == some headerColor → (color == some rulerColor) = false := by
    intro color h
    rw [eq_of_beq h]
    decide
  unfold role?
  split
  · next h => simp [hcolors _ h]
  · split
    · next h => simp [h]
    · next h => split <;> simp [h]

theorem role?_eq_cell_iff (box : Box) : role? box = some .cell ↔ (CellKind.ofColor? box.color).isSome = true := by
  have hheader : CellKind.ofColor? (some headerColor) = none := by decide
  have hruler : CellKind.ofColor? (some rulerColor) = none := by decide
  unfold role?
  split
  · next h => simp [eq_of_beq h, hheader]
  · split
    · next h => simp [eq_of_beq h, hruler]
    · split <;> simp_all

theorem headerBox?_eq_head? (elements : Elements) :
    headerBox? elements = (withRole .header elements.boxes).head? := by
  simp only [headerBox?, withRole, List.head?_filter, role?_eq_header_iff, Bool.decide_eq_true]

theorem rulers_eq_withRole (elements : Elements) : rulers elements = withRole .ruler elements.boxes := by
  simp only [rulers, withRole, role?_eq_ruler_iff, Bool.decide_eq_true]

theorem lessonCells_eq_withRole (boxes : List Box) : lessonCells boxes = withRole .cell boxes := by
  simp only [lessonCells, withRole, role?_eq_cell_iff, Bool.decide_eq_true]

theorem sameView_of_withRole {texts : List TextPiece} {boxes boxes' : List Box}
    (hheader : (withRole .header boxes).head? = (withRole .header boxes').head?)
    (hruler : withRole .ruler boxes = withRole .ruler boxes')
    (hcell : withRole .cell boxes = withRole .cell boxes') : SameView ⟨texts, boxes⟩ ⟨texts, boxes'⟩ where
  header := by rw [headerBox?_eq_head?, headerBox?_eq_head?, hheader]
  rulers := by rw [rulers_eq_withRole, rulers_eq_withRole, hruler]
  cells := by rw [lessonCells_eq_withRole, lessonCells_eq_withRole, hcell]
  texts _ _ := rfl

theorem withRole_insert_of_ne {role : Role} {box : Box} (h : role? box ≠ some role) (before after : List Box) :
    withRole role (before ++ box :: after) = withRole role (before ++ after) := by
  simp [withRole, h]

theorem withRole_swap {box other : Box} (h : role? box ≠ role? other) (role : Role) (before after : List Box) :
    withRole role (before ++ box :: other :: after) = withRole role (before ++ other :: box :: after) := by
  by_cases hbox : role? box = some role
  · have hother : role? other ≠ some role := fun heq => h (hbox.trans heq.symm)
    simp [withRole, hbox, hother]
  · simp [withRole, List.filter_cons, hbox]

theorem Edit.sameView {e e' : Elements} (h : Edit e e') : SameView e e' := by
  cases h with
  | addIdleBox box hbox =>
    have hkeep : ∀ role, role? box ≠ some role := by simp [hbox]
    exact sameView_of_withRole (by rw [withRole_insert_of_ne (hkeep _)])
      (withRole_insert_of_ne (hkeep _) ..).symm (withRole_insert_of_ne (hkeep _) ..).symm
  | @addHeaderBox texts before after box first hfirst hmem hbox =>
    refine sameView_of_withRole ?_ (withRole_insert_of_ne (by simp [hbox]) ..).symm
      (withRole_insert_of_ne (by simp [hbox]) ..).symm
    -- The first box in the colour of headers stands in the part before.
    have hne : withRole .header before ≠ [] := List.ne_nil_of_mem (List.mem_filter.2 ⟨hmem, by simp [hfirst]⟩)
    obtain ⟨head, more, hhead⟩ := List.exists_cons_of_ne_nil hne
    have happend : ∀ boxes, withRole .header (before ++ boxes) = head :: (more ++ withRole .header boxes) := by
      intro boxes
      rw [← List.cons_append, ← hhead]
      exact List.filter_append ..
    rw [happend, happend]
    rfl
  | @addText before after boxes text hout =>
    refine ⟨rfl, rfl, rfl, fun window hwindow => ?_⟩
    simp [Page.textsWithin, hout window hwindow]
  | swap box other hne =>
    exact sameView_of_withRole (by rw [withRole_swap hne]) (withRole_swap hne ..) (withRole_swap hne ..)

theorem sameView_of_edits {e e' : Elements} (h : EqvGen Edit e e') : SameView e e' := by
  induction h with
  | rel _ _ hedit => exact hedit.sameView
  | refl e => exact .refl e
  | symm _ _ _ ih => exact ih.symm
  | trans _ _ _ _ _ ih ih' => exact ih.trans ih'

/-- Pages that look the same have the same timetable or the same failure. In particular unseen changes make no
difference, however many are made or undone. -/
theorem readTimetable_of_sameView {e e' : Elements} (h : SameView e e') (courses : CourseTable) :
    readTimetable e' courses = readTimetable e courses ∧
      ∀ edited, EqvGen Edit e' edited → readTimetable edited courses = readTimetable e courses :=
  ⟨(h.readTimetable_eq courses).symm,
    fun _ hedits => ((h.trans (sameView_of_edits hedits)).readTimetable_eq courses).symm⟩

/-- The small page with its boxes in another order, among them one more in the colour of headers and a grey one,
and with texts that stand apart. -/
def busyPage : Elements where
  texts := ⟨300, 300, "printed on Friday"⟩ :: smallPage.texts ++ [⟨52, 10, "G1"⟩]
  boxes := [⟨0, 0, 300, 200, some "#808080"⟩, ⟨50, 90, 10, 10, some rulerColor⟩,
    ⟨50, 30, 30, 20, some CellKind.practical.color⟩, ⟨80, 90, 10, 10, some rulerColor⟩,
    ⟨0, 100, 200, 20, some headerColor⟩, ⟨1, 20, 19, 60, some rulerColor⟩,
    ⟨0, 60, 200, 20, some headerColor⟩, ⟨20, 30, 10, 40, some rulerColor⟩]

theorem busyPage_readTimetable :
    readTimetable busyPage smallTable = readTimetable smallPage smallTable ∧
      readTimetable { busyPage with boxes := busyPage.boxes.tail } smallTable =
        readTimetable smallPage smallTable := by
  have hview : SameView smallPage busyPage :=
    ⟨by decide +kernel, by decide +kernel, by decide +kernel, by decide +kernel⟩
  obtain ⟨hsame, hedited⟩ := readTimetable_of_sameView hview smallTable
  have hidle : role? ⟨0, 0, 300, 200, some "#808080"⟩ = none := by decide +kernel
  have hedit : Edit { busyPage with boxes := [] ++ busyPage.boxes.tail } busyPage := .addIdleBox _ hidle
  exact ⟨hsame, hedited _ (.symm _ _ (.rel _ _ hedit))⟩

end WeekGrid.Timetable
