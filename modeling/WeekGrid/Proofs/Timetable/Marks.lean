import WeekGrid.Proofs.Binary64.Order
import WeekGrid.Timetable.Cell

/-!
What the tables of the two axes hold, told by the boxes of the page. Under a left edge stands the label of the
last time ruler there; a height has a row if a group row of some day marks it.
-/
namespace WeekGrid.Timetable

open Page (Elements Box Bounds)

/-- A time ruler with its label: it touches the header from below, and the label is its first text that is
not blank, without white space around it. -/
structure TimeRuler (elements : Elements) (header : Bounds) (ruler : Box) (label : String) : Prop where
  color : ruler.color = some rulerColor
  touches : ruler.bounds.top.same header.bottom = true
  label : firstLabel? (Page.textsWithin elements.texts ruler.bounds) = some label

/-- A place has the label of the last time ruler whose left edge is there. -/
def TimeLabel (elements : Elements) (header : Bounds) (x : Binary64) (label : String) : Prop :=
  ∃ before ruler after, elements.boxes = before ++ ruler :: after ∧
    TimeRuler elements header ruler label ∧ ruler.x.same x = true ∧
    ∀ later ∈ after, ∀ other, TimeRuler elements header later other → later.x.same x = false

def markOf? (elements : Elements) (header : Bounds) (box : Box) : Option (Binary64 × String) :=
  if box.color == some rulerColor then timeMark? elements header box else none

theorem markOf?_eq_some_iff {elements : Elements} {header : Bounds} {box : Box} {x : Binary64} {label : String} :
    markOf? elements header box = some (x, label) ↔ TimeRuler elements header box label ∧ box.x = x := by
  rw [markOf?, timeMark?]
  constructor
  · intro h
    split at h
    · next hcolor =>
      split at h
      · next htouches =>
        obtain ⟨text, htext, heq⟩ := Option.map_eq_some_iff.1 h
        cases heq
        exact ⟨⟨eq_of_beq hcolor, htouches, htext⟩, rfl⟩
      · cases h
    · cases h
  · rintro ⟨⟨hcolor, htouches, hlabel⟩, rfl⟩
    simp [hcolor, htouches, hlabel]

theorem valueAt?_markOf?_eq_some_iff {elements : Elements} {header : Bounds} {x : Binary64} {box : Box}
    {label : String} :
    Keyed.valueAt? Binary64.same (markOf? elements header) x box = some label ↔
      TimeRuler elements header box label ∧ box.x.same x = true := by
  rw [Keyed.valueAt?_eq_some_iff]
  constructor
  · rintro ⟨place, hmark, hplace⟩
    obtain ⟨hruler, rfl⟩ := markOf?_eq_some_iff.1 hmark
    exact ⟨hruler, hplace⟩
  · rintro ⟨hruler, hplace⟩
    exact ⟨box.x, markOf?_eq_some_iff.2 ⟨hruler, rfl⟩, hplace⟩

theorem timeAxis_eq_marks (elements : Elements) (header : Bounds) : timeAxis elements header =
    Keyed.ofPairs Binary64.same (elements.boxes.filterMap (markOf? elements header)) := by
  rw [timeAxis, rulers, List.filterMap_filter]
  rfl

theorem get?_timeAxis_eq_some_iff {elements : Elements} {header : Bounds} {x : Binary64} {label : String} :
    Keyed.get? Binary64.same x (timeAxis elements header) = some label ↔
      TimeLabel elements header x label := by
  have hnone : ∀ box : Box, Keyed.valueAt? Binary64.same (markOf? elements header) x box = none ↔
      ∀ other, TimeRuler elements header box other → box.x.same x = false := by
    intro box
    rw [Option.eq_none_iff_forall_ne_some]
    refine forall_congr' fun other => ?_
    rw [ne_eq, valueAt?_markOf?_eq_some_iff, not_and, Bool.not_eq_true]
  rw [timeAxis_eq_marks, Keyed.get?_ofPairs_filterMap_eq_some_iff Binary64.isTest_same]
  simp only [valueAt?_markOf?_eq_some_iff, hnone, TimeLabel, and_assoc]

/-- A day cell with its day: it stands one unit to the right of the header's left edge, and its first text
names the day. -/
structure DayCell (elements : Elements) (header : Bounds) (cell : Box) (day : Weekday) : Prop where
  mem : cell ∈ elements.boxes
  color : cell.color = some rulerColor
  indent : cell.x.same (header.left + 1) = true
  names : ∃ first rest, Page.textsWithin elements.texts cell.bounds = first :: rest ∧
    Weekday.ofFrench? first.text = some day

/-- A group row beside a day cell with its group: it starts at the right edge of the cell and lies inside its
height, and its first text has the group's number. -/
structure GroupRow (elements : Elements) (cell line : Box) (group : Nat) : Prop where
  mem : line ∈ elements.boxes
  color : line.color = some rulerColor
  below : line.bounds.top.le cell.bounds.top = true
  above : cell.bounds.bottom.le line.bounds.bottom = true
  beside : line.bounds.left.same cell.bounds.right = true
  numbered : ∃ first rest, Page.textsWithin elements.texts line.bounds = first :: rest ∧
    groupNumber? first.text = some group

/-- The height that belongs to a half of a group row: the lower edge, or the upper edge raised by half the
height. -/
def halfHeight (line : Box) : Half → Binary64
  | .a => line.bounds.bottom
  | .b => line.bounds.top + line.height / 2

def RowMark (elements : Elements) (header : Bounds) (mark : Binary64) (row : Row) : Prop :=
  ∃ cell line group, DayCell elements header cell row.day ∧ GroupRow elements cell line group ∧
    row.group = (group : Int) ∧ roundHeight (halfHeight line row.half) = .ok mark

theorem dayOf?_eq_some_iff {elements : Elements} {cell : Box} {day : Weekday} :
    dayOf? elements cell = some day ↔ ∃ first rest,
      Page.textsWithin elements.texts cell.bounds = first :: rest ∧ Weekday.ofFrench? first.text = some day := by
  unfold dayOf?
  cases Page.textsWithin elements.texts cell.bounds with
  | nil => simp
  | cons first rest => simp

theorem groupOf?_eq_some_iff {elements : Elements} {line : Box} {group : Nat} :
    groupOf? elements line = some group ↔ ∃ first rest,
      Page.textsWithin elements.texts line.bounds = first :: rest ∧ groupNumber? first.text = some group := by
  unfold groupOf?
  cases Page.textsWithin elements.texts line.bounds with
  | nil => simp
  | cons first rest => simp

theorem mem_rulers_iff {elements : Elements} {box : Box} :
    box ∈ rulers elements ↔ box ∈ elements.boxes ∧ box.color = some rulerColor := by
  rw [rulers, List.mem_filter, beq_iff_eq]

theorem mem_groupRows_iff {elements : Elements} {header : Bounds} {day : Weekday} {group : Nat} {line : Box} :
    (day, group, line) ∈ groupRows elements header ↔
      ∃ cell, DayCell elements header cell day ∧ GroupRow elements cell line group := by
  rw [groupRows, List.mem_flatMap]
  constructor
  · rintro ⟨cell, hcell, hline⟩
    obtain ⟨hcell, hindent⟩ := List.mem_filter.1 hcell
    obtain ⟨hmem, hcolor⟩ := mem_rulers_iff.1 hcell
    split at hline
    · cases hline
    · next found hday =>
      obtain ⟨row, hrow, heq⟩ := List.mem_filterMap.1 hline
      obtain ⟨number, hnumber, heq⟩ := Option.map_eq_some_iff.1 heq
      cases heq
      obtain ⟨hrow, hplace⟩ := List.mem_filter.1 hrow
      obtain ⟨hrowmem, hrowcolor⟩ := mem_rulers_iff.1 hrow
      simp only [isRowOf, Bool.and_eq_true] at hplace
      exact ⟨cell, ⟨hmem, hcolor, hindent, dayOf?_eq_some_iff.1 hday⟩,
        ⟨hrowmem, hrowcolor, hplace.1.1, hplace.1.2, hplace.2, groupOf?_eq_some_iff.1 hnumber⟩⟩
  · rintro ⟨cell, hcell, hline⟩
    refine ⟨cell, List.mem_filter.2 ⟨mem_rulers_iff.2 ⟨hcell.mem, hcell.color⟩, hcell.indent⟩, ?_⟩
    rw [dayOf?_eq_some_iff.2 hcell.names]
    have hplace : isRowOf cell.bounds line = true := by
      simp only [isRowOf, hline.below, hline.above, hline.beside, Bool.and_self]
    refine List.mem_filterMap.2 ⟨line, List.mem_filter.2 ⟨?_, hplace⟩, ?_⟩
    · exact mem_rulers_iff.2 ⟨hline.mem, hline.color⟩
    · rw [groupOf?_eq_some_iff.2 hline.numbered]
      rfl

theorem mem_rowMarks_iff {day : Weekday} {group : Nat} {line : Box} {marks : List (Binary64 × Row)}
    (h : rowMarks day group line = .ok marks) (mark : Binary64) (row : Row) :
    (mark, row) ∈ marks ↔ row.day = day ∧ row.group = (group : Int) ∧
      roundHeight (halfHeight line row.half) = .ok mark := by
  obtain ⟨low, hlow, h⟩ := Outcome.bind_eq_ok_iff.1 h
  obtain ⟨high, hhigh, h⟩ := Outcome.bind_eq_ok_iff.1 h
  cases h
  obtain ⟨number, half, weekday⟩ := row
  cases half with
  | a => simp [halfHeight, hlow, eq_comm, and_comm, and_left_comm]
  | b => simp [halfHeight, hhigh, eq_comm, and_comm, and_left_comm]

theorem groupAxis_eq_ok {elements : Elements} {header : Bounds} {groups : GroupAxis}
    (h : groupAxis elements header = .ok groups) :
    ∃ marks, groups = Keyed.ofPairs Binary64.same marks ∧
      ∀ mark row, (mark, row) ∈ marks ↔ RowMark elements header mark row := by
  obtain ⟨marks, hmarks, heq⟩ := Outcome.bind_eq_ok_iff.1 h
  have hmem := Outcome.mem_of_mapM_eq_ok hmarks
  refine ⟨marks.flatten, (Except.ok.inj heq).symm, fun mark row => ?_⟩
  rw [List.mem_flatten]
  constructor
  · rintro ⟨list, hlist, hrow⟩
    obtain ⟨⟨day, group, line⟩, hline, hlist⟩ := (hmem list).1 hlist
    obtain ⟨rfl, hgroup, hround⟩ := (mem_rowMarks_iff hlist mark row).1 hrow
    obtain ⟨cell, hcell, hline⟩ := mem_groupRows_iff.1 hline
    exact ⟨cell, line, group, hcell, hline, hgroup, hround⟩
  · rintro ⟨cell, line, group, hcell, hline, hgroup, hround⟩
    have hgroupRow := mem_groupRows_iff.2 ⟨cell, hcell, hline⟩
    obtain ⟨list, hlist⟩ := Outcome.exists_of_mapM_eq_ok hmarks _ hgroupRow
    exact ⟨list, (hmem list).2 ⟨_, hgroupRow, hlist⟩,
      (mem_rowMarks_iff hlist mark row).2 ⟨rfl, hgroup, hround⟩⟩

def AtRow (elements : Elements) (header : Bounds) (height : Binary64) (row : Row) : Prop :=
  ∃ mark rounded, RowMark elements header mark row ∧ roundHeight height = .ok rounded ∧
    mark.same rounded = true

/-- A cell spreads over other rows if one is marked well inside it, at least two units from its edges. -/
def Spreads (elements : Elements) (header bounds : Bounds) : Prop :=
  ∃ mark row, RowMark elements header mark row ∧ (bounds.bottom + 2).lt mark = true ∧
    mark.lt (bounds.top - 2) = true

theorem rowsInside_eq_zero_iff {elements : Elements} {header : Bounds} {groups : GroupAxis}
    (h : groupAxis elements header = .ok groups) (bounds : Bounds) :
    rowsInside bounds groups = 0 ↔ ¬ Spreads elements header bounds := by
  obtain ⟨marks, rfl, hmarks⟩ := groupAxis_eq_ok h
  rw [rowsInside, List.length_eq_zero_iff, List.filter_eq_nil_iff, Spreads]
  constructor
  · rintro hnone ⟨mark, row, hmark, hlow, hhigh⟩
    have hself := Binary64.same_self_of_lt hhigh
    cases hrow : Keyed.get? Binary64.same mark (Keyed.ofPairs Binary64.same marks) with
    | none =>
      have hmiss := (Keyed.get?_ofPairs_eq_none_iff Binary64.isTest_same).1 hrow mark row
        ((hmarks mark row).2 hmark)
      rw [hself] at hmiss
      cases hmiss
    | some found =>
      obtain ⟨key, hkey, hsame⟩ := Keyed.mem_of_get? hrow
      refine hnone (key, found) hkey ?_
      simp only [Binary64.lt_congr_left hsame, Binary64.lt_congr_right hsame, hlow, hhigh, Bool.and_self]
  · intro hnone pair hpair hinside
    obtain ⟨mark, value⟩ := pair
    obtain ⟨row, hmem⟩ := Keyed.key_mem_ofPairs hpair
    simp only [Bool.and_eq_true] at hinside
    exact hnone ⟨mark, row, (hmarks mark row).1 hmem, hinside⟩

end WeekGrid.Timetable
