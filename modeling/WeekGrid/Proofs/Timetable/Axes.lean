import Mathlib.Data.List.Basic
import WeekGrid.Proofs.Outcome
import WeekGrid.Proofs.Timetable.Marks

/-!
The two axes as tables that boxes write to. Every time ruler writes its label, and every group row beside a day cell
its two rows; both tables hold all that is written, and where several boxes write in one place, what the last of them
writes. Time rulers come in drawing order, group rows in the order of the day cells first, and the two halves of a row
one after the other.
-/
namespace WeekGrid.Timetable

open Page (Elements Box Bounds)

/-- The box at a place in the drawing order is a time ruler, with a left edge and a label. -/
def TimeWrite (elements : Elements) (header : Bounds) (i : Nat) (x : Binary64) (label : String) : Prop :=
  ∃ ruler, elements.boxes[i]? = some ruler ∧ TimeRuler elements header ruler label ∧ ruler.x = x

/-- Where a half of a group row is written: the places of the day cell and of the row in the drawing order. -/
structure RowPlace where
  cell : Nat
  line : Nat
  half : Half

/-- Day cells come in order, then the rows of a day cell, then the two halves of a row. -/
inductive RowPlace.Later : RowPlace → RowPlace → Prop where
  | cell {p q : RowPlace} (h : p.cell < q.cell) : Later p q
  | line {p q : RowPlace} (hcell : p.cell = q.cell) (h : p.line < q.line) : Later p q
  | half (cell line : Nat) : Later ⟨cell, line, .a⟩ ⟨cell, line, .b⟩

/-- A day cell and a group row beside it stand at a place, and the height of the half there is marked for the half of
the group on the day. -/
structure RowWrite (elements : Elements) (header : Bounds) (place : RowPlace) (mark : Binary64) (row : Row) : Prop where
  half : row.half = place.half
  boxes : ∃ cell line group, elements.boxes[place.cell]? = some cell ∧ elements.boxes[place.line]? = some line ∧
    DayCell elements header cell row.day ∧ GroupRow elements cell line group ∧ row.group = (group : Int) ∧
    roundHeight (halfHeight line place.half) = .ok mark

def RoundsRows (elements : Elements) (header : Bounds) : Prop :=
  ∀ cell day line group, DayCell elements header cell day → GroupRow elements cell line group →
    ∀ half, ∃ mark, roundHeight (halfHeight line half) = .ok mark

theorem RowPlace.Later.asymm {p q : RowPlace} (h : Later p q) : ¬ Later q p := by
  intro h'
  cases h with
  | cell h => cases h' with
    | cell h' => omega
    | line hcell _ => omega
    | half => exact Nat.lt_irrefl _ h
  | line hcell h => cases h' with
    | cell h' => omega
    | line _ h' => omega
    | half => exact Nat.lt_irrefl _ h
  | half => cases h' with
    | cell h' => exact Nat.lt_irrefl _ h'
    | line _ h' => exact Nat.lt_irrefl _ h'

variable {elements : Elements} {header : Bounds}

theorem pairwise_zipIdx {α : Type} (items : List α) : items.zipIdx.Pairwise fun e f => e.2 < f.2 := by
  rw [← List.pairwise_map, List.zipIdx_map_snd]
  exact List.pairwise_lt_range'

def timeWrites (elements : Elements) (header : Bounds) : List (Nat × Binary64 × String) :=
  elements.boxes.zipIdx.filterMap fun e => (markOf? elements header e.1).map (e.2, ·)

theorem timeAxis_eq_ofPairs (elements : Elements) (header : Bounds) :
    timeAxis elements header = Keyed.ofPairs Binary64.same ((timeWrites elements header).map (·.2)) := by
  have hmarks : (timeWrites elements header).map (·.2) = elements.boxes.filterMap (markOf? elements header) := by
    conv_rhs => rw [← List.zipIdx_map_fst 0 elements.boxes]
    rw [timeWrites, List.filterMap_map, List.map_filterMap]
    refine List.filterMap_congr fun e _ => ?_
    cases h : markOf? elements header e.1 <;> simp [h]
  rw [timeAxis_eq_marks, hmarks]

theorem mem_timeWrites_iff {i : Nat} {x : Binary64} {label : String} :
    (i, x, label) ∈ timeWrites elements header ↔ TimeWrite elements header i x label := by
  rw [timeWrites, List.mem_filterMap]
  constructor
  · rintro ⟨⟨ruler, j⟩, hmem, h⟩
    obtain ⟨mark, hmark, heq⟩ := Option.map_eq_some_iff.1 h
    cases heq
    obtain ⟨hruler, hx⟩ := markOf?_eq_some_iff.1 hmark
    exact ⟨ruler, List.mem_zipIdx_iff_getElem?.1 hmem, hruler, hx⟩
  · rintro ⟨ruler, hplace, hruler, hx⟩
    refine ⟨(ruler, i), List.mem_zipIdx_iff_getElem?.2 hplace, ?_⟩
    rw [markOf?_eq_some_iff.2 ⟨hruler, hx⟩]
    rfl

theorem timeWrites_sorted (elements : Elements) (header : Bounds) :
    (timeWrites elements header).Pairwise fun e f => e.1 < f.1 := by
  rw [timeWrites, List.pairwise_filterMap]
  refine (pairwise_zipIdx elements.boxes).imp fun {e f} hlt write hwrite write' hwrite' => ?_
  obtain ⟨_, -, rfl⟩ := Option.map_eq_some_iff.1 hwrite
  obtain ⟨_, -, rfl⟩ := Option.map_eq_some_iff.1 hwrite'
  exact hlt

def rulersAt (elements : Elements) : List (Box × Nat) :=
  elements.boxes.zipIdx.filter fun e => e.1.color == some rulerColor

theorem map_fst_rulersAt (elements : Elements) : (rulersAt elements).map (·.1) = rulers elements := by
  rw [rulers, rulersAt]
  conv_rhs => rw [← List.zipIdx_map_fst 0 elements.boxes, List.filter_map]
  rfl

theorem mem_rulersAt_iff {box : Box} {i : Nat} :
    (box, i) ∈ rulersAt elements ↔ elements.boxes[i]? = some box ∧ box.color = some rulerColor := by
  rw [rulersAt, List.mem_filter, List.mem_zipIdx_iff_getElem?, beq_iff_eq]

def groupRowsBeside (elements : Elements) (cell : Box) (i : Nat) : List ((Nat × Nat) × Weekday × Nat × Box) :=
  match dayOf? elements cell with
  | none => []
  | some day =>
    ((rulersAt elements).filter fun e => isRowOf cell.bounds e.1).filterMap fun e =>
      (groupOf? elements e.1).map fun group => ((i, e.2), day, group, e.1)

theorem mem_groupRowsBeside_iff {cell line : Box} {i k j : Nat} {day : Weekday} {group : Nat} :
    ((k, j), day, group, line) ∈ groupRowsBeside elements cell i ↔
      k = i ∧ dayOf? elements cell = some day ∧ elements.boxes[j]? = some line ∧
        GroupRow elements cell line group := by
  rw [groupRowsBeside]
  constructor
  · intro h
    split at h
    · cases h
    · next found hday =>
      obtain ⟨⟨row, _⟩, hrow, heq⟩ := List.mem_filterMap.1 h
      obtain ⟨number, hnumber, heq⟩ := Option.map_eq_some_iff.1 heq
      cases heq
      obtain ⟨hrow, hinside⟩ := List.mem_filter.1 hrow
      obtain ⟨hplace, hcolor⟩ := mem_rulersAt_iff.1 hrow
      simp only [isRowOf, Bool.and_eq_true] at hinside
      exact ⟨rfl, hday, hplace, ⟨List.mem_of_getElem? hplace, hcolor, hinside.1.1, hinside.1.2, hinside.2,
        groupOf?_eq_some_iff.1 hnumber⟩⟩
  · rintro ⟨rfl, hday, hplace, hline⟩
    have hinside : isRowOf cell.bounds line = true := by
      simp only [isRowOf, hline.below, hline.above, hline.beside, Bool.and_self]
    rw [hday]
    refine List.mem_filterMap.2 ⟨(line, j), List.mem_filter.2 ⟨?_, hinside⟩, ?_⟩
    · exact mem_rulersAt_iff.2 ⟨hplace, hline.color⟩
    · rw [groupOf?_eq_some_iff.2 hline.numbered]
      rfl

theorem rulersAt_sorted (elements : Elements) : (rulersAt elements).Pairwise fun e f => e.2 < f.2 :=
  (pairwise_zipIdx elements.boxes).filter _

theorem groupRowsBeside_sorted (elements : Elements) (cell : Box) (i : Nat) :
    (groupRowsBeside elements cell i).Pairwise fun e f => e.1.2 < f.1.2 := by
  rw [groupRowsBeside]
  split
  · exact .nil
  · rw [List.pairwise_filterMap]
    refine ((rulersAt_sorted elements).filter _).imp fun {e f} hlt row hrow row' hrow' => ?_
    obtain ⟨_, -, rfl⟩ := Option.map_eq_some_iff.1 hrow
    obtain ⟨_, -, rfl⟩ := Option.map_eq_some_iff.1 hrow'
    exact hlt

def groupRowsAt (elements : Elements) (header : Bounds) : List ((Nat × Nat) × Weekday × Nat × Box) :=
  ((rulersAt elements).filter fun e => isDayCell header e.1).flatMap fun e => groupRowsBeside elements e.1 e.2

theorem map_snd_groupRowsAt (elements : Elements) (header : Bounds) :
    (groupRowsAt elements header).map (·.2) = groupRows elements header := by
  rw [groupRows, groupRowsAt, ← map_fst_rulersAt, List.filter_map, List.flatMap_map, List.map_flatMap]
  refine List.flatMap_congr fun e _ => ?_
  rw [groupRowsBeside]
  cases dayOf? elements e.1 with
  | none => rfl
  | some day =>
    dsimp only
    rw [List.filter_map, List.filterMap_map, List.map_filterMap]
    refine List.filterMap_congr fun l _ => ?_
    cases h : groupOf? elements l.1 <;> simp [h]

theorem mem_groupRowsAt_iff {i j : Nat} {day : Weekday} {group : Nat} {line : Box} :
    ((i, j), day, group, line) ∈ groupRowsAt elements header ↔ ∃ cell, elements.boxes[i]? = some cell ∧
      elements.boxes[j]? = some line ∧ DayCell elements header cell day ∧ GroupRow elements cell line group := by
  rw [groupRowsAt, List.mem_flatMap]
  constructor
  · rintro ⟨⟨cell, k⟩, hcell, hline⟩
    obtain ⟨hcell, hindent⟩ := List.mem_filter.1 hcell
    obtain ⟨hplace, hcolor⟩ := mem_rulersAt_iff.1 hcell
    obtain ⟨rfl, hday, hlinePlace, hrow⟩ := mem_groupRowsBeside_iff.1 hline
    exact ⟨cell, hplace, hlinePlace,
      ⟨List.mem_of_getElem? hplace, hcolor, hindent, dayOf?_eq_some_iff.1 hday⟩, hrow⟩
  · rintro ⟨cell, hplace, hlinePlace, hcell, hrow⟩
    exact ⟨(cell, i), List.mem_filter.2 ⟨mem_rulersAt_iff.2 ⟨hplace, hcell.color⟩, hcell.indent⟩,
      mem_groupRowsBeside_iff.2 ⟨rfl, dayOf?_eq_some_iff.2 hcell.names, hlinePlace, hrow⟩⟩

theorem groupRowsAt_sorted (elements : Elements) (header : Bounds) : (groupRowsAt elements header).Pairwise
    fun e f => e.1.1 < f.1.1 ∨ e.1.1 = f.1.1 ∧ e.1.2 < f.1.2 := by
  rw [groupRowsAt, List.pairwise_flatMap]
  constructor
  · rintro ⟨cell, i⟩ -
    refine (groupRowsBeside_sorted elements cell i).imp_of_mem fun {e f} he hf hlt => .inr ⟨?_, hlt⟩
    exact (mem_groupRowsBeside_iff.1 he).1.trans (mem_groupRowsBeside_iff.1 hf).1.symm
  · refine ((rulersAt_sorted elements).filter _).imp fun {e f} hlt row hrow row' hrow' => .inl ?_
    rw [(mem_groupRowsBeside_iff.1 hrow).1, (mem_groupRowsBeside_iff.1 hrow').1]
    exact hlt

def halfMark (line : Box) (half : Half) : Binary64 := (roundHeight (halfHeight line half)).toOption.getD 0

def writesOf (day : Weekday) (group : Nat) (line : Box) : List (Binary64 × Row) :=
  [Half.a, .b].map fun half => (halfMark line half, ⟨group, half, day⟩)

def rowWrites (elements : Elements) (header : Bounds) : List (RowPlace × Binary64 × Row) :=
  (groupRowsAt elements header).flatMap fun ((i, j), day, group, line) =>
    (writesOf day group line).map fun write => (⟨i, j, write.2.half⟩, write)

theorem halfMark_eq_iff {line : Box} {half : Half} (h : ∃ mark, roundHeight (halfHeight line half) = .ok mark)
    (mark : Binary64) : roundHeight (halfHeight line half) = .ok mark ↔ halfMark line half = mark := by
  obtain ⟨found, hfound⟩ := h
  rw [halfMark, hfound, Except.ok.injEq]
  rfl

theorem rowMarks_eq_ok {day : Weekday} {group : Nat} {line : Box}
    (h : ∀ half, ∃ mark, roundHeight (halfHeight line half) = .ok mark) :
    rowMarks day group line = .ok (writesOf day group line) := by
  have hlow := (halfMark_eq_iff (h .a) _).2 rfl
  have hhigh := (halfMark_eq_iff (h .b) _).2 rfl
  simp only [halfHeight] at hlow hhigh
  rw [rowMarks, hlow, hhigh]
  rfl

theorem groupAxis_eq_ofPairs (h : RoundsRows elements header) :
    groupAxis elements header = .ok (Keyed.ofPairs Binary64.same ((rowWrites elements header).map (·.2))) := by
  have hmarks : ∀ row ∈ groupRows elements header,
      rowMarks row.1 row.2.1 row.2.2 = .ok (writesOf row.1 row.2.1 row.2.2) := by
    rintro ⟨day, group, line⟩ hmem
    obtain ⟨cell, hcell, hline⟩ := mem_groupRows_iff.1 hmem
    exact rowMarks_eq_ok (h cell day line group hcell hline)
  have hwrites : ((groupRows elements header).map fun row => writesOf row.1 row.2.1 row.2.2).flatten =
      (rowWrites elements header).map (·.2) := by
    rw [← map_snd_groupRowsAt, List.map_map, rowWrites, List.map_flatMap, List.flatMap_def]
    refine congrArg List.flatten (List.map_congr_left fun row _ => ?_)
    simp [Function.comp_def]
  rw [groupAxis, Outcome.mapM_eq_ok hmarks, ← hwrites]
  rfl

theorem mem_rowWrites_iff (h : RoundsRows elements header) {place : RowPlace} {mark : Binary64} {row : Row} :
    (place, mark, row) ∈ rowWrites elements header ↔ RowWrite elements header place mark row := by
  obtain ⟨i, j, half⟩ := place
  rw [rowWrites, List.mem_flatMap]
  constructor
  · rintro ⟨⟨⟨i', j'⟩, day, group, line⟩, hmem, hwrite⟩
    obtain ⟨write, hwrite, heq⟩ := List.mem_map.1 hwrite
    obtain ⟨half', -, rfl⟩ := List.mem_map.1 hwrite
    simp only [Prod.mk.injEq, RowPlace.mk.injEq] at heq
    obtain ⟨⟨rfl, rfl, rfl⟩, rfl, rfl⟩ := heq
    obtain ⟨cell, hcellPlace, hlinePlace, hcell, hline⟩ := mem_groupRowsAt_iff.1 hmem
    exact ⟨rfl, cell, line, group, hcellPlace, hlinePlace, hcell, hline, rfl,
      (halfMark_eq_iff (h cell day line group hcell hline half') _).2 rfl⟩
  · rintro ⟨hhalf, cell, line, group, hcellPlace, hlinePlace, hcell, hline, hgroup, hmark⟩
    obtain ⟨number, rowHalf, day⟩ := row
    cases hhalf
    cases hgroup
    refine ⟨((i, j), day, group, line), mem_groupRowsAt_iff.2 ⟨cell, hcellPlace, hlinePlace, hcell, hline⟩, ?_⟩
    rw [(halfMark_eq_iff (h cell day line group hcell hline half) mark).1 hmark |>.symm]
    refine List.mem_map.2 ⟨(halfMark line half, ⟨group, half, day⟩), List.mem_map.2 ⟨half, ?_, rfl⟩, rfl⟩
    cases half <;> simp

theorem rowWrites_sorted (elements : Elements) (header : Bounds) :
    (rowWrites elements header).Pairwise fun e f => RowPlace.Later e.1 f.1 := by
  rw [rowWrites, List.pairwise_flatMap]
  constructor
  · rintro ⟨⟨i, j⟩, day, group, line⟩ -
    simpa [writesOf] using RowPlace.Later.half i j
  · refine (groupRowsAt_sorted elements header).imp ?_
    rintro ⟨⟨i, j⟩, day, group, line⟩ ⟨⟨i', j'⟩, day', group', line'⟩ hlater write hwrite write' hwrite'
    obtain ⟨_, -, rfl⟩ := List.mem_map.1 hwrite
    obtain ⟨_, -, rfl⟩ := List.mem_map.1 hwrite'
    rcases hlater with hlt | ⟨heq, hlt⟩
    · exact .cell hlt
    · exact .line heq hlt

/-- Both axes hold all that is written, and under each key what is written last. -/
theorem axes_lastWins (elements : Elements) (header : Bounds) (h : RoundsRows elements header) :
    Keyed.LastWins Binary64.same (timeAxis elements header) (TimeWrite elements header) (· < ·) ∧
      ∃ groups, groupAxis elements header = .ok groups ∧
        Keyed.LastWins Binary64.same groups (RowWrite elements header) RowPlace.Later := by
  constructor
  · rw [timeAxis_eq_ofPairs]
    exact Keyed.lastWins_ofPairs Binary64.isTest_same (fun _ _ _ => mem_timeWrites_iff)
      (timeWrites_sorted elements header) fun _ _ => Nat.lt_asymm
  · exact ⟨_, groupAxis_eq_ofPairs h, Keyed.lastWins_ofPairs Binary64.isTest_same
      (fun _ _ _ => mem_rowWrites_iff h) (rowWrites_sorted elements header) fun _ _ => RowPlace.Later.asymm⟩

/-- A page where the second of two time rulers writes over the first, and the lower half of the second of two group rows
over the upper half of the first. -/
def crowdedPage : Elements where
  texts := [⟨51, 85, "9:30"⟩, ⟨51, 95, "8:00"⟩, ⟨5, 75, "Lundi"⟩, ⟨22, 40, "G1"⟩, ⟨22, 65, "G2"⟩]
  boxes := [⟨50, 90, 10, 10, some rulerColor⟩, ⟨50, 80, 10, 20, some rulerColor⟩,
    ⟨1, 20, 19, 60, some rulerColor⟩, ⟨20, 30, 10, 20, some rulerColor⟩, ⟨20, 60, 10, 20, some rulerColor⟩]

def crowdedHeader : Bounds := ⟨0, 100, 200, 120⟩

theorem crowdedPage_lastWins :
    RoundsRows crowdedPage crowdedHeader ∧
      (Keyed.LastWins Binary64.same (timeAxis crowdedPage crowdedHeader) (TimeWrite crowdedPage crowdedHeader) (· < ·) ∧
        ∃ groups, groupAxis crowdedPage crowdedHeader = .ok groups ∧
          Keyed.LastWins Binary64.same groups (RowWrite crowdedPage crowdedHeader) RowPlace.Later) ∧
      timeAxis crowdedPage crowdedHeader = [(50, "9:30")] ∧
      groupAxis crowdedPage crowdedHeader =
        .ok [(30, ⟨1, .a, .monday⟩), (60, ⟨2, .a, .monday⟩), (90, ⟨2, .b, .monday⟩)] := by
  have hround : ∀ line ∈ crowdedPage.boxes, ∀ half ∈ [Half.a, .b],
      (roundHeight (halfHeight line half)).toOption.isSome = true := by decide +kernel
  have hrounds : RoundsRows crowdedPage crowdedHeader := by
    intro cell day line group hcell hline half
    have hhalf := hround line hline.mem half (by cases half <;> simp)
    cases hmark : roundHeight (halfHeight line half) with
    | ok mark => exact ⟨mark, rfl⟩
    | error fault =>
      rw [hmark] at hhalf
      cases hhalf
  exact ⟨hrounds, axes_lastWins crowdedPage crowdedHeader hrounds, by decide +kernel, by decide +kernel⟩

end WeekGrid.Timetable
