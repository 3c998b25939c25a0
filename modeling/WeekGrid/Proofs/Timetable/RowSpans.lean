import Mathlib.Data.List.Basic
import WeekGrid.Proofs.Binary64.Monotone
import WeekGrid.Proofs.Timetable.Marks

/-!
Which row the group axis gives to a cell that stands in a row. A row has two marks: its lower edge for one
half, and its upper edge raised by half the height for the other. The second lies above the row, where another
may stand: so the axis gives every cell the row that it stands in exactly if no raised edge is inside a row
above, or on the raised edge of another.
-/
namespace WeekGrid.Timetable

open Page (Elements Box Bounds)

structure GridRow where
  day : Weekday
  group : Nat
  line : Box
  deriving DecidableEq

namespace GridRow

def On (elements : Elements) (header : Bounds) (row : GridRow) : Prop :=
  ∃ cell, DayCell elements header cell row.day ∧ GroupRow elements cell row.line row.group

/-- A height lies in a row from the lower edge on, up to below the upper edge. -/
def Spans (row : GridRow) (y : Binary64) : Prop :=
  row.line.bounds.bottom.le y = true ∧ y.lt row.line.bounds.top = true

def entry (row : GridRow) (half : Half) : Row := ⟨row.group, half, row.day⟩

def Marks (row : GridRow) (half : Half) (mark : Binary64) : Prop := roundHeight (halfHeight row.line half) = .ok mark

end GridRow

/-- Rounding leaves a height as it is. -/
def Settled (y : Binary64) : Prop := ∃ rounded, roundHeight y = .ok rounded ∧ rounded.same y = true

/-- The rows of a page have edges that rounding leaves as they are, the upper one above the lower, and no two
overlap. -/
structure RowsApart (elements : Elements) (header : Bounds) : Prop where
  settled : ∀ row : GridRow, row.On elements header → Settled row.line.bounds.bottom ∧ Settled row.line.bounds.top
  tall : ∀ row : GridRow, row.On elements header → row.line.bounds.bottom.lt row.line.bounds.top = true
  apart : ∀ row other : GridRow, row.On elements header → other.On elements header → row ≠ other →
    row.line.bounds.top.le other.line.bounds.bottom = true ∨ other.line.bounds.top.le row.line.bounds.bottom = true

/-- The axis gives the cells in a row that row, and every half of a row has its mark. -/
structure RowsKept (elements : Elements) (header : Bounds) (groups : GroupAxis) : Prop where
  cells : ∀ row : GridRow, row.On elements header → ∀ y, Settled y → row.Spans y → ∀ height found,
    roundHeight y = .ok height → Keyed.get? Binary64.same height groups = some found →
    found.group = (row.group : Int) ∧ found.day = row.day
  halves : ∀ row : GridRow, row.On elements header → ∀ half mark, row.Marks half mark →
    Keyed.get? Binary64.same mark groups = some (row.entry half)

/-- The raised upper edges are out of the way. One that is inside a row above is that of a row with the same
number and day, and not at the lower edge; two at one height are those of rows with the same number and day. -/
structure MarksClear (elements : Elements) (header : Bounds) : Prop where
  above : ∀ lower upper : GridRow, lower.On elements header → upper.On elements header →
    lower.line.bounds.top.le upper.line.bounds.bottom = true → ∀ mark y, lower.Marks .b mark → Settled y →
    upper.Spans y → mark.same y = true →
    lower.group = upper.group ∧ lower.day = upper.day ∧ upper.line.bounds.bottom.lt y = true
  raised : ∀ row other : GridRow, row.On elements header → other.On elements header → ∀ mark mark',
    row.Marks .b mark → other.Marks .b mark' → mark.same mark' = true →
    row.group = other.group ∧ row.day = other.day

variable {elements : Elements} {header : Bounds}

theorem powTen_heightPlaces : Binary64.powTen heightPlaces =
    .ok (.finite false (10000 * Binary64.quantaPerUnit) (by decide +kernel)) := by
  decide +kernel

theorem level_roundHeight {y height : Binary64} (h : roundHeight y = .ok height) : y.isFinite = true ∧
    ∃ a, y.level = some a ∧ height.level = some (Binary64.roundedLevel (10000 * Binary64.quantaPerUnit) a) :=
  Binary64.level_roundPlaces powTen_heightPlaces (by decide +kernel) h

theorem roundHeight_le {y z height height' : Binary64} (hy : roundHeight y = .ok height)
    (hz : roundHeight z = .ok height') (h : y.le z = true) : height.le height' = true :=
  Binary64.roundPlaces_le powTen_heightPlaces (by decide +kernel) hy hz h

theorem rowMark_iff {mark : Binary64} {found : Row} : RowMark elements header mark found ↔
    ∃ (row : GridRow) (half : Half), row.On elements header ∧ row.Marks half mark ∧ found = row.entry half := by
  constructor
  · rintro ⟨cell, line, group, hcell, hline, hgroup, hmark⟩
    obtain ⟨number, half, day⟩ := found
    cases hgroup
    exact ⟨⟨day, group, line⟩, half, ⟨cell, hcell, hline⟩, hmark, rfl⟩
  · rintro ⟨⟨day, group, line⟩, half, ⟨cell, hcell, hline⟩, hmark, rfl⟩
    exact ⟨cell, line, group, hcell, hline, rfl, hmark⟩

theorem exists_marks_of_get? {groups : GroupAxis} (h : groupAxis elements header = .ok groups) {height : Binary64}
    {found : Row} (hfound : Keyed.get? Binary64.same height groups = some found) :
    ∃ (row : GridRow) (half : Half) (mark : Binary64), row.On elements header ∧ row.Marks half mark ∧
      mark.same height = true ∧ found = row.entry half := by
  obtain ⟨marks, rfl, hmarks⟩ := groupAxis_eq_ok h
  obtain ⟨mark, hmem, hsame⟩ := Keyed.mem_of_get?_ofPairs Binary64.isTest_same hfound
  obtain ⟨row, half, hon, hmark, rfl⟩ := rowMark_iff.1 ((hmarks mark found).1 hmem)
  exact ⟨row, half, mark, hon, hmark, hsame, rfl⟩

theorem GridRow.Marks.unique {row : GridRow} {half : Half} {mark mark' : Binary64} (h : row.Marks half mark)
    (h' : row.Marks half mark') : mark = mark' := by
  rw [Marks] at h h'
  exact Except.ok.inj (h.symm.trans h')

theorem same_self_of_marks {row : GridRow} {half : Half} {mark : Binary64} (h : row.Marks half mark) :
    mark.same mark = true := by
  obtain ⟨-, a, -, ha⟩ := level_roundHeight h
  exact Binary64.same_iff.2 ⟨_, ha, ha⟩

theorem exists_get?_of_marks {groups : GroupAxis} (h : groupAxis elements header = .ok groups) {row : GridRow}
    (hon : row.On elements header) {half : Half} {mark : Binary64} (hmark : row.Marks half mark) :
    ∃ found, Keyed.get? Binary64.same mark groups = some found := by
  obtain ⟨marks, rfl, hmarks⟩ := groupAxis_eq_ok h
  have hmem := (hmarks mark (row.entry half)).2 (rowMark_iff.2 ⟨row, half, hon, hmark, rfl⟩)
  cases hfound : Keyed.get? Binary64.same mark (Keyed.ofPairs Binary64.same marks) with
  | some found => exact ⟨found, rfl⟩
  | none =>
    have hself := same_self_of_marks hmark
    rw [(Keyed.get?_ofPairs_eq_none_iff Binary64.isTest_same).1 hfound mark _ hmem] at hself
    cases hself

theorem Settled.same_of_roundHeight {y height : Binary64} (hy : Settled y) (h : roundHeight y = .ok height) :
    height.same y = true := by
  obtain ⟨rounded, hrounded, hsame⟩ := hy
  cases h.symm.trans hrounded
  exact hsame

theorem GridRow.spans_congr {row : GridRow} {y z : Binary64} (h : y.same z = true) : row.Spans y ↔ row.Spans z := by
  rw [Spans, Spans, Binary64.le_congr_right h, Binary64.lt_congr_left h]

namespace RowsApart

variable (hrows : RowsApart elements header)
include hrows

theorem spans_bottom {row : GridRow} (hrow : row.On elements header) : row.Spans row.line.bounds.bottom :=
  ⟨Binary64.le_self_of_lt (hrows.tall row hrow), hrows.tall row hrow⟩

theorem eq_of_spans_bottom {row other : GridRow} (hrow : row.On elements header) (hother : other.On elements header)
    (h : row.Spans other.line.bounds.bottom) : other = row := by
  by_contra hne
  rcases hrows.apart row other hrow hother (Ne.symm hne) with hle | hle
  · exact absurd (Binary64.lt_of_lt_of_le h.2 hle) (Binary64.lt_irrefl _)
  · have hlt := Binary64.lt_of_le_of_lt h.1 (hrows.tall other hother)
    exact absurd (Binary64.lt_of_lt_of_le hlt hle) (Binary64.lt_irrefl _)

theorem same_bottom_of_marks {row : GridRow} (hrow : row.On elements header) {mark : Binary64}
    (h : row.Marks .a mark) : mark.same row.line.bounds.bottom = true :=
  (hrows.settled row hrow).1.same_of_roundHeight h

/-- The raised upper edge is not below the upper edge, and rounding does not bring it there. -/
theorem top_le_of_marks {row : GridRow} (hrow : row.On elements header) {mark : Binary64} (h : row.Marks .b mark) :
    row.line.bounds.top.le mark = true := by
  obtain ⟨top, htop, hsame⟩ := (hrows.settled row hrow).2
  obtain ⟨htopFinite, -⟩ := level_roundHeight htop
  obtain ⟨hraised, -⟩ := level_roundHeight h
  obtain ⟨-, hhalf⟩ := Binary64.isFinite_of_add hraised
  obtain ⟨-, hheight⟩ := Binary64.isFinite_of_add htopFinite
  have hpos := Binary64.pos_of_lt_add htopFinite (hrows.tall row hrow)
  have hle := Binary64.le_add htopFinite hhalf (Binary64.le_half hheight hpos)
  rw [← Binary64.le_congr_left hsame]
  exact roundHeight_le htop h hle

theorem below_of_marks {row other : GridRow} (hrow : row.On elements header) (hother : other.On elements header)
    {mark : Binary64} (hmark : other.Marks .b mark) (h : row.Spans mark) :
    other.line.bounds.top.le row.line.bounds.bottom = true := by
  have hlt := Binary64.lt_of_le_of_lt (hrows.top_le_of_marks hother hmark) h.2
  rcases eq_or_ne row other with rfl | hne
  · exact absurd hlt (Binary64.lt_irrefl _)
  · rcases hrows.apart row other hrow hother hne with hle | hle
    · have hcycle := Binary64.lt_of_lt_of_le hlt hle
      exact absurd hcycle (Bool.eq_false_iff.1 (Binary64.not_lt_of_lt (hrows.tall other hother)))
    · exact hle

theorem not_same_bottom (hclear : MarksClear elements header) {row other : GridRow} (hrow : row.On elements header)
    (hother : other.On elements header) {mark : Binary64} (hmark : other.Marks .b mark) :
    mark.same row.line.bounds.bottom = false := by
  refine Bool.eq_false_iff.2 fun hsame => ?_
  have hspan := hrows.spans_bottom hrow
  have hbelow := hrows.below_of_marks hrow hother hmark ((GridRow.spans_congr hsame).2 hspan)
  obtain ⟨-, -, hlt⟩ := hclear.above other row hother hrow hbelow mark _ hmark (hrows.settled row hrow).1 hspan hsame
  exact Binary64.lt_irrefl _ hlt

theorem kept_of_clear {groups : GroupAxis} (h : groupAxis elements header = .ok groups)
    (hclear : MarksClear elements header) : RowsKept elements header groups := by
  constructor
  · intro row hrow y hy hspan height found hheight hfound
    obtain ⟨other, half, mark, hother, hmark, hsame, rfl⟩ := exists_marks_of_get? h hfound
    have hplace := Binary64.isTest_same.trans hsame (hy.same_of_roundHeight hheight)
    have hmarkSpan := (GridRow.spans_congr hplace).2 hspan
    cases half with
    | a =>
      have hbottom := hrows.same_bottom_of_marks hother hmark
      obtain rfl := hrows.eq_of_spans_bottom hrow hother ((GridRow.spans_congr hbottom).1 hmarkSpan)
      exact ⟨rfl, rfl⟩
    | b =>
      have hbelow := hrows.below_of_marks hrow hother hmark hmarkSpan
      obtain ⟨hgroup, hday, -⟩ := hclear.above other row hother hrow hbelow mark y hmark hy hspan hplace
      exact ⟨congrArg _ hgroup, hday⟩
  · intro row hrow half mark hmark
    obtain ⟨found, hfound⟩ := exists_get?_of_marks h hrow hmark
    obtain ⟨other, half', mark', hother, hmark', hsame, rfl⟩ := exists_marks_of_get? h hfound
    rw [hfound]
    -- the last row with this mark has written its own half: the two marks at one height are of one kind
    cases half with
    | a =>
      have hplace := Binary64.isTest_same.trans hsame (hrows.same_bottom_of_marks hrow hmark)
      cases half' with
      | a =>
        have hbottom := Binary64.isTest_same.trans
          (Binary64.isTest_same.symm (hrows.same_bottom_of_marks hother hmark')) hplace
        obtain rfl := hrows.eq_of_spans_bottom hrow hother
          ((GridRow.spans_congr hbottom).2 (hrows.spans_bottom hrow))
        rfl
      | b =>
        rw [hrows.not_same_bottom hclear hrow hother hmark'] at hplace
        cases hplace
    | b =>
      cases half' with
      | a =>
        have hplace := Binary64.isTest_same.trans (Binary64.isTest_same.symm hsame)
          (hrows.same_bottom_of_marks hother hmark')
        rw [hrows.not_same_bottom hclear hother hrow hmark] at hplace
        cases hplace
      | b =>
        obtain ⟨hgroup, hday⟩ := hclear.raised other row hother hrow mark' mark hmark' hmark hsame
        simp only [GridRow.entry, hgroup, hday]

theorem clear_of_kept {groups : GroupAxis} (hkept : RowsKept elements header groups) :
    MarksClear elements header := by
  constructor
  · intro lower upper hlower hupper hbelow mark y hmark hy hspan hsame
    obtain ⟨height, hheight, hplace⟩ := hy
    have hfound : Keyed.get? Binary64.same height groups = some (lower.entry .b) := by
      rw [Keyed.get?_congr Binary64.isTest_same (Binary64.isTest_same.trans hplace (Binary64.isTest_same.symm hsame))]
      exact hkept.halves lower hlower .b mark hmark
    obtain ⟨hgroup, hday⟩ := hkept.cells upper hupper y ⟨height, hheight, hplace⟩ hspan height _ hheight hfound
    refine ⟨Int.ofNat.inj hgroup, hday, ?_⟩
    rcases Binary64.lt_or_same_of_le hspan.1 with hlt | hbottom
    · exact hlt
    · obtain ⟨low, hlow, hsettled⟩ := (hrows.settled upper hupper).1
      have hown := hkept.halves upper hupper .a low hlow
      have hcollide : low.same height = true := Binary64.isTest_same.trans hsettled
        (Binary64.isTest_same.trans hbottom (Binary64.isTest_same.symm hplace))
      rw [Keyed.get?_congr Binary64.isTest_same hcollide, hfound] at hown
      cases congrArg Row.half (Option.some.inj hown)
  · intro row other hrow hother mark mark' hmark hmark' hsame
    have hown := hkept.halves row hrow .b mark hmark
    rw [Keyed.get?_congr Binary64.isTest_same hsame, hkept.halves other hother .b mark' hmark'] at hown
    have hentry := Option.some.inj hown
    exact ⟨Int.ofNat.inj (congrArg Row.group hentry).symm, (congrArg Row.day hentry).symm⟩

end RowsApart

/-- The axis gives every cell its row, and every half of a row its mark, exactly if the raised edges are out of
the way. -/
theorem rowsKept_iff (hrows : RowsApart elements header) {groups : GroupAxis}
    (h : groupAxis elements header = .ok groups) : RowsKept elements header groups ↔ MarksClear elements header :=
  ⟨hrows.clear_of_kept, hrows.kept_of_clear h⟩

def GridRow.listed (row : GridRow) : Weekday × Nat × Box := (row.day, row.group, row.line)

theorem on_iff_of_groupRows {rows : List GridRow} (h : groupRows elements header = rows.map GridRow.listed)
    (row : GridRow) : row.On elements header ↔ row ∈ rows := by
  have hlisted : row.On elements header ↔ row.listed ∈ groupRows elements header := mem_groupRows_iff.symm
  rw [hlisted, h, List.mem_map]
  constructor
  · rintro ⟨other, hother, heq⟩
    cases row
    cases other
    cases heq
    exact hother
  · exact fun hrow => ⟨row, hrow, rfl⟩

theorem settled_iff {y : Binary64} : Settled y ↔ (roundHeight y).toOption.any (·.same y) = true := by
  unfold Settled
  cases roundHeight y with
  | error fault => simp [Except.toOption]
  | ok rounded => simp [Except.toOption]

instance (y : Binary64) : Decidable (Settled y) := decidable_of_iff _ settled_iff.symm

instance (row : GridRow) (y : Binary64) : Decidable (row.Spans y) := inferInstanceAs (Decidable (_ ∧ _))

theorem rowsApart_of_groupRows {rows : List GridRow} (h : groupRows elements header = rows.map GridRow.listed)
    (hsettled : ∀ row ∈ rows, Settled row.line.bounds.bottom ∧ Settled row.line.bounds.top)
    (htall : ∀ row ∈ rows, row.line.bounds.bottom.lt row.line.bounds.top = true)
    (hapart : ∀ row ∈ rows, ∀ other ∈ rows, row ≠ other →
      row.line.bounds.top.le other.line.bounds.bottom = true ∨
        other.line.bounds.top.le row.line.bounds.bottom = true) : RowsApart elements header := by
  have hmem : ∀ row : GridRow, row.On elements header → row ∈ rows := fun row => (on_iff_of_groupRows h row).1
  exact ⟨fun row hrow => hsettled row (hmem row hrow), fun row hrow => htall row (hmem row hrow),
    fun row other hrow hother => hapart row (hmem row hrow) other (hmem other hother)⟩

def pageHeader : Bounds := ⟨0, 500, 800, 520⟩

def mondayRow (group : Nat) (bottom height : Binary64) : GridRow :=
  ⟨.monday, group, ⟨50, bottom, 50, height, some rulerColor⟩⟩

def mondayPage (rows : List GridRow) : Elements where
  texts := ⟨5, 390, "LUNDI"⟩ ::
    rows.map fun row => ⟨55, row.line.y + row.line.height / 2, "G" ++ toString row.group⟩
  boxes := ⟨1, 300, 49, 180, some rulerColor⟩ :: rows.map (·.line)

def spacedRows : List GridRow := [mondayRow 1 440 40, mondayRow 2 340 30]

theorem spacedRows_kept : RowsApart (mondayPage spacedRows) pageHeader ∧
    ∃ groups, groupAxis (mondayPage spacedRows) pageHeader = .ok groups ∧
      RowsKept (mondayPage spacedRows) pageHeader groups := by
  have hrows : groupRows (mondayPage spacedRows) pageHeader = spacedRows.map GridRow.listed := by decide +kernel
  have hmem := fun row => (on_iff_of_groupRows hrows row).1
  have hapart : RowsApart (mondayPage spacedRows) pageHeader :=
    rowsApart_of_groupRows hrows (by decide +kernel) (by decide +kernel) (by decide +kernel)
  have hfirst : (mondayRow 1 440 40).Marks .b 500 := by
    rw [GridRow.Marks]
    decide +kernel
  have hsecond : (mondayRow 2 340 30).Marks .b 385 := by
    rw [GridRow.Marks]
    decide +kernel
  have hmark : ∀ row ∈ spacedRows, ∀ mark, row.Marks .b mark →
      row.group = 1 ∧ row.day = .monday ∧ mark = 500 ∨ row.group = 2 ∧ row.day = .monday ∧ mark = 385 := by
    intro row hrow mark hmark
    rcases List.mem_pair.1 hrow with rfl | rfl
    · exact .inl ⟨rfl, rfl, hmark.unique hfirst⟩
    · exact .inr ⟨rfl, rfl, hmark.unique hsecond⟩
  have hclear : MarksClear (mondayPage spacedRows) pageHeader := by
    constructor
    · intro lower upper hlower hupper _ mark y hraised _ hspan hsame
      have hinside := (GridRow.spans_congr hsame).2 hspan
      have hfree : ∀ row ∈ spacedRows, ¬ row.Spans 500 ∧ ¬ row.Spans 385 := by decide +kernel
      rcases hmark lower (hmem lower hlower) mark hraised with ⟨-, -, heq⟩ | ⟨-, -, heq⟩
      · rw [heq] at hinside
        exact absurd hinside (hfree upper (hmem upper hupper)).1
      · rw [heq] at hinside
        exact absurd hinside (hfree upper (hmem upper hupper)).2
    · intro row other hrow hother mark mark' hraised hraised' hsame
      have hdiffer : (500 : Binary64).same 385 = false := by decide +kernel
      rcases hmark row (hmem row hrow) mark hraised with ⟨hgroup, hday, heq⟩ | ⟨hgroup, hday, heq⟩ <;>
        rcases hmark other (hmem other hother) mark' hraised' with ⟨hgroup', hday', heq'⟩ | ⟨hgroup', hday', heq'⟩
      · exact ⟨hgroup.trans hgroup'.symm, hday.trans hday'.symm⟩
      · rw [heq, heq', hdiffer] at hsame
        cases hsame
      · rw [heq, heq', Binary64.same_comm, hdiffer] at hsame
        cases hsame
      · exact ⟨hgroup.trans hgroup'.symm, hday.trans hday'.symm⟩
  cases h : groupAxis (mondayPage spacedRows) pageHeader with
  | error fault =>
    have hok : (groupAxis (mondayPage spacedRows) pageHeader).toOption.isSome = true := by decide +kernel
    rw [h] at hok
    cases hok
  | ok groups => exact ⟨hapart, groups, rfl, (rowsKept_iff hapart h).2 hclear⟩

/-- Two rows of one height, the one on top of the other. -/
def stackedRows : List GridRow := [mondayRow 1 420 60, mondayRow 2 360 60]

theorem stackedRows_notKept : RowsApart (mondayPage stackedRows) pageHeader ∧
    ∃ groups, groupAxis (mondayPage stackedRows) pageHeader = .ok groups ∧
      Keyed.get? Binary64.same 450 groups = some ⟨2, .b, .monday⟩ ∧
      ¬ RowsKept (mondayPage stackedRows) pageHeader groups := by
  have hrows : groupRows (mondayPage stackedRows) pageHeader = stackedRows.map GridRow.listed := by decide +kernel
  have hapart : RowsApart (mondayPage stackedRows) pageHeader :=
    rowsApart_of_groupRows hrows (by decide +kernel) (by decide +kernel) (by decide +kernel)
  have hfound : (groupAxis (mondayPage stackedRows) pageHeader).toOption.map (Keyed.get? Binary64.same 450) =
      some (some ⟨2, .b, .monday⟩) := by decide +kernel
  refine ⟨hapart, ?_⟩
  cases h : groupAxis (mondayPage stackedRows) pageHeader with
  | error fault =>
    rw [h] at hfound
    cases hfound
  | ok groups =>
    rw [h] at hfound
    have hget := Option.some.inj hfound
    refine ⟨groups, rfl, hget, fun hkept => ?_⟩
    have hupper : (mondayRow 1 420 60).On (mondayPage stackedRows) pageHeader :=
      (on_iff_of_groupRows hrows _).2 List.mem_cons_self
    obtain ⟨hgroup, -⟩ := hkept.cells _ hupper 450 (by decide +kernel) (by decide +kernel) 450 _ (by decide +kernel) hget
    cases hgroup

end WeekGrid.Timetable
