import WeekGrid.Proofs.Civil.Calendar
import WeekGrid.Proofs.Page.Breakdown
import WeekGrid.Proofs.Timetable.Courses
import WeekGrid.Proofs.Timetable.HeaderText

/-!
How the reading of a document can fail. The rule is that it ends in a refusal. The exceptions are all here:
numbers for which no double has room, or without a whole part; a number in the header that is too long; the
Saturday after the last day of the calendar; and the few faults of reading content streams. Where none of them
is met, the reading comes to a timetable or to a refusal.
-/
namespace WeekGrid

def Refusal.isOfPage : Refusal → Bool
  | .documentOpen .. => false
  | .missingFirstPage => false
  | _ => true

/-- A failure is due if it is a refusal of the page, or a fault of the kind that is due. -/
def Failure.IsDue (due : Fault → Prop) : Failure → Prop
  | .refused refusal => refusal.isOfPage = true
  | .faulted fault => due fault

namespace Timetable

open Binary64 (HasNoWhole)
open Outcome (FailsOnly failsOnly_ok failsOnly_error failsOnly_bind failsOnly_mapError failsOnly_mapM)
open Page (Elements Box Bounds TextPiece Library Resources)

/-- What breaks off the reading of a timetable: a number in the text of the header, both dates of which exist,
that is too long; the height of a group row or of a cell that is not finite when it is scaled for rounding; or a
Saturday in the week in which the calendar ends. -/
inductive BreaksReading (elements : Elements) : Fault → Prop where
  | longNumber {box : Box} {text : TextPiece} {rest : List TextPiece} {parts : HeaderText}
      (hbox : elements.boxes.find? (fun box => box.color == some headerColor) = some box)
      (htexts : Page.textsWithin elements.texts box.bounds = text :: rest)
      (hparts : HeaderText.find? text.text.toList = some parts)
      (hstart : (Civil.readSlashed? parts.start).isSome) (hfinish : (Civil.readSlashed? parts.finish).isSome)
      (hlong : Text.digitLimit < parts.week.length ∨ Text.digitLimit < parts.weekInYear.length) :
      BreaksReading elements .tooManyDigits
  | rowHeight {box cell line : Box} {header : Header} {day : Weekday} {group : Nat} {fault : Fault} (half : Half)
      (hheader : HasHeader elements box header) (hcell : DayCell elements box.bounds cell day)
      (hline : GroupRow elements cell line group) (h : HasNoWhole (halfHeight line half * 10000) fault) :
      BreaksReading elements fault
  | cellHeight {cell : Box} {fault : Fault} (hcell : cell ∈ lessonCells elements.boxes)
      (h : HasNoWhole (cell.y * 10000) fault) : BreaksReading elements fault
  | saturday {box cell line : Box} {header : Header} {group : Nat} (hheader : HasHeader elements box header)
      (hcell : DayCell elements box.bounds cell .saturday) (hline : GroupRow elements cell line group)
      (hlate : Date.lastMonday.dayNumber ≤ header.start.date.dayNumber) :
      BreaksReading elements .yearOutOfRange

theorem HeaderText.failsOnly_weekNumber {digits : List Char} (hdigits : digits ≠ [] ∧ digits.all Text.isDigit) :
    FailsOnly (weekNumber digits) fun failure =>
      failure = .faulted .tooManyDigits ∧ Text.digitLimit < digits.length := by
  by_cases hlength : digits.length ≤ Text.digitLimit
  · rw [weekNumber_eq_ok hdigits hlength]
    exact failsOnly_ok _
  · rw [weekNumber, Text.readNatural?, if_neg fun h => hlength h.2.2]
    exact failsOnly_error ⟨rfl, Nat.lt_of_not_le hlength⟩

theorem failsOnly_readHeader (elements : Elements) :
    FailsOnly (readHeader elements) (Failure.IsDue (BreaksReading elements)) := by
  unfold readHeader
  split
  · exact failsOnly_error rfl
  · next box hbox =>
    split
    · exact failsOnly_error rfl
    · next text rest htexts =>
      refine failsOnly_bind ?_ fun _ _ => failsOnly_ok _
      unfold HeaderText.read
      split
      · exact failsOnly_error rfl
      · next parts hparts =>
        obtain ⟨_, ⟨hshaped, -⟩, -⟩ := HeaderText.find?_eq_some_iff.1 hparts
        split
        · next _ _ start finish hstart hfinish =>
          have hlong : Text.digitLimit < parts.week.length ∨ Text.digitLimit < parts.weekInYear.length →
              BreaksReading elements .tooManyDigits :=
            .longNumber hbox htexts hparts (by rw [hstart]; rfl) (by rw [hfinish]; rfl)
          refine failsOnly_bind (fun failure h => ?_) fun _ _ =>
            failsOnly_bind (fun failure h => ?_) fun _ _ => failsOnly_ok _
          · obtain ⟨rfl, hlength⟩ := HeaderText.failsOnly_weekNumber hshaped.week failure h
            exact hlong (.inl hlength)
          · obtain ⟨rfl, hlength⟩ := HeaderText.failsOnly_weekNumber hshaped.weekInYear failure h
            exact hlong (.inr hlength)
        · exact failsOnly_error rfl

theorem failsOnly_roundHeight (y : Binary64) : FailsOnly (roundHeight y) (HasNoWhole (y * 10000)) :=
  fun _ => (Binary64.roundPlaces_eq_error_iff (by decide +kernel) (by decide +kernel)).1

theorem failsOnly_groupAxis {elements : Elements} {box : Box} {header : Header}
    (hheader : HasHeader elements box header) :
    FailsOnly (groupAxis elements box.bounds) (BreaksReading elements) := by
  refine failsOnly_bind (failsOnly_mapM ?_) fun _ _ => failsOnly_ok _
  rintro ⟨day, group, line⟩ hmem
  obtain ⟨cell, hcell, hrow⟩ := mem_groupRows_iff.1 hmem
  have hheight : ∀ half, FailsOnly (roundHeight (halfHeight line half)) (BreaksReading elements) :=
    fun half fault h => .rowHeight half hheader hcell hrow (failsOnly_roundHeight _ fault h)
  exact failsOnly_bind (hheight .a) fun _ _ => failsOnly_bind (hheight .b) fun _ _ => failsOnly_ok _

theorem failsOnly_placeOf? (times : TimeAxis) (groups : GroupAxis) (bounds : Bounds) :
    FailsOnly (placeOf? times groups bounds) (HasNoWhole (bounds.bottom * 10000)) :=
  failsOnly_bind (failsOnly_roundHeight _) fun _ _ => failsOnly_ok _

/-- A time is missing from a day only on the Saturday after the calendar ends. -/
theorem failsOnly_lessonTime (label : String) (base : DateTime) (day : Weekday) :
    FailsOnly (lessonTime label base day) fun fault =>
      fault = .yearOutOfRange ∧ day = .saturday ∧ Date.lastMonday.dayNumber ≤ base.date.dayNumber := by
  intro fault h
  obtain ⟨-, hnone⟩ | ⟨_, -, ⟨_, -, hsome⟩ | ⟨hdate, herror⟩⟩ := lessonTime_cases label base day
  · rw [h] at hnone
    cases hnone
  · rw [h] at hsome
    cases hsome
  · rw [h] at herror
    cases herror
    obtain ⟨hlate, hlast⟩ := Date.last_of_ofIsoWeek?_eq_none day.iso_range.1 day.iso_range.2 hdate
    have hsaturday : day = .saturday := by
      cases day <;> first | rfl | exact absurd hlast (by decide)
    exact ⟨rfl, hsaturday, hlate⟩

theorem UsesTable.failsOnly {announce : CourseTable → Except Failure (Option Session)} (h : UsesTable announce)
    (courses : CourseTable) :
    FailsOnly (announce courses) fun failure => ∃ code, failure = .refused (.unknownCourseCode code) := by
  cases h with
  | unfit h =>
    rw [h]
    exact failsOnly_ok _
  | required code named _ h =>
    rw [h, CourseTable.name_eq]
    cases courses.name? code with
    | none => exact failsOnly_error ⟨code, rfl⟩
    | some courseName => exact failsOnly_ok _
  | optional description teacher room code _ h =>
    rw [h]
    exact failsOnly_ok _

section Lessons

variable {elements : Elements} {box : Box} {header : Header} {groups : GroupAxis}

theorem failsOnly_lessonOf? {cell : Box} {kind : CellKind} (hheader : HasHeader elements box header)
    (haxis : groupAxis elements box.bounds = .ok groups) (hcell : cell ∈ lessonCells elements.boxes)
    (courses : CourseTable) :
    FailsOnly (lessonOf? elements header.start (timeAxis elements box.bounds) groups courses kind cell.bounds)
      (Failure.IsDue (BreaksReading elements)) := by
  refine failsOnly_bind ?_ fun place hplace => ?_
  · exact failsOnly_mapError fun fault h => .cellHeight hcell (failsOnly_placeOf? _ _ _ fault h)
  · cases place with
    | none => exact failsOnly_ok none
    | some place =>
      obtain ⟨row, startLabel, finishLabel⟩ := place
      obtain ⟨⟨_, _, ⟨dayCell, line, group, hday, hline, -⟩, -⟩, -⟩ :=
        placeOf?_eq_some haxis (Outcome.mapError_eq_ok_iff.1 hplace)
      have htime : ∀ label, FailsOnly ((lessonTime label header.start row.day).mapError Failure.faulted)
          (Failure.IsDue (BreaksReading elements)) := by
        refine fun label => failsOnly_mapError fun fault h => ?_
        obtain ⟨rfl, hsaturday, hlate⟩ := failsOnly_lessonTime _ _ _ fault h
        exact .saturday hheader (hsaturday ▸ hday) hline hlate
      refine failsOnly_bind (htime startLabel) fun start? _ =>
        failsOnly_bind (htime finishLabel) fun finish? _ => ?_
      split
      · refine failsOnly_bind (fun failure h => ?_) fun _ _ => failsOnly_ok _
        have huses := session?_usesTable groups kind cell.bounds row (hasWord_cellLines elements kind cell.bounds)
        obtain ⟨code, rfl⟩ := huses.failsOnly courses failure h
        rfl
      · exact failsOnly_ok none

theorem failsOnly_lessonsOf {boxes : List Box} (hheader : HasHeader elements box header)
    (haxis : groupAxis elements box.bounds = .ok groups) (hboxes : boxes ⊆ elements.boxes)
    (courses : CourseTable) :
    FailsOnly (lessonsOf elements header.start (timeAxis elements box.bounds) groups courses boxes)
      (Failure.IsDue (BreaksReading elements)) := by
  induction boxes with
  | nil => exact failsOnly_ok []
  | cons cell boxes ih =>
    have hrest := ih fun _ hmem => hboxes (List.mem_cons_of_mem cell hmem)
    rw [lessonsOf]
    split
    · exact hrest
    · next kind hkind =>
      have hcell : cell ∈ lessonCells elements.boxes :=
        List.mem_filter.2 ⟨hboxes List.mem_cons_self, by rw [hkind]; rfl⟩
      exact failsOnly_bind (failsOnly_lessonOf? hheader haxis hcell courses) fun _ _ =>
        failsOnly_bind hrest fun _ _ => failsOnly_ok _

theorem failsOnly_readTimetable (elements : Elements) (courses : CourseTable) :
    FailsOnly (readTimetable elements courses) (Failure.IsDue (BreaksReading elements)) := by
  refine failsOnly_bind (failsOnly_readHeader elements) fun placed hplaced => ?_
  obtain ⟨box, hheader, hbounds⟩ := readHeader_eq_ok hplaced
  rw [hbounds]
  refine failsOnly_bind (failsOnly_mapError (failsOnly_groupAxis hheader)) fun groups haxis => ?_
  have haxis := Outcome.mapError_eq_ok_iff.1 haxis
  exact failsOnly_bind (failsOnly_lessonsOf hheader haxis (List.Subset.refl _) courses) fun _ _ =>
    failsOnly_ok _

end Lessons

/-- The timetable of a page, from its content streams. -/
def timetableOf (library : Library) (streams : List Text.Bytes) (resources : Resources)
    (courses : CourseTable) : Except Failure Schedule := do
  readTimetable (← library.interpret (.ofStreams streams) resources) courses

/-- A page comes to a timetable or to a refusal, unless the scan of its content or of some form breaks off, or
the reading of what it shows. -/
theorem timetableOf_outcome {library : Library}
    (hforms : ∀ form ∈ library.streams, ∃ streams, form.content = .ofStreams streams)
    (streams : List Text.Bytes) (resources : Resources) (courses : CourseTable) :
    (∃ timetable, timetableOf library streams resources courses = .ok timetable) ∨
    (∃ refusal, timetableOf library streams resources courses = .error (.refused refusal) ∧
      refusal.isOfPage = true) ∨
    ∃ fault, timetableOf library streams resources courses = .error (.faulted fault) ∧
      ((∃ content ∈ .ofStreams streams :: library.streams.map Page.FormStream.content,
          Page.BreaksScan content fault) ∨
        ∃ elements, library.interpret (.ofStreams streams) resources = .ok elements ∧
          BreaksReading elements fault) := by
  have hdue : FailsOnly (timetableOf library streams resources courses) (Failure.IsDue fun fault =>
      (∃ content ∈ .ofStreams streams :: library.streams.map Page.FormStream.content,
        Page.BreaksScan content fault) ∨
      ∃ elements, library.interpret (.ofStreams streams) resources = .ok elements ∧
        BreaksReading elements fault) := by
    refine failsOnly_bind (fun failure h => ?_) fun elements helements failure h => ?_
    · obtain ⟨content, hmem, hscript⟩ := Library.exists_script_eq_error h
      obtain ⟨read, rfl⟩ : ∃ read, content = .ofStreams read := by
        rcases List.mem_cons.1 hmem with rfl | hstream
        · exact ⟨streams, rfl⟩
        · obtain ⟨form, hform, rfl⟩ := List.mem_map.1 hstream
          exact hforms form hform
      obtain ⟨reason, rfl⟩ | ⟨fault, rfl, hbreaks⟩ := Page.failsOnly_script read failure hscript
      · rfl
      · exact .inl ⟨_, hmem, hbreaks⟩
    · have hread := failsOnly_readTimetable elements courses failure h
      cases failure with
      | refused refusal => exact hread
      | faulted fault => exact .inr ⟨elements, helements, hread⟩
  cases h : timetableOf library streams resources courses with
  | ok timetable => exact .inl ⟨timetable, rfl⟩
  | error failure =>
    have hdue := hdue failure h
    cases failure with
    | refused refusal => exact .inr (.inl ⟨refusal, rfl, hdue⟩)
    | faulted fault => exact .inr (.inr ⟨fault, rfl, hdue⟩)

/-- A fill colour whose red is an integer of 401 digits. -/
def hugeRed : Text.Bytes := 49 :: List.replicate 400 48 ++ Pdf.ascii " 0 0 rg"

theorem script_hugeRed : Page.script (.ofStreams [hugeRed]) = .error (.faulted .outOfRange) := by
  decide +kernel

theorem interpret_hugeRed (library : Library) :
    library.interpret (.ofStreams [hugeRed]) .none = .error (.faulted .outOfRange) := by
  have hpage : Page.StreamKey.page ∈ library.keys := List.mem_cons_self
  rw [Library.interpret, Library.traverse_cons_of_mem library hpage, Library.scanAlone, Page.scan_eq,
    script_hugeRed]
  rfl

theorem hugeRed_not_refused :
    timetableOf ⟨Library.defaultLeading, []⟩ [hugeRed] .none [] = .error (.faulted .outOfRange) := by
  rw [timetableOf, interpret_hugeRed]
  rfl

def plainLibrary : Library :=
  ⟨Library.defaultLeading, [⟨some 1, some (.name (Pdf.ascii "Form")), none, .ofStreams [Pdf.ascii "q"]⟩]⟩

theorem hugeRed_breaksScan :
    ∃ content ∈ .ofStreams [hugeRed] :: plainLibrary.streams.map Page.FormStream.content,
      Page.BreaksScan content .outOfRange := by
  have hforms : ∀ form ∈ plainLibrary.streams, ∃ streams, form.content = .ofStreams streams := by
    intro form hform
    rw [List.mem_singleton.1 hform]
    exact ⟨[Pdf.ascii "q"], rfl⟩
  have hfault : timetableOf plainLibrary [hugeRed] .none [] = .error (.faulted .outOfRange) := by
    rw [timetableOf, interpret_hugeRed]
    rfl
  rcases timetableOf_outcome hforms [hugeRed] .none [] with
    ⟨_, hok⟩ | ⟨_, hrefused, -⟩ | ⟨fault, hother, hbreaks | ⟨_, hok, -⟩⟩
  · rw [hfault] at hok
    cases hok
  · rw [hfault] at hrefused
    cases hrefused
  · rw [hfault] at hother
    cases hother
    exact hbreaks
  · rw [interpret_hugeRed] at hok
    cases hok

end Timetable
end WeekGrid
