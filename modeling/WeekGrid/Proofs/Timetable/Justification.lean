import Mathlib.Data.List.ReduceOption
import WeekGrid.Proofs.Civil.Week
import WeekGrid.Proofs.Timetable.Marks
import WeekGrid.Timetable.Reading

/-!
Every lesson of a timetable has its grounds on the page: rulers at both edges of its cell, a group row at its
height beside the cell of its day, and texts that fit; and no cell with grounds is passed over.
-/
namespace WeekGrid.Timetable

open Page (Elements Box Bounds)

def GroupedKind.cellKind : GroupedKind → CellKind
  | practical => .practical
  | tutorial => .tutorial
  | exam => .exam

/-- A session suits a cell of some kind in a row: it is one of that kind, for the group of the row, and for the
half of the row only in a practical or in a project cell that does not spread over other rows. -/
def Session.Suits (kind : CellKind) (row : Row) (spreads : Prop) : Session → Prop
  | lecture .. => kind = .lecture
  | grouped groupedKind audience .. => kind = groupedKind.cellKind ∧ audience = groupedKind.audience row
  | project (some audience) .. => kind = .project ∧ audience.group = row.group ∧
      (spreads → audience.half = none) ∧ (¬ spreads → audience.half = some row.half)
  | project none .. => kind = .project
  | other .. => kind = .project

section Sessions

variable {courses : CourseTable} {groups : GroupAxis} {bounds : Bounds} {row : Row} {lines : List String}
  {session : Session}

theorem lecture?_suits (h : lecture? courses lines = .ok (some session)) (spreads : Prop) :
    session.Suits .lecture row spreads := by
  unfold lecture? at h
  split at h
  · cases h
  · simp only at h
    split at h
    · cases h
    · obtain ⟨name, -, h⟩ := Outcome.bind_eq_ok_iff.1 h
      cases h
      rfl

theorem grouped?_suits {kind : GroupedKind} (h : grouped? courses kind row lines = .ok (some session))
    (spreads : Prop) : session.Suits kind.cellKind row spreads := by
  unfold grouped? at h
  split at h
  · cases h
  · split at h
    · cases h
    · obtain ⟨name, -, h⟩ := Outcome.bind_eq_ok_iff.1 h
      cases h
      exact ⟨rfl, rfl⟩

theorem project?_suits (h : project? courses groups bounds row lines = .ok (some session)) {spreads : Prop}
    (hspreads : rowsInside bounds groups = 0 ↔ ¬ spreads) : session.Suits .project row spreads := by
  unfold project? at h
  split at h
  · unfold projectLine? at h
    split at h
    · cases h
    · obtain ⟨name, -, h⟩ := Outcome.bind_eq_ok_iff.1 h
      cases h
      refine ⟨rfl, rfl, fun hs => if_neg fun hzero => hspreads.1 hzero hs, fun hs => if_pos (hspreads.2 hs)⟩
  · unfold projectLines? at h
    split at h
    · cases h
    · simp only at h
      split at h
      · cases h
      · split at h
        · cases h
        · split at h <;> cases h <;> rfl

theorem session?_suits {kind : CellKind} (h : session? courses groups kind bounds row lines = .ok (some session))
    {spreads : Prop} (hspreads : rowsInside bounds groups = 0 ↔ ¬ spreads) :
    session.Suits kind row spreads := by
  cases kind with
  | lecture => exact lecture?_suits h spreads
  | practical => exact grouped?_suits h spreads
  | tutorial => exact grouped?_suits h spreads
  | exam => exact grouped?_suits h spreads
  | project => exact project?_suits h hspreads

theorem grouped?_none_of_row {kind : GroupedKind} (h : grouped? courses kind row lines = .ok none)
    (other : Row) : grouped? courses kind other lines = .ok none := by
  cases lines with
  | nil => rfl
  | cons first rest =>
    simp only [grouped?] at h ⊢
    split at h
    · rfl
    · obtain ⟨name, -, h⟩ := Outcome.bind_eq_ok_iff.1 h
      cases h

theorem project?_none_of_row (h : project? courses groups bounds row lines = .ok none) (other : Row) :
    project? courses groups bounds other lines = .ok none := by
  unfold project? at h ⊢
  split at h
  · simp only [projectLine?] at h ⊢
    split at h
    · rfl
    · obtain ⟨name, -, h⟩ := Outcome.bind_eq_ok_iff.1 h
      cases h
  · exact h

theorem session?_none_of_row {kind : CellKind} (h : session? courses groups kind bounds row lines = .ok none)
    (other : Row) : session? courses groups kind bounds other lines = .ok none := by
  cases kind with
  | lecture => exact h
  | practical => exact grouped?_none_of_row h other
  | tutorial => exact grouped?_none_of_row h other
  | exam => exact grouped?_none_of_row h other
  | project => exact project?_none_of_row h other

end Sessions

/-- A time of day on a weekday in the week of a base time, in the zone of the base, or else in Paris time. -/
structure IsInWeek (base : DateTime) (day : Weekday) (clock : Nat × Nat) (t : DateTime) : Prop where
  hour : t.hour = clock.1
  minute : t.minute = clock.2
  zone : t.zone = some (base.zone.getD .paris)
  sameWeek : t.date.SameWeek base.date
  weekday : t.date.isoWeekday = day.iso

theorem lessonTime_cases (label : String) (base : DateTime) (day : Weekday) :
    (timeOfDay? label = none ∧ lessonTime label base day = .ok none) ∨
      ∃ clock, timeOfDay? label = some clock ∧
        ((∃ date, Date.ofIsoWeek? base.date.isoYear base.date.isoWeek day.iso = some date ∧
          lessonTime label base day = .ok (some ⟨date, clock.1, clock.2, some (base.zone.getD .paris)⟩)) ∨
        (Date.ofIsoWeek? base.date.isoYear base.date.isoWeek day.iso = none ∧
          lessonTime label base day = .error .yearOutOfRange)) := by
  cases hclock : timeOfDay? label with
  | none =>
    refine .inl ⟨rfl, ?_⟩
    rw [lessonTime, hclock]
    rfl
  | some clock =>
    refine .inr ⟨clock, rfl, ?_⟩
    cases hdate : Date.ofIsoWeek? base.date.isoYear base.date.isoWeek day.iso with
    | none =>
      refine .inr ⟨rfl, ?_⟩
      rw [lessonTime, hclock, hdate]
      rfl
    | some date =>
      refine .inl ⟨date, rfl, ?_⟩
      rw [lessonTime, hclock, hdate]
      rfl

theorem lessonTime_eq_some {label : String} {base t : DateTime} {day : Weekday}
    (h : lessonTime label base day = .ok (some t)) :
    ∃ clock, timeOfDay? label = some clock ∧ IsInWeek base day clock t := by
  obtain ⟨-, hnone⟩ | ⟨clock, hclock, ⟨date, hdate, hsome⟩ | ⟨-, herror⟩⟩ := lessonTime_cases label base day
  · rw [h] at hnone
    cases hnone
  · rw [h] at hsome
    cases hsome
    have hlast : day.iso ≤ 7 := Nat.le_succ_of_le day.iso_range.2
    obtain ⟨hweek, hday⟩ := Date.sameWeek_of_ofIsoWeek? day.iso_range.1 hlast hdate
    exact ⟨clock, hclock, rfl, rfl, rfl, hweek, hday⟩
  · rw [h] at herror
    cases herror

theorem timeOfDay?_of_lessonTime_eq_none {label : String} {base : DateTime} {day : Weekday}
    (h : lessonTime label base day = .ok none) : timeOfDay? label = none := by
  obtain ⟨hclock, -⟩ | ⟨_, -, ⟨_, -, hsome⟩ | ⟨-, herror⟩⟩ := lessonTime_cases label base day
  · exact hclock
  · rw [h] at hsome
    cases hsome
  · rw [h] at herror
    cases herror

/-- What a page holds for a lesson in a cell: time rulers that label its edges with times of day, a row at the
height of its lower edge, and texts that announce a session. -/
structure Grounds (elements : Elements) (header : Bounds) (courses : CourseTable) (cell : Box) where
  kind : CellKind
  startLabel : String
  finishLabel : String
  start : Nat × Nat
  finish : Nat × Nat
  row : Row
  session : Session
  color : CellKind.ofColor? cell.color = some kind
  startRuler : TimeLabel elements header cell.x startLabel
  finishRuler : TimeLabel elements header (cell.x + cell.width) finishLabel
  startTime : timeOfDay? startLabel = some start
  finishTime : timeOfDay? finishLabel = some finish
  atRow : AtRow elements header cell.y row
  announced : ∃ groups, groupAxis elements header = .ok groups ∧
    session? courses groups kind cell.bounds row (cellLines elements kind cell.bounds) = .ok (some session)
  suits : session.Suits kind row (Spreads elements header cell.bounds)

structure Grounds.Gives {elements : Elements} {header : Bounds} {courses : CourseTable} {cell : Box}
    (g : Grounds elements header courses cell) (base : DateTime) (lesson : Lesson) : Prop where
  start : IsInWeek base g.row.day g.start lesson.start
  finish : IsInWeek base g.row.day g.finish lesson.finish
  session : lesson.session = g.session

/-- A cell is judged rightly: a lesson has grounds, and where there is no lesson there are none. -/
def Judged (elements : Elements) (header : Bounds) (base : DateTime) (courses : CourseTable) (cell : Box) :
    Option Lesson → Prop
  | some lesson => ∃ g : Grounds elements header courses cell, g.Gives base lesson
  | none => IsEmpty (Grounds elements header courses cell)

def lessonCells (boxes : List Box) : List Box :=
  boxes.filter fun box => (CellKind.ofColor? box.color).isSome

section Cells

variable {elements : Elements} {header : Bounds} {base : DateTime} {courses : CourseTable}
  {groups : GroupAxis}

theorem placeOf?_eq_some {bounds : Bounds} {row : Row} {startLabel finishLabel : String}
    (haxis : groupAxis elements header = .ok groups)
    (h : placeOf? (timeAxis elements header) groups bounds = .ok (some (row, startLabel, finishLabel))) :
    AtRow elements header bounds.bottom row ∧ TimeLabel elements header bounds.left startLabel ∧
      TimeLabel elements header bounds.right finishLabel := by
  obtain ⟨marks, rfl, hmarks⟩ := groupAxis_eq_ok haxis
  obtain ⟨height, hheight, h⟩ := Outcome.bind_eq_ok_iff.1 h
  obtain ⟨found, hfound, h⟩ := Option.bind_eq_some_iff.1 (Except.ok.inj h)
  obtain ⟨start, hstart, h⟩ := Option.bind_eq_some_iff.1 h
  obtain ⟨finish, hfinish, h⟩ := Option.bind_eq_some_iff.1 h
  cases h
  obtain ⟨mark, hmark, hsame⟩ := Keyed.mem_of_get?_ofPairs Binary64.isTest_same hfound
  exact ⟨⟨mark, height, (hmarks mark row).1 hmark, hheight, hsame⟩,
    get?_timeAxis_eq_some_iff.1 hstart, get?_timeAxis_eq_some_iff.1 hfinish⟩

/-- A cell has one place only, except that another row may have come to the same height. -/
theorem exists_row_of_placeOf? {bounds : Bounds} {row : Row} {startLabel finishLabel : String}
    (haxis : groupAxis elements header = .ok groups) (hrow : AtRow elements header bounds.bottom row)
    (hstart : TimeLabel elements header bounds.left startLabel)
    (hfinish : TimeLabel elements header bounds.right finishLabel) :
    ∃ row, placeOf? (timeAxis elements header) groups bounds = .ok (some (row, startLabel, finishLabel)) := by
  obtain ⟨marks, rfl, hmarks⟩ := groupAxis_eq_ok haxis
  obtain ⟨mark, height, hmark, hheight, hsame⟩ := hrow
  have hfound : Keyed.get? Binary64.same height (Keyed.ofPairs Binary64.same marks) ≠ none := by
    intro hnone
    have hmiss := (Keyed.get?_ofPairs_eq_none_iff Binary64.isTest_same).1 hnone mark row
      ((hmarks mark row).2 hmark)
    rw [hsame] at hmiss
    cases hmiss
  obtain ⟨found, hfound⟩ := Option.ne_none_iff_exists'.1 hfound
  refine ⟨found, Outcome.bind_eq_ok_iff.2 ⟨height, hheight, ?_⟩⟩
  rw [hfound, get?_timeAxis_eq_some_iff.2 hstart, get?_timeAxis_eq_some_iff.2 hfinish]
  rfl

theorem Grounds.exists_row {cell : Box} (g : Grounds elements header courses cell)
    (haxis : groupAxis elements header = .ok groups) :
    ∃ row, placeOf? (timeAxis elements header) groups cell.bounds =
      .ok (some (row, g.startLabel, g.finishLabel)) := by
  have hrow : AtRow elements header cell.bounds.bottom g.row := g.atRow
  exact exists_row_of_placeOf? haxis hrow g.startRuler g.finishRuler

theorem Grounds.labels_eq {cell : Box} (g : Grounds elements header courses cell)
    (haxis : groupAxis elements header = .ok groups) {row : Row} {startLabel finishLabel : String}
    (hplace : placeOf? (timeAxis elements header) groups cell.bounds =
      .ok (some (row, startLabel, finishLabel))) :
    g.startLabel = startLabel ∧ g.finishLabel = finishLabel := by
  obtain ⟨other, hother⟩ := g.exists_row haxis
  rw [hplace] at hother
  cases hother
  exact ⟨rfl, rfl⟩

theorem isEmpty_grounds_of_place {cell : Box} (haxis : groupAxis elements header = .ok groups)
    (hplace : placeOf? (timeAxis elements header) groups cell.bounds = .ok none) :
    IsEmpty (Grounds elements header courses cell) := by
  refine ⟨fun g => ?_⟩
  obtain ⟨row, hrow⟩ := g.exists_row haxis
  rw [hplace] at hrow
  cases hrow

theorem isEmpty_grounds_of_time {cell : Box} (haxis : groupAxis elements header = .ok groups) {row : Row}
    {startLabel finishLabel : String}
    (hplace : placeOf? (timeAxis elements header) groups cell.bounds =
      .ok (some (row, startLabel, finishLabel)))
    (htime : timeOfDay? startLabel = none ∨ timeOfDay? finishLabel = none) :
    IsEmpty (Grounds elements header courses cell) := by
  refine ⟨fun g => ?_⟩
  obtain ⟨hstart, hfinish⟩ := g.labels_eq haxis hplace
  have hstartTime := g.startTime
  have hfinishTime := g.finishTime
  rw [hstart] at hstartTime
  rw [hfinish] at hfinishTime
  rcases htime with hnone | hnone
  · rw [hnone] at hstartTime
    cases hstartTime
  · rw [hnone] at hfinishTime
    cases hfinishTime

theorem isEmpty_grounds_of_session {cell : Box} {kind : CellKind} {row : Row}
    (haxis : groupAxis elements header = .ok groups) (hkind : CellKind.ofColor? cell.color = some kind)
    (hsession : session? courses groups kind cell.bounds row (cellLines elements kind cell.bounds) =
      .ok none) : IsEmpty (Grounds elements header courses cell) := by
  refine ⟨fun g => ?_⟩
  obtain ⟨axis, haxis', hannounced⟩ := g.announced
  have hgroups : axis = groups := Except.ok.inj (haxis'.symm.trans haxis)
  have hkinds : g.kind = kind := Option.some.inj (g.color.symm.trans hkind)
  rw [hgroups, hkinds, session?_none_of_row hsession g.row] at hannounced
  cases hannounced

theorem judged_lessonOf? {kind : CellKind} {cell : Box} {result : Option Lesson}
    (haxis : groupAxis elements header = .ok groups) (hkind : CellKind.ofColor? cell.color = some kind)
    (h : lessonOf? elements base (timeAxis elements header) groups courses kind cell.bounds = .ok result) :
    Judged elements header base courses cell result := by
  obtain ⟨place, hplace, h⟩ := Outcome.bind_eq_ok_iff.1 h
  have hplace := Outcome.mapError_eq_ok_iff.1 hplace
  cases place with
  | none =>
    cases h
    exact isEmpty_grounds_of_place haxis hplace
  | some place =>
    obtain ⟨row, startLabel, finishLabel⟩ := place
    obtain ⟨start?, hstart, h⟩ := Outcome.bind_eq_ok_iff.1 h
    obtain ⟨finish?, hfinish, h⟩ := Outcome.bind_eq_ok_iff.1 h
    have hstart := Outcome.mapError_eq_ok_iff.1 hstart
    have hfinish := Outcome.mapError_eq_ok_iff.1 hfinish
    cases start? with
    | none =>
      cases h
      exact isEmpty_grounds_of_time haxis hplace (Or.inl (timeOfDay?_of_lessonTime_eq_none hstart))
    | some start =>
      cases finish? with
      | none =>
        cases h
        exact isEmpty_grounds_of_time haxis hplace (Or.inr (timeOfDay?_of_lessonTime_eq_none hfinish))
      | some finish =>
        obtain ⟨session?, hsession, h⟩ := Outcome.bind_eq_ok_iff.1 h
        cases h
        cases session? with
        | none => exact isEmpty_grounds_of_session haxis hkind hsession
        | some session =>
          obtain ⟨hrow, hstartRuler, hfinishRuler⟩ := placeOf?_eq_some haxis hplace
          obtain ⟨startClock, hstartTime, hstartWeek⟩ := lessonTime_eq_some hstart
          obtain ⟨finishClock, hfinishTime, hfinishWeek⟩ := lessonTime_eq_some hfinish
          have hsuits := session?_suits hsession (rowsInside_eq_zero_iff haxis cell.bounds)
          exact ⟨⟨kind, startLabel, finishLabel, startClock, finishClock, row, session, hkind,
            hstartRuler, hfinishRuler, hstartTime, hfinishTime, hrow, ⟨groups, haxis, hsession⟩, hsuits⟩,
            hstartWeek, hfinishWeek, rfl⟩

theorem lessonsOf_judged {boxes : List Box} {lessons : List Lesson}
    (haxis : groupAxis elements header = .ok groups)
    (h : lessonsOf elements base (timeAxis elements header) groups courses boxes = .ok lessons) :
    ∃ results, List.Forall₂ (Judged elements header base courses) (lessonCells boxes) results ∧
      lessons = results.reduceOption := by
  induction boxes generalizing lessons with
  | nil =>
    cases h
    exact ⟨[], .nil, rfl⟩
  | cons box boxes ih =>
    rw [lessonsOf] at h
    cases hkind : CellKind.ofColor? box.color with
    | none =>
      simp only [hkind] at h
      obtain ⟨results, hjudged, hlessons⟩ := ih h
      exact ⟨results, by simpa [lessonCells, hkind] using hjudged, hlessons⟩
    | some kind =>
      simp only [hkind] at h
      obtain ⟨result, hresult, h⟩ := Outcome.bind_eq_ok_iff.1 h
      obtain ⟨more, hmore, h⟩ := Outcome.bind_eq_ok_iff.1 h
      cases h
      obtain ⟨results, hjudged, rfl⟩ := ih hmore
      refine ⟨result :: results, ?_, ?_⟩
      · simpa [lessonCells, hkind] using ⟨judged_lessonOf? haxis hkind hresult, hjudged⟩
      · cases result <;> rfl

end Cells

/-- A box has the week header of a page: it is the first one in the header's colour, and the header is read from
the first text in it. -/
structure HasHeader (elements : Elements) (box : Box) (header : Header) : Prop where
  first : elements.boxes.find? (fun box => box.color == some headerColor) = some box
  read : ∃ text rest, Page.textsWithin elements.texts box.bounds = text :: rest ∧
    HeaderText.read text.text = .ok header

theorem readHeader_eq_ok {elements : Elements} {placed : PlacedHeader} (h : readHeader elements = .ok placed) :
    ∃ box, HasHeader elements box placed.header ∧ placed.bounds = box.bounds := by
  unfold readHeader at h
  split at h
  · cases h
  · next box hbox =>
    split at h
    · cases h
    · next first rest htexts =>
      obtain ⟨header, hread, h⟩ := Outcome.bind_eq_ok_iff.1 h
      cases h
      exact ⟨box, ⟨hbox, first, rest, htexts, hread⟩, rfl⟩

/-- The lessons of a timetable come from cells in lesson colours, one from each cell with grounds, in order. -/
theorem readTimetable_justified {elements : Elements} {courses : CourseTable} {timetable : Schedule}
    (h : readTimetable elements courses = .ok timetable) :
    ∃ box results, HasHeader elements box timetable.header ∧
      List.Forall₂ (Judged elements box.bounds timetable.header.start courses) (lessonCells elements.boxes)
        results ∧
      timetable.lessons = results.reduceOption := by
  obtain ⟨placed, hplaced, h⟩ := Outcome.bind_eq_ok_iff.1 h
  obtain ⟨groups, haxis, h⟩ := Outcome.bind_eq_ok_iff.1 h
  obtain ⟨lessons, hlessons, h⟩ := Outcome.bind_eq_ok_iff.1 h
  cases h
  obtain ⟨box, hheader, hbounds⟩ := readHeader_eq_ok hplaced
  rw [hbounds] at haxis hlessons
  obtain ⟨results, hjudged, hresults⟩ := lessonsOf_judged (Outcome.mapError_eq_ok_iff.1 haxis) hlessons
  exact ⟨box, results, hheader, hjudged, hresults⟩

/-- A page with one practical on Monday from eight to half past nine. -/
def smallPage : Elements where
  texts := [⟨10, 110, "Semaine 12 (47) : du 18/11/2024 au 23/11/2024"⟩, ⟨51, 95, "8:00"⟩, ⟨81, 95, "9:30"⟩,
    ⟨5, 75, "Lundi"⟩, ⟨22, 50, "G1"⟩, ⟨52, 40, "R1.01 - ABC - C101"⟩]
  boxes := [⟨0, 100, 200, 20, some headerColor⟩, ⟨50, 90, 10, 10, some rulerColor⟩,
    ⟨80, 90, 10, 10, some rulerColor⟩, ⟨1, 20, 19, 60, some rulerColor⟩, ⟨20, 30, 10, 40, some rulerColor⟩,
    ⟨50, 30, 30, 20, some CellKind.practical.color⟩]

def smallTable : CourseTable := [("R1.01", "Init")]

theorem smallPage_justified :
    ∃ timetable box results, readTimetable smallPage smallTable = .ok timetable ∧
      timetable.lessons.length = 1 ∧ HasHeader smallPage box timetable.header ∧
      List.Forall₂ (Judged smallPage box.bounds timetable.header.start smallTable)
        (lessonCells smallPage.boxes) results ∧
      timetable.lessons = results.reduceOption := by
  have hone : (readTimetable smallPage smallTable).toOption.map (fun t => t.lessons.length) = some 1 := by
    decide +kernel
  cases h : readTimetable smallPage smallTable with
  | error failure =>
    rw [h] at hone
    cases hone
  | ok timetable =>
    rw [h] at hone
    obtain ⟨box, results, hheader, hjudged, hlessons⟩ := readTimetable_justified h
    exact ⟨timetable, box, results, rfl, Option.some.inj hone, hheader, hjudged, hlessons⟩

end WeekGrid.Timetable
