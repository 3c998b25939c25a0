import WeekGrid.Proofs.Timetable.Courses
import WeekGrid.Proofs.Timetable.Refusals

/-!
Courses that are missing from the table. Where every cell has a height and its week lies before the last Monday, the
lessons of a page are refused exactly for the first placed cell that calls for a course the table does not have; other
cells are passed over or are lessons, each on its own.
-/
namespace WeekGrid.Timetable

open Page (Elements Box Bounds TextPiece)

/-- Where a cell stands and when it takes place: a row at its height, and times on the day of the row from the labels
at its two edges. -/
structure IsPlaced (base : DateTime) (times : TimeAxis) (groups : GroupAxis) (bounds : Bounds) (row : Row)
    (start finish : DateTime) : Prop where
  place : ∃ height, roundHeight bounds.bottom = .ok height ∧ Keyed.get? Binary64.same height groups = some row
  start : ∃ label, Keyed.get? Binary64.same bounds.left times = some label ∧
    lessonTime label base row.day = .ok (some start)
  finish : ∃ label, Keyed.get? Binary64.same bounds.right times = some label ∧
    lessonTime label base row.day = .ok (some finish)

/-- The last lines of a cell give a teacher and a room; the room may stand there twice. -/
inductive EndsIn (teacher room : String) : List String → Prop where
  | once (front) (hne : teacher ≠ room) : EndsIn teacher room (front ++ [teacher, room])
  | twice (front) : EndsIn teacher room (front ++ [teacher, room, room])

def HasThreeParts (separator : List Char) (line code : String) : Prop :=
  ∃ teacher room more, splitParts separator line.toList = code.toList :: teacher :: room :: more

/-- The texts of a cell fit its kind, and a course has to be in the table for them: that of a lecture with teacher and
room, or that in a line of at least three parts, which for a project has to be the only one. -/
inductive Requires : CellKind → List String → String → Prop where
  | lecture {first rest teacher room} (hrest : EndsIn teacher room rest) :
      Requires .lecture (first :: rest) (lectureHead first).1
  | grouped {kind groupedKind first rest code} (hkind : kind = GroupedKind.cellKind groupedKind)
      (hparts : HasThreeParts groupedKind.separator first code) : Requires kind (first :: rest) code
  | project {line code} (hparts : HasThreeParts spacedDash line code) : Requires .project [line] code

theorem popRoomAndTeacher_eq_some_iff {lines rest : List String} {teacher room : String} :
    popRoomAndTeacher lines = (some (room, teacher), rest) ↔
      (lines = rest ++ [teacher, room] ∧ teacher ≠ room) ∨ lines = rest ++ [teacher, room, room] := by
  have hlines := lines.reverse_reverse
  unfold popRoomAndTeacher
  generalize lines.reverse = backwards at hlines
  subst hlines
  constructor
  · intro h
    split at h
    · cases h
    · cases h
    · next first second others =>
      split at h
      · next hsame =>
        split at h
        · cases h
        · cases h
          exact .inr (by simp [hsame])
      · next hne =>
        cases h
        exact .inl ⟨by simp, hne⟩
  · rintro (⟨h, hne⟩ | h)
    · obtain rfl : backwards = room :: teacher :: rest.reverse := by simpa using congrArg List.reverse h
      simp [hne]
    · obtain rfl : backwards = room :: room :: teacher :: rest.reverse := by simpa using congrArg List.reverse h
      simp

theorem eq_nil_of_popRoomAndTeacher {lines rest : List String} (h : popRoomAndTeacher lines = (none, rest)) :
    rest = [] := by
  unfold popRoomAndTeacher at h
  split at h
  · exact (Prod.mk.inj h).2.symm
  · exact (Prod.mk.inj h).2.symm
  · split at h
    · split at h
      · exact (Prod.mk.inj h).2.symm
      · cases h
    · cases h

theorem CourseTable.name_eq_error_iff {courses : CourseTable} {code : String} {failure : Failure} :
    courses.name code = .error failure ↔
      courses.name? code = none ∧ failure = .refused (.unknownCourseCode code) := by
  rw [name_eq]
  cases courses.name? code <;> simp [eq_comm]

theorem endsIn_iff {lines : List String} {teacher room : String} :
    EndsIn teacher room lines ↔ ∃ rest, popRoomAndTeacher lines = (some (room, teacher), rest) := by
  simp only [popRoomAndTeacher_eq_some_iff]
  constructor
  · rintro (⟨front, hne⟩ | ⟨front⟩)
    · exact ⟨front, .inl ⟨rfl, hne⟩⟩
    · exact ⟨front, .inr rfl⟩
  · rintro ⟨front, ⟨rfl, hne⟩ | rfl⟩
    · exact .once front hne
    · exact .twice front

theorem hasThreeParts_iff {separator : List Char} {line code : String} :
    HasThreeParts separator line code ↔ ∃ teacher room, threeParts? separator line = some (code, teacher, room) := by
  unfold threeParts?
  constructor
  · rintro ⟨teacher, room, more, hparts⟩
    exact ⟨String.ofList teacher, String.ofList room, by simp [hparts]⟩
  · rintro ⟨teacher, room, h⟩
    split at h
    · next hparts =>
      cases h
      exact ⟨_, _, _, by simpa using hparts⟩
    · cases h

section Sessions

variable {courses : CourseTable} {failure : Failure}

theorem lecture?_eq_error_iff {lines : List String} : lecture? courses lines = .error failure ↔
    ∃ code, Requires .lecture lines code ∧ courses.name code = .error failure := by
  constructor
  · intro h
    cases lines with
    | nil => cases h
    | cons first rest =>
      rw [lecture?] at h
      rcases hpop : popRoomAndTeacher rest with ⟨_ | ⟨room, teacher⟩, more⟩
      · rw [hpop] at h
        cases h
      · rw [hpop] at h
        exact ⟨_, .lecture (endsIn_iff.2 ⟨more, hpop⟩), Outcome.bind_pure_eq_error_iff.1 h⟩
  · rintro ⟨code, hrequires, hname⟩
    cases hrequires with
    | lecture hrest =>
      obtain ⟨more, hpop⟩ := endsIn_iff.1 hrest
      rw [lecture?, hpop]
      exact Outcome.bind_pure_eq_error_iff.2 hname
    | @grouped _ groupedKind _ _ _ hkind => cases groupedKind <;> cases hkind

theorem grouped?_eq_error_iff (kind : GroupedKind) {row : Row} {lines : List String} :
    grouped? courses kind row lines = .error failure ↔
      ∃ code, Requires kind.cellKind lines code ∧ courses.name code = .error failure := by
  constructor
  · intro h
    cases lines with
    | nil => cases h
    | cons first rest =>
      rw [grouped?] at h
      rcases hparts : threeParts? kind.separator first with _ | ⟨code, teacher, room⟩
      · rw [hparts] at h
        cases h
      · rw [hparts] at h
        exact ⟨code, .grouped rfl (hasThreeParts_iff.2 ⟨teacher, room, hparts⟩), Outcome.bind_pure_eq_error_iff.1 h⟩
  · rintro ⟨code, hrequires, hname⟩
    generalize hkind : kind.cellKind = cellKind at hrequires
    cases hrequires with
    | lecture => cases kind <;> cases hkind
    | project => cases kind <;> cases hkind
    | @grouped _ groupedKind _ _ _ hgrouped hparts =>
      obtain rfl : kind = groupedKind := by cases kind <;> cases groupedKind <;> simp_all [GroupedKind.cellKind]
      obtain ⟨teacher, room, hparts⟩ := hasThreeParts_iff.1 hparts
      rw [grouped?, hparts]
      exact Outcome.bind_pure_eq_error_iff.2 hname

theorem projectLines?_of_not_hasWord {lines : List String} (h : ¬ HasWord lines) :
    projectLines? courses lines = .error (.faulted .descriptionWithoutWord) := by
  obtain ⟨hne, hnone⟩ := Classical.not_imp.1 h
  have hwords : Text.words (joinLines (popRoomAndTeacher lines).2).toList = [] := by
    simpa [firstWord?] using hnone
  rw [projectLines?]
  rcases hpop : popRoomAndTeacher lines with ⟨_ | ⟨room, teacher⟩, rest⟩
  · -- without teacher and room no line is left
    rw [eq_nil_of_popRoomAndTeacher hpop] at hpop
    rw [hpop] at hne
    exact absurd rfl hne
  · rw [hpop] at hne hwords
    simp only [if_neg hne, hwords]
    rfl

/-- Several lines fail for want of a word, and for nothing else. -/
theorem projectLines?_eq_error_iff {lines : List String} : projectLines? courses lines = .error failure ↔
    ¬ HasWord lines ∧ failure = .faulted .descriptionWithoutWord := by
  by_cases hword : HasWord lines
  · refine iff_of_false ?_ fun h => h.1 hword
    obtain h | ⟨description, teacher, room, code, -, h⟩ := projectLines?_cases hword
    · simp [h courses]
    · simp [h courses]
  · rw [projectLines?_of_not_hasWord hword, Except.error.injEq, eq_comm]
    exact (and_iff_right hword).symm

theorem project?_eq_error_iff {groups : GroupAxis} {bounds : Bounds} {row : Row} {lines : List String}
    (hword : HasWord lines) : project? courses groups bounds row lines = .error failure ↔
      ∃ code, Requires .project lines code ∧ courses.name code = .error failure := by
  constructor
  · intro h
    unfold project? at h
    split at h
    · next line =>
      rw [projectLine?] at h
      rcases hparts : threeParts? spacedDash line with _ | ⟨code, teacher, room⟩
      · rw [hparts] at h
        cases h
      · rw [hparts] at h
        exact ⟨code, .project (hasThreeParts_iff.2 ⟨teacher, room, hparts⟩), Outcome.bind_pure_eq_error_iff.1 h⟩
    · exact absurd hword (projectLines?_eq_error_iff.1 h).1
  · rintro ⟨code, hrequires, hname⟩
    cases hrequires with
    | @grouped _ groupedKind _ _ _ hkind => cases groupedKind <;> cases hkind
    | project hparts =>
      obtain ⟨teacher, room, hparts⟩ := hasThreeParts_iff.1 hparts
      rw [project?, projectLine?, hparts]
      exact Outcome.bind_pure_eq_error_iff.2 hname

theorem session?_eq_error_iff {groups : GroupAxis} {kind : CellKind} {bounds : Bounds} {row : Row}
    {lines : List String} (hword : HasWord lines) : session? courses groups kind bounds row lines = .error failure ↔
      ∃ code, Requires kind lines code ∧ courses.name? code = none ∧
        failure = .refused (.unknownCourseCode code) := by
  simp only [← CourseTable.name_eq_error_iff]
  cases kind with
  | lecture => exact lecture?_eq_error_iff
  | practical => exact grouped?_eq_error_iff .practical
  | tutorial => exact grouped?_eq_error_iff .tutorial
  | exam => exact grouped?_eq_error_iff .exam
  | project => exact project?_eq_error_iff hword

end Sessions

section Cells

variable {elements : Elements} {base : DateTime} {times : TimeAxis} {groups : GroupAxis} {courses : CourseTable}
  {kind : CellKind} {bounds : Bounds}

theorem IsPlaced.unique {row row' : Row} {start start' finish finish' : DateTime}
    (h : IsPlaced base times groups bounds row start finish)
    (h' : IsPlaced base times groups bounds row' start' finish') : row = row' ∧ start = start' ∧ finish = finish' := by
  obtain ⟨⟨height, hheight, hrow⟩, ⟨label, hlabel, hstart⟩, ⟨last, hlast, hfinish⟩⟩ := h
  obtain ⟨⟨height', hheight', hrow'⟩, ⟨label', hlabel', hstart'⟩, ⟨last', hlast', hfinish'⟩⟩ := h'
  obtain rfl : height = height' := Except.ok.inj (hheight.symm.trans hheight')
  obtain rfl : row = row' := Option.some.inj (hrow.symm.trans hrow')
  obtain rfl : label = label' := Option.some.inj (hlabel.symm.trans hlabel')
  obtain rfl : last = last' := Option.some.inj (hlast.symm.trans hlast')
  exact ⟨rfl, Option.some.inj (Except.ok.inj (hstart.symm.trans hstart')),
    Option.some.inj (Except.ok.inj (hfinish.symm.trans hfinish'))⟩

theorem lessonOf?_of_isPlaced {row : Row} {start finish : DateTime}
    (h : IsPlaced base times groups bounds row start finish) :
    lessonOf? elements base times groups courses kind bounds =
      (session? courses groups kind bounds row (cellLines elements kind bounds)).map
        (Option.map fun session => ⟨start, finish, session⟩) := by
  obtain ⟨⟨height, hheight, hrow⟩, ⟨startLabel, hstartLabel, hstart⟩, ⟨finishLabel, hfinishLabel, hfinish⟩⟩ := h
  have hplace : placeOf? times groups bounds = .ok (some (row, startLabel, finishLabel)) := by
    simp only [placeOf?, hheight, bind, Except.bind, Option.bind, hrow, hstartLabel, hfinishLabel]
    rfl
  simp only [lessonOf?, hplace, Except.mapError, bind, Except.bind, hstart, hfinish]
  cases session? courses groups kind bounds row (cellLines elements kind bounds) <;> rfl

theorem exists_lessonTime (hbase : base.date.dayNumber < Date.lastMonday.dayNumber) (label : String) (day : Weekday) :
    ∃ t?, lessonTime label base day = .ok t? := by
  cases h : lessonTime label base day with
  | error fault =>
    obtain ⟨-, -, hlate⟩ := failsOnly_lessonTime label base day fault h
    exact absurd hlate (Nat.not_le_of_lt hbase)
  | ok t? => exact ⟨t?, rfl⟩

theorem lessonOf?_of_not_isPlaced (hbase : base.date.dayNumber < Date.lastMonday.dayNumber) {height : Binary64}
    (hheight : roundHeight bounds.bottom = .ok height)
    (h : ∀ row start finish, ¬ IsPlaced base times groups bounds row start finish) :
    lessonOf? elements base times groups courses kind bounds = .ok none := by
  cases hplace : placeOf? times groups bounds with
  | error fault =>
    rw [placeOf?, hheight] at hplace
    cases hplace
  | ok place =>
    rcases place with _ | ⟨row, startLabel, finishLabel⟩
    · rw [lessonOf?, hplace]
      rfl
    · obtain ⟨height', hheight', hfound⟩ := Outcome.bind_eq_ok_iff.1 hplace
      obtain ⟨found, hrow, hfound⟩ := Option.bind_eq_some_iff.1 (Except.ok.inj hfound)
      obtain ⟨first, hstartLabel, hfound⟩ := Option.bind_eq_some_iff.1 hfound
      obtain ⟨last, hfinishLabel, hfound⟩ := Option.bind_eq_some_iff.1 hfound
      cases hfound
      obtain ⟨start?, hstart⟩ := exists_lessonTime hbase startLabel row.day
      obtain ⟨finish?, hfinish⟩ := exists_lessonTime hbase finishLabel row.day
      simp only [lessonOf?, hplace, Except.mapError, bind, Except.bind, hstart, hfinish]
      rcases start? with _ | start
      · rfl
      · rcases finish? with _ | finish
        · rfl
        · exact absurd ⟨⟨height', hheight', hrow⟩, ⟨startLabel, hstartLabel, hstart⟩,
            ⟨finishLabel, hfinishLabel, hfinish⟩⟩ (h row start finish)

def lessonIn (elements : Elements) (base : DateTime) (times : TimeAxis) (groups : GroupAxis) (courses : CourseTable)
    (box : Box) : Except Failure (Option Lesson) :=
  match CellKind.ofColor? box.color with
  | none => .ok none
  | some kind => lessonOf? elements base times groups courses kind box.bounds

theorem readLessons_eq (elements : Elements) (base : DateTime) (times : TimeAxis) (groups : GroupAxis)
    (courses : CourseTable) : readLessons elements base times groups courses =
      (elements.boxes.mapM (lessonIn elements base times groups courses)).map List.reduceOption := by
  unfold readLessons
  induction elements.boxes with
  | nil => rfl
  | cons box boxes ih =>
    rw [List.mapM_cons, lessonsOf, lessonIn]
    cases CellKind.ofColor? box.color with
    | none =>
      dsimp only
      rw [ih]
      cases boxes.mapM (lessonIn elements base times groups courses) <;> rfl
    | some kind =>
      dsimp only
      rw [ih]
      cases lessonOf? elements base times groups courses kind box.bounds with
      | error failure => rfl
      | ok lesson? =>
        cases boxes.mapM (lessonIn elements base times groups courses) with
        | error failure => rfl
        | ok more => cases lesson? <;> rfl

/-- A box is a placed cell in a lesson colour whose texts require a course that is not in the table. -/
def LacksCourse (elements : Elements) (base : DateTime) (times : TimeAxis) (groups : GroupAxis)
    (courses : CourseTable) (box : Box) (code : String) : Prop :=
  ∃ kind row start finish, CellKind.ofColor? box.color = some kind ∧
    IsPlaced base times groups box.bounds row start finish ∧
    Requires kind (cellLines elements kind box.bounds) code ∧ courses.name? code = none

def IsLessonOf (elements : Elements) (base : DateTime) (times : TimeAxis) (groups : GroupAxis)
    (courses : CourseTable) (box : Box) (lesson : Lesson) : Prop :=
  ∃ kind row, CellKind.ofColor? box.color = some kind ∧
    IsPlaced base times groups box.bounds row lesson.start lesson.finish ∧
    session? courses groups kind box.bounds row (cellLines elements kind box.bounds) = .ok (some lesson.session)

def HasHeight (box : Box) : Prop :=
  (CellKind.ofColor? box.color).isSome → ∃ height, roundHeight box.bounds.bottom = .ok height

variable {box : Box}

theorem lessonIn_cases (hbase : base.date.dayNumber < Date.lastMonday.dayNumber) (hheight : HasHeight box) :
    (lessonIn elements base times groups courses box = .ok none ∧ ∀ kind row start finish,
      CellKind.ofColor? box.color = some kind → ¬ IsPlaced base times groups box.bounds row start finish) ∨
    ∃ kind row start finish, CellKind.ofColor? box.color = some kind ∧
      IsPlaced base times groups box.bounds row start finish ∧
      lessonIn elements base times groups courses box =
        (session? courses groups kind box.bounds row (cellLines elements kind box.bounds)).map
          (Option.map fun session => ⟨start, finish, session⟩) := by
  cases hkind : CellKind.ofColor? box.color with
  | none =>
    refine .inl ⟨by rw [lessonIn, hkind], ?_⟩
    rintro _ _ _ _ ⟨⟩
  | some kind =>
    by_cases hplaced : ∃ row start finish, IsPlaced base times groups box.bounds row start finish
    · obtain ⟨row, start, finish, hplaced⟩ := hplaced
      refine .inr ⟨kind, row, start, finish, rfl, hplaced, ?_⟩
      rw [lessonIn, hkind]
      exact lessonOf?_of_isPlaced hplaced
    · have hnowhere : ∀ row start finish, ¬ IsPlaced base times groups box.bounds row start finish :=
        fun row start finish h => hplaced ⟨row, start, finish, h⟩
      obtain ⟨height, hheight⟩ := hheight (by rw [hkind]; rfl)
      refine .inl ⟨?_, fun _ row start finish _ => hnowhere row start finish⟩
      rw [lessonIn, hkind]
      exact lessonOf?_of_not_isPlaced hbase hheight hnowhere

theorem lessonIn_eq_error_iff (hbase : base.date.dayNumber < Date.lastMonday.dayNumber) (hheight : HasHeight box)
    {failure : Failure} : lessonIn elements base times groups courses box = .error failure ↔
      ∃ code, LacksCourse elements base times groups courses box code ∧
        failure = .refused (.unknownCourseCode code) := by
  obtain ⟨hnone, hnowhere⟩ | ⟨kind, row, start, finish, hkind, hplaced, hlesson⟩ := lessonIn_cases hbase hheight
  · rw [hnone]
    refine iff_of_false nofun ?_
    rintro ⟨code, ⟨kind, row, start, finish, hkind, hplaced, -⟩, -⟩
    exact hnowhere kind row start finish hkind hplaced
  · rw [hlesson]
    constructor
    · intro h
      cases hsession : session? courses groups kind box.bounds row (cellLines elements kind box.bounds) with
      | error failure =>
        rw [hsession] at h
        cases h
        obtain ⟨code, hrequires, hname, rfl⟩ := (session?_eq_error_iff (hasWord_cellLines _ _ _)).1 hsession
        exact ⟨code, ⟨kind, row, start, finish, hkind, hplaced, hrequires, hname⟩, rfl⟩
      | ok announced =>
        rw [hsession] at h
        cases h
    · rintro ⟨code, ⟨kind', row', start', finish', hkind', -, hrequires, hname⟩, rfl⟩
      obtain rfl : kind = kind' := Option.some.inj (hkind.symm.trans hkind')
      rw [(session?_eq_error_iff (hasWord_cellLines _ _ _)).2 ⟨code, hrequires, hname, rfl⟩]
      rfl

theorem lessonIn_eq_some_iff (hbase : base.date.dayNumber < Date.lastMonday.dayNumber) (hheight : HasHeight box)
    {lesson : Lesson} : lessonIn elements base times groups courses box = .ok (some lesson) ↔
      IsLessonOf elements base times groups courses box lesson := by
  obtain ⟨hnone, hnowhere⟩ | ⟨kind, row, start, finish, hkind, hplaced, hlesson⟩ := lessonIn_cases hbase hheight
  · rw [hnone]
    refine iff_of_false nofun ?_
    rintro ⟨kind, row, hkind, hplaced, -⟩
    exact hnowhere kind row _ _ hkind hplaced
  · rw [hlesson]
    constructor
    · intro h
      obtain ⟨announced, hannounced, h⟩ := Outcome.map_eq_ok_iff.1 h
      obtain ⟨session, rfl, rfl⟩ := Option.map_eq_some_iff.1 h
      exact ⟨kind, row, hkind, hplaced, hannounced⟩
    · rintro ⟨kind', row', hkind', hplaced', hsession⟩
      obtain rfl : kind = kind' := Option.some.inj (hkind.symm.trans hkind')
      obtain ⟨rfl, rfl, rfl⟩ := hplaced.unique hplaced'
      rw [hsession]
      rfl

theorem exists_lessonIn_iff (hbase : base.date.dayNumber < Date.lastMonday.dayNumber) (hheight : HasHeight box) :
    (∃ lesson?, lessonIn elements base times groups courses box = .ok lesson?) ↔
      ∀ code, ¬ LacksCourse elements base times groups courses box code := by
  constructor
  · rintro ⟨lesson?, hok⟩ code hlacks
    rw [(lessonIn_eq_error_iff hbase hheight).2 ⟨code, hlacks, rfl⟩] at hok
    cases hok
  · intro hlacks
    cases hresult : lessonIn elements base times groups courses box with
    | error failure =>
      obtain ⟨code, hcode, -⟩ := (lessonIn_eq_error_iff hbase hheight).1 hresult
      exact absurd hcode (hlacks code)
    | ok lesson? => exact ⟨lesson?, rfl⟩

def lessonAlone? (elements : Elements) (base : DateTime) (times : TimeAxis) (groups : GroupAxis)
    (courses : CourseTable) (box : Box) : Option Lesson :=
  (lessonIn elements base times groups courses box).toOption.join

theorem lessonIn_eq_ok (hbase : base.date.dayNumber < Date.lastMonday.dayNumber) (hheight : HasHeight box)
    (h : ∀ code, ¬ LacksCourse elements base times groups courses box code) :
    lessonIn elements base times groups courses box = .ok (lessonAlone? elements base times groups courses box) := by
  obtain ⟨lesson?, hok⟩ := (exists_lessonIn_iff hbase hheight).2 h
  rw [lessonAlone?, hok]
  rfl

theorem readLessons_eq_error_iff (hbase : base.date.dayNumber < Date.lastMonday.dayNumber)
    (hheights : ∀ box ∈ elements.boxes, HasHeight box) {failure : Failure} :
    readLessons elements base times groups courses = .error failure ↔
      ∃ before box after code, elements.boxes = before ++ box :: after ∧
        LacksCourse elements base times groups courses box code ∧
        (∀ earlier ∈ before, ∀ other, ¬ LacksCourse elements base times groups courses earlier other) ∧
        failure = .refused (.unknownCourseCode code) := by
  have hmapped : readLessons elements base times groups courses = .error failure ↔
      elements.boxes.mapM (lessonIn elements base times groups courses) = .error failure := by
    rw [readLessons_eq]
    exact Outcome.bind_pure_eq_error_iff
  rw [hmapped, Outcome.mapM_eq_error_iff]
  constructor
  · rintro ⟨before, box, after, hboxes, hfailed, hbefore⟩
    rw [hboxes] at hheights
    obtain ⟨code, hlacks, rfl⟩ := (lessonIn_eq_error_iff hbase (hheights box (by simp))).1 hfailed
    refine ⟨before, box, after, code, hboxes, hlacks, fun earlier hmem => ?_, rfl⟩
    exact (exists_lessonIn_iff hbase (hheights earlier (by simp [hmem]))).1 (hbefore earlier hmem)
  · rintro ⟨before, box, after, code, hboxes, hlacks, hbefore, rfl⟩
    rw [hboxes] at hheights
    refine ⟨before, box, after, hboxes, (lessonIn_eq_error_iff hbase (hheights box (by simp))).2 ⟨code, hlacks, rfl⟩,
      fun earlier hmem => ?_⟩
    exact (exists_lessonIn_iff hbase (hheights earlier (by simp [hmem]))).2 (hbefore earlier hmem)

theorem lessonIn_of_texts (boxes : List Box) :
    lessonIn ⟨elements.texts, boxes⟩ base times groups courses = lessonIn elements base times groups courses := rfl

theorem readLessons_eq_ok (hbase : base.date.dayNumber < Date.lastMonday.dayNumber)
    (hheights : ∀ box ∈ elements.boxes, HasHeight box)
    (h : ∀ box ∈ elements.boxes, ∀ code, ¬ LacksCourse elements base times groups courses box code) :
    readLessons elements base times groups courses =
      .ok (elements.boxes.filterMap (lessonAlone? elements base times groups courses)) := by
  have hmapped := Outcome.mapM_eq_ok fun box hbox => lessonIn_eq_ok hbase (hheights box hbox) (h box hbox)
  rw [readLessons_eq, hmapped]
  simp only [Except.map, List.reduceOption, List.filterMap_map, Function.comp_def, id_eq]

theorem readLessons_append (boxes more : List Box) :
    readLessons ⟨elements.texts, boxes ++ more⟩ base times groups courses = (do
      let lessons ← readLessons ⟨elements.texts, boxes⟩ base times groups courses
      return lessons ++ (← readLessons ⟨elements.texts, more⟩ base times groups courses)) := by
  simp only [readLessons_eq, lessonIn_of_texts, List.mapM_append]
  cases boxes.mapM (lessonIn elements base times groups courses) with
  | error failure => rfl
  | ok lessons =>
    cases more.mapM (lessonIn elements base times groups courses) with
    | error failure => rfl
    | ok others =>
      simp only [bind, Except.bind, pure, Except.pure, Except.map, List.reduceOption_append]

end Cells

/-- The lessons of a page, where its cells have heights and its week lies before the last Monday. They are refused
exactly for the first box that lacks a course. Otherwise each box comes to a lesson or to none on its own, and the
lessons of all boxes are those, in order; so the lessons of some boxes and more are those of the ones and then those of
the others. And a description of several lines always has a first word. -/
theorem readLessons_outcome {elements : Elements} {base : DateTime} (times : TimeAxis) (groups : GroupAxis)
    (courses : CourseTable) (hbase : base.date.dayNumber < Date.lastMonday.dayNumber)
    (hheights : ∀ box ∈ elements.boxes, HasHeight box) :
    (∀ failure, readLessons elements base times groups courses = .error failure ↔
      ∃ before box after code, elements.boxes = before ++ box :: after ∧
        LacksCourse elements base times groups courses box code ∧
        (∀ earlier ∈ before, ∀ other, ¬ LacksCourse elements base times groups courses earlier other) ∧
        failure = .refused (.unknownCourseCode code)) ∧
    ((∀ box ∈ elements.boxes, ∀ code, ¬ LacksCourse elements base times groups courses box code) →
      ∃ lesson? : Box → Option Lesson,
        (∀ box ∈ elements.boxes,
          (∀ lesson, lesson? box = some lesson ↔ IsLessonOf elements base times groups courses box lesson) ∧
          readLessons ⟨elements.texts, [box]⟩ base times groups courses = .ok (lesson? box).toList) ∧
        readLessons elements base times groups courses = .ok (elements.boxes.filterMap lesson?)) ∧
    (∀ boxes more, readLessons ⟨elements.texts, boxes ++ more⟩ base times groups courses = do
      let lessons ← readLessons ⟨elements.texts, boxes⟩ base times groups courses
      return lessons ++ (← readLessons ⟨elements.texts, more⟩ base times groups courses)) ∧
    ∀ kind bounds, joinLines (popRoomAndTeacher (cellLines elements kind bounds)).2 ≠ "" →
      (firstWord? (joinLines (popRoomAndTeacher (cellLines elements kind bounds)).2)).isSome := by
  refine ⟨fun _ => readLessons_eq_error_iff hbase hheights, fun hnone => ?_, readLessons_append, fun _ _ =>
    hasWord_cellLines _ _ _⟩
  refine ⟨lessonAlone? elements base times groups courses, fun box hbox => ⟨fun lesson => ?_, ?_⟩,
    readLessons_eq_ok hbase hheights hnone⟩
  · have hok := lessonIn_eq_ok hbase (hheights box hbox) (hnone box hbox)
    rw [← lessonIn_eq_some_iff hbase (hheights box hbox), hok, Except.ok.injEq]
  · have hok := lessonIn_eq_ok hbase (hheights box hbox) (hnone box hbox)
    rw [readLessons_eq, lessonIn_of_texts, List.mapM_cons, hok]
    cases lessonAlone? elements base times groups courses box <;> rfl

def strayPage : Elements where
  texts := ⟨502, 510, "R9.99 - Stray"⟩ :: smallPage.texts
  boxes := [⟨500, 500, 30, 20, some CellKind.lecture.color⟩, ⟨50, 30, 30, 20, some CellKind.practical.color⟩]

def smallTimes : TimeAxis := [(50, "8:00"), (80, "9:30")]

def smallGroups : GroupAxis := [(30, ⟨1, .a, .monday⟩)]

/-- Without a course table the practical is refused, and the lecture before it is not. -/
theorem strayPage_refused :
    readLessons strayPage (.midnight ⟨2024, 11, 18, by decide⟩ (some .paris)) smallTimes smallGroups [] =
      .error (.refused (.unknownCourseCode "R1.01")) := by
  have hstray : roundHeight (⟨500, 500, 30, 20, some CellKind.lecture.color⟩ : Box).bounds.bottom = .ok 500 := by
    decide +kernel
  have hpractical : roundHeight (⟨50, 30, 30, 20, some CellKind.practical.color⟩ : Box).bounds.bottom = .ok 30 := by
    decide +kernel
  have hheights : ∀ box ∈ strayPage.boxes, HasHeight box := by
    intro box hbox _
    rcases List.mem_pair.1 hbox with rfl | rfl
    · exact ⟨500, hstray⟩
    · exact ⟨30, hpractical⟩
  refine ((readLessons_outcome smallTimes smallGroups [] (by decide) hheights).1 _).2
    ⟨[_], _, [], "R1.01", rfl, ?_, ?_, rfl⟩
  · refine ⟨.practical, ⟨1, .a, .monday⟩, ⟨⟨2024, 11, 18, by decide⟩, 8, 0, some .paris⟩,
      ⟨⟨2024, 11, 18, by decide⟩, 9, 30, some .paris⟩, by decide, ⟨⟨30, hpractical, ?_⟩, ⟨"8:00", ?_, ?_⟩,
      ⟨"9:30", ?_, ?_⟩⟩, ?_, rfl⟩
    · decide +kernel
    · decide +kernel
    · decide +kernel
    · decide +kernel
    · decide +kernel
    · have hlines : cellLines strayPage .practical (⟨50, 30, 30, 20, some CellKind.practical.color⟩ : Box).bounds =
          ["R1.01 - ABC - C101"] := by
        decide +kernel
      have hparts : HasThreeParts spacedDash "R1.01 - ABC - C101" "R1.01" :=
        ⟨['A', 'B', 'C'], ['C', '1', '0', '1'], [], by decide +kernel⟩
      rw [hlines]
      exact @Requires.grouped _ .practical _ _ _ rfl hparts
  · intro earlier hearlier code hlacks
    obtain ⟨kind, row, start, finish, -, ⟨⟨height, hheight, hrow⟩, -, -⟩, -⟩ := hlacks
    have hnone : Keyed.get? Binary64.same 500 smallGroups = none := by decide +kernel
    rw [List.mem_singleton.1 hearlier, hstray] at hheight
    rw [← Except.ok.inj hheight, hnone] at hrow
    cases hrow

end WeekGrid.Timetable
