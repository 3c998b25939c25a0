import Mathlib.Data.List.Forall2
import WeekGrid.Proofs.Timetable.Justification

/-!
What a timetable owes to the course table. A cell asks the table at most once: for a course that has to be in
it, or, where a project cell has several lines, for one that may be missing. So a larger table changes nothing
but the cells of the second kind whose course it adds.
-/
namespace WeekGrid.Timetable

open Page (Elements Box Bounds)

namespace CourseTable

def Grows (courses courses' : CourseTable) : Prop :=
  ∀ code name, courses.name? code = some name → courses'.name? code = some name

theorem Grows.refl (courses : CourseTable) : courses.Grows courses := fun _ _ h => h

theorem name_eq (courses : CourseTable) (code : String) :
    courses.name code = match courses.name? code with
      | some name => .ok name
      | none => .error (.refused (.unknownCourseCode code)) := rfl

theorem name_eq_ok_iff {courses : CourseTable} {code name : String} :
    courses.name code = .ok name ↔ courses.name? code = some name := by
  rw [name_eq]
  cases courses.name? code <;> simp

end CourseTable

def firstWord? (text : String) : Option String := (Text.words text.toList).head?.map String.ofList

/-- What is left of some lines above teacher and room has a first word, or is nothing at all. -/
def HasWord (lines : List String) : Prop :=
  joinLines (popRoomAndTeacher lines).2 ≠ "" → (firstWord? (joinLines (popRoomAndTeacher lines).2)).isSome

theorem popRoomAndTeacher_subset (lines : List String) : (popRoomAndTeacher lines).2 ⊆ lines := by
  intro line hline
  unfold popRoomAndTeacher at hline
  rw [← List.mem_reverse]
  split at hline
  · cases hline
  · cases hline
  · split at hline
    · split at hline
      · cases hline
      · simp_all
    · simp_all

theorem not_blank_of_mem_cellLines {elements : Elements} {kind : CellKind} {bounds : Bounds} {line : String}
    (h : line ∈ cellLines elements kind bounds) : ¬ ∀ c ∈ line.toList, Text.isBlank c = true := by
  obtain ⟨htrimmed, hne⟩ := List.mem_filter.1 h
  obtain ⟨text, -, rfl⟩ := List.mem_map.1 htrimmed
  have hstrip : Text.strip text.text.toList ≠ [] := by
    intro hnil
    simp [Text.trimmed, hnil] at hne
  simpa [Text.trimmed] using Text.not_blank_of_strip_ne_nil hstrip

theorem words_joinLines_ne_nil {lines : List String} {line : String} (hmem : line ∈ lines)
    (hline : ¬ ∀ c ∈ line.toList, Text.isBlank c = true) : Text.words (joinLines lines).toList ≠ [] := by
  rw [ne_eq, Text.words_eq_nil_iff]
  intro hblank
  refine hline fun c hc => hblank c ?_
  rw [joinLines, String.toList_ofList]
  exact Text.mem_join (List.mem_map_of_mem hmem) hc

/-- The lines of a cell are not blank, so their description never fails for want of a word. -/
theorem hasWord_cellLines (elements : Elements) (kind : CellKind) (bounds : Bounds) :
    HasWord (cellLines elements kind bounds) := by
  intro h
  have hsubset := popRoomAndTeacher_subset (cellLines elements kind bounds)
  generalize (popRoomAndTeacher (cellLines elements kind bounds)).2 = rest at h hsubset ⊢
  cases rest with
  | nil => exact absurd rfl h
  | cons line rest =>
    have hwords : Text.words (joinLines (line :: rest)).toList ≠ [] :=
      words_joinLines_ne_nil List.mem_cons_self (not_blank_of_mem_cellLines (hsubset List.mem_cons_self))
    rw [firstWord?, Option.isSome_map, List.isSome_head?]
    simpa using hwords

/-- What stands behind the first dash with spaces around it; nothing if there is none. -/
def labelOf (description : String) : String :=
  String.ofList (((Text.cut? spacedDash description.toList).map (·.2)).getD [])

namespace Session

def course? : Session → Option (String × String)
  | lecture code _ courseName _ _ => some (code, courseName)
  | grouped _ _ code _ courseName _ => some (code, courseName)
  | project _ code _ courseName _ _ => some (code, courseName)
  | other .. => none

/-- A session accords with a table: its course has its name there, or it has no course and its description
does not begin with the code of one. -/
structure Accords (courses : CourseTable) (session : Session) : Prop where
  named : ∀ code name, session.course? = some (code, name) → courses.name? code = some name
  unknown : ∀ description teacher room code, session = .other description teacher room →
    firstWord? description = some code → courses.name? code = none

/-- What becomes of a session under a larger table. It is kept, unless it has no course and its description
begins with a code of the larger table; then it is a project session of that course, for all groups, with the
same teacher and room. -/
inductive Regraded (courses : CourseTable) : Session → Session → Prop where
  | kept {session} (h : ∀ description teacher room code, session = .other description teacher room →
      firstWord? description = some code → courses.name? code = none) : Regraded courses session session
  | recognised {description teacher room code courseName} (hword : firstWord? description = some code)
      (hname : courses.name? code = some courseName) :
      Regraded courses (.other description teacher room)
        (.project none code teacher courseName (some (labelOf description)) room)

theorem not_other_of_course? {session : Session} {course : String × String} (h : session.course? = some course)
    (description teacher room : String) : session ≠ .other description teacher room := by
  rintro rfl
  cases h

end Session

def described (courses : CourseTable) (description teacher room code : String) : Session :=
  match courses.name? code with
  | some courseName => .project none code teacher courseName (some (labelOf description)) room
  | none => .other description teacher room

/-- The ways in which the texts of a cell may use a course table. -/
inductive UsesTable (announce : CourseTable → Except Failure (Option Session)) : Prop where
  /-- The texts do not fit, whatever the table. -/
  | unfit (h : ∀ courses, announce courses = .ok none)
  /-- A course has to be in the table, or else the page is refused. -/
  | required (code : String) (named : String → Session)
      (hcourse : ∀ courseName, (named courseName).course? = some (code, courseName))
      (h : ∀ courses, announce courses = (courses.name code).map fun courseName => some (named courseName))
  /-- The first word of a description may be a code. -/
  | optional (description teacher room code : String) (hword : firstWord? description = some code)
      (h : ∀ courses, announce courses = .ok (some (described courses description teacher room code)))

theorem lecture?_usesTable (lines : List String) : UsesTable fun courses => lecture? courses lines := by
  cases lines with
  | nil => exact .unfit fun _ => rfl
  | cons first rest =>
    simp only [lecture?]
    rcases popRoomAndTeacher rest with ⟨_ | ⟨room, teacher⟩, more⟩
    · exact .unfit fun _ => rfl
    · exact .required _ _ (fun _ => rfl) fun _ => rfl

theorem grouped?_usesTable (kind : GroupedKind) (row : Row) (lines : List String) :
    UsesTable fun courses => grouped? courses kind row lines := by
  cases lines with
  | nil => exact .unfit fun _ => rfl
  | cons first rest =>
    simp only [grouped?]
    rcases threeParts? kind.separator first with _ | ⟨code, teacher, room⟩
    · exact .unfit fun _ => rfl
    · exact .required code _ (fun _ => rfl) fun _ => rfl

theorem projectLine?_usesTable (groups : GroupAxis) (bounds : Bounds) (row : Row) (line : String) :
    UsesTable fun courses => projectLine? courses groups bounds row line := by
  simp only [projectLine?]
  rcases threeParts? spacedDash line with _ | ⟨code, teacher, room⟩
  · exact .unfit fun _ => rfl
  · exact .required code _ (fun _ => rfl) fun _ => rfl

theorem projectLines?_eq_described {lines rest : List String} {teacher room code : String}
    (hpop : popRoomAndTeacher lines = (some (room, teacher), rest)) (hcode : firstWord? (joinLines rest) = some code)
    (courses : CourseTable) :
    projectLines? courses lines = .ok (some (described courses (joinLines rest) teacher room code)) := by
  obtain ⟨word, hhead, rfl⟩ := Option.map_eq_some_iff.1 hcode
  obtain ⟨more, hwords⟩ := List.head?_eq_some_iff.1 hhead
  have hne : joinLines rest ≠ "" := by
    intro hempty
    rw [hempty] at hcode
    cases hcode
  rw [projectLines?, hpop]
  simp only [if_neg hne, hwords, described]
  cases courses.name? (String.ofList word) <;> rfl

theorem projectLines?_cases {lines : List String} (hword : HasWord lines) :
    (∀ courses, projectLines? courses lines = .ok none) ∨
    ∃ description teacher room code, firstWord? description = some code ∧
      ∀ courses, projectLines? courses lines = .ok (some (described courses description teacher room code)) := by
  rw [HasWord] at hword
  rcases hpop : popRoomAndTeacher lines with ⟨_ | ⟨room, teacher⟩, rest⟩
  · refine .inl fun courses => ?_
    rw [projectLines?, hpop]
    rfl
  · rw [hpop] at hword
    by_cases hempty : joinLines rest = ""
    · refine .inl fun courses => ?_
      rw [projectLines?, hpop]
      exact if_pos hempty
    · obtain ⟨code, hcode⟩ := Option.isSome_iff_exists.1 (hword hempty)
      exact .inr ⟨_, teacher, room, code, hcode, projectLines?_eq_described hpop hcode⟩

theorem projectLines?_usesTable {lines : List String} (hword : HasWord lines) :
    UsesTable fun courses => projectLines? courses lines := by
  obtain h | ⟨description, teacher, room, code, hcode, h⟩ := projectLines?_cases hword
  · exact .unfit h
  · exact .optional description teacher room code hcode h

theorem project?_usesTable (groups : GroupAxis) (bounds : Bounds) (row : Row) {lines : List String}
    (hword : HasWord lines) : UsesTable fun courses => project? courses groups bounds row lines := by
  unfold project?
  split
  · exact projectLine?_usesTable groups bounds row _
  · exact projectLines?_usesTable hword

theorem session?_usesTable (groups : GroupAxis) (kind : CellKind) (bounds : Bounds) (row : Row)
    {lines : List String} (hword : HasWord lines) :
    UsesTable fun courses => session? courses groups kind bounds row lines := by
  cases kind with
  | lecture => exact lecture?_usesTable lines
  | practical => exact grouped?_usesTable .practical row lines
  | tutorial => exact grouped?_usesTable .tutorial row lines
  | exam => exact grouped?_usesTable .exam row lines
  | project => exact project?_usesTable groups bounds row hword

namespace UsesTable

variable {announce : CourseTable → Except Failure (Option Session)} {courses courses' : CourseTable}

theorem accords (h : UsesTable announce) {session : Session} (hok : announce courses = .ok (some session)) :
    session.Accords courses := by
  cases h with
  | unfit h =>
    rw [h] at hok
    cases hok
  | required code named hcourse h =>
    rw [h] at hok
    obtain ⟨courseName, hname, hsession⟩ := Outcome.map_eq_ok_iff.1 hok
    cases hsession
    refine ⟨fun other name heq => ?_, fun description teacher room _ heq => ?_⟩
    · rw [hcourse] at heq
      cases heq
      exact CourseTable.name_eq_ok_iff.1 hname
    · exact absurd heq (Session.not_other_of_course? (hcourse courseName) description teacher room)
  | optional description teacher room code hword h =>
    rw [h, described] at hok
    cases hname : courses.name? code with
    | some courseName =>
      rw [hname] at hok
      cases hok
      refine ⟨fun other name heq => ?_, fun _ _ _ _ heq _ => nomatch heq⟩
      cases heq
      exact hname
    | none =>
      rw [hname] at hok
      cases hok
      refine ⟨fun _ _ heq => (nomatch heq), fun _ _ _ other heq hother => ?_⟩
      cases heq
      rw [hword] at hother
      cases hother
      exact hname

theorem of_grows (h : UsesTable announce) (hgrows : courses.Grows courses') {announced : Option Session}
    (hok : announce courses = .ok announced) :
    ∃ announced', announce courses' = .ok announced' ∧
      Option.Rel (Session.Regraded courses') announced announced' := by
  cases h with
  | unfit h =>
    rw [h] at hok
    cases hok
    exact ⟨none, h courses', .none⟩
  | required code named hcourse h =>
    rw [h] at hok
    obtain ⟨courseName, hname, rfl⟩ := Outcome.map_eq_ok_iff.1 hok
    have hname' := CourseTable.name_eq_ok_iff.2 (hgrows _ _ (CourseTable.name_eq_ok_iff.1 hname))
    refine ⟨some (named courseName), by rw [h, hname']; rfl, .some (.kept ?_)⟩
    intro description teacher room _ heq
    exact absurd heq (Session.not_other_of_course? (hcourse courseName) description teacher room)
  | optional description teacher room code hword h =>
    rw [h] at hok
    cases hok
    refine ⟨_, h courses', .some ?_⟩
    cases hname : courses.name? code with
    | some courseName =>
      rw [described, described, hname, hgrows code courseName hname]
      exact .kept fun _ _ _ _ heq => nomatch heq
    | none =>
      cases hname' : courses'.name? code with
      | some courseName =>
        rw [described, described, hname, hname']
        exact .recognised hword hname'
      | none =>
        rw [described, described, hname, hname']
        refine .kept fun _ _ _ other heq hother => ?_
        cases heq
        rw [hword] at hother
        cases hother
        exact hname'

end UsesTable

structure Lesson.Regraded (courses : CourseTable) (lesson lesson' : Lesson) : Prop where
  start : lesson'.start = lesson.start
  finish : lesson'.finish = lesson.finish
  session : lesson.session.Regraded courses lesson'.session

section Lessons

variable {elements : Elements} {base : DateTime} {times : TimeAxis} {groups : GroupAxis}
  {courses courses' : CourseTable}

/-- The table is asked last. Before that, whatever the table, a cell may fail or turn out to be no lesson for want
of a place or a time. -/
theorem lessonOf?_cases (elements : Elements) (base : DateTime) (times : TimeAxis) (groups : GroupAxis)
    (kind : CellKind) (bounds : Bounds) :
    (∃ failure, ∀ courses, lessonOf? elements base times groups courses kind bounds = .error failure) ∨
    (∀ courses, lessonOf? elements base times groups courses kind bounds = .ok none) ∨
    ∃ row start finish, ∀ courses, lessonOf? elements base times groups courses kind bounds =
      (session? courses groups kind bounds row (cellLines elements kind bounds)).map
        (Option.map fun session => ⟨start, finish, session⟩) := by
  unfold lessonOf?
  cases placeOf? times groups bounds with
  | error fault => exact .inl ⟨.faulted fault, fun _ => rfl⟩
  | ok place =>
    cases place with
    | none => exact .inr (.inl fun _ => rfl)
    | some place =>
      obtain ⟨row, startLabel, finishLabel⟩ := place
      dsimp only [Except.mapError, bind, Except.bind]
      cases lessonTime startLabel base row.day with
      | error fault => exact .inl ⟨.faulted fault, fun _ => rfl⟩
      | ok start? =>
        cases lessonTime finishLabel base row.day with
        | error fault => exact .inl ⟨.faulted fault, fun _ => rfl⟩
        | ok finish? =>
          rcases start? with _ | start
          · exact .inr (.inl fun _ => rfl)
          · rcases finish? with _ | finish
            · exact .inr (.inl fun _ => rfl)
            · refine .inr (.inr ⟨row, start, finish, fun courses => ?_⟩)
              cases session? courses groups kind bounds row (cellLines elements kind bounds) <;> rfl

structure Lesson.Follows (courses courses' : CourseTable) (lesson lesson' : Lesson) : Prop where
  accords : lesson.session.Accords courses
  regraded : lesson.Regraded courses' lesson'

theorem lessonOf?_of_grows (hgrows : courses.Grows courses') {kind : CellKind} {bounds : Bounds}
    {lesson? : Option Lesson} (h : lessonOf? elements base times groups courses kind bounds = .ok lesson?) :
    ∃ lesson?', lessonOf? elements base times groups courses' kind bounds = .ok lesson?' ∧
      List.Forall₂ (Lesson.Follows courses courses') lesson?.toList lesson?'.toList := by
  obtain ⟨failure, hfailed⟩ | hnone | ⟨row, start, finish, hlesson⟩ :=
    lessonOf?_cases elements base times groups kind bounds
  · rw [hfailed] at h
    cases h
  · rw [hnone] at h
    cases h
    exact ⟨none, hnone courses', .nil⟩
  · rw [hlesson] at h
    obtain ⟨announced, hannounced, rfl⟩ := Outcome.map_eq_ok_iff.1 h
    have huses := session?_usesTable groups kind bounds row (hasWord_cellLines elements kind bounds)
    obtain ⟨announced', hannounced', hrel⟩ := huses.of_grows hgrows hannounced
    refine ⟨_, by rw [hlesson, hannounced']; rfl, ?_⟩
    cases hrel with
    | none => exact .nil
    | some hregraded => exact .cons ⟨huses.accords hannounced, rfl, rfl, hregraded⟩ .nil

theorem lessonsOf_of_grows (hgrows : courses.Grows courses') {boxes : List Box} {lessons : List Lesson}
    (h : lessonsOf elements base times groups courses boxes = .ok lessons) :
    ∃ lessons', lessonsOf elements base times groups courses' boxes = .ok lessons' ∧
      List.Forall₂ (Lesson.Follows courses courses') lessons lessons' := by
  induction boxes generalizing lessons with
  | nil =>
    cases h
    exact ⟨[], rfl, .nil⟩
  | cons box boxes ih =>
    rw [lessonsOf] at h ⊢
    cases hkind : CellKind.ofColor? box.color with
    | none =>
      rw [hkind] at h
      exact ih h
    | some kind =>
      rw [hkind] at h
      obtain ⟨lesson?, hlesson, h⟩ := Outcome.bind_eq_ok_iff.1 h
      obtain ⟨more, hmore, h⟩ := Outcome.bind_eq_ok_iff.1 h
      cases h
      obtain ⟨lesson?', hlesson', hnow⟩ := lessonOf?_of_grows hgrows hlesson
      obtain ⟨more', hmore', hlater⟩ := ih hmore
      refine ⟨_, ?_, List.rel_append hnow hlater⟩
      exact Outcome.bind_eq_ok_iff.2 ⟨_, hlesson', Outcome.bind_eq_ok_iff.2 ⟨_, hmore', rfl⟩⟩

theorem readTimetable_follows (hgrows : courses.Grows courses') {timetable : Schedule}
    (h : readTimetable elements courses = .ok timetable) :
    ∃ timetable', readTimetable elements courses' = .ok timetable' ∧ timetable'.header = timetable.header ∧
      List.Forall₂ (Lesson.Follows courses courses') timetable.lessons timetable'.lessons := by
  obtain ⟨placed, hplaced, h⟩ := Outcome.bind_eq_ok_iff.1 h
  obtain ⟨groups, haxis, h⟩ := Outcome.bind_eq_ok_iff.1 h
  obtain ⟨lessons, hlessons, h⟩ := Outcome.bind_eq_ok_iff.1 h
  cases h
  obtain ⟨lessons', hlessons', hfollow⟩ := lessonsOf_of_grows hgrows hlessons
  have hread : readTimetable elements courses' = .ok ⟨placed.header, lessons'⟩ :=
    Outcome.bind_eq_ok_iff.2 ⟨placed, hplaced, Outcome.bind_eq_ok_iff.2 ⟨groups, haxis,
      Outcome.bind_eq_ok_iff.2 ⟨lessons', hlessons', rfl⟩⟩⟩
  exact ⟨_, hread, rfl, hfollow⟩

end Lessons

/-- Every lesson accords with the course table. And under any larger table the page still comes to a timetable,
with the same header and the same lessons one by one, but for those that had no course and have one now. -/
theorem readTimetable_of_grows {elements : Elements} {courses : CourseTable} {timetable : Schedule}
    (h : readTimetable elements courses = .ok timetable) :
    (∀ lesson ∈ timetable.lessons, lesson.session.Accords courses) ∧
    ∀ courses', courses.Grows courses' → ∃ timetable', readTimetable elements courses' = .ok timetable' ∧
      timetable'.header = timetable.header ∧ timetable'.lessons.length = timetable.lessons.length ∧
      List.Forall₂ (Lesson.Regraded courses') timetable.lessons timetable'.lessons := by
  refine ⟨fun lesson hlesson => ?_, fun courses' hgrows => ?_⟩
  · obtain ⟨timetable', -, -, hfollow⟩ := readTimetable_follows (CourseTable.Grows.refl courses) h
    have hleft := List.forall₂_iff_get.1 hfollow
    obtain ⟨i, hi, rfl⟩ := List.mem_iff_getElem.1 hlesson
    exact (hleft.2 i hi (hleft.1 ▸ hi)).accords
  · obtain ⟨timetable', hread, hheader, hfollow⟩ := readTimetable_follows hgrows h
    exact ⟨timetable', hread, hheader, hfollow.length_eq.symm, hfollow.imp fun _ _ hlesson => hlesson.regraded⟩

def openDayPage : Elements where
  texts := smallPage.texts ++ [⟨111, 95, "11:00"⟩, ⟨82, 44, "S1.01 - Open day"⟩, ⟨82, 40, "ABC"⟩,
    ⟨82, 36, "C102"⟩]
  boxes := smallPage.boxes ++ [⟨110, 90, 10, 10, some rulerColor⟩,
    ⟨80, 30, 30, 20, some CellKind.project.color⟩]

def openDayTable : CourseTable := smallTable ++ [("S1.01", "Client")]

def practicalThen (session : Session) : List Session :=
  [.grouped .practical ⟨1, some .a⟩ "R1.01" "ABC" "Init" "C101", session]

theorem openDayTable_grows : smallTable.Grows openDayTable := by
  intro code name h
  rw [CourseTable.name?, smallTable, Keyed.get?] at h
  split at h
  · next hcode => simpa [CourseTable.name?, openDayTable, smallTable, Keyed.get?, hcode] using h
  · cases h

theorem openDayPage_of_grows :
    ∃ timetable timetable', readTimetable openDayPage smallTable = .ok timetable ∧
      timetable.lessons.map Lesson.session = practicalThen (.other "S1.01 - Open day" "ABC" "C102") ∧
      readTimetable openDayPage openDayTable = .ok timetable' ∧
      timetable'.lessons.map Lesson.session =
        practicalThen (.project none "S1.01" "ABC" "Client" (some "Open day") "C102") := by
  have hsmall : (readTimetable openDayPage smallTable).map (fun t => t.lessons.map Lesson.session) =
      .ok (practicalThen (.other "S1.01 - Open day" "ABC" "C102")) := by
    decide +kernel
  obtain ⟨timetable, h, hbefore⟩ := Outcome.map_eq_ok_iff.1 hsmall
  obtain ⟨timetable', hread, -, -, hlessons⟩ := (readTimetable_of_grows h).2 openDayTable openDayTable_grows
  refine ⟨timetable, timetable', h, hbefore, hread, ?_⟩
  have hsessions : List.Forall₂ (Session.Regraded openDayTable) (timetable.lessons.map Lesson.session)
      (timetable'.lessons.map Lesson.session) :=
    List.forall₂_map_left_iff.2 (List.forall₂_map_right_iff.2 (hlessons.imp fun _ _ hlesson => hlesson.session))
  rw [hbefore] at hsessions
  have hword : firstWord? "S1.01 - Open day" = some "S1.01" := by decide +kernel
  have hname : openDayTable.name? "S1.01" = some "Client" := by decide +kernel
  have hlabel : labelOf "S1.01 - Open day" = "Open day" := by decide +kernel
  generalize timetable'.lessons.map Lesson.session = sessions at hsessions
  obtain ⟨first, rest, hfirst, hrest, rfl⟩ := List.forall₂_cons_left_iff.1 hsessions
  obtain ⟨second, none, hsecond, hnone, rfl⟩ := List.forall₂_cons_left_iff.1 hrest
  cases hnone
  cases hfirst
  cases hsecond with
  | kept hkept =>
    rw [hkept _ _ _ _ rfl hword] at hname
    cases hname
  | recognised hword' hname' =>
    rw [hword] at hword'
    cases hword'
    rw [hname] at hname'
    cases hname'
    rw [hlabel]
    rfl

end WeekGrid.Timetable
