import WeekGrid.Proofs.Civil.Written
import WeekGrid.Proofs.Json.Agreement
import WeekGrid.Proofs.Timetable.Justification
import WeekGrid.Timetable.Export

/-!
What a timetable's JSON value tells. Every field can be read off again: the name of its kind tells which members
a session has, and the times are all on the clock in Paris.
-/
namespace WeekGrid.Timetable

open Page (Elements)

theorem textOrNull_inj {s s' : Option String} (h : (textOrNull s).Agrees (textOrNull s')) : s = s' := by
  cases s <;> cases s' <;> cases h <;> rfl

theorem Half.letter_inj {half half' : Half} (h : half.letter = half'.letter) : half = half' := by
  cases half <;> cases half' <;> first | rfl | exact absurd h (by decide)

theorem Audience.eq_of_agrees {a a' : Audience} (h : a.toJson.Agrees a'.toJson) : a = a' := by
  have hgroup : a.group = a'.group := (h.member "main" rfl rfl).integer_inj
  have hhalf : a.half = a'.half :=
    Option.map_injective (fun _ _ => Half.letter_inj) (textOrNull_inj (h.member "sub" rfl rfl))
  cases a
  cases a'
  subst hgroup hhalf
  rfl

theorem audienceOrNull_inj {a a' : Option Audience} (h : (audienceOrNull a).Agrees (audienceOrNull a')) :
    a = a' := by
  cases a with
  | none =>
    cases a' with
    | none => rfl
    | some a' => cases h
  | some a =>
    cases a' with
    | none => cases h
    | some a' => rw [Audience.eq_of_agrees h]

namespace Session

inductive SameKind : Session → Session → Prop where
  | lecture {code label courseName teacher room code' label' courseName' teacher' room'} :
      SameKind (lecture code label courseName teacher room) (lecture code' label' courseName' teacher' room')
  | grouped {kind audience code teacher courseName room audience' code' teacher' courseName' room'} :
      SameKind (grouped kind audience code teacher courseName room)
        (grouped kind audience' code' teacher' courseName' room')
  | project {audience code teacher courseName label room audience' code' teacher' courseName' label' room'} :
      SameKind (project audience code teacher courseName label room)
        (project audience' code' teacher' courseName' label' room')
  | other {description teacher room description' teacher' room'} :
      SameKind (other description teacher room) (other description' teacher' room')

theorem sameKind_of_kindName {s s' : Session} (h : s.kindName = s'.kindName) : SameKind s s' := by
  cases s with
  | lecture =>
    cases s' with
    | lecture => exact .lecture
    | grouped kind => cases kind <;> simp [kindName] at h
    | _ => simp [kindName] at h
  | grouped kind =>
    cases s' with
    | grouped kind' =>
      have hkind : kind = kind' := by cases kind <;> cases kind' <;> simp [kindName] at h ⊢
      subst hkind
      exact .grouped
    | _ => cases kind <;> simp [kindName] at h
  | project =>
    cases s' with
    | project => exact .project
    | grouped kind => cases kind <;> simp [kindName] at h
    | _ => simp [kindName] at h
  | other =>
    cases s' with
    | other => exact .other
    | grouped kind => cases kind <;> simp [kindName] at h
    | _ => simp [kindName] at h

theorem exists_members (s : Session) :
    ∃ members, s.toJson = .object members ∧ members.lookup "type" = some (.text s.kindName) := by
  cases s <;> exact ⟨_, rfl, rfl⟩

theorem sameKind_of_agrees {s s' : Session} (h : s.toJson.Agrees s'.toJson) : SameKind s s' := by
  obtain ⟨members, hmembers, hkind⟩ := s.exists_members
  obtain ⟨members', hmembers', hkind'⟩ := s'.exists_members
  rw [hmembers, hmembers'] at h
  exact sameKind_of_kindName (h.member "type" hkind hkind').text_inj

/-- Sessions of one kind have the same members, and these tell all their fields. -/
theorem eq_of_agrees {s s' : Session} (h : s.toJson.Agrees s'.toJson) : s = s' := by
  cases sameKind_of_agrees h with
  | lecture =>
    have hcode := (h.member "code" rfl rfl).text_inj
    have hlabel := (h.member "raw_lesson" rfl rfl).text_inj
    have hname := (h.member "course_name" rfl rfl).text_inj
    have hteacher := (h.member "teacher" rfl rfl).text_inj
    have hroom := (h.member "room" rfl rfl).text_inj
    subst hcode hlabel hname hteacher hroom
    rfl
  | grouped =>
    have haudience := Audience.eq_of_agrees (h.member "group" rfl rfl)
    have hcode := (h.member "code" rfl rfl).text_inj
    have hteacher := (h.member "teacher" rfl rfl).text_inj
    have hname := (h.member "course_name" rfl rfl).text_inj
    have hroom := (h.member "room" rfl rfl).text_inj
    subst haudience hcode hteacher hname hroom
    rfl
  | project =>
    have haudience := audienceOrNull_inj (h.member "group" rfl rfl)
    have hcode := (h.member "code" rfl rfl).text_inj
    have hteacher := (h.member "teacher" rfl rfl).text_inj
    have hname := (h.member "course_name" rfl rfl).text_inj
    have hlabel := textOrNull_inj (h.member "raw_lesson" rfl rfl)
    have hroom := (h.member "room" rfl rfl).text_inj
    subst haudience hcode hteacher hname hlabel hroom
    rfl
  | other =>
    have hdescription := (h.member "description" rfl rfl).text_inj
    have hteacher := (h.member "teacher" rfl rfl).text_inj
    have hroom := (h.member "room" rfl rfl).text_inj
    subst hdescription hteacher hroom
    rfl

end Session

structure Lesson.InParis (l : Lesson) : Prop where
  start : l.start.InParis
  finish : l.finish.InParis

theorem Lesson.eq_of_agrees {l l' : Lesson} (hl : l.InParis) (hl' : l'.InParis)
    (h : l.toJson.Agrees l'.toJson) : l = l' := by
  have hstart := hl.start.eq_of_write hl'.start (h.member "start_date" rfl rfl).text_inj
  have hfinish := hl.finish.eq_of_write hl'.finish (h.member "end_date" rfl rfl).text_inj
  have hsession := Session.eq_of_agrees (h.member "variant" rfl rfl)
  cases l
  cases l'
  subst hstart hfinish hsession
  rfl

structure Header.InParis (header : Header) : Prop where
  start : header.start.InParis
  finish : header.finish.InParis

theorem Header.eq_of_agrees {header header' : Header} (hh : header.InParis) (hh' : header'.InParis)
    (h : header.toJson.Agrees header'.toJson) : header = header' := by
  have hweek := Int.ofNat_inj.1 (h.member "week_number" rfl rfl).integer_inj
  have hweekInYear := Int.ofNat_inj.1 (h.member "week_number_in_year" rfl rfl).integer_inj
  have hstart := hh.start.eq_of_write hh'.start (h.member "start_date" rfl rfl).text_inj
  have hfinish := hh.finish.eq_of_write hh'.finish (h.member "end_date" rfl rfl).text_inj
  cases header
  cases header'
  subst hweek hweekInYear hstart hfinish
  rfl

theorem lessons_eq_of_agrees {lessons lessons' : List Lesson} (hl : ∀ l ∈ lessons, l.InParis)
    (hl' : ∀ l ∈ lessons', l.InParis)
    (h : List.Forall₂ Json.Agrees (lessons.map Lesson.toJson) (lessons'.map Lesson.toJson)) :
    lessons = lessons' := by
  induction lessons generalizing lessons' with
  | nil =>
    cases lessons' with
    | nil => rfl
    | cons l' lessons' => cases h
  | cons l lessons ih =>
    cases lessons' with
    | nil => cases h
    | cons l' lessons' =>
      obtain ⟨hfirst, hrest⟩ := List.forall₂_cons.1 h
      rw [Lesson.eq_of_agrees (hl l List.mem_cons_self) (hl' l' List.mem_cons_self) hfirst,
        ih (fun l hmem => hl l (List.mem_cons_of_mem _ hmem)) (fun l hmem => hl' l (List.mem_cons_of_mem _ hmem))
          hrest]

theorem inParis_of_read {text : String} {header : Header} (h : HeaderText.read text = .ok header) :
    header.InParis := by
  unfold HeaderText.read at h
  split at h
  · cases h
  · split at h
    · obtain ⟨week, -, h⟩ := Outcome.bind_eq_ok_iff.1 h
      obtain ⟨weekInYear, -, h⟩ := Outcome.bind_eq_ok_iff.1 h
      cases h
      exact ⟨DateTime.inParis_midnight _, DateTime.inParis_midnight _⟩
    · cases h

theorem timeOfDay?_lt {label : String} {clock : Nat × Nat} (h : timeOfDay? label = some clock) :
    clock.1 < 24 ∧ clock.2 < 60 := by
  unfold timeOfDay? at h
  split at h
  · split at h
    · split at h
      · cases h
        simp only
        omega
      · cases h
    · cases h
  · cases h

theorem IsInWeek.inParis {base t : DateTime} {day : Weekday} {clock : Nat × Nat} {label : String}
    (h : IsInWeek base day clock t) (hclock : timeOfDay? label = some clock) (hbase : base.InParis) :
    t.InParis := by
  obtain ⟨hhour, hminute⟩ := timeOfDay?_lt hclock
  refine ⟨h.hour ▸ hhour, h.minute ▸ hminute, ?_⟩
  rw [h.zone, hbase.zone]
  rfl

theorem readTimetable_inParis {elements : Elements} {courses : CourseTable} {t : Schedule}
    (h : readTimetable elements courses = .ok t) : t.header.InParis ∧ ∀ lesson ∈ t.lessons, lesson.InParis := by
  obtain ⟨placed, hplaced, h⟩ := Outcome.bind_eq_ok_iff.1 h
  obtain ⟨groups, haxis, h⟩ := Outcome.bind_eq_ok_iff.1 h
  obtain ⟨lessons, hlessons, h⟩ := Outcome.bind_eq_ok_iff.1 h
  cases h
  obtain ⟨box, ⟨-, text, -, -, hread⟩, -⟩ := readHeader_eq_ok hplaced
  have hheader : placed.header.InParis := inParis_of_read hread
  refine ⟨hheader, fun lesson hlesson => ?_⟩
  obtain ⟨results, hjudged, rfl⟩ := lessonsOf_judged (Outcome.mapError_eq_ok_iff.1 haxis) hlessons
  obtain ⟨i, hi, hat⟩ := List.mem_iff_getElem.1 (List.reduceOption_mem_iff.1 hlesson)
  obtain ⟨hlength, hall⟩ := List.forall₂_iff_get.1 hjudged
  have hgiven := hall i (hlength ▸ hi) hi
  rw [List.get_eq_getElem, List.get_eq_getElem, hat] at hgiven
  obtain ⟨g, hg⟩ := hgiven
  exact ⟨hg.start.inParis g.startTime hheader.start, hg.finish.inParis g.finishTime hheader.start⟩

/-- Timetables that are read off pages are told apart by their JSON values: if these are the same, then so are the
headers, and the lessons one by one, with their times, their kinds and all their fields. -/
theorem readTimetable_eq_of_agrees {elements elements' : Elements} {courses courses' : CourseTable}
    {t t' : Schedule} (h : readTimetable elements courses = .ok t)
    (h' : readTimetable elements' courses' = .ok t') : t.toJson.Agrees t'.toJson ↔ t = t' := by
  constructor
  · intro hagrees
    obtain ⟨hheader, hlessons⟩ := readTimetable_inParis h
    obtain ⟨hheader', hlessons'⟩ := readTimetable_inParis h'
    have hsameHeader := Header.eq_of_agrees hheader hheader' (hagrees.member "header" rfl rfl)
    have hsameLessons := lessons_eq_of_agrees hlessons hlessons' (hagrees.member "lessons" rfl rfl).items
    cases t
    cases t'
    subst hsameHeader hsameLessons
    rfl
  · rintro rfl
    exact Json.Agrees.refl t.toJson

def smallPageOf (kind : CellKind) : Elements :=
  { smallPage with boxes := smallPage.boxes.dropLast ++ [⟨50, 30, 30, 20, some kind.color⟩] }

/-- A tutorial and an exam with the same group, code, teacher, course and room have the same members, but for the
name of their kind. -/
theorem smallPageOf_not_agrees :
    ∃ t t', readTimetable (smallPageOf .tutorial) smallTable = .ok t ∧
      t.lessons.map Lesson.session = [.grouped .tutorial ⟨1, none⟩ "R1.01" "ABC" "Init" "C101"] ∧
      readTimetable (smallPageOf .exam) smallTable = .ok t' ∧
      t'.lessons.map Lesson.session = [.grouped .exam ⟨1, none⟩ "R1.01" "ABC" "Init" "C101"] ∧
      ¬ t.toJson.Agrees t'.toJson := by
  have htutorial : (readTimetable (smallPageOf .tutorial) smallTable).map (fun t => t.lessons.map Lesson.session) =
      .ok [.grouped .tutorial ⟨1, none⟩ "R1.01" "ABC" "Init" "C101"] := by
    decide +kernel
  have hexam : (readTimetable (smallPageOf .exam) smallTable).map (fun t => t.lessons.map Lesson.session) =
      .ok [.grouped .exam ⟨1, none⟩ "R1.01" "ABC" "Init" "C101"] := by
    decide +kernel
  obtain ⟨t, ht, hsession⟩ := Outcome.map_eq_ok_iff.1 htutorial
  obtain ⟨t', ht', hsession'⟩ := Outcome.map_eq_ok_iff.1 hexam
  refine ⟨t, t', ht, hsession, ht', hsession', fun hagrees => ?_⟩
  rw [(readTimetable_eq_of_agrees ht ht').1 hagrees, hsession'] at hsession
  cases hsession

end WeekGrid.Timetable
