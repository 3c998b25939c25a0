import WeekGrid.Proofs.Text.Joining
import WeekGrid.Proofs.Timetable.MissingCourses

/-!
Cells as they are written. A line of code, teacher and room with dashes between, and the lines of a lecture or of a
project with teacher and room below, are read as what was written there, whether or not the room stands there twice.
-/
namespace WeekGrid.Timetable

open Page (Bounds)

def CourseTable.announced (courses : CourseTable) (code : String) (named : String → Session) :
    Except Failure (Option Session) :=
  match courses.name? code with
  | some courseName => .ok (some (named courseName))
  | none => .error (.refused (.unknownCourseCode code))

theorem CourseTable.announced_eq (courses : CourseTable) (code : String) (named : String → Session) :
    (do return some (named (← courses.name code))) = courses.announced code named := by
  rw [announced, name_eq]
  cases courses.name? code <;> rfl

section Lines

def joinParts (separator : List Char) (parts : List String) : String :=
  String.ofList (Text.join separator (parts.map String.toList))

theorem toList_joinParts (separator : List Char) (parts : List String) :
    (joinParts separator parts).toList = Text.join separator (parts.map String.toList) := String.toList_ofList

/-- Parts that a dash with spaces around it keeps apart: it stands in none of them, and none but the last ends like the
beginning of one. -/
structure SpacedApart (parts : List String) : Prop where
  inside : ∀ part ∈ parts, ¬ spacedDash <:+: part.toList
  ending : ∀ part ∈ parts.dropLast, ¬ [' ', '-'] <:+ part.toList

def DashFree (parts : List String) : Prop := ∀ part ∈ parts, '-' ∉ part.toList

def GroupedKind.KeepsApart : GroupedKind → List String → Prop
  | practical => SpacedApart
  | tutorial => DashFree
  | exam => DashFree

theorem cutsAt_spacedDash {part : List Char} (hinside : ¬ spacedDash <:+: part) (hending : ¬ [' ', '-'] <:+ part)
    (rest : List Char) : Text.CutsAt spacedDash (part ++ spacedDash ++ rest) part rest := by
  refine Text.cutsAt_append hinside (fun head tail hseparator hhead htail hfront hback => ?_) rest
  rcases head with _ | ⟨a, _ | ⟨b, _ | ⟨c, head⟩⟩⟩
  · exact hhead rfl
  · -- What is left begins with the dash, and no separator does.
    obtain ⟨rfl, rfl⟩ := List.cons.inj hseparator
    revert hfront
    decide
  · obtain ⟨rfl, hrest⟩ := List.cons.inj hseparator
    obtain ⟨rfl, -⟩ := List.cons.inj hrest
    exact hending hback
  · obtain ⟨-, -, -, hrest⟩ : _ ∧ _ ∧ _ ∧ head = [] ∧ tail = [] := by simpa [spacedDash] using hseparator
    exact htail hrest.2

theorem cutsAt_dash {part : List Char} (h : '-' ∉ part) (rest : List Char) :
    Text.CutsAt ['-'] (part ++ ['-'] ++ rest) part rest := by
  refine Text.cutsAt_append (fun hinside => h (hinside.subset List.mem_cons_self)) ?_ rest
  intro head tail hseparator hhead htail
  have hlength := congrArg List.length hseparator
  rw [List.length_append] at hlength
  have hhead := List.length_pos_iff.2 hhead
  have htail := List.length_pos_iff.2 htail
  simp only [List.length_singleton] at hlength
  omega

theorem split_joinParts {kind : GroupedKind} {parts : List String} (hne : parts ≠ []) (h : kind.KeepsApart parts) :
    Text.split kind.separator (joinParts kind.separator parts).toList = parts.map String.toList := by
  have hne' : parts.map String.toList ≠ [] := by simpa using hne
  have hdash : DashFree parts → Text.split ['-'] (joinParts ['-'] parts).toList = parts.map String.toList := by
    intro h
    rw [toList_joinParts]
    refine Text.split_join (by decide) hne' (List.forall_mem_map.2 fun part hpart hinside => ?_) ?_
    · exact h part hpart (hinside.subset List.mem_cons_self)
    · rw [← List.map_dropLast, List.forall_mem_map]
      exact fun part hpart => cutsAt_dash (h part (List.dropLast_subset _ hpart))
  cases kind with
  | practical =>
    change SpacedApart parts at h
    change Text.split spacedDash (joinParts spacedDash parts).toList = _
    rw [toList_joinParts]
    refine Text.split_join (by decide) hne' (List.forall_mem_map.2 h.inside) ?_
    rw [← List.map_dropLast, List.forall_mem_map]
    exact fun part hpart => cutsAt_spacedDash (h.inside part (List.dropLast_subset _ hpart)) (h.ending part hpart)
  | tutorial => exact hdash h
  | exam => exact hdash h

def firstThree? : List String → Option (String × String × String)
  | code :: teacher :: room :: _ => some (Text.trimmed code, Text.trimmed teacher, Text.trimmed room)
  | _ => none

theorem firstThree?_eq_none {parts : List String} (h : parts.length < 3) : firstThree? parts = none := by
  rcases parts with _ | ⟨code, _ | ⟨teacher, _ | ⟨room, more⟩⟩⟩
  · rfl
  · rfl
  · rfl
  · simp only [List.length_cons] at h
    omega

variable {parts : List String}

theorem threeParts?_joinParts {kind : GroupedKind} (hne : parts ≠ []) (hparts : ∀ part ∈ parts, part ≠ "")
    (h : kind.KeepsApart parts) : threeParts? kind.separator (joinParts kind.separator parts) = firstThree? parts := by
  have hkept : (parts.map String.toList).filter (· ≠ []) = parts.map String.toList := by
    refine List.filter_eq_self.2 (List.forall_mem_map.2 fun part hpart => ?_)
    simpa using hparts part hpart
  rw [threeParts?, splitParts, split_joinParts hne h, hkept]
  rcases parts with _ | ⟨code, _ | ⟨teacher, _ | ⟨room, more⟩⟩⟩ <;> rfl

/-- A blank part is read as an empty one. -/
theorem trimmed_of_blank {part : String} (h : ∀ c ∈ part.toList, Text.isBlank c = true) : Text.trimmed part = "" := by
  rw [Text.trimmed, Text.strip_of_blank h]

/-- A line of three parts or more, kept apart by dashes, is the session of its first three parts if the course is in the
table, and refused for it otherwise; fewer parts are no session, whatever the table. A blank part stays an empty one in
its place. -/
theorem dashedLine_read (hne : parts ≠ []) (hparts : ∀ part ∈ parts, part ≠ "") (courses : CourseTable) (row : Row) :
    (∀ kind : GroupedKind, kind.KeepsApart parts → ∀ lines,
      (∀ code teacher room more, parts = code :: teacher :: room :: more →
        grouped? courses kind row (joinParts kind.separator parts :: lines) =
          courses.announced (Text.trimmed code) fun courseName =>
            .grouped kind (kind.audience row) (Text.trimmed code) (Text.trimmed teacher) courseName
              (Text.trimmed room)) ∧
      (parts.length < 3 → grouped? courses kind row (joinParts kind.separator parts :: lines) = .ok none)) ∧
    (SpacedApart parts → ∀ groups bounds,
      (∀ code teacher room more, parts = code :: teacher :: room :: more →
        project? courses groups bounds row [joinParts spacedDash parts] =
          courses.announced (Text.trimmed code) fun courseName =>
            .project (some ⟨row.group, if rowsInside bounds groups = 0 then some row.half else none⟩)
              (Text.trimmed code) (Text.trimmed teacher) courseName none (Text.trimmed room)) ∧
      (parts.length < 3 → project? courses groups bounds row [joinParts spacedDash parts] = .ok none)) ∧
    ∀ part ∈ parts, (∀ c ∈ part.toList, Text.isBlank c = true) → Text.trimmed part = "" := by
  refine ⟨fun kind h lines => ?_, fun h groups bounds => ?_, fun _ _ => trimmed_of_blank⟩
  · rw [grouped?, threeParts?_joinParts hne hparts h]
    constructor
    · rintro code teacher room more rfl
      exact courses.announced_eq _ _
    · intro hlength
      rw [firstThree?_eq_none hlength]
      rfl
  · have hthree : threeParts? spacedDash (joinParts spacedDash parts) = firstThree? parts :=
      @threeParts?_joinParts _ .practical hne hparts h
    rw [project?, projectLine?, hthree]
    constructor
    · rintro code teacher room more rfl
      exact courses.announced_eq _ _
    · intro hlength
      rw [firstThree?_eq_none hlength]
      rfl

def teacherlessParts : List String := ["R1.01", " ", "C101"]

theorem teacherlessParts_read :
    grouped? smallTable .practical ⟨1, .a, .monday⟩ [joinParts spacedDash teacherlessParts] =
      .ok (some (.grouped .practical ⟨1, some .a⟩ "R1.01" "" "Init" "C101")) ∧
    grouped? smallTable .tutorial ⟨1, .a, .monday⟩ [joinParts ['-'] teacherlessParts] =
      .ok (some (.grouped .tutorial ⟨1, none⟩ "R1.01" "" "Init" "C101")) ∧
    project? [] [] ⟨0, 0, 50, 60⟩ ⟨1, .a, .monday⟩ [joinParts spacedDash teacherlessParts] =
      .error (.refused (.unknownCourseCode "R1.01")) := by
  have hspaced : SpacedApart teacherlessParts := ⟨by decide +kernel, by decide +kernel⟩
  have hfree : DashFree teacherlessParts := by
    unfold DashFree
    decide +kernel
  have hread := fun courses => @dashedLine_read teacherlessParts (by decide) (by decide) courses ⟨1, .a, .monday⟩
  refine ⟨?_, ?_, ?_⟩
  · exact ((hread smallTable).1 .practical hspaced []).1 "R1.01" " " "C101" [] rfl
  · exact ((hread smallTable).1 .tutorial hfree []).1 "R1.01" " " "C101" [] rfl
  · exact ((hread []).2.1 hspaced [] ⟨0, 0, 50, 60⟩).1 "R1.01" " " "C101" [] rfl

end Lines

section Words

theorem distinctWords_eq (seen words : List (List Char)) :
    distinctWords seen words = seen ++ (words.filter fun w => w ∉ seen).eraseDups := by
  induction words generalizing seen with
  | nil => exact (List.append_nil seen).symm
  | cons word words ih =>
    rw [distinctWords]
    by_cases hseen : word ∈ seen
    · rw [if_pos (List.contains_iff_mem.2 hseen), ih, List.filter_cons_of_neg (by simpa using hseen)]
    · have hfilter : (words.filter fun w => w ∉ seen ++ [word]) =
          (words.filter fun w => w ∉ seen).filter fun w => !w == word := by
        rw [List.filter_filter]
        refine List.filter_congr fun w _ => ?_
        by_cases hw : w = word <;> simp [hw]
      rw [if_neg (List.contains_iff_mem.not.2 hseen), ih, List.filter_cons_of_pos (by simpa using hseen),
        List.eraseDups_cons, hfilter, List.append_assoc, List.singleton_append]

theorem eraseDups_map {α β : Type} [BEq α] [LawfulBEq α] [BEq β] [LawfulBEq β] {f : α → β}
    (hf : ∀ {a b}, f a = f b → a = b) (items : List α) : (items.map f).eraseDups = items.eraseDups.map f := by
  match items with
  | [] => rfl
  | item :: items =>
    have hfilter : (items.map f).filter (fun b => !b == f item) = (items.filter fun a => !a == item).map f := by
      rw [List.filter_map]
      refine congrArg (List.map f) (List.filter_congr fun a _ => ?_)
      exact congrArg (!·) (Bool.eq_iff_iff.2 (by simpa using ⟨hf, congrArg f⟩))
    have hlength := List.length_filter_le (fun a => !a == item) items
    rw [List.map_cons, List.eraseDups_cons, hfilter, eraseDups_map hf, List.eraseDups_cons, List.map_cons]
termination_by items.length

structure IsWord (word : String) : Prop where
  ne_empty : word ≠ ""
  not_blank : ∀ c ∈ word.toList, Text.isBlank c = false

instance (word : String) : Decidable (IsWord word) :=
  decidable_of_iff (word ≠ "" ∧ word.toList.all (!Text.isBlank ·) = true)
    ⟨fun h => ⟨h.1, by simpa using h.2⟩, fun h => ⟨h.ne_empty, by simpa using h.not_blank⟩⟩

structure IsLine (line : String) : Prop where
  ne_empty : line ≠ ""
  trimmed : Text.trimmed line = line

/-- The first line of a lecture: the words of its code, and perhaps a label behind a dash. -/
def writtenHead (words : List String) : Option String → String
  | none => joinLines words
  | some label => joinLines words ++ " - " ++ label

theorem IsLine.strip {line : String} (h : IsLine line) : Text.strip line.toList = line.toList := by
  have htrimmed := congrArg String.toList h.trimmed
  rwa [Text.trimmed, String.toList_ofList] at htrimmed

theorem words_joinLines {words : List String} (h : ∀ word ∈ words, IsWord word) :
    Text.words (joinLines words).toList = words.map String.toList := by
  rw [joinLines, String.toList_ofList]
  refine Text.words_join (List.forall_mem_map.2 fun word hword => ⟨?_, (h word hword).not_blank⟩)
  simpa using (h word hword).ne_empty

theorem withoutRepeats_joinLines {words : List String} (h : ∀ word ∈ words, IsWord word) :
    String.ofList (withoutRepeats (Text.strip (joinLines words).toList)) = joinLines words.eraseDups := by
  rw [withoutRepeats, Text.words_strip, words_joinLines h, distinctWords_eq, joinLines,
    ← eraseDups_map String.toList_inj.1]
  simp

theorem lectureHead_writtenHead {words : List String} {label : Option String} (hwords : ∀ word ∈ words, IsWord word)
    (hdash : ∀ word ∈ words.tail, word.toList.head? ≠ some '-') (hlabel : ∀ l ∈ label, IsLine l) :
    lectureHead (writtenHead words label) = (joinLines words.eraseDups, label.toList) := by
  have hinside : ¬ [' ', '-'] <:+: (joinLines words).toList := by
    rw [joinLines, String.toList_ofList]
    refine Text.not_infix_join (List.forall_mem_map.2 fun word hword => ⟨?_, fun hblank => ?_⟩) ?_
    · simpa using (hwords word hword).ne_empty
    · exact absurd ((hwords word hword).not_blank ' ' hblank) (by decide)
    · rw [← List.map_tail]
      exact List.forall_mem_map.2 hdash
  cases label with
  | none =>
    rw [lectureHead, writtenHead, (Text.cut?_eq_none_iff (by decide)).2 hinside]
    simp [withoutRepeats_joinLines hwords]
  | some label =>
    have hborder : ∀ head tail : List Char, [' ', '-'] = head ++ tail → head ≠ [] → tail ≠ [] →
        tail <+: [' ', '-'] → ¬ head <:+ (joinLines words).toList := by
      intro head tail hseparator hhead htail hfront
      rcases head with _ | ⟨a, _ | ⟨b, head⟩⟩
      · exact absurd rfl hhead
      · obtain ⟨rfl, rfl⟩ := List.cons.inj hseparator
        exact absurd (List.cons_prefix_cons.1 hfront).1 (by decide)
      · obtain ⟨-, -, -, hrest⟩ : _ ∧ _ ∧ head = [] ∧ tail = [] := by simpa using hseparator
        exact absurd hrest htail
    have hcut := Text.cutsAt_append hinside hborder (' ' :: label.toList)
    have htext : (writtenHead words (some label)).toList =
        (joinLines words).toList ++ [' ', '-'] ++ ' ' :: label.toList := by
      simp [writtenHead]
    have hstrip : Text.strip (' ' :: label.toList) = label.toList := by
      rw [Text.strip_cons_blank (by decide), (hlabel label rfl).strip]
    have hne : label.toList ≠ [] := by simpa using (hlabel label rfl).ne_empty
    rw [lectureHead, htext, (Text.cut?_eq_some_iff (by decide)).2 hcut, Option.getD_some]
    simp [withoutRepeats_joinLines hwords, hstrip, hne]

end Words

section Stacked

/-- The label in a description: what stands behind the first dash with spaces around it, or nothing without one. -/
inductive LabelIn (description : String) : String → Prop where
  | behind {before after} (h : Text.CutsAt spacedDash description.toList before after) :
      LabelIn description (String.ofList after)
  | missing (h : ¬ spacedDash <:+: description.toList) : LabelIn description ""

theorem labelIn_labelOf (description : String) : LabelIn description (labelOf description) := by
  rw [labelOf]
  cases hcut : Text.cut? spacedDash description.toList with
  | none => exact .missing ((Text.cut?_eq_none_iff (by decide)).1 hcut)
  | some pair => exact .behind (Text.cutsAt_of_cut? hcut)

variable {lines : List String} {teacher room : String} {ending : List String}

theorem popRoomAndTeacher_append (hne : teacher ≠ room)
    (hending : ending = [teacher, room] ∨ ending = [teacher, room, room]) (lines : List String) :
    popRoomAndTeacher (lines ++ ending) = (some (room, teacher), lines) := by
  rw [popRoomAndTeacher_eq_some_iff]
  rcases hending with rfl | rfl
  · exact .inl ⟨rfl, hne⟩
  · exact .inr rfl

theorem IsLine.not_blank {line : String} (h : IsLine line) : ¬ ∀ c ∈ line.toList, Text.isBlank c = true := by
  have hne : Text.strip line.toList ≠ [] := by
    rw [h.strip]
    simpa using h.ne_empty
  have hnot := Text.not_blank_of_strip_ne_nil hne
  rwa [h.strip] at hnot

/-- A lecture written as the words of its code with or without a label, more lines, and teacher and room below, is read
as that lecture if its course is in the table, and refused for the course otherwise. A project of some lines with teacher
and room below is read as a session of the course that their first word is, if it is one, and as these lines otherwise.
It makes no difference whether the room stands there twice. -/
theorem stackedLines_read (hlines : ∀ line ∈ lines, IsLine line) (hne : teacher ≠ room)
    (hending : ending = [teacher, room] ∨ ending = [teacher, room, room]) (courses : CourseTable) :
    (∀ words label, (∀ word ∈ words, IsWord word) → (∀ word ∈ words.tail, word.toList.head? ≠ some '-') →
      (∀ l ∈ label, IsLine l) →
        lecture? courses (writtenHead words label :: (lines ++ ending)) =
          courses.announced (joinLines words.eraseDups) fun courseName =>
            .lecture (joinLines words.eraseDups) (joinLines (label.toList ++ lines)) courseName teacher room) ∧
    (lines ≠ [] → ∃ word label, firstWord? (joinLines lines) = some word ∧ LabelIn (joinLines lines) label ∧
      ∀ groups bounds row, project? courses groups bounds row (lines ++ ending) =
        .ok (some (match courses.name? word with
          | some courseName => .project none word teacher courseName (some label) room
          | none => .other (joinLines lines) teacher room))) := by
  have hpop := popRoomAndTeacher_append hne hending lines
  constructor
  · intro words label hwords hdash hlabel
    rw [lecture?, lectureHead_writtenHead hwords hdash hlabel, hpop]
    exact courses.announced_eq _ _
  · intro hnonempty
    obtain ⟨line, rest, rfl⟩ := List.exists_cons_of_ne_nil hnonempty
    have hblank := (hlines line List.mem_cons_self).not_blank
    have hwords : Text.words (joinLines (line :: rest)).toList ≠ [] := words_joinLines_ne_nil List.mem_cons_self hblank
    obtain ⟨word, more, hwords⟩ := List.exists_cons_of_ne_nil hwords
    have hcode : firstWord? (joinLines (line :: rest)) = some (String.ofList word) := by
      rw [firstWord?, hwords]
      rfl
    refine ⟨String.ofList word, labelOf (joinLines (line :: rest)), hcode, labelIn_labelOf _,
      fun groups bounds row => ?_⟩
    have hseveral : project? courses groups bounds row ((line :: rest) ++ ending) =
        projectLines? courses ((line :: rest) ++ ending) := by
      rcases hending with rfl | rfl <;> cases rest <;> rfl
    rw [hseveral, projectLines?_eq_described hpop hcode]
    rfl

theorem repeatedRoom_read :
    lecture? [("R1.01 R1.02", "Init")]
        (writtenHead ["R1.01", "R1.02", "R1.01"] (some "Cours") :: (["Amphi A -"] ++ ["ABC", "C101", "C101"])) =
      .ok (some (.lecture "R1.01 R1.02" "Cours Amphi A -" "Init" "ABC" "C101")) ∧
    ∃ label, LabelIn "R1.01 - Projet" label ∧
      project? smallTable [] ⟨0, 0, 50, 60⟩ ⟨1, .a, .monday⟩ (["R1.01 - Projet"] ++ ["ABC", "C101", "C101"]) =
        .ok (some (.project none "R1.01" "ABC" "Init" (some label) "C101")) := by
  have hamphi : IsLine "Amphi A -" := ⟨by decide, by decide +kernel⟩
  have hproject : IsLine "R1.01 - Projet" := ⟨by decide, by decide +kernel⟩
  have hlabel : IsLine "Cours" := ⟨by decide, by decide +kernel⟩
  have hfirst : IsWord "R1.01" := by decide +kernel
  have hsecond : IsWord "R1.02" := by decide +kernel
  constructor
  · have hread := @stackedLines_read ["Amphi A -"] "ABC" "C101" _ (List.forall_mem_singleton.2 hamphi) (by decide)
      (.inr rfl) [("R1.01 R1.02", "Init")]
    refine hread.1 ["R1.01", "R1.02", "R1.01"] (some "Cours") ?_ ?_ ?_
    · exact List.forall_mem_cons.2 ⟨hfirst, List.forall_mem_cons.2 ⟨hsecond, List.forall_mem_singleton.2 hfirst⟩⟩
    · decide +kernel
    · rintro _ ⟨⟩
      exact hlabel
  · have hread := @stackedLines_read ["R1.01 - Projet"] "ABC" "C101" _ (List.forall_mem_singleton.2 hproject) (by decide)
      (.inr rfl) smallTable
    obtain ⟨word, label, hword, hlabel, hread⟩ := hread.2 (List.cons_ne_nil _ _)
    have hcode : firstWord? (joinLines ["R1.01 - Projet"]) = some "R1.01" := by decide +kernel
    obtain rfl : "R1.01" = word := Option.some.inj (hcode.symm.trans hword)
    exact ⟨label, hlabel, hread [] ⟨0, 0, 50, 60⟩ ⟨1, .a, .monday⟩⟩

end Stacked
end WeekGrid.Timetable
