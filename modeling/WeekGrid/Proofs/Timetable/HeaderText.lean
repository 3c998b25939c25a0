import WeekGrid.Proofs.Civil.Slashed
import WeekGrid.Proofs.Timetable.Justification

/-!
The texts of week headers. A header is found where a text of the right shape begins first, and it is read as what
was written there; a text is unparseable only if nothing in it has the shape, or a date in the first place that has
it is no date.
-/
namespace WeekGrid.Timetable

open Page (Elements Box)

namespace HeaderText

/-- The parts of a header text have their form: two runs of digits, and two texts shaped like dates. -/
structure IsShaped (parts : HeaderText) : Prop where
  week : parts.week ≠ [] ∧ parts.week.all Text.isDigit
  weekInYear : parts.weekInYear ≠ [] ∧ parts.weekInYear.all Text.isDigit
  start : Text.hasShape datePattern.toList parts.start
  finish : Text.hasShape datePattern.toList parts.finish

def written (parts : HeaderText) : List Char :=
  "Semaine ".toList ++ parts.week ++ " (".toList ++ parts.weekInYear ++ ") : du ".toList ++ parts.start ++
    " au ".toList ++ parts.finish

theorem written_append (parts : HeaderText) (rest : List Char) :
    parts.written ++ rest = "Semaine ".toList ++ (parts.week ++ (" (".toList ++ (parts.weekInYear ++
      (") : du ".toList ++ (parts.start ++ (" au ".toList ++ (parts.finish ++ rest))))))) := by
  -- `simp` cannot unfold the definition: the equation that it makes for it evaluates the words.
  have hwritten : parts.written = "Semaine ".toList ++ parts.week ++ " (".toList ++ parts.weekInYear ++
      ") : du ".toList ++ parts.start ++ " au ".toList ++ parts.finish := rfl
  rw [hwritten]
  simp only [List.append_assoc]

/-- A header text in a text, behind the characters before it. -/
def OccursAfter (before : List Char) (parts : HeaderText) (cs : List Char) : Prop :=
  parts.IsShaped ∧ before ++ parts.written <+: cs

theorem atFront?_eq_some_iff {cs : List Char} {parts : HeaderText} :
    atFront? cs = some parts ↔ parts.OccursAfter [] cs := by
  simp only [atFront?, Option.bind_eq_bind, Option.bind_eq_some_iff, Prod.exists, Text.afterWord?_eq_some_iff,
    Text.takeDigits?_eq_some_iff, Text.takeShape?_eq_some_iff]
  constructor
  · rintro ⟨_, rfl, week, _, ⟨rfl, hweek⟩, _, rfl, weekInYear, _, ⟨rfl, hweekInYear⟩, _, rfl, start, _,
      ⟨rfl, hstart⟩, _, rfl, finish, rest, ⟨rfl, hfinish⟩, hparts⟩
    cases hparts
    exact ⟨⟨⟨hweek.1, hweek.2.1⟩, ⟨hweekInYear.1, hweekInYear.2.1⟩, hstart, hfinish⟩, rest, written_append _ rest⟩
  · rintro ⟨⟨hweek, hweekInYear, hstart, hfinish⟩, rest, rfl⟩
    have hopen : ∀ tail, ∀ c ∈ (" (".toList ++ tail).head?, Text.isDigit c = false := by
      rintro tail _ ⟨⟩
      decide
    have hclose : ∀ tail, ∀ c ∈ (") : du ".toList ++ tail).head?, Text.isDigit c = false := by
      rintro tail _ ⟨⟩
      decide
    exact ⟨_, written_append parts rest, parts.week, _, ⟨rfl, hweek.1, hweek.2, hopen _⟩, _, rfl, parts.weekInYear, _,
      ⟨rfl, hweekInYear.1, hweekInYear.2, hclose _⟩, _, rfl, parts.start, _, ⟨rfl, hstart⟩, _, rfl, parts.finish,
      rest, ⟨rfl, hfinish⟩, rfl⟩

def IsFirstIn (parts : HeaderText) (cs : List Char) : Prop :=
  ∃ before, parts.OccursAfter before cs ∧
    ∀ front (other : HeaderText), other.OccursAfter front cs → before.length ≤ front.length

theorem not_occursAfter_nil (before : List Char) (parts : HeaderText) : ¬ parts.OccursAfter before [] := by
  rintro ⟨-, hprefix⟩
  have hnil := List.prefix_nil.1 hprefix
  have hword : "Semaine ".toList = [] := by
    rw [← List.append_nil parts.written, written_append] at hnil
    exact (List.append_eq_nil_iff.1 (List.append_eq_nil_iff.1 hnil).2).1
  exact absurd hword (by decide)

theorem occursAfter_cons_iff {b c : Char} {before cs : List Char} {parts : HeaderText} :
    parts.OccursAfter (b :: before) (c :: cs) ↔ b = c ∧ parts.OccursAfter before cs := by
  rw [OccursAfter, OccursAfter, List.cons_append, List.cons_prefix_cons]
  exact and_left_comm

theorem find?_eq_none_iff {cs : List Char} :
    find? cs = none ↔ ∀ before (parts : HeaderText), ¬ parts.OccursAfter before cs := by
  induction cs with
  | nil => exact iff_of_true rfl not_occursAfter_nil
  | cons c cs ih =>
    rw [find?, Option.or_eq_none_iff, ih, Option.eq_none_iff_forall_ne_some]
    constructor
    · rintro ⟨hfront, hlater⟩ (_ | ⟨b, before⟩) parts hoccurs
      · exact hfront parts (atFront?_eq_some_iff.2 hoccurs)
      · exact hlater before parts (occursAfter_cons_iff.1 hoccurs).2
    · intro hnone
      exact ⟨fun parts hparts => hnone [] parts (atFront?_eq_some_iff.1 hparts),
        fun before parts hoccurs => hnone (c :: before) parts (occursAfter_cons_iff.2 ⟨rfl, hoccurs⟩)⟩

theorem isFirstIn_of_find? {cs : List Char} {parts : HeaderText} (h : find? cs = some parts) : parts.IsFirstIn cs := by
  induction cs with
  | nil => cases h
  | cons c cs ih =>
    rw [find?] at h
    rcases Option.or_eq_some_iff.1 h with hfront | ⟨hfront, hlater⟩
    · exact ⟨[], atFront?_eq_some_iff.1 hfront, fun _ _ _ => Nat.zero_le _⟩
    · obtain ⟨before, hoccurs, hfirst⟩ := ih hlater
      refine ⟨c :: before, occursAfter_cons_iff.2 ⟨rfl, hoccurs⟩, ?_⟩
      rintro (_ | ⟨b, front⟩) other hother
      · rw [atFront?_eq_some_iff.2 hother] at hfront
        cases hfront
      · exact Nat.succ_le_succ (hfirst front other (occursAfter_cons_iff.1 hother).2)

theorem OccursAfter.unique {before : List Char} {cs : List Char} {parts other : HeaderText}
    (h : parts.OccursAfter before cs) (hother : other.OccursAfter before cs) : parts = other := by
  induction before generalizing cs with
  | nil =>
    exact Option.some.inj ((atFront?_eq_some_iff.2 h).symm.trans
      (atFront?_eq_some_iff.2 hother))
  | cons b before ih =>
    cases cs with
    | nil => exact absurd h (not_occursAfter_nil _ _)
    | cons c cs => exact ih (occursAfter_cons_iff.1 h).2 (occursAfter_cons_iff.1 hother).2

theorem IsFirstIn.unique {cs : List Char} {parts other : HeaderText} (h : parts.IsFirstIn cs)
    (hother : other.IsFirstIn cs) : parts = other := by
  obtain ⟨before, hoccurs, hfirst⟩ := h
  obtain ⟨front, hfrontOccurs, hfrontFirst⟩ := hother
  have hlength := Nat.le_antisymm (hfirst front other hfrontOccurs) (hfrontFirst before parts hoccurs)
  have hbefore : before <+: cs := (List.prefix_append _ _).trans hoccurs.2
  have hfront : front <+: cs := (List.prefix_append _ _).trans hfrontOccurs.2
  have hprefix := List.prefix_of_prefix_length_le hbefore hfront (Nat.le_of_eq hlength)
  obtain rfl : before = front := hprefix.eq_of_length hlength
  exact hoccurs.unique hfrontOccurs

theorem find?_eq_some_iff {cs : List Char} {parts : HeaderText} : find? cs = some parts ↔ parts.IsFirstIn cs := by
  constructor
  · exact isFirstIn_of_find?
  · intro hfirst
    cases hfind : find? cs with
    | none =>
      obtain ⟨before, hoccurs, -⟩ := hfirst
      exact absurd hoccurs (find?_eq_none_iff.1 hfind before parts)
    | some other => rw [(isFirstIn_of_find? hfind).unique hfirst]

/-- A word with one `s`, at its front, does not lie across a place where an `s` stands: if it begins before the place,
it ends before it. -/
theorem within_of_occurs_before {word front before after : List Char} {s : Char} (hword : s ∉ word.tail)
    (hlt : front.length < before.length) (h : front ++ word <+: before ++ s :: after) : word <:+: before := by
  obtain ⟨rest, hrest⟩ := h
  rw [List.append_assoc, List.append_eq_append_iff] at hrest
  obtain ⟨gap, rfl, hgap⟩ | ⟨_, rfl, -⟩ := hrest
  · obtain ⟨more, rfl, -⟩ | ⟨more, rfl, hmore⟩ := List.append_eq_append_iff.1 hgap
    · exact ⟨front, more, by simp⟩
    · cases more with
      | nil => exact ⟨front, [], by simp⟩
      | cons c more =>
        obtain ⟨rfl, -⟩ := List.cons.inj hmore
        cases gap with
        | nil => simp at hlt
        | cons g gap => simp at hword
  · rw [List.length_append] at hlt
    omega

def ofHeader (week weekInYear : Nat) (start finish : Date) : HeaderText :=
  ⟨Nat.toDigits 10 week, Nat.toDigits 10 weekInYear, start.slashedPadded, finish.slashedPadded⟩

example : String.ofList (ofHeader 12 47 ⟨2024, 11, 18, by decide⟩ ⟨2024, 11, 23, by decide⟩).written =
    "Semaine 12 (47) : du 18/11/2024 au 23/11/2024" := by
  decide

theorem isShaped_ofHeader (week weekInYear : Nat) (start finish : Date) :
    (ofHeader week weekInYear start finish).IsShaped := by
  have hall : ∀ n, (Nat.toDigits 10 n).all Text.isDigit := fun n =>
    List.all_eq_true.2 fun c hc => Text.isDigit_of_mem_asciiDigits (toDigits_subset n hc)
  exact ⟨⟨Nat.toDigits_ne_nil, hall week⟩, ⟨Nat.toDigits_ne_nil, hall weekInYear⟩, start.hasShape_slashedPadded,
    finish.hasShape_slashedPadded⟩

theorem isFirstIn_append {before : List Char} (hbefore : ¬ "Semaine ".toList <:+: before) {parts : HeaderText}
    (hshaped : parts.IsShaped) (after : List Char) : parts.IsFirstIn (before ++ parts.written ++ after) := by
  refine ⟨before, ⟨hshaped, List.prefix_append _ _⟩, fun front other hother => Nat.le_of_not_lt fun hlt => ?_⟩
  have hword : front ++ "Semaine ".toList <+: front ++ other.written := by
    refine (List.prefix_append_right_inj front).2 ?_
    rw [← List.append_nil other.written, written_append]
    exact List.prefix_append _ _
  have hoccurs := hword.trans hother.2
  rw [List.append_assoc, written_append] at hoccurs
  exact hbefore (within_of_occurs_before (by decide : 'S' ∉ "Semaine ".toList.tail) hlt hoccurs)

theorem weekNumber_eq_ok {digits : List Char} (hdigits : digits ≠ [] ∧ digits.all Text.isDigit)
    (hlength : digits.length ≤ Text.digitLimit) : weekNumber digits = .ok (Text.digitsValue digits) := by
  rw [weekNumber, Text.readNatural?, if_pos ⟨hdigits.1, hdigits.2, hlength⟩]
  rfl

theorem read_eq_ok {text : String} {parts : HeaderText} {start finish : Date} (hfirst : parts.IsFirstIn text.toList)
    (hweek : parts.week.length ≤ Text.digitLimit) (hweekInYear : parts.weekInYear.length ≤ Text.digitLimit)
    (hstart : Civil.readSlashed? parts.start = some start) (hfinish : Civil.readSlashed? parts.finish = some finish) :
    read text = .ok ⟨Text.digitsValue parts.week, Text.digitsValue parts.weekInYear, .midnight start (some .paris),
      .midnight finish (some .paris)⟩ := by
  have hshaped : parts.IsShaped := hfirst.choose_spec.1.1
  simp only [read, find?_eq_some_iff.2 hfirst, hstart, hfinish, weekNumber_eq_ok hshaped.week hweek,
    weekNumber_eq_ok hshaped.weekInYear hweekInYear]
  rfl

theorem read_ofHeader {text : String} {before after : List Char} {week weekInYear : Nat} {start finish : Date}
    (hbefore : ¬ "Semaine ".toList <:+: before) (hweek : (Nat.toDigits 10 week).length ≤ Text.digitLimit)
    (hweekInYear : (Nat.toDigits 10 weekInYear).length ≤ Text.digitLimit)
    (htext : text.toList = before ++ (ofHeader week weekInYear start finish).written ++ after) :
    read text = .ok ⟨week, weekInYear, .midnight start (some .paris), .midnight finish (some .paris)⟩ := by
  have hfirst := isFirstIn_append hbefore (isShaped_ofHeader week weekInYear start finish) after
  have hvalue : ∀ n, Text.digitsValue (Nat.toDigits 10 n) = n := fun n => by
    rw [digitsValue_eq (toDigits_subset n), Nat.ofDigitChars_ten_toDigits]
  rw [← htext] at hfirst
  rw [read_eq_ok hfirst hweek hweekInYear (Civil.readSlashed?_slashedPadded start)
    (Civil.readSlashed?_slashedPadded finish)]
  simp only [ofHeader, hvalue]

theorem parts_infix (parts : HeaderText) : parts.week <:+: parts.written ∧ parts.weekInYear <:+: parts.written ∧
    parts.start <:+: parts.written ∧ parts.finish <:+: parts.written := by
  have hwritten := parts.written_append []
  rw [List.append_nil, List.append_nil] at hwritten
  rw [hwritten]
  have hhere : ∀ {part : List Char} (rest : List Char), part <:+: part ++ rest := fun rest =>
    (List.prefix_append _ rest).isInfix
  have hskip : ∀ {part rest : List Char} (word : List Char), part <:+: rest → part <:+: word ++ rest :=
    fun word h => h.trans (List.suffix_append word _).isInfix
  refine ⟨hskip _ (hhere _), hskip _ (hskip _ (hskip _ (hhere _))), ?_, ?_⟩
  · exact hskip _ (hskip _ (hskip _ (hskip _ (hskip _ (hhere _)))))
  · exact hskip _ (hskip _ (hskip _ (hskip _ (hskip _ (hskip _ (hskip _ (List.infix_refl _)))))))

/-- The digits of a text are those of ASCII, and there are not too many in a row. -/
structure HasPlainDigits (cs : List Char) : Prop where
  ascii : ∀ c ∈ cs, Text.isDigit c → c.toNat < 128
  runs : ∀ digits, digits <:+: cs → digits.all Text.isDigit → digits.length ≤ Text.digitLimit

theorem find?_eq_none_iff_not_within {cs : List Char} :
    find? cs = none ↔ ∀ parts : HeaderText, parts.IsShaped → ¬ parts.written <:+: cs := by
  rw [find?_eq_none_iff]
  constructor
  · rintro hnone parts hshaped ⟨before, after, rfl⟩
    exact hnone before parts ⟨hshaped, List.prefix_append _ _⟩
  · rintro hnone before parts ⟨hshaped, after, rfl⟩
    exact hnone parts hshaped ⟨before, after, rfl⟩

theorem read_eq_unparseable_iff {text : String} (hplain : HasPlainDigits text.toList) :
    read text = .error (.refused (.headerTextUnparseable text)) ↔
      (∀ parts : HeaderText, parts.IsShaped → ¬ parts.written <:+: text.toList) ∨
      ∃ parts : HeaderText, parts.IsFirstIn text.toList ∧
        ((∀ d : Date, parts.start ≠ d.slashedPadded) ∨ ∀ d : Date, parts.finish ≠ d.slashedPadded) := by
  cases hfind : find? text.toList with
  | none =>
    refine iff_of_true ?_ (.inl (find?_eq_none_iff_not_within.1 hfind))
    rw [read, hfind]
    rfl
  | some parts =>
    have hfirst := find?_eq_some_iff.1 hfind
    obtain ⟨before, ⟨hshaped, hprefix⟩, -⟩ := find?_eq_some_iff.1 hfind
    have hinfix : parts.written <:+: text.toList := (List.suffix_append before _).isInfix.trans hprefix.isInfix
    obtain ⟨hweek, hweekInYear, hstart, hfinish⟩ := parts.parts_infix
    have hnoStart := Civil.readSlashed?_eq_none_iff hshaped.start fun c hc =>
      hplain.ascii c ((hstart.trans hinfix).subset hc)
    have hnoFinish := Civil.readSlashed?_eq_none_iff hshaped.finish fun c hc =>
      hplain.ascii c ((hfinish.trans hinfix).subset hc)
    cases hreadStart : Civil.readSlashed? parts.start with
    | none =>
      refine iff_of_true ?_ (.inr ⟨parts, hfirst, .inl (hnoStart.1 hreadStart)⟩)
      simp only [read, hfind, hreadStart]
      rfl
    | some start =>
      cases hreadFinish : Civil.readSlashed? parts.finish with
      | none =>
        refine iff_of_true ?_ (.inr ⟨parts, hfirst, .inr (hnoFinish.1 hreadFinish)⟩)
        simp only [read, hfind, hreadStart, hreadFinish]
        rfl
      | some finish =>
        have hread := read_eq_ok hfirst (hplain.runs _ (hweek.trans hinfix) hshaped.week.2)
          (hplain.runs _ (hweekInYear.trans hinfix) hshaped.weekInYear.2) hreadStart hreadFinish
        refine iff_of_false (by rw [hread]; nofun) ?_
        rintro (hnone | ⟨other, hother, hdates⟩)
        · exact hnone parts hshaped hinfix
        · obtain rfl := hother.unique hfirst
          rcases hdates with hnoDate | hnoDate
          · rw [hnoStart.2 hnoDate] at hreadStart
            cases hreadStart
          · rw [hnoFinish.2 hnoDate] at hreadFinish
            cases hreadFinish

end HeaderText

/-- The first box of a page in the header's colour, and the first text in it. -/
structure HasHeaderText (elements : Elements) (box : Box) (text : String) : Prop where
  first : elements.boxes.find? (fun box => box.color == some headerColor) = some box
  text : (Page.textsWithin elements.texts box.bounds).head?.map (·.text) = some text

theorem readHeader_of_hasHeaderText {elements : Elements} {box : Box} {text : String}
    (h : HasHeaderText elements box text) :
    readHeader elements = (HeaderText.read text).map fun header => ⟨header, box.bounds⟩ := by
  obtain ⟨hfirst, htext⟩ := h
  obtain ⟨piece, hpiece, rfl⟩ := Option.map_eq_some_iff.1 htext
  obtain ⟨rest, htexts⟩ := List.head?_eq_some_iff.1 hpiece
  simp only [readHeader, hfirst, htexts]
  cases HeaderText.read piece.text <;> rfl

/-- Reading the header of a page undoes writing it, and refuses every other text. -/
theorem readHeader_undoes_written {elements : Elements} {box : Box} {text : String}
    (h : HasHeaderText elements box text) :
    (∀ (before after : List Char) (week weekInYear : Nat) (start finish : Date),
      ¬ "Semaine ".toList <:+: before → (Nat.toDigits 10 week).length ≤ Text.digitLimit →
      (Nat.toDigits 10 weekInYear).length ≤ Text.digitLimit →
      text.toList = before ++ (HeaderText.ofHeader week weekInYear start finish).written ++ after →
      readHeader elements = .ok ⟨⟨week, weekInYear, .midnight start (some .paris), .midnight finish (some .paris)⟩,
        box.bounds⟩) ∧
    (HeaderText.HasPlainDigits text.toList →
      (readHeader elements = .error (.refused (.headerTextUnparseable text)) ↔
        (∀ parts : HeaderText, parts.IsShaped → ¬ parts.written <:+: text.toList) ∨
        ∃ parts : HeaderText, parts.IsFirstIn text.toList ∧
          ((∀ d : Date, parts.start ≠ d.slashedPadded) ∨ ∀ d : Date, parts.finish ≠ d.slashedPadded))) := by
  rw [readHeader_of_hasHeaderText h]
  constructor
  · intro before after week weekInYear start finish hbefore hweek hweekInYear htext
    rw [HeaderText.read_ofHeader hbefore hweek hweekInYear htext]
    rfl
  · intro hplain
    rw [← HeaderText.read_eq_unparseable_iff hplain]
    cases HeaderText.read text <;> simp [Except.map]

def headerPage (text : String) : Elements where
  texts := [⟨10, 110, text⟩]
  boxes := [⟨0, 100, 200, 20, some headerColor⟩]

/-- A week in November is read; one that begins on 31 February is refused. -/
theorem headerPage_read :
    readHeader (headerPage "EDT Semaine 12 (47) : du 18/11/2024 au 23/11/2024 A1") =
      .ok ⟨⟨12, 47, .midnight ⟨2024, 11, 18, by decide⟩ (some .paris),
        .midnight ⟨2024, 11, 23, by decide⟩ (some .paris)⟩, (⟨0, 100, 200, 20, some headerColor⟩ : Box).bounds⟩ ∧
    readHeader (headerPage "Semaine 1 (36) : du 31/02/2024 au 07/09/2024") =
      .error (.refused (.headerTextUnparseable "Semaine 1 (36) : du 31/02/2024 au 07/09/2024")) := by
  have hinside : (⟨0, 100, 200, 20, some headerColor⟩ : Box).bounds.contains 10 110 = true := by decide +kernel
  have hpage : ∀ text, HasHeaderText (headerPage text) ⟨0, 100, 200, 20, some headerColor⟩ text := fun text =>
    ⟨by simp [headerPage], by simp [headerPage, Page.textsWithin, hinside]⟩
  constructor
  · exact (readHeader_undoes_written (hpage _)).1 "EDT ".toList " A1".toList 12 47 ⟨2024, 11, 18, by decide⟩
      ⟨2024, 11, 23, by decide⟩ (by decide) (by decide) (by decide) (by decide)
  · have hascii : ∀ {cs : List Char}, (cs.all fun c => c.toNat < 128) = true →
        ∀ c ∈ cs, Text.isDigit c → c.toNat < 128 := fun hall c hc _ =>
      of_decide_eq_true (List.all_eq_true.1 hall c hc)
    have hplain : HeaderText.HasPlainDigits "Semaine 1 (36) : du 31/02/2024 au 07/09/2024".toList :=
      ⟨hascii (by decide), fun digits hdigits _ => Nat.le_trans hdigits.length_le (by decide)⟩
    refine ((readHeader_undoes_written (hpage _)).2 hplain).2 (.inr ⟨⟨['1'], ['3', '6'], "31/02/2024".toList,
      "07/09/2024".toList⟩, HeaderText.find?_eq_some_iff.1 (by decide), .inl ?_⟩)
    exact (Civil.readSlashed?_eq_none_iff (by decide) (hascii (by decide))).1 (by decide)

end WeekGrid.Timetable
