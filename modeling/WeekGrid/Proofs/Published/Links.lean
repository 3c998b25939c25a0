import Mathlib.Data.List.Basic
import WeekGrid.Proofs.Text.Joining
import WeekGrid.Published.Listing

/-!
The links of a listing page. A link begins with a reference to a file of the year, and ends with the first time stamp
behind it on the same line. The links of a text are read off from the left, none of them inside another; since none
goes past the end of a line, those of two texts, one below the other, are the links of the first and then those of the
second.
-/
namespace WeekGrid.Published

open Text (hasShape isDigit)

/-- How a link begins: `href="A1_S12.pdf"`, with the digits of the week. -/
def reference (year : YearOfStudy) (week : List Char) : List Char :=
  ("href=\"" ++ year.name ++ "_S").toList ++ (week ++ ".pdf\"".toList)

/-- A time stamp behind a gap, both on one line; no time stamp begins earlier, not even one that ends in the other. -/
structure FirstStamp (gap stamp : List Char) : Prop where
  shape : hasShape Link.stampPattern.toList stamp
  line : '\n' ∉ gap
  first : ∀ before text after, gap ++ stamp = before ++ (text ++ after) → hasShape Link.stampPattern.toList text →
    gap.length ≤ before.length

/-- A link stands at the front of a text, and what follows its time stamp. -/
structure Begins (year : YearOfStudy) (cs : List Char) (link : Link) (rest : List Char) : Prop where
  ne_nil : link.week ≠ []
  digits : link.week.all isDigit
  text : ∃ gap, cs = reference year link.week ++ (gap ++ (link.stamp ++ rest)) ∧ FirstStamp gap link.stamp

/-- The links of a text: each is the first to begin behind the one before. -/
inductive LinksIn (year : YearOfStudy) : List Char → List Link → Prop where
  | nil : LinksIn year [] []
  | skip {c : Char} {cs : List Char} {links : List Link} (h : ∀ link rest, ¬ Begins year (c :: cs) link rest)
      (more : LinksIn year cs links) : LinksIn year (c :: cs) links
  | link {cs rest : List Char} {link : Link} {links : List Link} (h : Begins year cs link rest)
      (more : LinksIn year rest links) : LinksIn year cs (link :: links)

section Stamps

theorem length_stamp {text : List Char} (h : hasShape Link.stampPattern.toList text) : text.length = 16 :=
  Text.length_of_hasShape h

theorem newline_not_mem_of_hasShape {pattern text : List Char} (hpattern : '\n' ∉ pattern) (h : hasShape pattern text) :
    '\n' ∉ text := by
  induction pattern generalizing text with
  | nil =>
    cases text with
    | nil => exact List.not_mem_nil
    | cons c cs => cases h
  | cons p pattern ih =>
    cases text with
    | nil => cases h
    | cons c cs =>
      obtain ⟨hc, hcs⟩ := Bool.and_eq_true_iff.1 h
      obtain ⟨hp, hpattern⟩ := not_or.1 (List.mem_cons.not.1 hpattern)
      rw [List.mem_cons, not_or]
      refine ⟨?_, ih hpattern hcs⟩
      rintro rfl
      split at hc
      · exact absurd hc (by decide)
      · exact hp (eq_of_beq hc)

theorem newline_not_mem_stamp {text : List Char} (h : hasShape Link.stampPattern.toList text) : '\n' ∉ text :=
  newline_not_mem_of_hasShape (by decide) h

theorem firstStamp_nil {stamp : List Char} (h : hasShape Link.stampPattern.toList stamp) : FirstStamp [] stamp :=
  ⟨h, List.not_mem_nil, fun _ _ _ _ _ => Nat.zero_le _⟩

theorem firstStamp_cons_iff {c : Char} {gap stamp : List Char} :
    FirstStamp (c :: gap) stamp ↔ FirstStamp gap stamp ∧ c ≠ '\n' ∧
      ∀ text after, c :: (gap ++ stamp) = text ++ after → ¬ hasShape Link.stampPattern.toList text := by
  constructor
  · rintro ⟨hshape, hline, hfirst⟩
    obtain ⟨hc, hgap⟩ := not_or.1 (List.mem_cons.not.1 hline)
    refine ⟨⟨hshape, hgap, fun before text after hsplit htext => ?_⟩, Ne.symm hc, fun text after hsplit htext => ?_⟩
    · have hle := hfirst (c :: before) text after (by rw [List.cons_append, hsplit, List.cons_append]) htext
      simpa using hle
    · have hle := hfirst [] text after hsplit htext
      simp at hle
  · rintro ⟨⟨hshape, hgap, hfirst⟩, hc, hnone⟩
    refine ⟨hshape, List.mem_cons.not.2 (not_or.2 ⟨Ne.symm hc, hgap⟩), fun before text after hsplit htext => ?_⟩
    cases before with
    | nil => exact absurd htext (hnone text after hsplit)
    | cons d before =>
      have hle := hfirst before text after (List.cons.inj hsplit).2 htext
      simpa using hle

/-- What stands in front of a time stamp is found in a text with the stamp and in any longer one alike. -/
theorem not_hasShape_front_iff {c : Char} {gap stamp : List Char} (hstamp : hasShape Link.stampPattern.toList stamp)
    (rest : List Char) :
    Text.takeShape? Link.stampPattern (c :: (gap ++ (stamp ++ rest))) = none ↔
      ∀ text after, c :: (gap ++ stamp) = text ++ after → ¬ hasShape Link.stampPattern.toList text := by
  rw [Option.eq_none_iff_forall_ne_some]
  constructor
  · intro h text after hsplit htext
    refine h (text, after ++ rest) (Text.takeShape?_eq_some_iff.2 ⟨?_, htext⟩)
    rw [← List.append_assoc, ← List.append_assoc, ← hsplit]
    simp
  · rintro h ⟨text, after⟩ hfound
    obtain ⟨hsplit, htext⟩ := Text.takeShape?_eq_some_iff.1 hfound
    have hlength : text.length ≤ (c :: (gap ++ stamp)).length := by
      simp only [List.length_cons, List.length_append, length_stamp htext, length_stamp hstamp]
      omega
    have hsplit : (c :: (gap ++ stamp)) ++ rest = text ++ after := by rw [← hsplit]; simp
    obtain ⟨more, hmore, -⟩ | ⟨more, hmore, -⟩ := List.append_eq_append_iff.1 hsplit
    · have hnil : more = [] := by
        refine List.eq_nil_of_length_eq_zero ?_
        rw [hmore, List.length_append] at hlength
        omega
      exact h text [] (by rw [hmore, hnil]; simp) htext
    · exact h text more hmore htext

theorem findStamp?_eq_some_iff {cs stamp rest : List Char} :
    Link.findStamp? cs = some (stamp, rest) ↔ ∃ gap, cs = gap ++ (stamp ++ rest) ∧ FirstStamp gap stamp := by
  -- Induction on the text: a stamp that is not in front is looked for behind one more character of the same line.
  induction cs with
  | nil =>
    rw [Link.findStamp?]
    refine ⟨nofun, ?_⟩
    rintro ⟨gap, hcs, hstamp⟩
    have hlength := length_stamp hstamp.shape
    have hnil := (List.append_eq_nil_iff.1 (List.append_eq_nil_iff.1 hcs.symm).2).1
    rw [hnil] at hlength
    cases hlength
  | cons c cs ih =>
    rw [Link.findStamp?]
    constructor
    · intro h
      split at h
      · next found hfound =>
        cases h
        obtain ⟨hsplit, hshape⟩ := Text.takeShape?_eq_some_iff.1 hfound
        exact ⟨[], hsplit, firstStamp_nil hshape⟩
      · next hnone =>
        split at h
        · cases h
        · next hc =>
          obtain ⟨gap, rfl, hfirst⟩ := ih.1 h
          have hfront := (not_hasShape_front_iff hfirst.shape rest).1 hnone
          exact ⟨c :: gap, rfl, firstStamp_cons_iff.2 ⟨hfirst, hc, hfront⟩⟩
    · rintro ⟨gap, hcs, hfirst⟩
      cases gap with
      | nil =>
        have hsplit : c :: cs = stamp ++ rest := hcs
        rw [Text.takeShape?_eq_some_iff.2 ⟨hsplit, hfirst.shape⟩]
      | cons d gap =>
        rw [List.cons_append] at hcs
        obtain ⟨rfl, rfl⟩ := List.cons.inj hcs
        obtain ⟨hmore, hc, hnone⟩ := firstStamp_cons_iff.1 hfirst
        rw [(not_hasShape_front_iff hfirst.shape rest).2 hnone]
        simp only [if_neg hc]
        exact ih.2 ⟨gap, rfl, hmore⟩

theorem findStamp?_append_iff {gap stamp : List Char} :
    Link.findStamp? (gap ++ stamp) = some (stamp, []) ↔ FirstStamp gap stamp := by
  rw [findStamp?_eq_some_iff, List.append_nil]
  constructor
  · rintro ⟨gap', hsplit, hfirst⟩
    rwa [List.append_cancel_right hsplit]
  · intro hfirst
    exact ⟨gap, rfl, hfirst⟩

instance (gap stamp : List Char) : Decidable (FirstStamp gap stamp) := decidable_of_iff _ findStamp?_append_iff

end Stamps

section Scanning

variable {year : YearOfStudy} {cs rest : List Char} {link : Link} {links : List Link}

theorem atFront?_eq_some_iff : Link.atFront? year cs = some (link, rest) ↔ Begins year cs link rest := by
  have hword : ∀ gap : List Char, ∀ c ∈ (".pdf\"".toList ++ gap).head?, isDigit c = false := by
    intro gap c hc
    cases Option.mem_some_iff.1 hc
    decide
  constructor
  · intro h
    obtain ⟨_, hfirst, h⟩ := Option.bind_eq_some_iff.1 h
    obtain ⟨⟨week, _⟩, hdigits, h⟩ := Option.bind_eq_some_iff.1 h
    obtain ⟨_, hpdf, h⟩ := Option.bind_eq_some_iff.1 h
    obtain ⟨⟨stamp, _⟩, hstamp, h⟩ := Option.bind_eq_some_iff.1 h
    cases h
    obtain ⟨gap, rfl, hgap⟩ := findStamp?_eq_some_iff.1 hstamp
    rw [Text.afterWord?_eq_some_iff] at hfirst hpdf
    obtain ⟨rfl, hne, hall, -⟩ := Text.takeDigits?_eq_some_iff.1 hdigits
    exact ⟨hne, hall, gap, by rw [hfirst, hpdf, reference]; simp only [List.append_assoc], hgap⟩
  · rintro ⟨hne, hall, gap, rfl, hgap⟩
    have hfirst : Text.afterWord? ("href=\"" ++ year.name ++ "_S") (("href=\"" ++ year.name ++ "_S").toList ++
        (link.week ++ (".pdf\"".toList ++ (gap ++ (link.stamp ++ rest))))) = some _ := Text.afterWord?_eq_some_iff.2 rfl
    have hdigits := Text.takeDigits?_eq_some_iff.2 ⟨rfl, hne, hall, hword (gap ++ (link.stamp ++ rest))⟩
    have hpdf : Text.afterWord? ".pdf\"" (".pdf\"".toList ++ (gap ++ (link.stamp ++ rest))) = some _ :=
      Text.afterWord?_eq_some_iff.2 rfl
    have hstamp := findStamp?_eq_some_iff.2 ⟨gap, Eq.refl (gap ++ (link.stamp ++ rest)), hgap⟩
    rw [reference]
    simp only [List.append_assoc]
    rw [Link.atFront?, hfirst]
    simp only [Option.bind_eq_bind, Option.bind_some, hdigits, hpdf, hstamp]
    rfl

theorem exists_reference_eq_cons (year : YearOfStudy) (week : List Char) :
    ∃ more, reference year week = 'h' :: more := by
  cases year <;> exact ⟨_, rfl⟩

theorem Begins.exists_cons (h : Begins year cs link rest) : ∃ more, cs = 'h' :: more ∧ rest <:+ more := by
  obtain ⟨-, -, gap, rfl, -⟩ := h
  obtain ⟨more, hmore⟩ := exists_reference_eq_cons year link.week
  exact ⟨more ++ (gap ++ (link.stamp ++ rest)), by rw [hmore, List.cons_append], more ++ (gap ++ link.stamp), by simp⟩

theorem scan_eq_drop (year : YearOfStudy) (pass : Nat) (cs : List Char) :
    Link.scan year pass cs = Link.scan year 0 (cs.drop pass) := by
  induction pass generalizing cs with
  | zero => rfl
  | succ pass ih =>
    cases cs with
    | nil => rfl
    | cons c cs => exact ih cs

theorem scan_of_begins (h : Begins year cs link rest) : Link.scan year 0 cs = link :: Link.scan year 0 rest := by
  have hfound := atFront?_eq_some_iff.2 h
  obtain ⟨more, rfl, hsuffix⟩ := h.exists_cons
  rw [Link.scan, hfound]
  simp only
  rw [scan_eq_drop, ← List.suffix_iff_eq_drop.1 hsuffix]

theorem scan_of_not_begins {c : Char} (h : ∀ link rest, ¬ Begins year (c :: cs) link rest) :
    Link.scan year 0 (c :: cs) = Link.scan year 0 cs := by
  have hnone : Link.atFront? year (c :: cs) = none :=
    Option.eq_none_iff_forall_ne_some.2 fun found hfound => h found.1 found.2 (atFront?_eq_some_iff.1 hfound)
  rw [Link.scan, hnone]

theorem linksIn_iff : LinksIn year cs links ↔ Link.scan year 0 cs = links := by
  constructor
  · intro h
    induction h with
    | nil => rfl
    | skip h _ ih => rw [scan_of_not_begins h, ih]
    | link h _ ih => rw [scan_of_begins h, ih]
  · rintro rfl
    -- Links may be long, so the induction is on the length of what remains.
    induction hlength : cs.length using Nat.strongRecOn generalizing cs with
    | ind n ih =>
      cases cs with
      | nil => exact .nil
      | cons c cs =>
        rw [List.length_cons] at hlength
        by_cases h : ∃ link rest, Begins year (c :: cs) link rest
        · obtain ⟨link, rest, hbegins⟩ := h
          obtain ⟨more, hmore, hsuffix⟩ := hbegins.exists_cons
          have hle : rest.length ≤ cs.length := by
            rw [(List.cons.inj hmore).2]
            exact hsuffix.length_le
          rw [scan_of_begins hbegins]
          exact .link hbegins (ih rest.length (by omega) rfl)
        · simp only [not_exists] at h
          rw [scan_of_not_begins h]
          exact .skip h (ih cs.length (by omega) rfl)

end Scanning

section Lines

variable {year : YearOfStudy} {cs rest : List Char} {link : Link} {links : List Link}

theorem newline_not_mem_reference {week : List Char} (h : week.all isDigit) : '\n' ∉ reference year week := by
  have hweek : '\n' ∉ week := fun hmem => absurd (List.all_eq_true.1 h _ hmem) (by decide)
  have hname : '\n' ∉ ("href=\"" ++ year.name ++ "_S").toList := by cases year <;> decide
  have hpdf : '\n' ∉ ".pdf\"".toList := by decide
  rw [reference, List.mem_append, List.mem_append]
  exact not_or.2 ⟨hname, not_or.2 ⟨hweek, hpdf⟩⟩

theorem exists_of_append_eq {front rest above below : List Char} (hfront : '\n' ∉ front)
    (h : front ++ rest = above ++ '\n' :: below) :
    ∃ more, above = front ++ more ∧ rest = more ++ '\n' :: below := by
  obtain h | ⟨more, hmore, hbelow⟩ := List.append_eq_append_iff.1 h
  · exact h
  · cases more with
    | nil => exact ⟨[], by simpa using hmore.symm, by simpa using hbelow.symm⟩
    | cons c more =>
      obtain ⟨rfl, -⟩ := List.cons.inj hbelow
      exact absurd (by rw [hmore]; simp) hfront

theorem Begins.append (h : Begins year cs link rest) (more : List Char) :
    Begins year (cs ++ more) link (rest ++ more) := by
  obtain ⟨hne, hdigits, gap, rfl, hgap⟩ := h
  exact ⟨hne, hdigits, gap, by simp, hgap⟩

theorem Begins.of_append {above below : List Char} (h : Begins year (above ++ '\n' :: below) link rest) :
    ∃ more, Begins year above link more ∧ rest = more ++ '\n' :: below := by
  obtain ⟨hne, hdigits, gap, htext, hgap⟩ := h
  have hline : '\n' ∉ reference year link.week ++ (gap ++ link.stamp) := by
    rw [List.mem_append, List.mem_append]
    exact not_or.2 ⟨newline_not_mem_reference hdigits, not_or.2 ⟨hgap.line, newline_not_mem_stamp hgap.shape⟩⟩
  have htext : (reference year link.week ++ (gap ++ link.stamp)) ++ rest = above ++ '\n' :: below := by
    rw [htext]
    simp
  obtain ⟨more, habove, hrest⟩ := exists_of_append_eq hline htext
  exact ⟨more, ⟨hne, hdigits, gap, by rw [habove]; simp, hgap⟩, hrest⟩

theorem LinksIn.append_line {above below : List Char} {links' : List Link} (h : LinksIn year above links)
    (h' : LinksIn year below links') : LinksIn year (above ++ '\n' :: below) (links ++ links') := by
  induction h with
  | nil =>
    refine .skip (fun link rest hbegins => ?_) h'
    obtain ⟨more, hmore, -⟩ := hbegins.exists_cons
    cases (List.cons.inj hmore).1
  | @skip c cs _ hnone _ ih =>
    refine .skip (fun link rest hbegins => ?_) ih
    have hbegins : Begins year ((c :: cs) ++ '\n' :: below) link rest := hbegins
    obtain ⟨more, habove, -⟩ := hbegins.of_append
    exact hnone link more habove
  | link hbegins _ ih => exact .link (hbegins.append _) ih

theorem LinksIn.append_left {front : List Char} (h : LinksIn year cs links)
    (hnone : ∀ before after, front = before ++ after → after ≠ [] →
      ∀ link rest, ¬ Begins year (after ++ cs) link rest) : LinksIn year (front ++ cs) links := by
  induction front with
  | nil => exact h
  | cons c front ih =>
    refine .skip (hnone [] (c :: front) rfl (by simp)) (ih fun before after hfront => ?_)
    exact hnone (c :: before) after (by rw [hfront, List.cons_append])

end Lines

/-- A line of a listing with one link: a reference to a file of the year, and behind it a time stamp. -/
structure ListedRow (year : YearOfStudy) where
  lead : List Char
  week : List Char
  gap : List Char
  stamp : List Char
  tail : List Char
  ne_nil : week ≠ []
  digits : week.all isDigit
  short : week.length ≤ Text.digitLimit
  stamped : FirstStamp gap stamp
  line : '\n' ∉ lead ++ tail
  single : ∀ before other after,
    lead ++ (reference year week ++ (gap ++ (stamp ++ tail))) = before ++ (reference year other ++ after) →
    other ≠ [] → other.all isDigit → before = lead

theorem eq_of_found_once {lead before word after rest : List Char} (hword : word ≠ [])
    (honce : ∀ n < (lead ++ rest).length, word.isPrefixOf ((lead ++ rest).drop n) → n = lead.length)
    (h : lead ++ rest = before ++ (word ++ after)) : before = lead := by
  have hlength : before.length = lead.length := by
    refine honce before.length ?_ ?_
    · have hpos := List.length_pos_iff.2 hword
      rw [h, List.length_append, List.length_append]
      omega
    · rw [h, List.drop_left, List.isPrefixOf_iff_prefix]
      exact List.prefix_append word after
  exact (List.append_inj h hlength.symm).1.symm

theorem eq_of_reference_once {year : YearOfStudy} {lead rest before other after : List Char}
    (honce : ∀ n < (lead ++ rest).length,
      ("href=\"" ++ year.name ++ "_S").toList.isPrefixOf ((lead ++ rest).drop n) → n = lead.length)
    (h : lead ++ rest = before ++ (reference year other ++ after)) : before = lead := by
  have hword : ("href=\"" ++ year.name ++ "_S").toList ≠ [] := by cases year <;> decide
  rw [reference, List.append_assoc] at h
  exact eq_of_found_once hword honce h

namespace ListedRow

variable {year : YearOfStudy} (row : ListedRow year)

def text : List Char := row.lead ++ (reference year row.week ++ (row.gap ++ (row.stamp ++ row.tail)))

def link : Link := ⟨row.week, row.stamp⟩

theorem begins : Begins year (reference year row.week ++ (row.gap ++ (row.stamp ++ row.tail))) row.link row.tail :=
  ⟨row.ne_nil, row.digits, row.gap, rfl, row.stamped⟩

theorem eq_lead_of_begins {before after rest : List Char} {link : Link} (htext : row.text = before ++ after)
    (h : Begins year after link rest) : before = row.lead := by
  obtain ⟨hne, hdigits, gap, rfl, -⟩ := h
  exact row.single before link.week _ htext hne hdigits

theorem linksIn : LinksIn year row.text [row.link] := by
  have htail : LinksIn year (row.tail ++ []) [] := by
    refine LinksIn.append_left .nil fun before after hsplit hne link rest h => ?_
    rw [List.append_nil] at h
    have htext : row.text = (row.lead ++ (reference year row.week ++ (row.gap ++ (row.stamp ++ before)))) ++ after := by
      simp [text, hsplit]
    have hlength := congrArg List.length (row.eq_lead_of_begins htext h)
    obtain ⟨more, hmore⟩ := exists_reference_eq_cons year row.week
    simp [hmore] at hlength
  rw [List.append_nil] at htail
  refine LinksIn.append_left (.link row.begins htail) fun before after hsplit hne link rest h => ?_
  have hbefore := row.eq_lead_of_begins (by rw [text, hsplit, List.append_assoc]) h
  rw [hbefore] at hsplit
  exact hne (by simpa using hsplit)

end ListedRow

def listingPage {year : YearOfStudy} (rows : List (ListedRow year)) : String :=
  String.intercalate "\n" (rows.map fun row => String.ofList row.text)

theorem linksIn_listingPage {year : YearOfStudy} (rows : List (ListedRow year)) :
    LinksIn year (listingPage rows).toList (rows.map ListedRow.link) := by
  rw [listingPage, String.toList_intercalate, List.map_map]
  induction rows with
  | nil => exact .nil
  | cons row rows ih =>
    cases rows with
    | nil => simpa [List.intercalate] using row.linksIn
    | cons row' rows =>
      rw [List.map_cons, List.map_cons, List.intercalate_cons_cons, List.append_assoc]
      have h := row.linksIn.append_line ih
      simpa using h

end WeekGrid.Published
