import Mathlib.Data.List.Forall2
import WeekGrid.Proofs.Civil.Stamp
import WeekGrid.Proofs.Outcome
import WeekGrid.Proofs.Published.Links
import WeekGrid.Proofs.Published.Retrieval

/-!
What is read of a listing page: an entry for each of its links, in the order of the page but for the weeks, by which
they are sorted.
-/
namespace WeekGrid.Published

open Text (hasShape isDigit digitsValue digitLimit)

/-- Entries sorted by week; those of one week are in their old order. -/
structure StableSort (entries sorted : List Entry) : Prop where
  perm : sorted.Perm entries
  ascending : sorted.Pairwise fun e f => e.weekNumber ≤ f.weekNumber
  inOrder : ∀ week : Int, sorted.filter (fun e => (e.weekNumber : Int) == week) =
    entries.filter fun e => (e.weekNumber : Int) == week

section Sorting

variable {entries entries' sorted sorted' : List Entry}

theorem stableSort_sortByWeek (entries : List Entry) : StableSort entries (sortByWeek entries) where
  perm := List.mergeSort_perm entries _
  ascending := (List.pairwise_mergeSort byWeek_trans byWeek_total entries).imp of_decide_eq_true
  inOrder week := filter_sortByWeek week entries

theorem week_le_of_mem_filter {e f : Entry} {rest : List Entry}
    (h : (e :: rest).Pairwise fun e f => e.weekNumber ≤ f.weekNumber) (hf : f ∈ e :: rest) :
    e.weekNumber ≤ f.weekNumber := by
  rcases List.mem_cons.1 hf with rfl | hf
  · exact Nat.le_refl _
  · exact (List.pairwise_cons.1 h).1 f hf

theorem eq_of_filter_eq (h : sorted.Pairwise fun e f => e.weekNumber ≤ f.weekNumber)
    (h' : sorted'.Pairwise fun e f => e.weekNumber ≤ f.weekNumber)
    (hfilter : ∀ week : Int, sorted.filter (fun e => (e.weekNumber : Int) == week) =
      sorted'.filter fun e => (e.weekNumber : Int) == week) : sorted = sorted' := by
  have hmem : ∀ {l l' : List Entry}, (∀ week : Int, l.filter (fun e => (e.weekNumber : Int) == week) =
      l'.filter fun e => (e.weekNumber : Int) == week) → ∀ e ∈ l, e ∈ l' := by
    intro l l' heq e he
    have hin : e ∈ l.filter fun f => (f.weekNumber : Int) == e.weekNumber := List.mem_filter.2 ⟨he, by simp⟩
    rw [heq] at hin
    exact (List.mem_filter.1 hin).1
  induction sorted generalizing sorted' with
  | nil =>
    refine (List.eq_nil_iff_forall_not_mem.2 fun e he => ?_).symm
    exact List.not_mem_nil (hmem (fun week => (hfilter week).symm) e he)
  | cons e rest ih =>
    cases sorted' with
    | nil => exact absurd (hmem hfilter e List.mem_cons_self) List.not_mem_nil
    | cons e' rest' =>
      -- Each head is the least of both lists, so they are of one week, and both are the first of that week.
      have hle := week_le_of_mem_filter h (hmem (fun week => (hfilter week).symm) e' List.mem_cons_self)
      have hge := week_le_of_mem_filter h' (hmem hfilter e List.mem_cons_self)
      have hweek : e.weekNumber = e'.weekNumber := Nat.le_antisymm hle hge
      have hheads := hfilter e.weekNumber
      rw [List.filter_cons_of_pos (by simp), List.filter_cons_of_pos (by simp [hweek])] at hheads
      obtain rfl := (List.cons.inj hheads).1
      refine congrArg (e :: ·) (ih (List.pairwise_cons.1 h).2 (List.pairwise_cons.1 h').2 fun week => ?_)
      have htails := hfilter week
      rw [List.filter_cons, List.filter_cons] at htails
      split at htails
      · exact (List.cons.inj htails).2
      · exact htails

theorem StableSort.unique (h : StableSort entries sorted) (h' : StableSort entries sorted') : sorted = sorted' :=
  eq_of_filter_eq h.ascending h'.ascending fun week => (h.inOrder week).trans (h'.inOrder week).symm

theorem StableSort.append (h : StableSort entries sorted) (h' : StableSort entries' sorted') :
    StableSort (sorted ++ sorted') (sortByWeek (entries ++ entries')) where
  perm := (List.mergeSort_perm _ _).trans (h.perm.symm.append h'.perm.symm)
  ascending := (stableSort_sortByWeek _).ascending
  inOrder week := by
    rw [filter_sortByWeek, List.filter_append, List.filter_append, h.inOrder, h'.inOrder]

end Sorting

/-- Entries as they are listed: sorted, and the earliest entry of a week is the one that is found. -/
structure ListedAs (entries sorted : List Entry) : Prop where
  sorting : StableSort entries sorted
  found : ∀ week entry, entryOfWeek? week sorted = some entry ↔ IsEarliest week entry entries
  missing : ∀ week, entryOfWeek? week sorted = none ↔ ∀ entry ∈ entries, (entry.weekNumber : Int) ≠ week

theorem listedAs_sortByWeek (entries : List Entry) : ListedAs entries (sortByWeek entries) where
  sorting := stableSort_sortByWeek entries
  found week entry := by rw [entryOfWeek?_sortByWeek, entryOfWeek?_eq_some_iff]
  missing week := by rw [entryOfWeek?_sortByWeek, entryOfWeek?_eq_none_iff]

/-- The digits of the week in the name of a file, as a search for them at its end finds them. -/
def HasWeek (name digits : List Char) : Prop :=
  ∃ front, name = front ++ ("_S".toList ++ (digits ++ ".pdf".toList)) ∧ digits ≠ [] ∧ digits.all isDigit

structure IsBaseOf (base site : String) : Prop where
  slashes : ∃ n, site.toList = base.toList ++ List.replicate n '/'
  bare : base.toList.getLast? ≠ some '/'

/-- The time of a time stamp: the one that it is the writing of, or the first of all if there is none. Digits of other
scripts may go unread, but are never read as anything else. -/
structure UpdatedAt (stamp : List Char) (time : DateTime) : Prop where
  written : ∀ t : DateTime, t.IsPlain → stamp = t.stamped → time = t
  unwritten : (∀ c ∈ stamp, isDigit c → c.toNat < 128) → (∀ t : DateTime, t.IsPlain → stamp ≠ t.stamped) →
    time = .midnight .first none
  given : time = .midnight .first none ∨ ∃ p : Civil.StampParts, p.Shaped ∧ stamp = p.text ∧ p.Gives time

structure EntryOf (site : String) (year : YearOfStudy) (link : Link) (entry : Entry) : Prop where
  fileName : entry.fileName = year.name ++ "_S" ++ String.ofList link.week ++ ".pdf"
  week : ∀ digits, HasWeek entry.fileName.toList digits ↔ digits = link.week
  weekNumber : entry.weekNumber = digitsValue link.week
  lastUpdated : UpdatedAt link.stamp entry.lastUpdated
  ofYear : entry.year = year
  url : ∃ base, IsBaseOf base site ∧ entry.url = base ++ "/" ++ year.name ++ "/" ++ entry.fileName

structure Link.IsWhole (link : Link) : Prop where
  ne_nil : link.week ≠ []
  digits : link.week.all isDigit
  stamp : hasShape Link.stampPattern.toList link.stamp

theorem LinksIn.isWhole {year : YearOfStudy} {cs : List Char} {links : List Link} (h : LinksIn year cs links) :
    ∀ link ∈ links, link.IsWhole := by
  induction h with
  | nil => simp
  | skip _ _ ih => exact ih
  | link hbegins _ ih =>
    obtain ⟨hne, hdigits, gap, -, hgap⟩ := hbegins
    exact List.forall_mem_cons.2 ⟨⟨hne, hdigits, hgap.shape⟩, ih⟩

section Entries

variable {site : String} {year : YearOfStudy} {link : Link}

theorem digits_eq_of_append_eq {front front' digits digits' : List Char} (h : digits.all isDigit)
    (h' : digits'.all isDigit) (heq : front ++ 'S' :: digits = front' ++ 'S' :: digits') : digits = digits' := by
  have htake : ∀ {front digits : List Char}, digits.all isDigit →
      (front ++ 'S' :: digits).reverse.takeWhile isDigit = digits.reverse := by
    intro front digits hdigits
    have hall : ∀ c ∈ digits.reverse, isDigit c = true := fun c hc =>
      List.all_eq_true.1 hdigits c (List.mem_reverse.1 hc)
    have hletter : isDigit 'S' = false := by decide
    rw [List.reverse_append, List.reverse_cons, List.append_assoc, List.takeWhile_append_of_pos hall]
    simp [hletter]
  have hreverse := congrArg (fun l => l.reverse.takeWhile isDigit) heq
  simp only [htake h, htake h'] at hreverse
  exact List.reverse_inj.1 hreverse

theorem hasWeek_iff (h : link.IsWhole) (digits : List Char) :
    HasWeek (link.fileName year).toList digits ↔ digits = link.week := by
  rw [Link.fileName, String.toList_ofList]
  constructor
  · rintro ⟨front, hname, -, hall⟩
    have hpdf : ((year.name.toList ++ ['_']) ++ 'S' :: link.week) ++ ".pdf".toList =
        ((front ++ ['_']) ++ 'S' :: digits) ++ ".pdf".toList := by simpa using hname
    exact (digits_eq_of_append_eq h.digits hall (List.append_cancel_right hpdf)).symm
  · rintro rfl
    exact ⟨year.name.toList, by simp, h.ne_nil, h.digits⟩

theorem exists_base (site : String) :
    ∃ base, IsBaseOf base site ∧ ∀ year, directoryUrl site year = base ++ "/" ++ year.name ++ "/" := by
  refine ⟨_, ⟨?_, ?_⟩, fun year => rfl⟩
  · have hall : ∀ c ∈ site.toList.reverse.takeWhile (· == '/'), c = '/' :=
      fun c hc => eq_of_beq (List.all_eq_true.1 List.all_takeWhile c hc)
    obtain ⟨n, hn⟩ : ∃ n, site.toList.reverse.takeWhile (· == '/') = List.replicate n '/' :=
      ⟨_, List.eq_replicate_of_mem hall⟩
    refine ⟨n, ?_⟩
    calc site.toList
        = (site.toList.reverse.takeWhile (· == '/') ++ site.toList.reverse.dropWhile (· == '/')).reverse := by
          rw [List.takeWhile_append_dropWhile, List.reverse_reverse]
      _ = _ := by rw [hn, List.reverse_append, List.reverse_replicate, String.toList_ofList]
  · rw [String.toList_ofList, List.getLast?_reverse]
    intro h
    have hnot := List.head?_dropWhile_not (· == '/') site.toList.reverse
    rw [h] at hnot
    simp at hnot

theorem isAscii_stamped {t : DateTime} : ∀ c ∈ t.stamped, isDigit c → c.toNat < 128 := by
  have hpadded : ∀ width n, ∀ c ∈ paddedDigits width n, c.toNat < 128 := by
    intro width n c hc
    exact Nat.lt_of_le_of_lt (Text.range_of_mem_asciiDigits (paddedDigits_subset width n hc)).2.1 (by decide)
  intro c hc _
  simp only [DateTime.stamped, List.mem_append, List.mem_cons] at hc
  obtain h | rfl | h | rfl | h | rfl | h | rfl | h := hc
  all_goals first | exact hpadded _ _ _ h | decide

theorem updatedAt_readStamp? {stamp : List Char} (h : hasShape Link.stampPattern.toList stamp) :
    UpdatedAt stamp ((Civil.readStamp? stamp).getD (.midnight .first none)) where
  written t ht hstamp := by
    have hascii : ∀ c ∈ stamp, isDigit c → c.toNat < 128 := hstamp ▸ isAscii_stamped
    rw [(Civil.readStamp?_eq_some_iff h hascii).2 ⟨ht, hstamp⟩]
    rfl
  unwritten hascii hnone := by
    rw [(Civil.readStamp?_eq_none_iff h hascii).2 hnone]
    rfl
  given := by
    cases hread : Civil.readStamp? stamp with
    | none => exact .inl rfl
    | some t =>
      obtain ⟨p, rfl, hshaped⟩ := Civil.hasShape_stamp_iff.1 h
      exact .inr ⟨p, hshaped, rfl, p.gives_of_readStamp? hshaped hread⟩

def Link.entryAt (site : String) (year : YearOfStudy) (link : Link) : Entry where
  fileName := link.fileName year
  lastUpdated := (Civil.readStamp? link.stamp).getD (.midnight .first none)
  weekNumber := digitsValue link.week
  year := year
  url := directoryUrl site year ++ link.fileName year

theorem entryOf_entryAt (h : link.IsWhole) : EntryOf site year link (link.entryAt site year) where
  fileName := by
    rw [← String.toList_inj]
    simp [Link.entryAt, Link.fileName]
  week := hasWeek_iff h
  weekNumber := rfl
  lastUpdated := updatedAt_readStamp? h.stamp
  ofYear := rfl
  url := by
    obtain ⟨base, hbase, hurl⟩ := exists_base site
    exact ⟨base, hbase, by rw [Link.entryAt, hurl]⟩

theorem entry_eq (h : link.IsWhole) : link.entry site year =
    if link.week.length ≤ digitLimit then .ok (link.entryAt site year) else .error .tooManyDigits := by
  rw [Link.entry, Text.readNatural?]
  by_cases hshort : link.week.length ≤ digitLimit
  · rw [if_pos ⟨h.ne_nil, h.digits, hshort⟩, if_pos hshort]
    rfl
  · rw [if_neg fun hall => hshort hall.2.2, if_neg hshort]
    rfl

theorem readListing_eq (site : String) {html : String} {links : List Link} (h : LinksIn year html.toList links) :
    readListing html year site = if ∀ link ∈ links, link.week.length ≤ digitLimit then
      .ok (sortByWeek (links.map (Link.entryAt site year))) else .error .tooManyDigits := by
  have hall : Link.all year html = links := linksIn_iff.1 h
  rw [readListing, hall]
  split
  · next hshort =>
    rw [Outcome.mapM_eq_ok fun link hlink => by rw [entry_eq (h.isWhole link hlink), if_pos (hshort link hlink)]]
    rfl
  · next hlong =>
    cases hread : links.mapM (Link.entry site year) with
    | ok entries =>
      refine absurd (fun link hlink => ?_) hlong
      obtain ⟨entry, hentry⟩ := Outcome.exists_of_mapM_eq_ok hread link hlink
      rw [entry_eq (h.isWhole link hlink)] at hentry
      split at hentry
      · next hshort => exact hshort
      · cases hentry
    | error fault =>
      obtain ⟨before, link, after, rfl, hentry, -⟩ := Outcome.mapM_eq_error_iff.1 hread
      rw [entry_eq (h.isWhole link (by simp))] at hentry
      split at hentry
      · cases hentry
      · cases hentry
        rfl

end Entries

/-- What becomes of a page: an entry for each link, in the order of the page, as they are listed; or there is a week
with too many digits. -/
inductive ListingOutcome (site : String) (year : YearOfStudy) (html : String) : Prop where
  | read (links : List Link) (entries sorted : List Entry) (hlinks : LinksIn year html.toList links)
      (hentries : List.Forall₂ (EntryOf site year) links entries) (hread : readListing html year site = .ok sorted)
      (listed : ListedAs entries sorted)
  | tooLong (links : List Link) (link : Link) (hlinks : LinksIn year html.toList links) (hmem : link ∈ links)
      (hlong : digitLimit < link.week.length) (hread : readListing html year site = .error .tooManyDigits)

section Pages

variable (site : String) (year : YearOfStudy)

theorem forall₂_entryOf {links : List Link} (h : ∀ link ∈ links, link.IsWhole) :
    List.Forall₂ (EntryOf site year) links (links.map (Link.entryAt site year)) := by
  rw [List.forall₂_map_right_iff, List.forall₂_same]
  exact fun link hlink => entryOf_entryAt (h link hlink)

theorem readListing_outcome (html : String) : ListingOutcome site year html := by
  have hlinks : LinksIn year html.toList (Link.all year html) := linksIn_iff.2 rfl
  have hread := readListing_eq site hlinks
  split at hread
  · exact .read _ _ _ hlinks (forall₂_entryOf site year hlinks.isWhole) hread (listedAs_sortByWeek _)
  · next hlong =>
    simp only [not_forall, Nat.not_le] at hlong
    obtain ⟨link, hmem, hlong⟩ := hlong
    exact .tooLong _ link hlinks hmem hlong hread

theorem readListing_append (above below : String) (sorted : List Entry) :
    readListing (above ++ "\n" ++ below) year site = .ok sorted ↔
      ∃ upper lower, readListing above year site = .ok upper ∧ readListing below year site = .ok lower ∧
        StableSort (upper ++ lower) sorted := by
  have habove : LinksIn year above.toList (Link.all year above) := linksIn_iff.2 rfl
  have hbelow : LinksIn year below.toList (Link.all year below) := linksIn_iff.2 rfl
  have hboth : LinksIn year (above ++ "\n" ++ below).toList (Link.all year above ++ Link.all year below) := by
    simpa using habove.append_line hbelow
  rw [readListing_eq site hboth, readListing_eq site habove, readListing_eq site hbelow]
  simp only [List.forall_mem_append, List.map_append]
  constructor
  · intro h
    split at h
    · next hshort =>
      cases h
      rw [if_pos hshort.1, if_pos hshort.2]
      exact ⟨_, _, rfl, rfl, (stableSort_sortByWeek _).append (stableSort_sortByWeek _)⟩
    · cases h
  · rintro ⟨upper, lower, hupper, hlower, hsorted⟩
    split at hupper
    · next hshort =>
      split at hlower
      · next hshort' =>
        cases hupper
        cases hlower
        rw [if_pos ⟨hshort, hshort'⟩]
        exact congrArg _ (((stableSort_sortByWeek _).append (stableSort_sortByWeek _)).unique hsorted)
      · cases hlower
    · cases hupper

theorem readListing_rows (rows : List (ListedRow year)) :
    ∃ entries sorted, readListing (listingPage rows) year site = .ok sorted ∧
      List.Forall₂ (fun row entry => EntryOf site year row.link entry) rows entries ∧ ListedAs entries sorted := by
  have hlinks := linksIn_listingPage rows
  have hshort : ∀ link ∈ rows.map ListedRow.link, link.week.length ≤ digitLimit := by
    intro link hlink
    obtain ⟨row, -, rfl⟩ := List.mem_map.1 hlink
    exact row.short
  have hread := readListing_eq site hlinks
  rw [if_pos hshort] at hread
  exact ⟨_, _, hread, List.forall₂_map_left_iff.1 (forall₂_entryOf site year hlinks.isWhole), listedAs_sortByWeek _⟩

/-- A listing is read link by link and line by line, nothing is lost, and entries are sorted by week, those of one week
in their order on the page. -/
theorem readListing_laws :
    (∀ html, ListingOutcome site year html) ∧
      (∀ above below sorted, readListing (above ++ "\n" ++ below) year site = .ok sorted ↔
        ∃ upper lower, readListing above year site = .ok upper ∧ readListing below year site = .ok lower ∧
          StableSort (upper ++ lower) sorted) ∧
      ∀ rows : List (ListedRow year), ∃ entries sorted, readListing (listingPage rows) year site = .ok sorted ∧
        List.Forall₂ (fun row entry => EntryOf site year row.link entry) rows entries ∧ ListedAs entries sorted :=
  ⟨readListing_outcome site year, readListing_append site year, readListing_rows site year⟩

end Pages

/-- A row as web servers write it; there is no such day in February. -/
def serverRow : ListedRow .first where
  lead := "<li><a ".toList
  week := "12".toList
  gap := ">A1_S12.pdf</a> ".toList
  stamp := "2025-02-30 08:15".toList
  tail := "</li>".toList
  ne_nil := by decide
  digits := by decide
  short := by decide
  stamped := by decide
  line := by decide
  single _ _ _ h _ _ := eq_of_reference_once (by decide) h

def paddedRow : ListedRow .first where
  lead := "<li><a ".toList
  week := "012".toList
  gap := ">A1_S012.pdf</a> ".toList
  stamp := "2025-03-17 08:15".toList
  tail := "</li>".toList
  ne_nil := by decide
  digits := by decide
  short := by decide
  stamped := by decide
  line := by decide
  single _ _ _ h _ _ := eq_of_reference_once (by decide) h

/-- The row above is the one found for the week, though only the row below has a date. -/
theorem serverRows_listed : ∃ upper lower sorted,
    readListing (listingPage [serverRow, paddedRow]) .first defaultSite = .ok sorted ∧
    EntryOf defaultSite .first serverRow.link upper ∧ EntryOf defaultSite .first paddedRow.link lower ∧
    ListedAs [upper, lower] sorted ∧ upper.weekNumber = 12 ∧ lower.weekNumber = 12 ∧
    entryOfWeek? 12 sorted = some upper ∧ upper.lastUpdated = .midnight .first none ∧
    lower.lastUpdated = ⟨⟨2025, 3, 17, by decide⟩, 8, 15, none⟩ := by
  obtain ⟨entries, sorted, hread, hentries, hlisted⟩ :=
    (readListing_laws defaultSite .first).2.2 [serverRow, paddedRow]
  obtain ⟨upper, rest, hupper, hrest, rfl⟩ := List.forall₂_cons_left_iff.1 hentries
  obtain ⟨lower, none, hlower, hnone, rfl⟩ := List.forall₂_cons_left_iff.1 hrest
  cases hnone
  have hweek : upper.weekNumber = 12 := hupper.weekNumber
  refine ⟨upper, lower, sorted, hread, hupper, hlower, hlisted, hweek, hlower.weekNumber, ?_, ?_, ?_⟩
  · refine (hlisted.found 12 upper).2 ⟨by rw [hweek]; rfl, [], [lower], rfl, by simp⟩
  · have hall : serverRow.stamp.all (·.toNat < 128) := by decide
    have hascii : ∀ c ∈ serverRow.stamp, isDigit c → c.toNat < 128 := fun c hc _ =>
      of_decide_eq_true (List.all_eq_true.1 hall c hc)
    refine hupper.lastUpdated.unwritten hascii ?_
    exact (Civil.readStamp?_eq_none_iff (by decide) hascii).1 (by decide +kernel)
  · exact hlower.lastUpdated.written _ ⟨by decide, by decide, rfl⟩ (by decide)

end WeekGrid.Published
