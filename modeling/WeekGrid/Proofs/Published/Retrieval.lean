import WeekGrid.Published.Retrieval

/-!
What a fetch comes to. The entries are sorted by week before the one of a week is looked up; the sorting keeps
those of one week in their order, so that the one found is the one that stands first on the listing page.
-/
namespace WeekGrid.Published

open Text (Bytes)

/-- The entries of a year as they stand on its listing page, from top to bottom. -/
def Lists (web : Web) (site : String) (year : YearOfStudy) (entries : List Entry) : Prop :=
  ∃ page, web.get (directoryUrl site year) = .ok page ∧
    (Link.all year (Text.decodeLossy page)).mapM (Link.entry site year) = .ok entries

structure IsEarliest (week : Int) (entry : Entry) (entries : List Entry) : Prop where
  ofWeek : (entry.weekNumber : Int) = week
  first : ∃ before after, entries = before ++ entry :: after ∧
    ∀ other ∈ before, (other.weekNumber : Int) ≠ week

/-- A file is published for a week: the earliest entry of the week leads to it. -/
def Publishes (web : Web) (site : String) (year : YearOfStudy) (week : Int) (file : Bytes) : Prop :=
  ∃ entries entry, Lists web site year entries ∧ IsEarliest week entry entries ∧ web.get entry.url = .ok file

def Omits (web : Web) (site : String) (year : YearOfStudy) (week : Int) : Prop :=
  ∃ entries, Lists web site year entries ∧ ∀ entry ∈ entries, (entry.weekNumber : Int) ≠ week

section Lookup

variable {week : Int} {entry : Entry} {entries : List Entry}

theorem entryOfWeek?_eq_some_iff : entryOfWeek? week entries = some entry ↔ IsEarliest week entry entries := by
  rw [entryOfWeek?, List.find?_eq_some_iff_append]
  constructor
  · rintro ⟨hweek, before, after, hentries, hbefore⟩
    exact ⟨beq_iff_eq.1 hweek, before, after, hentries, by simpa using hbefore⟩
  · rintro ⟨hweek, before, after, hentries, hbefore⟩
    exact ⟨beq_iff_eq.2 hweek, before, after, hentries, by simpa using hbefore⟩

theorem entryOfWeek?_eq_none_iff :
    entryOfWeek? week entries = none ↔ ∀ entry ∈ entries, (entry.weekNumber : Int) ≠ week := by
  simp [entryOfWeek?]

theorem byWeek_trans (e f g : Entry) (hef : decide (e.weekNumber ≤ f.weekNumber) = true)
    (hfg : decide (f.weekNumber ≤ g.weekNumber) = true) : decide (e.weekNumber ≤ g.weekNumber) = true :=
  decide_eq_true (Nat.le_trans (of_decide_eq_true hef) (of_decide_eq_true hfg))

theorem byWeek_total (e f : Entry) :
    (decide (e.weekNumber ≤ f.weekNumber) || decide (f.weekNumber ≤ e.weekNumber)) = true := by
  simpa using Nat.le_total e.weekNumber f.weekNumber

theorem filter_sortByWeek (week : Int) (entries : List Entry) :
    (sortByWeek entries).filter (fun e => (e.weekNumber : Int) == week) =
      entries.filter fun e => (e.weekNumber : Int) == week := by
  have hsame : (entries.filter fun e => (e.weekNumber : Int) == week).Pairwise
      fun e f => decide (e.weekNumber ≤ f.weekNumber) = true := by
    refine List.pairwise_of_forall_mem_list fun e he f hf => ?_
    have hweek := beq_iff_eq.1 (List.mem_filter.1 he).2
    have hweek' := beq_iff_eq.1 (List.mem_filter.1 hf).2
    exact decide_eq_true (by omega)
  have hsub := (List.sublist_mergeSort byWeek_trans byWeek_total hsame List.filter_sublist).filter
    fun e => (e.weekNumber : Int) == week
  rw [List.filter_filter] at hsub
  simp only [Bool.and_self] at hsub
  have hperm := (List.mergeSort_perm entries fun e f => decide (e.weekNumber ≤ f.weekNumber)).filter
    fun e => (e.weekNumber : Int) == week
  exact (hsub.eq_of_length hperm.length_eq.symm).symm

theorem entryOfWeek?_sortByWeek (week : Int) (entries : List Entry) :
    entryOfWeek? week (sortByWeek entries) = entryOfWeek? week entries := by
  rw [entryOfWeek?, entryOfWeek?, ← List.head?_filter, filter_sortByWeek, List.head?_filter]

end Lookup

section Fetch

variable {web : Web} {site : String} {year : YearOfStudy} {week : Int}

theorem listEntries_eq_ok_iff {sorted : List Entry} :
    listEntries web year site = .ok sorted ↔
      ∃ entries, Lists web site year entries ∧ sortByWeek entries = sorted := by
  constructor
  · intro h
    obtain ⟨page, hpage, h⟩ := Outcome.bind_eq_ok_iff.1 h
    obtain ⟨entries, hentries, h⟩ := Outcome.bind_eq_ok_iff.1 h
    exact ⟨entries, ⟨page, hpage, hentries⟩, Except.ok.inj h⟩
  · rintro ⟨entries, ⟨page, hpage, hentries⟩, rfl⟩
    exact Outcome.bind_eq_ok_iff.2 ⟨page, hpage, Outcome.bind_eq_ok_iff.2 ⟨entries, hentries, rfl⟩⟩

theorem Publishes.fetched {file : Bytes} (h : Publishes web site year week file) :
    (retrieveYear web year week site).fault = none ∧ (retrieveYear web year week site).file = some file := by
  obtain ⟨entries, entry, hlists, hearliest, hget⟩ := h
  have hlist := listEntries_eq_ok_iff.2 ⟨entries, hlists, rfl⟩
  have hentry := (entryOfWeek?_sortByWeek week entries).trans (entryOfWeek?_eq_some_iff.2 hearliest)
  simp [retrieveYear, hlist, hentry, hget]

theorem Omits.fetched (h : Omits web site year week) :
    (retrieveYear web year week site).fault = none ∧ (retrieveYear web year week site).file = none := by
  obtain ⟨entries, hlists, homitted⟩ := h
  have hlist := listEntries_eq_ok_iff.2 ⟨entries, hlists, rfl⟩
  have hentry := (entryOfWeek?_sortByWeek week entries).trans (entryOfWeek?_eq_none_iff.2 homitted)
  simp [retrieveYear, hlist, hentry]

theorem published_or_omitted_of_fetch (h : (retrieveYear web year week site).fault = none) :
    (∃ file, Publishes web site year week file) ∨ Omits web site year week := by
  unfold retrieveYear at h
  cases hlist : listEntries web year site with
  | error fault => simp [hlist] at h
  | ok sorted =>
    obtain ⟨entries, hlists, rfl⟩ := listEntries_eq_ok_iff.1 hlist
    cases hentry : entryOfWeek? week (sortByWeek entries) with
    | none =>
      rw [entryOfWeek?_sortByWeek, entryOfWeek?_eq_none_iff] at hentry
      exact .inr ⟨entries, hlists, hentry⟩
    | some entry =>
      cases hget : web.get entry.url with
      | error fault => simp [hlist, hentry, hget] at h
      | ok file =>
        rw [entryOfWeek?_sortByWeek, entryOfWeek?_eq_some_iff] at hentry
        exact .inl ⟨file, entries, entry, hlists, hentry, hget⟩

end Fetch

end WeekGrid.Published
