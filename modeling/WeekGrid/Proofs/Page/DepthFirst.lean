import WeekGrid.Proofs.Page.Worklist

/-!
The traversal of a page and its forms is the plain recursive one. `Visits` says what visiting jobs depth
first comes to when every form invoked is visited in its turn, also one that has been scanned; the traversal
with its list of pending jobs has exactly that outcome, failures included.
-/
namespace WeekGrid.Page

open Pdf (Reading)

/-- What a visit comes to: the keys visited by its end, the latest first, and what was drawn. -/
abbrev VisitOutcome := Except Failure (List StreamKey × Elements)

def VisitOutcome.after (drawn : Elements) (outcome : VisitOutcome) : VisitOutcome :=
  outcome.map fun (visited, more) => (visited, drawn.append more)

theorem VisitOutcome.of_after_eq_ok {drawn all : Elements} {outcome : VisitOutcome}
    {visited : List StreamKey} (h : outcome.after drawn = .ok (visited, all)) :
    ∃ more, outcome = .ok (visited, more) := by
  cases outcome with
  | error failure => cases h
  | ok result =>
    obtain ⟨after, more⟩ := result
    cases h
    exact ⟨more, rfl⟩

/-- Visiting jobs in order, each depth first, when some keys have been visited. -/
inductive Visits (library : Library) : List StreamKey → List Job → VisitOutcome → Prop where
  | nil {visited} : Visits library visited [] (.ok (visited, .empty))
  /-- Nothing happens to a job whose key has been visited. -/
  | again {visited job jobs outcome} (hkey : job.key ∈ visited) (hjobs : Visits library visited jobs outcome) :
      Visits library visited (job :: jobs) outcome
  /-- Otherwise the key is marked and the job is scanned alone; the first failure ends everything. -/
  | failed {visited job jobs failure} (hkey : job.key ∉ visited)
      (hscan : library.scanAlone job = .error failure) :
      Visits library visited (job :: jobs) (.error failure)
  | failedBelow {visited job jobs drawn failure} (hkey : job.key ∉ visited)
      (hscan : library.scanAlone job = .ok drawn)
      (hforms : Visits library (job.key :: visited) drawn.invoked.reverse (.error failure)) :
      Visits library visited (job :: jobs) (.error failure)
  /-- Then all the forms that the scan invoked are visited, from the last to the first, and after them the
  other jobs. -/
  | first {visited between job jobs drawn below outcome} (hkey : job.key ∉ visited)
      (hscan : library.scanAlone job = .ok drawn)
      (hforms : Visits library (job.key :: visited) drawn.invoked.reverse (.ok (between, below)))
      (hjobs : Visits library between jobs outcome) :
      Visits library visited (job :: jobs) (outcome.after (drawn.elements.append below))

namespace Library

def unvisited (library : Library) (visited : List StreamKey) : List StreamKey :=
  library.keys.filter (· ∉ visited)

@[simp] theorem unvisited_nil (library : Library) : library.unvisited [] = library.keys := by
  simp [unvisited]

theorem mem_unvisited {library : Library} {visited : List StreamKey} {key : StreamKey} :
    key ∈ library.unvisited visited ↔ key ∈ library.keys ∧ key ∉ visited := by
  simp [unvisited]

theorem withoutKey_unvisited (library : Library) (visited : List StreamKey) (key : StreamKey) :
    withoutKey key (library.unvisited visited) = library.unvisited (key :: visited) := by
  simp [withoutKey, unvisited, List.filter_filter]

/-- Jobs of the document: those whose keys are keys of the document. -/
def Owns (library : Library) (jobs : List Job) : Prop := ∀ job ∈ jobs, job.key ∈ library.keys

theorem Owns.tail {library : Library} {job : Job} {jobs : List Job} (h : library.Owns (job :: jobs)) :
    library.Owns jobs := fun form hmem => h form (List.mem_cons_of_mem job hmem)

theorem key_mem_keys {library : Library} {index : Nat} {form : FormStream}
    (h : library.streams[index]? = some form) : form.key index ∈ library.keys := by
  obtain ⟨hlt, rfl⟩ := List.getElem?_eq_some_iff.1 h
  exact List.mem_cons_of_mem _ (List.mem_mapIdx.2 ⟨index, hlt, rfl⟩)

theorem owns_invoked {library : Library} {job : Job} {drawn : Drawing}
    (h : library.scanAlone job = .ok drawn) : library.Owns drawn.invoked.reverse := by
  rw [scanAlone, scan_eq] at h
  obtain ⟨cs, -, rfl⟩ := Outcome.map_eq_ok_iff.1 h
  intro form hform
  obtain ⟨name, graphics, -, hjob⟩ :=
    Drawing.job?_of_mem_invoked (List.mem_reverse.1 hform) (by simp [Drawing.start])
  obtain ⟨index, stream, -, hstream, -, rfl⟩ := Drawing.job?_eq_some_iff.1 hjob
  exact key_mem_keys hstream

/-- The traversal after a visit: nothing more if the visit failed, else the jobs that are left. -/
def resume (library : Library) (rest : List Job) (outcome : VisitOutcome) : Except Failure Elements := do
  let (visited, drawn) ← outcome
  let more ← library.traverse (library.unvisited visited) rest
  return drawn.append more

@[simp] theorem resume_ok_empty (library : Library) (rest : List Job) (visited : List StreamKey) :
    library.resume rest (.ok (visited, .empty)) = library.traverse (library.unvisited visited) rest := by
  simp only [resume, bind, Except.bind]
  cases library.traverse (library.unvisited visited) rest <;> rfl

theorem resume_nil (library : Library) (outcome : VisitOutcome) :
    library.resume [] outcome = outcome.map Prod.snd := by
  cases outcome with
  | error failure => rfl
  | ok result => simp [resume, bind, Except.bind, pure, Except.pure, Except.map]

theorem resume_after (library : Library) (rest : List Job) (drawn : Elements) (outcome : VisitOutcome) :
    library.resume rest (outcome.after drawn) = do
      let more ← library.resume rest outcome
      return drawn.append more := by
  cases outcome with
  | error failure => rfl
  | ok result =>
    simp only [resume, VisitOutcome.after, Except.map, bind, Except.bind]
    cases library.traverse (library.unvisited result.1) rest with
    | error failure => rfl
    | ok more => simp [pure, Except.pure, Elements.append_assoc]

end Library

namespace Visits

open Library

theorem traverse_eq {library : Library} {visited : List StreamKey} {jobs : List Job}
    {outcome : VisitOutcome} (h : Visits library visited jobs outcome) (howns : library.Owns jobs)
    (rest : List Job) :
    library.traverse (library.unvisited visited) (jobs ++ rest) = library.resume rest outcome := by
  -- Induction on the visit. The jobs in `rest` stay on the list while those in front of them are visited.
  induction h generalizing rest with
  | nil => rw [resume_ok_empty, List.nil_append]
  | again hkey _ ih =>
    rw [List.cons_append, traverse_cons_of_not_mem library fun hmem => (mem_unvisited.1 hmem).2 hkey]
    exact ih howns.tail rest
  | failed hkey hscan =>
    have hlive := mem_unvisited.2 ⟨howns _ List.mem_cons_self, hkey⟩
    rw [List.cons_append, traverse_cons_of_mem library hlive, hscan]
    rfl
  | @failedBelow _ _ jobs _ _ hkey hscan _ ih =>
    have hlive := mem_unvisited.2 ⟨howns _ List.mem_cons_self, hkey⟩
    have hforms := ih (owns_invoked hscan) (jobs ++ rest)
    rw [List.cons_append, traverse_cons_of_mem library hlive, hscan, withoutKey_unvisited]
    simp only [bind, Except.bind, hforms]
    rfl
  | @first _ between _ jobs drawn below _ hkey hscan _ _ ihforms ihjobs =>
    have hlive := mem_unvisited.2 ⟨howns _ List.mem_cons_self, hkey⟩
    have hforms := ihforms (owns_invoked hscan) (jobs ++ rest)
    have hjobs := ihjobs howns.tail rest
    rw [List.cons_append, traverse_cons_of_mem library hlive, hscan, withoutKey_unvisited, resume_after,
      ← hjobs]
    simp only [bind, Except.bind, hforms, resume]
    cases library.traverse (library.unvisited between) (jobs ++ rest) with
    | error failure => rfl
    | ok more => simp [pure, Except.pure, Elements.append_assoc]

theorem marks {library : Library} {visited : List StreamKey} {jobs : List Job} {outcome : VisitOutcome}
    (h : Visits library visited jobs outcome) {after : List StreamKey} {drawn : Elements}
    (hok : outcome = .ok (after, drawn)) : visited ⊆ after ∧ (visited.Nodup → after.Nodup) := by
  induction h generalizing after drawn with
  | nil =>
    cases hok
    exact ⟨List.Subset.refl _, id⟩
  | again _ _ ih => exact ih hok
  | failed => cases hok
  | failedBelow => cases hok
  | @first visited between job _ _ _ outcome hkey _ _ _ ihforms ihjobs =>
    obtain ⟨more, hmore⟩ := VisitOutcome.of_after_eq_ok hok
    obtain ⟨hsub, hnodup⟩ := ihforms rfl
    obtain ⟨hsub', hnodup'⟩ := ihjobs hmore
    have hmarked : job.key :: visited ⊆ after := List.Subset.trans hsub hsub'
    exact ⟨fun key hmem => hmarked (List.mem_cons_of_mem _ hmem),
      fun hvisited => hnodup' (hnodup (List.nodup_cons.2 ⟨hkey, hvisited⟩))⟩

theorem length_unvisited_le (library : Library) {visited after : List StreamKey} (h : visited ⊆ after) :
    (library.unvisited after).length ≤ (library.unvisited visited).length := by
  have hsub : library.unvisited after = (library.unvisited visited).filter (· ∉ after) := by
    simp only [unvisited, List.filter_filter]
    refine List.filter_congr fun key _ => ?_
    by_cases hkey : key ∈ after <;> simp [hkey]
    exact fun hmem => hkey (h hmem)
  rw [hsub]
  exact List.length_filter_le ..

/-- Visiting jobs always has an outcome: the recursion goes down only with a key less to visit. -/
theorem exists_outcome (library : Library) (visited : List StreamKey) (jobs : List Job)
    (howns : library.Owns jobs) : ∃ outcome, Visits library visited jobs outcome := by
  match jobs with
  | [] => exact ⟨_, .nil⟩
  | job :: jobs =>
    have hrest := howns.tail
    by_cases hkey : job.key ∈ visited
    · obtain ⟨outcome, h⟩ := exists_outcome library visited jobs hrest
      exact ⟨outcome, .again hkey h⟩
    · have hless : (library.unvisited (job.key :: visited)).length < (library.unvisited visited).length := by
        rw [← withoutKey_unvisited]
        exact length_withoutKey_lt (mem_unvisited.2 ⟨howns _ List.mem_cons_self, hkey⟩)
      cases hscan : library.scanAlone job with
      | error failure => exact ⟨_, .failed hkey hscan⟩
      | ok drawn =>
        obtain ⟨below, hforms⟩ :=
          exists_outcome library (job.key :: visited) drawn.invoked.reverse (owns_invoked hscan)
        cases below with
        | error failure => exact ⟨_, .failedBelow hkey hscan hforms⟩
        | ok result =>
          have hfewer := length_unvisited_le library (hforms.marks rfl).1
          obtain ⟨outcome, hjobs⟩ := exists_outcome library result.1 jobs hrest
          exact ⟨_, .first hkey hscan hforms hjobs⟩
termination_by ((library.unvisited visited).length, jobs.length)

end Visits

def pageJob (content : Reading) (resources : Resources) : Job := ⟨.page, content, resources, .initial⟩

theorem owns_pageJob (library : Library) (content : Reading) (resources : Resources) :
    library.Owns [pageJob content resources] := by
  intro job hjob
  rw [List.mem_singleton.1 hjob]
  exact List.mem_cons_self

theorem Library.interpret_eq_scanAlone (library : Library) (content : Reading) (resources : Resources) :
    library.interpret content resources = do
      let drawn ← library.scanAlone (pageJob content resources)
      match drawn.invoked with
      | [] => return drawn.elements
      | invoked => do
        let more ← library.traverse (withoutKey .page library.keys) invoked.reverse
        return drawn.elements.append more := by
  have hpage : StreamKey.page ∈ library.keys := List.mem_cons_self
  rw [interpret, traverse_cons_of_mem library hpage]
  refine bind_congr fun drawn => ?_
  cases hinvoked : drawn.invoked with
  | nil => simp [bind, Except.bind, pure, Except.pure]
  | cons form forms => simp

theorem Visits.interpret_eq {library : Library} {content : Reading} {resources : Resources}
    {result : VisitOutcome} (h : Visits library [] [pageJob content resources] result) :
    library.interpret content resources = result.map Prod.snd := by
  have htraverse := h.traverse_eq (owns_pageJob library content resources) []
  rw [List.append_nil, Library.unvisited_nil, Library.resume_nil] at htraverse
  exact htraverse

/-- The texts and boxes of a page, in their order, or the failure that is met first, are what visiting the
page depth first comes to; every stream is visited once, and contributes nothing when it is invoked again. -/
theorem interpret_eq_iff_visits (library : Library) (content : Reading) (resources : Resources)
    (outcome : Except Failure Elements) :
    library.interpret content resources = outcome ↔
      ∃ result : VisitOutcome, Visits library [] [pageJob content resources] result ∧
        (∀ visited drawn, result = .ok (visited, drawn) → visited.Nodup) ∧
        outcome = result.map Prod.snd := by
  constructor
  · rintro rfl
    obtain ⟨result, hvisits⟩ :=
      Visits.exists_outcome library [] _ (owns_pageJob library content resources)
    exact ⟨result, hvisits, fun _ _ hok => (hvisits.marks hok).2 List.nodup_nil, hvisits.interpret_eq⟩
  · rintro ⟨result, hvisits, -, rfl⟩
    exact hvisits.interpret_eq

end WeekGrid.Page
