import WeekGrid.Proofs.Page.Worklist

/-!
The turns of a traversal: each takes a job off the list, and either passes it over or scans it. What the
traversal comes to is what its turns come to one after another.
-/
namespace WeekGrid.Page

/-- What becomes of a job that is taken off the list. -/
inductive Turn where
  /-- Its key has been used up. -/
  | passed (job : Job)
  | failed (job : Job) (failure : Failure)
  | drawn (job : Job) (drawing : Drawing)

namespace Turn

def scanned? : Turn → Option Job
  | passed _ => none
  | failed job _ => some job
  | drawn job _ => some job

def outcome : List Turn → Except Failure Elements
  | [] => .ok .empty
  | passed _ :: turns => outcome turns
  | failed _ failure :: _ => .error failure
  | drawn _ drawing :: turns => (outcome turns).map drawing.elements.append

theorem not_failed_of_outcome {turns : List Turn} {elements : Elements} (h : outcome turns = .ok elements)
    (job : Job) (failure : Failure) : .failed job failure ∉ turns := by
  induction turns generalizing elements with
  | nil => exact List.not_mem_nil
  | cons turn turns ih =>
    cases turn with
    | passed other => simpa using ih h
    | failed other reason => cases h
    | drawn other drawing =>
      obtain ⟨more, hmore, -⟩ := Outcome.map_eq_ok_iff.1 h
      simpa using ih hmore

theorem failed_of_outcome {turns : List Turn} {failure : Failure} (h : outcome turns = .error failure) :
    ∃ job, .failed job failure ∈ turns := by
  induction turns with
  | nil => cases h
  | cons turn turns ih =>
    cases turn with
    | passed other =>
      obtain ⟨job, hjob⟩ := ih h
      exact ⟨job, List.mem_cons_of_mem _ hjob⟩
    | failed other reason =>
      cases h
      exact ⟨other, List.mem_cons_self⟩
    | drawn other drawing =>
      cases hmore : outcome turns with
      | ok more =>
        rw [outcome, hmore] at h
        cases h
      | error reason =>
        rw [outcome, hmore] at h
        cases h
        obtain ⟨job, hjob⟩ := ih hmore
        exact ⟨job, List.mem_cons_of_mem _ hjob⟩

def IsTrueOf (library : Library) : Turn → Prop
  | passed _ => True
  | failed job failure => library.scanAlone job = .error failure
  | drawn job drawing => ∃ d, library.scanAlone job = .ok d ∧ d.elements = drawing.elements

end Turn

namespace Library

/-- The turns of a traversal, in order; a failure is the last one. -/
def turns (library : Library) (remaining : List StreamKey) (jobs : List Job) : List Turn :=
  match jobs with
  | [] => []
  | job :: rest =>
    if _h : job.key ∈ remaining then
      let left := withoutKey job.key remaining
      match scan (library.scope job.resources left) job.graphics job.content with
      | .error failure => [.failed job failure]
      | .ok drawing => .drawn job drawing :: library.turns left (drawing.invoked.reverse ++ rest)
    else .passed job :: library.turns remaining rest
termination_by (remaining.length, jobs.length)
decreasing_by
  · exact Prod.Lex.left _ _ (length_withoutKey_lt _h)
  · exact Prod.Lex.right _ (Nat.lt_succ_self _)

theorem traverse_eq_outcome (library : Library) (remaining : List StreamKey) (jobs : List Job) :
    library.traverse remaining jobs = Turn.outcome (library.turns remaining jobs) := by
  fun_induction library.turns remaining jobs with
  | case1 remaining => exact library.traverse_nil remaining
  | case2 remaining job rest hkey left failure hscan =>
    rw [traverse, dif_pos hkey]
    simp only [left] at hscan
    simp only [hscan, Turn.outcome]
    rfl
  | case3 remaining job rest hkey left drawing hscan ih =>
    rw [traverse, dif_pos hkey]
    simp only [left] at hscan ih
    simp only [hscan, Turn.outcome, bind, Except.bind, ih]
    cases Turn.outcome _ <;> rfl
  | case4 remaining job rest hkey ih =>
    rw [traverse_cons_of_not_mem library hkey, ih, Turn.outcome]

theorem turns_isTrueOf (library : Library) (remaining : List StreamKey) (jobs : List Job) :
    ∀ turn ∈ library.turns remaining jobs, turn.IsTrueOf library := by
  fun_induction library.turns remaining jobs with
  | case1 remaining => exact fun turn hturn => absurd hturn List.not_mem_nil
  | case2 remaining job rest hkey left failure hscan =>
    intro turn hturn
    rw [List.mem_singleton.1 hturn, Turn.IsTrueOf]
    rw [scan_eq_scanAlone] at hscan
    cases halone : library.scanAlone job with
    | error other => rw [halone] at hscan; exact hscan
    | ok d => rw [halone] at hscan; cases hscan
  | case3 remaining job rest hkey left drawing hscan ih =>
    refine List.forall_mem_cons.2 ⟨?_, ih⟩
    rw [scan_eq_scanAlone] at hscan
    obtain ⟨d, halone, rfl⟩ := Outcome.map_eq_ok_iff.1 hscan
    exact ⟨d, halone, rfl⟩
  | case4 remaining job rest hkey ih => exact List.forall_mem_cons.2 ⟨trivial, ih⟩

end Library
end WeekGrid.Page
