import WeekGrid.Page.Traversal
import WeekGrid.Proofs.Page.Script

/-!
Which jobs matter to a traversal. A job whose key is used up can be dropped from the list at any time, so it
makes no difference that a scan leaves out the forms that are done already.
-/
namespace WeekGrid.Page

open Pdf (Reading)

namespace Drawing

def pending (d : Drawing) (isDone : StreamKey → Bool) : Drawing :=
  { d with invoked := d.invoked.filter fun job => !isDone job.key }

/-- The test on invoked forms can wait until a command has been carried out. -/
theorem pending_apply (d : Drawing) (scope : Scope) (c : Command) :
    (d.pending scope.isDone).apply scope c =
      (d.apply { scope with isDone := fun _ => false } c).pending scope.isDone := by
  cases c with
  | invoke name =>
    simp only [apply, invoke, job?, pending]
    split <;> simp only [Bool.false_eq_true, if_false]
    split <;> simp_all [List.filter_append]
  | showText text =>
    simp only [apply, showText, pending, anchor]
    split <;> rfl
  | nextLineShow text =>
    simp only [apply, showText, nextLine, pending, anchor]
    split <;> rfl
  | _ => rfl

theorem pending_carryOut (scope : Scope) (cs : List Command) (d : Drawing) :
    (d.pending scope.isDone).carryOut scope cs =
      (d.carryOut { scope with isDone := fun _ => false } cs).pending scope.isDone := by
  induction cs generalizing d with
  | nil => rfl
  | cons c cs ih => rw [carryOut_cons, pending_apply, ih, carryOut_cons]

end Drawing

namespace Library

/-- The scope in which every form that is named is invoked, done or not. -/
def openScope (library : Library) (resources : Resources) : Scope :=
  ⟨library.leading, library.streams, resources, fun _ => false⟩

/-- What a job draws and invokes, whatever has been scanned before. -/
def scanAlone (library : Library) (job : Job) : Except Failure Drawing :=
  scan (library.openScope job.resources) job.graphics job.content

theorem scan_eq_pending (library : Library) (isDone : StreamKey → Bool) (job : Job) :
    scan ⟨library.leading, library.streams, job.resources, isDone⟩ job.graphics job.content =
      (library.scanAlone job).map fun d => d.pending isDone := by
  rw [scanAlone, scan_eq, scan_eq]
  cases script job.content with
  | error failure => rfl
  | ok cs =>
    have h := Drawing.pending_carryOut ⟨library.leading, library.streams, job.resources, isDone⟩ cs
      (.start job.graphics)
    exact congrArg Except.ok h

theorem scan_eq_scanAlone (library : Library) (left : List StreamKey) (job : Job) :
    scan (library.scope job.resources left) job.graphics job.content =
      (library.scanAlone job).map fun d => d.pending fun key => !left.contains key :=
  library.scan_eq_pending (fun key => !left.contains key) job

@[simp] theorem traverse_nil (library : Library) (remaining : List StreamKey) :
    library.traverse remaining [] = .ok .empty := by
  rw [traverse]; rfl

theorem traverse_cons_of_not_mem (library : Library) {remaining : List StreamKey} {job : Job}
    (h : job.key ∉ remaining) (rest : List Job) :
    library.traverse remaining (job :: rest) = library.traverse remaining rest := by
  rw [traverse, dif_neg h]

def live (remaining : List StreamKey) (jobs : List Job) : List Job :=
  jobs.filter fun job => remaining.contains job.key

theorem live_append (remaining : List StreamKey) (jobs jobs' : List Job) :
    live remaining (jobs ++ jobs') = live remaining jobs ++ live remaining jobs' :=
  List.filter_append ..

theorem live_withoutKey_live (key : StreamKey) (remaining : List StreamKey) (jobs : List Job) :
    live (withoutKey key remaining) (live remaining jobs) = live (withoutKey key remaining) jobs := by
  rw [live, live, List.filter_filter]
  refine List.filter_congr fun job _ => ?_
  simp +contextual [withoutKey]

theorem traverse_live (library : Library) (remaining : List StreamKey) (jobs : List Job) :
    library.traverse remaining (live remaining jobs) = library.traverse remaining jobs := by
  -- A job that is taken up shortens `remaining`, one that is passed only the list: the inductions are nested.
  induction hn : remaining.length using Nat.strongRecOn generalizing remaining jobs with
  | _ n ih =>
    induction jobs with
    | nil => rfl
    | cons job rest ihrest =>
      by_cases hjob : job.key ∈ remaining
      · have hlive : live remaining (job :: rest) = job :: live remaining rest := by
          simp [live, hjob]
        have hless := length_withoutKey_lt hjob
        rw [hlive, traverse, traverse, dif_pos hjob, dif_pos hjob]
        refine bind_congr fun drawn => ?_
        rw [← ih _ (hn ▸ hless) _ (drawn.invoked.reverse ++ rest) rfl,
          ← ih _ (hn ▸ hless) _ (drawn.invoked.reverse ++ live remaining rest) rfl]
        rw [live_append, live_append, live_withoutKey_live]
      · have hlive : live remaining (job :: rest) = live remaining rest := by simp [live, hjob]
        rw [hlive, ihrest, traverse_cons_of_not_mem library hjob]

/-- A job that is taken up is scanned alone, and all the forms it invokes come next, the last one first. -/
theorem traverse_cons_of_mem (library : Library) {remaining : List StreamKey} {job : Job}
    (h : job.key ∈ remaining) (rest : List Job) :
    library.traverse remaining (job :: rest) = do
      let drawn ← library.scanAlone job
      let more ← library.traverse (withoutKey job.key remaining) (drawn.invoked.reverse ++ rest)
      return drawn.elements.append more := by
  rw [traverse, dif_pos h]
  simp only [scan_eq_scanAlone]
  cases library.scanAlone job with
  | error failure => rfl
  | ok drawn =>
    simp only [Except.map, bind, Except.bind, Drawing.pending]
    rw [← traverse_live, ← traverse_live library _ (drawn.invoked.reverse ++ rest)]
    simp [live, List.filter_append, List.filter_filter]

end Library
end WeekGrid.Page
