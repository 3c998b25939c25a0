import Mathlib.Logic.Relation
import WeekGrid.Proofs.Page.DepthFirst

/-!
The interpretation of a page step by step. Between two streams a step takes the next job off the list, and either
passes it over or takes it up; within a stream it reads one item; at the end of a stream the forms invoked go in
front of the list. The steps from the page on end in a state that settles what the page comes to, and no other
outcome can be reached.
-/
namespace WeekGrid.Page

open Pdf (Item Reading)
open Relation (ReflTransGen)

/-- A stream in the middle of its scan: the items that have been read, and what they have done. -/
structure Scanning where
  job : Job
  read : List Item
  machine : Machine

/-- The interpretation between two steps: the keys that have not been used up, the jobs pending, the texts and boxes
of the streams that have been scanned, and the stream that is being scanned, if there is one. -/
structure State where
  remaining : List StreamKey
  pending : List Job
  shown : Elements
  scanning : Option Scanning

namespace State

def start (library : Library) (content : Reading) (resources : Resources) : State :=
  ⟨library.keys, [pageJob content resources], .empty, none⟩

def worklist (state : State) : List Job :=
  (match state.scanning with
    | some scan => scan.machine.drawing.invoked.reverse
    | none => []) ++ state.pending

def elements (state : State) : Elements :=
  state.shown.append (match state.scanning with
    | some scan => scan.machine.drawing.elements
    | none => .empty)

end State

inductive Step (library : Library) : State → State → Prop where
  /-- A job whose key has been used up is passed over. -/
  | pass {remaining job rest shown} (hkey : job.key ∉ remaining) :
      Step library ⟨remaining, job :: rest, shown, none⟩ ⟨remaining, rest, shown, none⟩
  | takeUp {remaining job rest shown} (hkey : job.key ∈ remaining) :
      Step library ⟨remaining, job :: rest, shown, none⟩
        ⟨withoutKey job.key remaining, rest, shown, some ⟨job, [], .start job.graphics⟩⟩
  | read {left pending shown job before item after m m'} (hitems : job.content.items = before ++ item :: after)
      (hstep : m.step (library.scope job.resources left) item = .ok m') :
      Step library ⟨left, pending, shown, some ⟨job, before, m⟩⟩
        ⟨left, pending, shown, some ⟨job, before ++ [item], m'⟩⟩
  | finish {left pending shown job m} (hwhole : job.content.failure = none) :
      Step library ⟨left, pending, shown, some ⟨job, job.content.items, m⟩⟩
        ⟨left, m.drawing.invoked.reverse ++ pending, shown.append m.drawing.elements, none⟩

/-- A state that steps lead to from the page. -/
def Reached (library : Library) (content : Reading) (resources : Resources) : State → Prop :=
  ReflTransGen (Step library) (.start library content resources)

/-- States in which the interpretation ends, with what it comes to: no jobs are left, or the next item fails, or the
reading of a stream has failed behind its items. -/
inductive State.Ends (library : Library) : State → Except Failure Elements → Prop where
  | done {remaining shown} : Ends library ⟨remaining, [], shown, none⟩ (.ok shown)
  | atItem {left pending shown job before item after m failure}
      (hitems : job.content.items = before ++ item :: after)
      (hstep : m.step (library.scope job.resources left) item = .error failure) :
      Ends library ⟨left, pending, shown, some ⟨job, before, m⟩⟩ (.error failure)
  | atEnd {left pending shown job m failure} (hfailure : job.content.failure = some failure) :
      Ends library ⟨left, pending, shown, some ⟨job, job.content.items, m⟩⟩ (.error failure)

namespace Library

theorem steps_run (library : Library) (left : List StreamKey) (pending : List Job) (shown : Elements) (job : Job)
    {before items : List Item} (hitems : job.content.items = before ++ items) (m : Machine) :
    match Machine.run (library.scope job.resources left) m items with
    | .ok m' => ReflTransGen (Step library) ⟨left, pending, shown, some ⟨job, before, m⟩⟩
        ⟨left, pending, shown, some ⟨job, job.content.items, m'⟩⟩
    | .error failure => ∃ last, ReflTransGen (Step library) ⟨left, pending, shown, some ⟨job, before, m⟩⟩ last ∧
        last.Ends library (.error failure) := by
  -- Induction on the items still unread; `before` grows by the one that each step reads.
  induction items generalizing before m with
  | nil =>
    rw [List.append_nil] at hitems
    rw [← hitems]
    exact .refl
  | cons item items ih =>
    rw [Machine.run]
    cases hstep : m.step (library.scope job.resources left) item with
    | error failure => exact ⟨_, .refl, .atItem hitems hstep⟩
    | ok m' =>
      have hrest : job.content.items = (before ++ [item]) ++ items := by simpa using hitems
      have hfirst : Step library ⟨left, pending, shown, some ⟨job, before, m⟩⟩
          ⟨left, pending, shown, some ⟨job, before ++ [item], m'⟩⟩ := .read hitems hstep
      have hmore := ih hrest m'
      simp only [bind, Except.bind]
      split
      · next m'' hrun =>
        rw [hrun] at hmore
        exact hmore.head hfirst
      · next failure hrun =>
        rw [hrun] at hmore
        obtain ⟨last, hlast, hends⟩ := hmore
        exact ⟨last, hlast.head hfirst, hends⟩

theorem traverse_takeUp (library : Library) {remaining : List StreamKey} {job : Job} (hkey : job.key ∈ remaining)
    (rest : List Job) (shown : Elements) :
    (library.traverse remaining (job :: rest)).map shown.append = (do
      let left := withoutKey job.key remaining
      let m ← Machine.run (library.scope job.resources left) (.start job.graphics) job.content.items
      match job.content.failure with
      | some failure => throw failure
      | none =>
        (library.traverse left (m.drawing.invoked.reverse ++ rest)).map
          (shown.append m.drawing.elements).append) := by
  rw [traverse, dif_pos hkey]
  simp only [scan]
  generalize withoutKey job.key remaining = left
  cases Machine.run (library.scope job.resources left) (.start job.graphics) job.content.items with
  | error failure => rfl
  | ok m =>
    cases job.content.failure with
    | some failure => rfl
    | none =>
      simp only [bind, Except.bind, pure, Except.pure]
      cases library.traverse left (m.drawing.invoked.reverse ++ rest) with
      | error failure => rfl
      | ok more => simp only [Except.map, Elements.append_assoc]

theorem exists_ends (library : Library) (remaining : List StreamKey) (jobs : List Job) (shown : Elements) :
    ∃ last, ReflTransGen (Step library) ⟨remaining, jobs, shown, none⟩ last ∧
      last.Ends library ((library.traverse remaining jobs).map shown.append) := by
  -- Each call of the traversal is a take-up, the reads of one stream and a finish, or a single pass.
  induction remaining, jobs using Library.traverse.induct generalizing shown with
  | case1 remaining =>
    rw [traverse_nil, Except.map, Elements.append_empty]
    exact ⟨_, .refl, .done⟩
  | case2 remaining job rest hkey left ih =>
    have htaken : Step library ⟨remaining, job :: rest, shown, none⟩
        ⟨left, rest, shown, some ⟨job, [], .start job.graphics⟩⟩ := .takeUp hkey
    have hitems := library.steps_run left rest shown job (List.nil_append _).symm (.start job.graphics)
    rw [library.traverse_takeUp hkey]
    cases hrun : Machine.run (library.scope job.resources left) (.start job.graphics) job.content.items with
    | error failure =>
      rw [hrun] at hitems
      simp only [left, hrun, bind, Except.bind]
      obtain ⟨last, hlast, hends⟩ := hitems
      exact ⟨last, hlast.head htaken, hends⟩
    | ok m =>
      rw [hrun] at hitems
      simp only [left, hrun, bind, Except.bind]
      cases hfailure : job.content.failure with
      | some failure => exact ⟨_, hitems.head htaken, .atEnd hfailure⟩
      | none =>
        obtain ⟨last, hlast, hends⟩ := ih m.drawing (shown.append m.drawing.elements)
        exact ⟨last, ((hitems.head htaken).tail (.finish hfailure)).trans hlast, hends⟩
  | case3 remaining job rest hkey ih =>
    obtain ⟨last, hlast, hends⟩ := ih shown
    rw [library.traverse_cons_of_not_mem hkey]
    exact ⟨last, hlast.head (.pass hkey), hends⟩

end Library

def State.comesTo (library : Library) (state : State) : Except Failure Elements :=
  match state.scanning with
  | none => (library.traverse state.remaining state.pending).map state.shown.append
  | some scan => do
    let unread := scan.job.content.items.drop scan.read.length
    let m ← Machine.run (library.scope scan.job.resources state.remaining) scan.machine unread
    match scan.job.content.failure with
    | some failure => throw failure
    | none =>
      (library.traverse state.remaining (m.drawing.invoked.reverse ++ state.pending)).map
        (state.shown.append m.drawing.elements).append

theorem Step.comesTo_eq {library : Library} {state next : State} (h : Step library state next) :
    next.comesTo library = state.comesTo library := by
  cases h with
  | pass hkey => simp only [State.comesTo, library.traverse_cons_of_not_mem hkey]
  | takeUp hkey => simp only [State.comesTo, library.traverse_takeUp hkey, List.length_nil, List.drop_zero]
  | @read _ _ _ job before item after _ _ hitems hstep =>
    have hunread : job.content.items.drop before.length = item :: after := by rw [hitems, List.drop_left]
    have hitems' : job.content.items = (before ++ [item]) ++ after := by simpa using hitems
    have hafter : job.content.items.drop (before ++ [item]).length = after := by rw [hitems', List.drop_left]
    simp only [State.comesTo, hunread, hafter, Machine.run, hstep, bind, Except.bind]
  | finish hwhole =>
    simp only [State.comesTo, hwhole, List.drop_length, Machine.run, bind, Except.bind, pure, Except.pure]

theorem State.Ends.comesTo_eq {library : Library} {state : State} {outcome : Except Failure Elements}
    (h : state.Ends library outcome) : state.comesTo library = outcome := by
  cases h with
  | @done _ shown => simp only [State.comesTo, Library.traverse_nil, Except.map, Elements.append_empty]
  | @atItem _ _ _ job before item after _ _ hitems hstep =>
    have hunread : job.content.items.drop before.length = item :: after := by rw [hitems, List.drop_left]
    simp only [State.comesTo, hunread, Machine.run, hstep, bind, Except.bind]
  | atEnd hfailure =>
    simp only [State.comesTo, hfailure, List.drop_length, Machine.run, bind, Except.bind, pure, Except.pure]
    rfl

theorem interpret_eq_iff_ends (library : Library) (content : Reading) (resources : Resources)
    (outcome : Except Failure Elements) :
    library.interpret content resources = outcome ↔
      ∃ last, Reached library content resources last ∧ last.Ends library outcome := by
  have hempty : ∀ outcome : Except Failure Elements, outcome.map Elements.empty.append = outcome := by
    rintro (failure | elements) <;> rfl
  have hstart : (State.start library content resources).comesTo library = library.interpret content resources :=
    hempty _
  constructor
  · rintro rfl
    rw [← hstart]
    exact library.exists_ends library.keys [pageJob content resources] .empty
  · rintro ⟨last, hreached, hends⟩
    rw [← hstart, ← hends.comesTo_eq]
    clear hends
    induction hreached with
    | refl => rfl
    | tail _ hstep ih => exact ih.trans hstep.comesTo_eq.symm

end WeekGrid.Page
