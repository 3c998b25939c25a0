import Mathlib.Data.List.Forall2
import WeekGrid.Proofs.Page.DepthFirst
import WeekGrid.Proofs.Page.Turns

/-!
Two traversals side by side. If jobs that correspond are scanned with results that correspond, and the forms
they invoke correspond one to one, then so do the texts and boxes of whole traversals, and the jobs that are
scanned correspond in their order. Streams that have the
same script are a case of this: one can stand for the other.
-/
namespace WeekGrid.Page

open Pdf (Reading)

/-- Where the first outcome is a success, the second is one that corresponds to it; where it is a failure, a
strict second outcome is the same failure. -/
def Follows {α β : Type} (strict : Prop) (corresponds : α → β → Prop) :
    Except Failure α → Except Failure β → Prop
  | .ok a, outcome => ∃ b, outcome = .ok b ∧ corresponds a b
  | .error failure, outcome => strict → outcome = .error failure

theorem follows_eq {α : Type} {o o' : Except Failure α} (h : Follows True Eq o o') : o' = o := by
  cases o with
  | error failure => exact h trivial
  | ok a =>
    obtain ⟨b, ho, rfl⟩ := h
    exact ho

theorem Follows.imp {α β : Type} {strict : Prop} {R S : α → β → Prop} {o : Except Failure α}
    {o' : Except Failure β} (h : Follows strict R o o') (hRS : ∀ a b, R a b → S a b) :
    Follows strict S o o' := by
  cases o with
  | error failure => exact h
  | ok a =>
    obtain ⟨b, ho, hR⟩ := h
    exact ⟨b, ho, hRS a b hR⟩

theorem Follows.bind {α α' β β' : Type} {strict : Prop} {R : α → α' → Prop} {S : β → β' → Prop}
    {o : Except Failure α} {o' : Except Failure α'} (h : Follows strict R o o')
    {f : α → Except Failure β} {f' : α' → Except Failure β'}
    (hf : ∀ a a', R a a' → Follows strict S (f a) (f' a')) : Follows strict S (o >>= f) (o' >>= f') := by
  cases o with
  | error failure =>
    intro hstrict
    rw [h hstrict]
    rfl
  | ok a =>
    obtain ⟨a', rfl, hR⟩ := h
    exact hf a a' hR

/-- A correspondence of jobs in one library to jobs in another, and of what is drawn to what is drawn. -/
structure Simulation (library library' : Library) (strict : Prop) where
  jobs : Job → Job → Prop
  elements : Elements → Elements → Prop
  key_eq {job job'} : jobs job job' → job.key = job'.key
  empty : elements .empty .empty
  append {e e' f f'} : elements e e' → elements f f' → elements (e.append f) (e'.append f')
  scanAlone {job job'} : jobs job job' →
    Follows strict (fun d d' => elements d.elements d'.elements ∧ List.Forall₂ jobs d.invoked d'.invoked)
      (library.scanAlone job) (library'.scanAlone job')

namespace Simulation

variable {library library' : Library} {strict : Prop}

theorem traverse (s : Simulation library library' strict) (remaining : List StreamKey) {jobs jobs' : List Job}
    (h : List.Forall₂ s.jobs jobs jobs') :
    Follows strict s.elements (library.traverse remaining jobs) (library'.traverse remaining jobs') := by
  induction hn : remaining.length using Nat.strongRecOn generalizing remaining jobs jobs' with
  | _ n ih =>
    induction h with
    | nil =>
      rw [Library.traverse_nil, Library.traverse_nil]
      exact ⟨.empty, rfl, s.empty⟩
    | @cons job job' rest rest' hjob hrest ihrest =>
      have hkey := s.key_eq hjob
      by_cases hmem : job.key ∈ remaining
      · rw [Library.traverse_cons_of_mem library hmem, Library.traverse_cons_of_mem library' (hkey ▸ hmem),
          ← hkey]
        refine (s.scanAlone hjob).bind fun d d' hd => ?_
        have hforms : List.Forall₂ s.jobs (d.invoked.reverse ++ rest) (d'.invoked.reverse ++ rest') :=
          List.rel_append (List.forall₂_reverse_iff.2 hd.2) hrest
        have hbelow := ih _ (hn ▸ length_withoutKey_lt hmem) (withoutKey job.key remaining) hforms rfl
        exact hbelow.bind fun more more' hmore => ⟨_, rfl, s.append hd.1 hmore⟩
      · rw [Library.traverse_cons_of_not_mem library hmem,
          Library.traverse_cons_of_not_mem library' (hkey ▸ hmem)]
        exact ihrest

theorem interpret (s : Simulation library library' strict) (hkeys : library'.keys = library.keys)
    {content content' : Reading} {resources resources' : Resources}
    (h : s.jobs (pageJob content resources) (pageJob content' resources')) :
    Follows strict s.elements (library.interpret content resources)
      (library'.interpret content' resources') := by
  rw [Library.interpret, Library.interpret, hkeys]
  exact s.traverse library.keys (List.Forall₂.cons h .nil)

theorem filter_jobs (s : Simulation library library' strict) (isDone : StreamKey → Bool)
    {jobs jobs' : List Job} (h : List.Forall₂ s.jobs jobs jobs') :
    List.Forall₂ s.jobs (jobs.filter fun job => !isDone job.key) (jobs'.filter fun job => !isDone job.key) := by
  induction h with
  | nil => exact .nil
  | cons hjob _ ih =>
    rw [List.filter_cons, List.filter_cons, s.key_eq hjob]
    split
    · exact .cons hjob ih
    · exact ih

/-- What holds of jobs that are scanned alone holds where some forms are done. -/
theorem scan (s : Simulation library library' strict) (left : List StreamKey) {job job' : Job}
    (h : s.jobs job job') {d : Drawing}
    (hscan : Page.scan (library.scope job.resources left) job.graphics job.content = .ok d) :
    ∃ d', Page.scan (library'.scope job'.resources left) job'.graphics job'.content = .ok d' ∧
      List.Forall₂ s.jobs d.invoked d'.invoked := by
  rw [Library.scan_eq_scanAlone] at hscan
  obtain ⟨alone, halone, rfl⟩ := Outcome.map_eq_ok_iff.1 hscan
  have hfollows := s.scanAlone h
  rw [halone] at hfollows
  obtain ⟨alone', halone', -, hinvoked⟩ := hfollows
  exact ⟨alone'.pending fun key => !left.contains key, by rw [Library.scan_eq_scanAlone, halone']; rfl,
    s.filter_jobs (fun key => !left.contains key) hinvoked⟩

theorem scanned (s : Simulation library library' strict) (remaining : List StreamKey) (jobs : List Job)
    (hok : ∀ job failure, .failed job failure ∉ library.turns remaining jobs) :
    ∀ jobs', List.Forall₂ s.jobs jobs jobs' →
      List.Forall₂ s.jobs ((library.turns remaining jobs).filterMap Turn.scanned?)
        ((library'.turns remaining jobs').filterMap Turn.scanned?) := by
  fun_induction library.turns remaining jobs with
  | case1 remaining =>
    intro jobs' h
    cases h
    rw [Library.turns]
    exact .nil
  | case2 remaining job rest hkey left failure hscan => exact absurd List.mem_cons_self (hok job failure)
  | case3 remaining job rest hkey left drawing hscan ih =>
    intro jobs' h
    obtain ⟨job', rest', hjob, hrest, rfl⟩ := List.forall₂_cons_left_iff.1 h
    obtain ⟨drawing', hscan', hinvoked⟩ := s.scan left hjob hscan
    have hleft : withoutKey job'.key remaining = left := by rw [← s.key_eq hjob]
    rw [Library.turns, dif_pos (s.key_eq hjob ▸ hkey), hleft]
    simp only [hscan']
    exact .cons hjob (ih (fun form failure hmem => hok form failure (List.mem_cons_of_mem _ hmem)) _
      (List.rel_append (List.forall₂_reverse_iff.2 hinvoked) hrest))
  | case4 remaining job rest hkey ih =>
    intro jobs' h
    obtain ⟨job', rest', hjob, hrest, rfl⟩ := List.forall₂_cons_left_iff.1 h
    rw [Library.turns, dif_neg (s.key_eq hjob ▸ hkey)]
    exact ih (fun form failure hmem => hok form failure (List.mem_cons_of_mem _ hmem)) rest' hrest

end Simulation

/-- Streams that differ in their contents at most, and not in the scripts of these. -/
structure FormStream.Alike (form form' : FormStream) : Prop where
  number : form.number = form'.number
  subtype : form.subtype = form'.subtype
  resources : form.resources = form'.resources
  script : script form.content = script form'.content

theorem FormStream.Alike.isForm {form form' : FormStream} (h : form.Alike form') :
    form.isForm = form'.isForm := by
  rw [FormStream.isForm, h.subtype]
  rfl

theorem FormStream.Alike.key {form form' : FormStream} (h : form.Alike form') (index : Nat) :
    form.key index = form'.key index := by
  rw [FormStream.key, h.number]
  rfl

structure Job.Alike (job job' : Job) : Prop where
  key : job.key = job'.key
  resources : job.resources = job'.resources
  graphics : job.graphics = job'.graphics
  script : script job.content = script job'.content

/-- Drawings that differ in the forms invoked at most, and there only in contents with the same script. -/
structure Drawing.Alike (d d' : Drawing) : Prop where
  graphics : d.graphics = d'.graphics
  path : d.path = d'.path
  elements : d.elements = d'.elements
  invoked : List.Forall₂ Job.Alike d.invoked d'.invoked

structure Scope.Alike (scope scope' : Scope) : Prop where
  leading : scope.leading = scope'.leading
  streams : List.Forall₂ FormStream.Alike scope.streams scope'.streams
  resources : scope.resources = scope'.resources
  isDone : scope.isDone = scope'.isDone

theorem getElem?_alike {forms forms' : List FormStream} (h : List.Forall₂ FormStream.Alike forms forms')
    (index : Nat) : Option.Rel FormStream.Alike forms[index]? forms'[index]? := by
  induction h generalizing index with
  | nil => exact .none
  | cons hform _ ih =>
    cases index with
    | zero => exact .some hform
    | succ index => exact ih index

namespace Drawing

theorem alike_start (graphics : Graphics) : (start graphics).Alike (start graphics) :=
  ⟨rfl, rfl, rfl, .nil⟩

theorem job?_alike {scope scope' : Scope} (h : scope.Alike scope') (graphics : Graphics) (name : String) :
    Option.Rel Job.Alike (job? scope graphics name) (job? scope' graphics name) := by
  unfold job?
  rw [← h.resources]
  split
  · next index _ =>
    have hform := getElem?_alike h.streams index
    generalize scope.streams[index]? = form at hform
    generalize scope'.streams[index]? = form' at hform
    cases hform with
    | none => exact .none
    | some halike =>
      simp only [halike.isForm]
      split
      · exact .some ⟨halike.key index, by rw [halike.resources], rfl, halike.script⟩
      · exact .none
  · exact .none

theorem alike_invoke {d d' : Drawing} (h : d.Alike d') {scope scope' : Scope} (hscope : scope.Alike scope')
    (name : String) : (d.invoke scope name).Alike (d'.invoke scope' name) := by
  have hjob := job?_alike hscope d.graphics name
  unfold invoke
  rw [← h.graphics, ← hscope.isDone]
  generalize job? scope d.graphics name = job at hjob
  generalize job? scope' d.graphics name = job' at hjob
  cases hjob with
  | none => exact h
  | some halike =>
    simp only [← halike.key]
    split
    · exact h
    · exact ⟨rfl, h.path, h.elements, List.rel_append h.invoked (.cons halike .nil)⟩

theorem alike_apply {d d' : Drawing} (h : d.Alike d') {scope scope' : Scope} (hscope : scope.Alike scope')
    (c : Command) : (d.apply scope c).Alike (d'.apply scope' c) := by
  have hshow : ∀ {e e' : Drawing}, e.Alike e' → ∀ text, (e.showText text).Alike (e'.showText text) := by
    intro e e' he text
    unfold showText anchor
    split
    · exact he
    · exact ⟨he.graphics, he.path, by simp only [he.graphics, he.elements], he.invoked⟩
  have hline : (d.nextLine scope.leading).Alike (d'.nextLine scope'.leading) :=
    ⟨by simp only [nextLine, h.graphics, hscope.leading], h.path, h.elements, h.invoked⟩
  cases c with
  | invoke name => exact alike_invoke h hscope name
  | showText text => exact hshow h text
  | nextLine => exact hline
  | nextLineShow text => exact hshow hline text
  | nothing => exact h
  | _ =>
    constructor <;>
      simp only [apply, addBoxes, onPath, fill, setColor, setMatrix, translate, h.graphics, h.path, h.elements,
        h.invoked]

theorem alike_carryOut (cs : List Command) {d d' : Drawing} (h : d.Alike d') {scope scope' : Scope}
    (hscope : scope.Alike scope') : (d.carryOut scope cs).Alike (d'.carryOut scope' cs) := by
  induction cs generalizing d d' with
  | nil => exact h
  | cons c cs ih => exact ih (alike_apply h hscope c)

end Drawing

structure Library.Alike (library library' : Library) : Prop where
  leading : library.leading = library'.leading
  streams : List.Forall₂ FormStream.Alike library.streams library'.streams

namespace Library.Alike

variable {library library' : Library}

theorem scanAlone (h : library.Alike library') {job job' : Job} (hjob : job.Alike job') :
    Follows True (fun d d' => d.Alike d') (library.scanAlone job) (library'.scanAlone job') := by
  have hscope : (library.openScope job.resources).Alike (library'.openScope job'.resources) :=
    ⟨h.leading, h.streams, hjob.resources, rfl⟩
  rw [Library.scanAlone, Library.scanAlone, scan_eq, scan_eq, ← hjob.script, ← hjob.graphics]
  cases script job.content with
  | error failure => exact fun _ => rfl
  | ok cs => exact ⟨_, rfl, Drawing.alike_carryOut cs (Drawing.alike_start job.graphics) hscope⟩

def simulation (h : library.Alike library') : Simulation library library' True where
  jobs := Job.Alike
  elements := Eq
  key_eq := Job.Alike.key
  empty := rfl
  append := by
    rintro _ _ _ _ rfl rfl
    rfl
  scanAlone hjob := (h.scanAlone hjob).imp fun _ _ hd => ⟨hd.elements, hd.invoked⟩

theorem keys_eq (h : library.Alike library') : library'.keys = library.keys := by
  refine congrArg (List.cons StreamKey.page) (List.ext_getElem? fun index => ?_)
  have hform := getElem?_alike h.streams index
  rw [List.getElem?_mapIdx, List.getElem?_mapIdx]
  generalize library.streams[index]? = form at hform
  generalize library'.streams[index]? = form' at hform
  cases hform with
  | none => rfl
  | some halike => exact congrArg some (halike.key index).symm

theorem interpret_eq (h : library.Alike library') {content content' : Reading}
    (hcontent : script content = script content') (resources : Resources) :
    library'.interpret content' resources = library.interpret content resources :=
  follows_eq (h.simulation.interpret h.keys_eq ⟨rfl, rfl, rfl, hcontent⟩)

end Library.Alike

end WeekGrid.Page
