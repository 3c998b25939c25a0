import Mathlib.Algebra.Ring.Nat
import Mathlib.Data.List.Dedup
import Mathlib.Data.List.Perm.Subperm
import WeekGrid.Proofs.Page.Reachability

/-!
The traversal as a loop. It keeps a list of pending jobs and the keys that it has visited, and knows nothing of
the keys that there are; the list grows while it is used up, and may hold a form many times. It ends all the
same: every key is scanned once at most, and each turn beyond the first answers an operator `Do`.
-/
namespace WeekGrid.Page

open Pdf (Object Item Reading)
open Text (Bytes)

/-- A run of the loop to its end, told by its turns. A turn takes the first job off the list. If its key has been
visited, nothing happens; otherwise the key is marked and the job is scanned, and the forms that it invokes go in
front of the list, the last one first. A failure ends the run. -/
inductive LoopRun (library : Library) : List StreamKey → List Job → List Turn → Prop where
  | done {visited} : LoopRun library visited [] []
  | passed {visited job rest turns} (hkey : job.key ∈ visited) (hrest : LoopRun library visited rest turns) :
      LoopRun library visited (job :: rest) (.passed job :: turns)
  | failed {visited job rest failure} (hkey : job.key ∉ visited)
      (hscan : scan ⟨library.leading, library.streams, job.resources, (job.key :: visited).contains⟩ job.graphics
        job.content = .error failure) :
      LoopRun library visited (job :: rest) [.failed job failure]
  | drawn {visited job rest drawing turns} (hkey : job.key ∉ visited)
      (hscan : scan ⟨library.leading, library.streams, job.resources, (job.key :: visited).contains⟩ job.graphics
        job.content = .ok drawing)
      (hrest : LoopRun library (job.key :: visited) (drawing.invoked.reverse ++ rest) turns) :
      LoopRun library visited (job :: rest) (.drawn job drawing :: turns)

namespace LoopRun

variable {library : Library}

theorem unique {visited : List StreamKey} {jobs : List Job} {turns other : List Turn}
    (h : LoopRun library visited jobs turns) (h' : LoopRun library visited jobs other) : other = turns := by
  induction h generalizing other with
  | done =>
    cases h'
    rfl
  | passed hkey _ ih =>
    cases h' with
    | passed _ hrest => rw [ih hrest]
    | failed hnot => exact absurd hkey hnot
    | drawn hnot => exact absurd hkey hnot
  | failed hkey hscan =>
    cases h' with
    | passed hmem => exact absurd hmem hkey
    | failed _ hscan' =>
      rw [hscan] at hscan'
      cases hscan'
      rfl
    | drawn _ hscan' =>
      rw [hscan] at hscan'
      cases hscan'
  | drawn hkey hscan _ ih =>
    cases h' with
    | passed hmem => exact absurd hmem hkey
    | failed _ hscan' =>
      rw [hscan] at hscan'
      cases hscan'
    | drawn _ hscan' hrest =>
      rw [hscan] at hscan'
      cases hscan'
      rw [ih hrest]

end LoopRun

namespace Library

theorem scan_visited_eq (library : Library) (visited : List StreamKey) (job : Job) :
    scan ⟨library.leading, library.streams, job.resources, visited.contains⟩ job.graphics job.content =
      scan (library.scope job.resources (library.unvisited visited)) job.graphics job.content := by
  rw [scan_eq_pending, scan_eq_scanAlone]
  cases halone : library.scanAlone job with
  | error failure => rfl
  | ok d =>
    have hinvoked : (d.invoked.filter fun form => !visited.contains form.key) =
        d.invoked.filter fun form => !!(library.unvisited visited).contains form.key := by
      refine List.filter_congr fun form hform => ?_
      have hkey := owns_invoked halone form (List.mem_reverse.2 hform)
      simp [unvisited, hkey]
    simp only [Except.map, Drawing.pending, hinvoked]

/-- The turns of a traversal are a run of the loop: no scan brings up a key that is not in the document, so the
keys left to visit become fewer with every scan. -/
theorem loopRun_turns (library : Library) (remaining : List StreamKey) (jobs : List Job)
    (howns : library.Owns jobs) (visited : List StreamKey) (h : remaining = library.unvisited visited) :
    LoopRun library visited jobs (library.turns remaining jobs) := by
  fun_induction library.turns remaining jobs generalizing visited with
  | case1 remaining => exact .done
  | case2 remaining job rest hkey left failure hscan =>
    subst h
    have hleft : left = library.unvisited (job.key :: visited) := library.withoutKey_unvisited visited job.key
    rw [hleft, ← scan_visited_eq] at hscan
    exact .failed (mem_unvisited.1 hkey).2 hscan
  | case3 remaining job rest hkey left drawing hscan ih =>
    subst h
    have hleft : left = library.unvisited (job.key :: visited) := library.withoutKey_unvisited visited job.key
    have hforms : library.Owns (drawing.invoked.reverse ++ rest) := by
      intro form hform
      rcases List.mem_append.1 hform with hform | hform
      · exact key_mem_keys_of_invokes (invokes_of_mem_invoked hscan (List.mem_reverse.1 hform))
      · exact howns.tail form hform
    rw [hleft, ← scan_visited_eq] at hscan
    exact .drawn (mem_unvisited.1 hkey).2 hscan (ih hforms _ hleft)
  | case4 remaining job rest hkey ih =>
    subst h
    have hvisited : job.key ∈ visited := by
      by_contra hnot
      exact hkey (mem_unvisited.2 ⟨howns _ List.mem_cons_self, hnot⟩)
    exact .passed hvisited (ih howns.tail _ rfl)

end Library

def isInvocation : Item → Bool
  | .operator keyword => keyword = Pdf.ascii "Do"
  | .operand _ => false

def Source.invocations (s : Source) : Nat := s.content.items.countP isInvocation

theorem Command.isOf_invoke_iff {c : Command} : c.isOf .invoke = true ↔ ∃ name, c = .invoke name := by
  cases c <;> simp [isOf]

theorem Drawing.length_invoked_apply_le (d : Drawing) (scope : Scope) (c : Command) :
    (d.apply scope c).invoked.length ≤ d.invoked.length + (if c.isOf .invoke then 1 else 0) := by
  by_cases hc : c.isOf .invoke = true
  · obtain ⟨name, rfl⟩ := Command.isOf_invoke_iff.1 hc
    rw [apply, invoked_invoke, List.length_append, if_pos hc]
    exact Nat.add_le_add_left Option.length_toList_le _
  · rw [invoked_apply_of_ne d scope fun name heq => hc (Command.isOf_invoke_iff.2 ⟨name, heq⟩)]
    exact Nat.le_add_right _ _

theorem Drawing.length_invoked_carryOut_le (d : Drawing) (scope : Scope) (cs : List Command) :
    (d.carryOut scope cs).invoked.length ≤ d.invoked.length + cs.countP (·.isOf .invoke) := by
  induction cs generalizing d with
  | nil => exact Nat.le_refl _
  | cons c cs ih =>
    have hfirst := d.length_invoked_apply_le scope c
    have hrest := ih (d.apply scope c)
    rw [carryOut_cons, List.countP_cons]
    omega

theorem countP_called_le {keyword : Bytes} {operands : List Object} {now : List Command}
    (h : called keyword operands = .ok now) :
    now.countP (·.isOf .invoke) ≤ if isInvocation (.operator keyword) then 1 else 0 := by
  cases hop : Operator.ofKeyword? keyword with
  | none =>
    simp only [called, hop, Except.ok.injEq] at h
    subst h
    exact Nat.zero_le _
  | some op =>
    obtain ⟨rfl, -⟩ | ⟨c, rfl, hrun⟩ := called_of_ofKeyword? hop h
    · exact Nat.zero_le _
    · by_cases hc : c.isOf .invoke = true
      · obtain ⟨name, rfl⟩ := Command.isOf_invoke_iff.1 hc
        have hkeyword := ((mem_called_invoke_iff h).1 List.mem_cons_self).1
        simp [isInvocation, hkeyword, hc]
      · simp [hc]

theorem countP_commandsFrom_le {items : List Item} {operands : List Object} {cs : List Command}
    (h : commandsFrom operands items = .ok cs) :
    cs.countP (·.isOf .invoke) ≤ items.countP isInvocation := by
  induction items generalizing operands cs with
  | nil =>
    cases h
    exact Nat.le_refl _
  | cons item items ih =>
    cases item with
    | operand object =>
      rw [List.countP_cons_of_neg (by simp [isInvocation])]
      exact ih h
    | operator keyword =>
      obtain ⟨now, hnow, hmore⟩ := Outcome.bind_eq_ok_iff.1 h
      obtain ⟨later, hlater, hcs⟩ := Outcome.bind_eq_ok_iff.1 hmore
      cases hcs
      have hfirst := countP_called_le hnow
      have hrest := ih hlater
      rw [List.countP_append, List.countP_cons]
      omega

theorem length_invoked_le {scope : Scope} {graphics : Graphics} {content : Reading} {d : Drawing}
    (h : scan scope graphics content = .ok d) : d.invoked.length ≤ content.items.countP isInvocation := by
  rw [scan_eq] at h
  obtain ⟨cs, hcs, rfl⟩ := Outcome.map_eq_ok_iff.1 h
  have hinvoked := (Drawing.start graphics).length_invoked_carryOut_le scope cs
  have hcalled := countP_commandsFrom_le (commandsFrom_of_script hcs)
  simp only [Drawing.start, List.length_nil, Nat.zero_add] at hinvoked
  exact Nat.le_trans hinvoked hcalled

namespace LoopRun

variable {library : Library}

theorem nodup_keys {visited : List StreamKey} {jobs : List Job} {turns : List Turn}
    (h : LoopRun library visited jobs turns) :
    ((turns.filterMap Turn.source?).map Source.key).Nodup ∧
      ∀ s ∈ turns.filterMap Turn.source?, s.key ∉ visited := by
  induction h with
  | done => simp
  | passed _ _ ih => exact ih
  | failed hkey _ => simpa [Turn.source?, Turn.scanned?, Job.source] using hkey
  | @drawn visited job _ _ _ hkey _ _ ih =>
    obtain ⟨hnodup, hfresh⟩ := ih
    refine ⟨List.nodup_cons.2 ⟨?_, hnodup⟩, List.forall_mem_cons.2 ⟨hkey, fun s hs hmem => ?_⟩⟩
    · intro hmem
      obtain ⟨s, hs, heq⟩ := List.mem_map.1 hmem
      exact hfresh s hs (heq ▸ List.mem_cons_self)
    · exact hfresh s hs (List.mem_cons_of_mem _ hmem)

/-- Every turn beyond those for the jobs at hand answers an operator `Do` of a stream that is scanned. -/
theorem length_turns_le {visited : List StreamKey} {jobs : List Job} {turns : List Turn}
    (h : LoopRun library visited jobs turns) :
    turns.length ≤ jobs.length + ((turns.filterMap Turn.source?).map Source.invocations).sum := by
  induction h with
  | done => exact Nat.zero_le _
  | passed _ _ ih =>
    simp only [List.length_cons, List.filterMap_cons, Turn.source?, Turn.scanned?, Option.map_none] at ih ⊢
    omega
  | failed _ _ =>
    simp only [List.length_cons, List.length_nil]
    omega
  | drawn _ hscan _ ih =>
    have hinvoked := length_invoked_le hscan
    simp only [List.length_cons, List.length_append, List.length_reverse, List.filterMap_cons, Turn.source?,
      Turn.scanned?, Option.map_some, List.map_cons, List.sum_cons, Source.invocations, Job.source] at ih ⊢
    omega

end LoopRun

namespace Library

/-- The keys of the streams that are forms; several may share one. -/
def formKeys (library : Library) : List StreamKey :=
  (library.streams.mapIdx fun index form => (form, form.key index)).filterMap fun (form, key) =>
    if form.isForm then some key else none

theorem key_mem_formKeys {library : Library} {content : Reading} {resources : Resources} {s : Source}
    (h : library.Reaches (pageSource content resources) s) : s.key ∈ .page :: library.formKeys := by
  cases h with
  | refl => exact List.mem_cons_self
  | tail _ hinvokes =>
    obtain ⟨name, index, form, -, -, hstream, hkind, rfl⟩ := hinvokes
    obtain ⟨hlt, rfl⟩ := List.getElem?_eq_some_iff.1 hstream
    refine List.mem_cons_of_mem _ (List.mem_filterMap.2 ⟨(_, _), List.mem_mapIdx.2 ⟨index, hlt, rfl⟩, ?_⟩)
    exact if_pos hkind

theorem length_scannedFor_le (library : Library) (content : Reading) (resources : Resources) :
    (library.scannedFor content resources).length ≤ 1 + library.formKeys.dedup.length := by
  have hnodup : ((library.scannedFor content resources).map Source.key).Nodup :=
    (library.nodup_scans library.keys [pageJob content resources]).1
  have hsub : (library.scannedFor content resources).map Source.key ⊆ .page :: library.formKeys.dedup := by
    intro key hkey
    obtain ⟨s, hs, rfl⟩ := List.mem_map.1 hkey
    simpa using key_mem_formKeys (reaches_of_mem_scannedFor hs)
  have hle := (List.subperm_of_subset hnodup hsub).length_le
  rw [List.length_map, List.length_cons] at hle
  omega

/-- The loop always comes to its end, however the forms invoke each other, and what it comes to is what the page
comes to. No key is scanned twice, so that there are no more scans than distinct keys of forms, and one; and
there are no more turns than operators `Do` in the streams scanned, and one. -/
theorem interpret_loop_ends (library : Library) (content : Reading) (resources : Resources) :
    ∃ turns, LoopRun library [] [pageJob content resources] turns ∧
      (∀ other, LoopRun library [] [pageJob content resources] other → other = turns) ∧
      library.interpret content resources = Turn.outcome turns ∧
      ((turns.filterMap Turn.source?).map Source.key).Nodup ∧
      (turns.filterMap Turn.source?).length ≤ 1 + library.formKeys.dedup.length ∧
      turns.length ≤ 1 + ((turns.filterMap Turn.source?).map Source.invocations).sum := by
  have hrun := library.loopRun_turns library.keys [pageJob content resources]
    (owns_pageJob library content resources) [] library.unvisited_nil.symm
  exact ⟨_, hrun, fun other hother => hrun.unique hother,
    library.traverse_eq_outcome library.keys [pageJob content resources], hrun.nodup_keys.1,
    library.length_scannedFor_le content resources, hrun.length_turns_le⟩

end Library
end WeekGrid.Page
