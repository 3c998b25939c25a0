import Mathlib.Data.List.Nodup
import Mathlib.Logic.Relation
import WeekGrid.Proofs.Page.Calls
import WeekGrid.Proofs.Page.DepthFirst
import WeekGrid.Proofs.Page.Ink
import WeekGrid.Proofs.Page.Turns

/-!
Which streams a traversal scans. Where forms have distinct keys and resources of their own, they are exactly
the page and the forms that it leads to, each scanned once; and what is shown is what these streams show,
each by itself and from whatever state.
-/
namespace WeekGrid.Page

open Pdf (Reading)
open Relation (ReflTransGen)

/-- A stream with its key and the resources in force, apart from the state it is scanned in. -/
structure Source where
  key : StreamKey
  content : Reading
  resources : Resources

def Job.source (job : Job) : Source := ⟨job.key, job.content, job.resources⟩

def Source.job (s : Source) (graphics : Graphics) : Job := ⟨s.key, s.content, s.resources, graphics⟩

def pageSource (content : Reading) (resources : Resources) : Source := ⟨.page, content, resources⟩

def Turn.source? (turn : Turn) : Option Source := turn.scanned?.map Job.source

namespace Library

/-- A stream invokes another: an operator `Do` in it names a form among its resources. The form has its own
resources, or else those of the stream. -/
def Invokes (library : Library) (s t : Source) : Prop :=
  ∃ name index form, Calls s.content.items name ∧
    Pdf.get? name s.resources.objects = some (.stream index) ∧
    library.streams[index]? = some form ∧ form.isForm = true ∧
    t = ⟨form.key index, form.content, form.resources.getD s.resources⟩

def Reaches (library : Library) : Source → Source → Prop := ReflTransGen library.Invokes

def scans (library : Library) (remaining : List StreamKey) (jobs : List Job) : List Source :=
  (library.turns remaining jobs).filterMap Turn.source?

def scannedFor (library : Library) (content : Reading) (resources : Resources) : List Source :=
  library.scans library.keys [pageJob content resources]

theorem invokes_of_mem_invoked {library : Library} {left : List StreamKey} {job form : Job} {d : Drawing}
    (hscan : scan (library.scope job.resources left) job.graphics job.content = .ok d)
    (hform : form ∈ d.invoked) : library.Invokes job.source form.source := by
  rw [scan_eq] at hscan
  obtain ⟨cs, hcs, rfl⟩ := Outcome.map_eq_ok_iff.1 hscan
  obtain ⟨name, graphics, hname, hjob⟩ := Drawing.job?_of_mem_invoked hform (by simp [Drawing.start])
  obtain ⟨index, stream, hget, hstream, hkind, rfl⟩ := Drawing.job?_eq_some_iff.1 hjob
  exact ⟨name, index, stream, (mem_script_invoke_iff hcs name).1 hname, hget, hstream, hkind, rfl⟩

/-- A scan invokes every form that its stream invokes, unless the form is done. -/
theorem mem_invoked_of_invokes {library : Library} {left : List StreamKey} {job : Job} {t : Source}
    {d : Drawing} (hscan : scan (library.scope job.resources left) job.graphics job.content = .ok d)
    (hinvokes : library.Invokes job.source t) (hkey : t.key ∈ left) :
    ∃ form ∈ d.invoked, form.source = t := by
  rw [scan_eq] at hscan
  obtain ⟨cs, hcs, rfl⟩ := Outcome.map_eq_ok_iff.1 hscan
  obtain ⟨name, index, stream, hname, hget, hstream, hkind, rfl⟩ := hinvokes
  have hjob : ∀ graphics, Drawing.job? (library.scope job.resources left) graphics name =
      some ⟨stream.key index, stream.content, stream.resources.getD job.resources, graphics⟩ :=
    fun graphics => Drawing.job?_eq_some_iff.2 ⟨index, stream, hget, hstream, hkind, rfl⟩
  obtain ⟨graphics, hmem⟩ := Drawing.exists_mem_invoked ((mem_script_invoke_iff hcs name).2 hname) hjob
    (fun graphics => by simpa [scope] using hkey) (.start job.graphics)
  exact ⟨_, hmem, rfl⟩

theorem nodup_scans (library : Library) (remaining : List StreamKey) (jobs : List Job) :
    ((library.scans remaining jobs).map Source.key).Nodup ∧
      ∀ s ∈ library.scans remaining jobs, s.key ∈ remaining := by
  unfold scans
  fun_induction library.turns remaining jobs with
  | case1 remaining => simp
  | case2 remaining job rest hkey left failure hscan => simp [Turn.source?, Turn.scanned?, Job.source, hkey]
  | case3 remaining job rest hkey left drawing hscan ih =>
    obtain ⟨hnodup, hsub⟩ := ih
    refine ⟨List.nodup_cons.2 ⟨?_, hnodup⟩, List.forall_mem_cons.2 ⟨hkey, fun s hs => ?_⟩⟩
    · intro hmem
      obtain ⟨s, hs, heq⟩ := List.mem_map.1 hmem
      have hleft := hsub s hs
      rw [heq] at hleft
      simp [left, withoutKey, Job.source] at hleft
    · exact List.mem_of_mem_filter (hsub s hs)
  | case4 remaining job rest hkey ih => exact ih

theorem exists_reaches_of_mem_scans (library : Library) (remaining : List StreamKey) (jobs : List Job) :
    ∀ s ∈ library.scans remaining jobs, ∃ job ∈ jobs, library.Reaches job.source s := by
  unfold scans
  fun_induction library.turns remaining jobs with
  | case1 remaining => simp
  | case2 remaining job rest hkey left failure hscan =>
    intro s hs
    rw [List.mem_singleton.1 hs]
    exact ⟨job, List.mem_cons_self, ReflTransGen.refl⟩
  | case3 remaining job rest hkey left drawing hscan ih =>
    refine List.forall_mem_cons.2 ⟨⟨job, List.mem_cons_self, ReflTransGen.refl⟩, fun s hs => ?_⟩
    obtain ⟨form, hform, hreaches⟩ := ih s hs
    rcases List.mem_append.1 hform with hform | hform
    · have hinvokes := invokes_of_mem_invoked hscan (List.mem_reverse.1 hform)
      exact ⟨job, List.mem_cons_self, ReflTransGen.head hinvokes hreaches⟩
    · exact ⟨form, List.mem_cons_of_mem job hform, hreaches⟩
  | case4 remaining job rest hkey ih =>
    intro s hs
    obtain ⟨form, hform, hreaches⟩ := ih s hs
    exact ⟨form, List.mem_cons_of_mem job hform, hreaches⟩

/-- The streams that a stream leads to can be told apart by their keys. -/
def KeyedApart (library : Library) (page : Source) : Prop :=
  ∀ s t, library.Reaches page s → library.Reaches page t → s.key = t.key → s = t

/-- A traversal that does not fail loses nothing: it scans every job on the list, and with every stream the
forms that it invokes, except where the keys were used up before. -/
theorem scans_complete {library : Library} {page : Source} (hapart : library.KeyedApart page)
    (remaining : List StreamKey) (jobs : List Job)
    (hjobs : ∀ job ∈ jobs, library.Reaches page job.source)
    (hok : ∀ job failure, .failed job failure ∉ library.turns remaining jobs) :
    (∀ job ∈ jobs, job.key ∈ remaining → job.source ∈ library.scans remaining jobs) ∧
      ∀ s ∈ library.scans remaining jobs, ∀ t, library.Invokes s t → t.key ∈ remaining →
        t ∈ library.scans remaining jobs := by
  unfold scans
  fun_induction library.turns remaining jobs with
  | case1 remaining => simp
  | case2 remaining job rest hkey left failure hscan => exact absurd List.mem_cons_self (hok job failure)
  | case3 remaining job rest hkey left drawing hscan ih =>
    have hjob := hjobs job List.mem_cons_self
    have hforms : ∀ form ∈ drawing.invoked.reverse ++ rest, library.Reaches page form.source := by
      intro form hform
      rcases List.mem_append.1 hform with hform | hform
      · exact hjob.tail (invokes_of_mem_invoked hscan (List.mem_reverse.1 hform))
      · exact hjobs form (List.mem_cons_of_mem job hform)
    obtain ⟨hlist, hclosed⟩ := ih hforms fun form failure hmem =>
      hok form failure (List.mem_cons_of_mem _ hmem)
    -- A stream with the key just used up is the one just scanned.
    have hnow : ∀ s, library.Reaches page s → s.key ∈ remaining → s = job.source ∨ s.key ∈ left := by
      intro s hs hmem
      by_cases heq : s.key = job.key
      · exact Or.inl (hapart s job.source hs hjob heq)
      · exact Or.inr (List.mem_filter.2 ⟨hmem, by simpa using heq⟩)
    constructor
    · intro form hform hmem
      rcases List.mem_cons.1 hform with rfl | hform
      · exact List.mem_cons_self
      · rcases hnow form.source (hjobs form (List.mem_cons_of_mem job hform)) hmem with heq | hleft
        · rw [heq]
          exact List.mem_cons_self
        · exact List.mem_cons_of_mem _ (hlist form (List.mem_append_right _ hform) hleft)
    · intro s hs t hinvokes hmem
      rcases List.mem_cons.1 hs with rfl | hs
      · rcases hnow t (hjob.tail hinvokes) hmem with heq | hleft
        · rw [heq]
          exact List.mem_cons_self
        · obtain ⟨form, hform, rfl⟩ := mem_invoked_of_invokes hscan hinvokes hleft
          have hform := List.mem_append_left rest (List.mem_reverse.2 hform)
          exact List.mem_cons_of_mem _ (hlist form hform hleft)
      · obtain ⟨form, hform, hreaches⟩ := exists_reaches_of_mem_scans library left _ s hs
        rcases hnow t ((hforms form hform).trans hreaches |>.tail hinvokes) hmem with heq | hleft
        · rw [heq]
          exact List.mem_cons_self
        · exact List.mem_cons_of_mem _ (hclosed s hs t hinvokes hleft)
  | case4 remaining job rest hkey ih =>
    obtain ⟨hlist, hclosed⟩ := ih (fun form hform => hjobs form (List.mem_cons_of_mem job hform))
      fun form failure hmem => hok form failure (List.mem_cons_of_mem _ hmem)
    refine ⟨fun form hform hmem => ?_, hclosed⟩
    rcases List.mem_cons.1 hform with rfl | hform
    · exact absurd hmem hkey
    · exact hlist form hform hmem

def HasDistinctKeys (library : Library) : Prop :=
  ∀ i j : Fin library.streams.length, library.streams[i].isForm = true →
    library.streams[j].isForm = true → library.streams[i].key i = library.streams[j].key j → i = j

def HasOwnResources (library : Library) : Prop :=
  ∀ form ∈ library.streams, form.isForm = true → form.resources.isSome = true

theorem reaches_page_cases {library : Library} (hown : library.HasOwnResources) {content : Reading}
    {resources : Resources} {s : Source} (h : library.Reaches (pageSource content resources) s) :
    s = pageSource content resources ∨ ∃ (index : Fin library.streams.length) (own : Resources),
      library.streams[index].isForm = true ∧ library.streams[index].resources = some own ∧
      s = ⟨library.streams[index].key index, library.streams[index].content, own⟩ := by
  cases h with
  | refl => exact Or.inl rfl
  | tail _ hinvokes =>
    obtain ⟨name, index, form, -, -, hstream, hkind, rfl⟩ := hinvokes
    obtain ⟨hlt, rfl⟩ := List.getElem?_eq_some_iff.1 hstream
    obtain ⟨own, heq⟩ := Option.isSome_iff_exists.1 (hown _ (List.getElem_mem hlt) hkind)
    exact Or.inr ⟨⟨index, hlt⟩, own, hkind, heq, by simp [heq]⟩

theorem key_ne_page (form : FormStream) (index : Nat) : form.key index ≠ .page := by
  unfold FormStream.key
  split <;> simp

theorem keyedApart_page {library : Library} (hkeys : library.HasDistinctKeys)
    (hown : library.HasOwnResources) (content : Reading) (resources : Resources) :
    library.KeyedApart (pageSource content resources) := by
  intro s t hs ht heq
  rcases reaches_page_cases hown hs with rfl | ⟨i, own, hi, hisome, rfl⟩ <;>
    rcases reaches_page_cases hown ht with rfl | ⟨j, own', hj, hjsome, rfl⟩
  · rfl
  · exact absurd heq.symm (key_ne_page _ _)
  · exact absurd heq (key_ne_page _ _)
  · have hij : i = j := hkeys i j hi hj heq
    subst hij
    rw [hisome] at hjsome
    rw [Option.some.inj hjsome]

theorem key_mem_keys_of_invokes {library : Library} {s t : Source} (h : library.Invokes s t) :
    t.key ∈ library.keys := by
  obtain ⟨name, index, form, -, -, hstream, -, rfl⟩ := h
  exact key_mem_keys hstream

theorem key_mem_keys_of_reaches {library : Library} {content : Reading} {resources : Resources}
    {s : Source} (h : library.Reaches (pageSource content resources) s) : s.key ∈ library.keys := by
  cases h with
  | refl => exact List.mem_cons_self
  | tail _ hinvokes => exact key_mem_keys_of_invokes hinvokes

theorem scanAlone_sameInk {library : Library} {s : Source} {graphics : Graphics} {d : Drawing}
    (h : library.scanAlone (s.job graphics) = .ok d) (graphics' : Graphics) :
    ∃ d', library.scanAlone (s.job graphics') = .ok d' ∧ d.SameInk d' :=
  scan_sameInk h _ graphics'

/-- No turn fails where the streams that are scanned can be scanned alone. -/
theorem not_failed_of_scanAlone {library : Library} {turns : List Turn}
    (htrue : ∀ turn ∈ turns, turn.IsTrueOf library) {alone : Source → Drawing}
    (halone : ∀ s ∈ turns.filterMap Turn.source?,
      ∃ graphics, library.scanAlone (s.job graphics) = .ok (alone s)) :
    ∀ job failure, .failed job failure ∉ turns := by
  intro job failure hmem
  have hs : job.source ∈ turns.filterMap Turn.source? := List.mem_filterMap.2 ⟨_, hmem, rfl⟩
  obtain ⟨graphics, hscan⟩ := halone job.source hs
  obtain ⟨d, hdrawn, -⟩ := scanAlone_sameInk hscan job.graphics
  have hfailed : library.scanAlone job = .error failure := htrue _ hmem
  exact absurd (hfailed.symm.trans hdrawn) (by simp)

theorem ink_of_turns {library : Library} {turns : List Turn} (htrue : ∀ turn ∈ turns, turn.IsTrueOf library)
    {alone : Source → Drawing} (halone : ∀ s ∈ turns.filterMap Turn.source?,
      ∃ graphics, library.scanAlone (s.job graphics) = .ok (alone s)) :
    ∃ elements, Turn.outcome turns = .ok elements ∧
      elements.strings = (turns.filterMap Turn.source?).flatMap (fun s => (alone s).elements.strings) ∧
      elements.extents = (turns.filterMap Turn.source?).flatMap (fun s => (alone s).elements.extents) := by
  have hok := not_failed_of_scanAlone htrue halone
  induction turns with
  | nil => exact ⟨.empty, rfl, rfl, rfl⟩
  | cons turn turns ih =>
    obtain ⟨hturn, hrest⟩ := List.forall_mem_cons.1 htrue
    have hrestok : ∀ job failure, .failed job failure ∉ turns :=
      fun job failure hmem => hok job failure (List.mem_cons_of_mem turn hmem)
    cases turn with
    | passed job => exact ih hrest halone hrestok
    | failed job failure => exact absurd List.mem_cons_self (hok job failure)
    | drawn job drawing =>
      obtain ⟨graphics, hscan⟩ := halone job.source List.mem_cons_self
      obtain ⟨d, hdrawn, hink⟩ := scanAlone_sameInk hscan job.graphics
      obtain ⟨d', hdrawn', helements⟩ := hturn
      have heq : d = d' := Except.ok.inj (hdrawn.symm.trans hdrawn')
      subst heq
      obtain ⟨more, hmore, hstrings, hextents⟩ :=
        ih hrest (fun s hs => halone s (List.mem_cons_of_mem _ hs)) hrestok
      refine ⟨drawing.elements.append more, by rw [Turn.outcome, hmore]; rfl, ?_, ?_⟩
      · simp [Turn.source?, Turn.scanned?, hstrings, hink.strings, helements]
      · simp [Turn.source?, Turn.scanned?, hextents, hink.extents, helements]

theorem reaches_of_mem_scannedFor {library : Library} {content : Reading} {resources : Resources} {s : Source}
    (h : s ∈ library.scannedFor content resources) : library.Reaches (pageSource content resources) s := by
  obtain ⟨job, hjob, hreaches⟩ := library.exists_reaches_of_mem_scans _ _ s h
  rw [List.mem_singleton.1 hjob] at hreaches
  exact hreaches

theorem content_of_reaches {library : Library} {s t : Source} (h : library.Reaches s t) :
    t.content ∈ s.content :: library.streams.map FormStream.content := by
  induction h with
  | refl => exact List.mem_cons_self
  | tail _ hinvokes _ =>
    obtain ⟨_, index, form, _, _, hform, _, rfl⟩ := hinvokes
    exact List.mem_cons_of_mem _ (List.mem_map_of_mem (List.mem_of_getElem? hform))

/-- A page fails only with the failure of its own content or of some stream's. -/
theorem exists_script_eq_error {library : Library} {content : Reading} {resources : Resources}
    {failure : Failure} (h : library.interpret content resources = .error failure) :
    ∃ stream ∈ content :: library.streams.map FormStream.content, script stream = .error failure := by
  rw [interpret, traverse_eq_outcome] at h
  obtain ⟨job, hjob⟩ := Turn.failed_of_outcome h
  have hscanned : job.source ∈ library.scannedFor content resources :=
    List.mem_filterMap.2 ⟨_, hjob, rfl⟩
  have hfailed : library.scanAlone job = .error failure := library.turns_isTrueOf _ _ _ hjob
  rw [scanAlone, scan_eq] at hfailed
  refine ⟨_, content_of_reaches (reaches_of_mem_scannedFor hscanned), ?_⟩
  cases hscript : script job.content with
  | ok commands =>
    rw [hscript] at hfailed
    cases hfailed
  | error other =>
    rw [hscript] at hfailed
    cases hfailed
    exact hscript

theorem mem_scannedFor_of_reaches {library : Library} {content : Reading} {resources : Resources}
    (hapart : library.KeyedApart (pageSource content resources))
    (hok : ∀ job failure, .failed job failure ∉ library.turns library.keys [pageJob content resources])
    {s : Source} (h : library.Reaches (pageSource content resources) s) :
    s ∈ library.scannedFor content resources := by
  have hjobs : ∀ job ∈ [pageJob content resources],
      library.Reaches (pageSource content resources) job.source := by
    intro job hjob
    rw [List.mem_singleton.1 hjob]
    exact ReflTransGen.refl
  obtain ⟨hlist, hclosed⟩ := scans_complete hapart library.keys _ hjobs hok
  induction h with
  | refl => exact hlist _ List.mem_cons_self List.mem_cons_self
  | tail hreaches hinvokes ih =>
    exact hclosed _ ih _ hinvokes (key_mem_keys_of_reaches (hreaches.tail hinvokes))

/-- Where every stream that a page leads to can be scanned, the traversal scans these streams and no others,
and no key twice. It shows what they show alone, each from any state whatever, in some order. -/
theorem interpret_shows_reachable {library : Library} {content : Reading} {resources : Resources}
    (hkeys : library.HasDistinctKeys) (hown : library.HasOwnResources) (alone : Source → Drawing)
    (halone : ∀ s, library.Reaches (pageSource content resources) s →
      ∃ graphics, library.scanAlone (s.job graphics) = .ok (alone s)) :
    ((library.scannedFor content resources).map Source.key).Nodup ∧
    (∀ s, s ∈ library.scannedFor content resources ↔ library.Reaches (pageSource content resources) s) ∧
    ∃ elements, library.interpret content resources = .ok elements ∧
      ∀ streams : List Source, streams.Nodup →
        (∀ s, s ∈ streams ↔ library.Reaches (pageSource content resources) s) →
        elements.strings.Perm (streams.flatMap fun s => (alone s).elements.strings) ∧
        elements.extents.Perm (streams.flatMap fun s => (alone s).elements.extents) := by
  have hapart := keyedApart_page hkeys hown content resources
  have hnodup := (library.nodup_scans library.keys [pageJob content resources]).1
  have htrue := library.turns_isTrueOf library.keys [pageJob content resources]
  have hscans : ∀ s ∈ library.scannedFor content resources,
      ∃ graphics, library.scanAlone (s.job graphics) = .ok (alone s) :=
    fun s hs => halone s (reaches_of_mem_scannedFor hs)
  have hok := not_failed_of_scanAlone htrue hscans
  have hscanned : ∀ s, s ∈ library.scannedFor content resources ↔
      library.Reaches (pageSource content resources) s :=
    fun s => ⟨reaches_of_mem_scannedFor, mem_scannedFor_of_reaches hapart hok⟩
  obtain ⟨elements, helements, hstrings, hextents⟩ := ink_of_turns htrue hscans
  refine ⟨hnodup, hscanned, elements, ?_, fun streams hstreams hmem => ?_⟩
  · rw [← helements, ← traverse_eq_outcome]
    rfl
  · have hperm : (library.scannedFor content resources).Perm streams :=
      (List.perm_ext_iff_of_nodup (List.Nodup.of_map _ hnodup) hstreams).2 fun s =>
        (hscanned s).trans (hmem s).symm
    rw [hstrings, hextents]
    exact ⟨hperm.flatMap_right _, hperm.flatMap_right _⟩

def showing (text : String) (names : List String) : Reading :=
  ⟨[.operand (.string (Pdf.ascii text)), .operator (Pdf.ascii "Tj")] ++ names.flatMap fun name =>
    [.operand (.name (Pdf.ascii name)), .operator (Pdf.ascii "Do")], none⟩

def bothNames : Resources := ⟨[("A", .stream 0), ("B", .stream 1)]⟩

/-- Two forms that invoke themselves and each other. -/
def tangle : Library :=
  ⟨defaultLeading, [⟨some 1, some (.name (Pdf.ascii "Form")), some bothNames, showing "a" ["A", "B"]⟩,
    ⟨some 2, some (.name (Pdf.ascii "Form")), some bothNames, showing "b" ["A", "B", "A"]⟩]⟩

def tanglePage : Source := pageSource (showing "page" ["B", "B"]) bothNames

def tangleForms : List Source :=
  [⟨.object 1, showing "a" ["A", "B"], bothNames⟩, ⟨.object 2, showing "b" ["A", "B", "A"], bothNames⟩]

def drawnAlone (library : Library) (s : Source) : Drawing :=
  match library.scanAlone (s.job .initial) with
  | .ok d => d
  | .error _ => .start .initial

theorem calls_showing (text : String) {names : List String} {name : String} (h : name ∈ names) :
    Calls (showing text names).items (Pdf.Object.nameText (Pdf.ascii name)) := by
  refine ⟨Pdf.ascii name, ?_, rfl⟩
  have hinfix := List.infix_of_mem_flatten (List.mem_map_of_mem (f := fun name =>
    [Pdf.Item.operand (.name (Pdf.ascii name)), .operator (Pdf.ascii "Do")]) h)
  exact hinfix.trans (List.suffix_append _ _).isInfix

theorem tangle_hasDistinctKeys : tangle.HasDistinctKeys := by
  unfold HasDistinctKeys
  decide +kernel

theorem tangle_hasOwnResources : tangle.HasOwnResources := by
  unfold HasOwnResources
  decide +kernel

theorem tangle_reaches_iff (s : Source) :
    s ∈ tanglePage :: tangleForms ↔ tangle.Reaches tanglePage s := by
  have hfirst : tangle.Invokes tanglePage tangleForms[1] :=
    ⟨"B", 1, tangle.streams[1], calls_showing "page" List.mem_cons_self, rfl, rfl, by decide +kernel, rfl⟩
  have hsecond : tangle.Invokes tangleForms[1] tangleForms[0] :=
    ⟨"A", 0, tangle.streams[0], calls_showing "b" List.mem_cons_self, rfl, rfl, by decide +kernel, rfl⟩
  constructor
  · intro hs
    rcases List.mem_cons.1 hs with rfl | hs
    · exact ReflTransGen.refl
    · rcases List.mem_cons.1 hs with rfl | hs
      · exact (ReflTransGen.single hfirst).tail hsecond
      · rw [List.mem_singleton.1 hs]
        exact ReflTransGen.single hfirst
  · intro hs
    rcases reaches_page_cases tangle_hasOwnResources hs with rfl | ⟨index, own, -, hown, rfl⟩
    · exact List.mem_cons_self
    · have hforms : ∀ i : Fin 2, ∀ own, tangle.streams[i].resources = some own →
          (⟨tangle.streams[i].key i, tangle.streams[i].content, own⟩ : Source) ∈ tangleForms := by
        intro i own hown
        match i with
        | 0 =>
          cases hown
          exact List.mem_cons_self
        | 1 =>
          cases hown
          exact List.mem_cons_of_mem _ List.mem_cons_self
      exact List.mem_cons_of_mem _ (hforms index own hown)

theorem tangle_shows :
    ∃ elements, tangle.interpret tanglePage.content bothNames = .ok elements ∧
      elements.strings.Perm ["page", "a", "b"] := by
  have hstream : ∀ s ∈ tanglePage :: tangleForms,
      ∃ graphics, tangle.scanAlone (s.job graphics) = .ok (tangle.drawnAlone s) := by
    intro s hs
    have hok : ∀ s ∈ tanglePage :: tangleForms, (tangle.scanAlone (s.job .initial)).isOk = true := by
      decide +kernel
    have hs := hok s hs
    refine ⟨.initial, ?_⟩
    unfold drawnAlone
    cases h : tangle.scanAlone (s.job .initial) with
    | ok d => rfl
    | error failure =>
      rw [h] at hs
      cases hs
  obtain ⟨-, -, elements, helements, hshown⟩ := interpret_shows_reachable tangle_hasDistinctKeys
    tangle_hasOwnResources tangle.drawnAlone fun s hs => hstream s ((tangle_reaches_iff s).2 hs)
  have hnodup : (tanglePage :: tangleForms).Nodup :=
    List.Nodup.of_map Source.key (by decide)
  have hperm := (hshown _ hnodup tangle_reaches_iff).1
  rw [show (tanglePage :: tangleForms).flatMap (fun s => (tangle.drawnAlone s).elements.strings) =
    ["page", "a", "b"] by decide +kernel] at hperm
  exact ⟨elements, helements, hperm⟩

end Library
end WeekGrid.Page
