import WeekGrid.Proofs.Page.Figures

/-!
The two channels of a page, its texts and its boxes. Each has operators of its own, which read and change one
part of the state only; `Do` serves both and depends on neither. So what comes out of a channel, and the order
in which forms are visited, stay the same where the operators of the other channel are taken out of the page
and of all its forms.
-/
namespace WeekGrid.Page

open Pdf (Object Item Reading)
open Text (Bytes)

inductive Channel where
  | texts
  | boxes
  deriving DecidableEq, Repr

namespace Channel

def keywords : Channel → List String
  | texts => ["BT", "Tm", "Td", "TD", "TL", "T*", "Tj", "TJ", "'", "\""]
  | boxes => ["re", "m", "l", "h", "n", "rg"] ++ fillKeywords

def other : Channel → Channel
  | texts => boxes
  | boxes => texts

theorem other_ne (channel : Channel) : channel.other ≠ channel := by cases channel <;> decide

theorem eq_other_of_ne {channel removed : Channel} (h : channel ≠ removed) : channel = removed.other := by
  cases channel <;> cases removed <;> first | rfl | exact absurd rfl h

def isServedBy (channel : Channel) (keyword : Bytes) : Bool :=
  channel.keywords.any fun spelling => Pdf.ascii spelling == keyword

end Channel

/-- Some items without the segments whose operators serve a channel; `operands` are those read since the last
keyword, the last one first. -/
def itemsWithout (channel : Channel) (operands : List Object) : List Item → List Item
  | [] => operands.reverse.map .operand
  | .operand object :: items => itemsWithout channel (object :: operands) items
  | .operator keyword :: items =>
    if channel.isServedBy keyword then itemsWithout channel [] items
    else (Segment.mk operands.reverse keyword).items ++ itemsWithout channel [] items

theorem itemsWithout_operands (channel : Channel) (read objects : List Object) (items : List Item) :
    itemsWithout channel read (objects.map .operand ++ items) =
      itemsWithout channel (objects.reverse ++ read) items := by
  induction objects generalizing read with
  | nil => rfl
  | cons object objects ih =>
    rw [List.map_cons, List.cons_append, itemsWithout, ih, List.reverse_cons, List.append_assoc]
    rfl

theorem itemsWithout_segments (channel : Channel) (segments : List Segment) (operands : List Object) :
    itemsWithout channel [] (segments.flatMap Segment.items ++ operands.map .operand) =
      (segments.filter fun s => !channel.isServedBy s.keyword).flatMap Segment.items ++
        operands.map .operand := by
  induction segments with
  | nil =>
    have hnone := itemsWithout_operands channel [] operands []
    simpa [itemsWithout] using hnone
  | cons s segments ih =>
    rw [List.flatMap_cons, Segment.items, List.append_assoc, List.append_assoc, itemsWithout_operands,
      List.append_nil, List.singleton_append, itemsWithout, ih, List.filter_cons]
    cases channel.isServedBy s.keyword <;> simp [Segment.items]

def readingWithout (channel : Channel) (content : Reading) : Reading :=
  ⟨itemsWithout channel [] content.items, content.failure⟩

def FormStream.without (form : FormStream) (channel : Channel) : FormStream :=
  { form with content := readingWithout channel form.content }

def Library.without (library : Library) (channel : Channel) : Library :=
  { library with streams := library.streams.map (·.without channel) }

def Source.without (s : Source) (channel : Channel) : Source :=
  { s with content := readingWithout channel s.content }

def Command.channel? : Command → Option Channel
  | .box .. => some .boxes
  | .moveTo _ => some .boxes
  | .lineTo _ => some .boxes
  | .closePath => some .boxes
  | .fill => some .boxes
  | .dropPath => some .boxes
  | .setColor _ => some .boxes
  | .setMatrix _ => some .texts
  | .translate .. => some .texts
  | .nextLine => some .texts
  | .showText _ => some .texts
  | .nextLineShow _ => some .texts
  | .nothing => some .texts
  | .invoke _ => none

theorem Command.eq_invoke_of_channel? {c : Command} (h : c.channel? = none) : ∃ name, c = .invoke name := by
  cases c with
  | invoke name => exact ⟨name, rfl⟩
  | _ => cases h

theorem Command.ne_invoke_of_channel? {c : Command} {channel : Channel} (h : c.channel? = some channel)
    (name : String) : c ≠ .invoke name := by
  rintro rfl
  cases h

def Operator.channel? : Operator → Option Channel
  | .box => some .boxes
  | .moveTo => some .boxes
  | .lineTo => some .boxes
  | .closePath => some .boxes
  | .fill => some .boxes
  | .dropPath => some .boxes
  | .fillColor => some .boxes
  | .invoke => none
  | _ => some .texts

theorem Command.channel?_of_isOf {c : Command} {op : Operator} (h : c.isOf op) :
    c.channel? = op.channel? := by
  cases c <;> cases op <;> first | rfl | cases h

theorem Channel.isServedBy_iff (channel : Channel) {keyword : Bytes} {op : Operator}
    (h : Operator.ofKeyword? keyword = some op) :
    channel.isServedBy keyword = true ↔ op.channel? = some channel := by
  obtain ⟨spelling, hmem, rfl⟩ := Operator.ofKeyword?_eq_some_iff.1 h
  have hall : ∀ channel ∈ [Channel.texts, .boxes], ∀ pair ∈ Operator.table,
      channel.isServedBy (Pdf.ascii pair.1) = true ↔ pair.2.channel? = some channel := by decide
  cases channel <;> exact hall _ (by simp) _ hmem

theorem channel?_of_called (channel : Channel) {keyword : Bytes} {operands : List Object}
    {now : List Command} (h : called keyword operands = .ok now) :
    ∀ c ∈ now, c.channel? = some channel ↔ channel.isServedBy keyword = true := by
  intro c hc
  cases hop : Operator.ofKeyword? keyword with
  | none =>
    rw [called, hop] at h
    cases h
    cases hc
  | some op =>
    obtain ⟨rfl, -⟩ | ⟨made, rfl, hrun⟩ := called_of_ofKeyword? hop h
    · cases hc
    · rw [List.mem_singleton.1 hc, channel.isServedBy_iff hop,
        Command.channel?_of_isOf (Operator.isOf_of_command (Prod.ext hrun rfl))]

def commandsWithout (channel : Channel) (cs : List Command) : List Command :=
  cs.filter fun c => c.channel? ≠ some channel

theorem commandsFrom_itemsWithout (channel : Channel) {items : List Item} {operands : List Object}
    {cs : List Command} (h : commandsFrom operands items = .ok cs) :
    commandsFrom [] (itemsWithout channel operands items) = .ok (commandsWithout channel cs) := by
  induction items generalizing operands cs with
  | nil =>
    cases h
    have hnone := commandsFrom_operands [] operands.reverse []
    rw [List.append_nil] at hnone
    rw [itemsWithout, hnone]
    rfl
  | cons item items ih =>
    cases item with
    | operand object => exact ih h
    | operator keyword =>
      obtain ⟨now, hnow, h⟩ := Outcome.bind_eq_ok_iff.1 h
      obtain ⟨later, hlater, h⟩ := Outcome.bind_eq_ok_iff.1 h
      cases h
      have hchannel := channel?_of_called channel hnow
      rw [itemsWithout, commandsWithout, List.filter_append]
      by_cases hserved : channel.isServedBy keyword = true
      · have hgone : now.filter (fun c => c.channel? ≠ some channel) = [] :=
          List.filter_eq_nil_iff.2 fun c hc => by simpa using (hchannel c hc).2 hserved
        rw [if_pos hserved, ih hlater, hgone]
        rfl
      · have hkept : now.filter (fun c => c.channel? ≠ some channel) = now :=
          List.filter_eq_self.2 fun c hc => by simpa using fun heq => hserved ((hchannel c hc).1 heq)
        rw [if_neg hserved, commandsFrom_segment, List.reverse_reverse, hnow, ih hlater, hkept]
        rfl

theorem script_readingWithout (channel : Channel) {content : Reading} {cs : List Command}
    (h : script content = .ok cs) :
    script (readingWithout channel content) = .ok (commandsWithout channel cs) := by
  unfold script at h
  split at h
  · cases h
  · cases h
  · next commands hcommands hfailure =>
    cases h
    rw [script, readingWithout, commandsFrom_itemsWithout channel hcommands, hfailure]

/-- Two states that agree in the part of a channel: the text matrix, or the fill colour. -/
def Graphics.Agree : Channel → Graphics → Graphics → Prop
  | .texts, g, g' => g.matrix = g'.matrix
  | .boxes, g, g' => g.color = g'.color

structure Drawing.SameTexts (d d' : Drawing) : Prop where
  matrix : d.graphics.matrix = d'.graphics.matrix
  texts : d.elements.texts = d'.elements.texts

structure Drawing.SameBoxes (d d' : Drawing) : Prop where
  color : d.graphics.color = d'.graphics.color
  path : d.path = d'.path
  boxes : d.elements.boxes = d'.elements.boxes

def Drawing.Agree : Channel → Drawing → Drawing → Prop
  | .texts => SameTexts
  | .boxes => SameBoxes

namespace Drawing

variable {channel : Channel} {d d' d'' : Drawing} {scope scope' : Scope} {c : Command}

theorem Agree.symm (h : d.Agree channel d') : d'.Agree channel d := by
  cases channel with
  | texts => exact ⟨h.matrix.symm, h.texts.symm⟩
  | boxes => exact ⟨h.color.symm, h.path.symm, h.boxes.symm⟩

theorem Agree.trans (h : d.Agree channel d') (h' : d'.Agree channel d'') : d.Agree channel d'' := by
  cases channel with
  | texts => exact ⟨h.matrix.trans h'.matrix, h.texts.trans h'.texts⟩
  | boxes => exact ⟨h.color.trans h'.color, h.path.trans h'.path, h.boxes.trans h'.boxes⟩

theorem Agree.graphics (h : d.Agree channel d') : d.graphics.Agree channel d'.graphics := by
  cases channel with
  | texts => exact h.matrix
  | boxes => exact h.color

theorem agree_start {g g' : Graphics} (h : g.Agree channel g') : (start g).Agree channel (start g') := by
  cases channel with
  | texts => exact ⟨h, rfl⟩
  | boxes => exact ⟨h, rfl, rfl⟩

theorem sameTexts_showText (h : d.SameTexts d') (text : String) :
    (d.showText text).SameTexts (d'.showText text) := by
  unfold showText anchor
  split
  · exact h
  · exact ⟨h.matrix, by simp only [h.matrix, h.texts]⟩

theorem sameTexts_nextLine (h : d.SameTexts d') (leading : Binary64) :
    (d.nextLine leading).SameTexts (d'.nextLine leading) :=
  ⟨by simp only [nextLine, h.matrix], h.texts⟩

theorem sameBoxes_showText (d : Drawing) (text : String) : (d.showText text).SameBoxes d := by
  unfold showText
  split <;> exact ⟨rfl, rfl, rfl⟩

theorem invoke_agree (d : Drawing) (scope : Scope) (name : String) (channel : Channel) :
    (d.invoke scope name).Agree channel d := by
  unfold invoke
  split
  · split <;> cases channel <;> constructor <;> rfl
  · cases channel <;> constructor <;> rfl

/-- A command leaves alone what belongs to a channel that it does not serve. -/
theorem apply_agree (d : Drawing) (scope : Scope) (h : c.channel? ≠ some channel) :
    (d.apply scope c).Agree channel d := by
  cases channel with
  | texts =>
    cases c with
    | invoke name => exact invoke_agree d scope name .texts
    | box => exact ⟨rfl, rfl⟩
    | moveTo => exact ⟨rfl, rfl⟩
    | lineTo => exact ⟨rfl, rfl⟩
    | closePath => exact ⟨rfl, rfl⟩
    | fill => exact ⟨rfl, rfl⟩
    | dropPath => exact ⟨rfl, rfl⟩
    | setColor => exact ⟨rfl, rfl⟩
    | _ => exact absurd rfl h
  | boxes =>
    cases c with
    | invoke name => exact invoke_agree d scope name .boxes
    | setMatrix => exact ⟨rfl, rfl, rfl⟩
    | translate => exact ⟨rfl, rfl, rfl⟩
    | nextLine => exact ⟨rfl, rfl, rfl⟩
    | showText text => exact sameBoxes_showText d text
    | nextLineShow text =>
      have hline : (d.nextLine scope.leading).Agree .boxes d := ⟨rfl, rfl, rfl⟩
      exact Agree.trans (sameBoxes_showText _ text) hline
    | nothing => exact ⟨rfl, rfl, rfl⟩
    | _ => exact absurd rfl h

/-- A command of a channel reads nothing but what belongs to the channel. -/
theorem agree_apply (h : d.Agree channel d') (hleading : scope.leading = scope'.leading)
    (hc : c.channel? = some channel) : (d.apply scope c).Agree channel (d'.apply scope' c) := by
  cases c with
  | invoke name => cases hc
  | setMatrix matrix =>
    cases hc
    exact ⟨rfl, h.texts⟩
  | translate tx ty =>
    cases hc
    exact ⟨by simp only [apply, translate, h.matrix], h.texts⟩
  | nextLine =>
    cases hc
    rw [apply, apply, ← hleading]
    exact sameTexts_nextLine h scope.leading
  | showText text =>
    cases hc
    exact sameTexts_showText h text
  | nextLineShow text =>
    cases hc
    rw [apply, apply, ← hleading]
    exact sameTexts_showText (sameTexts_nextLine h scope.leading) text
  | nothing =>
    cases hc
    exact h
  | setColor color =>
    cases hc
    exact ⟨rfl, h.path, h.boxes⟩
  | _ =>
    cases hc
    constructor <;> simp only [apply, addBoxes, onPath, fill, h.color, h.path, h.boxes]

end Drawing

/-- A job beside the same one without the segments of a channel; the states that they start from agree in the
other channel. -/
structure Job.Stripped (removed : Channel) (job job' : Job) : Prop where
  key : job.key = job'.key
  resources : job.resources = job'.resources
  content : job'.content = readingWithout removed job.content
  graphics : job.graphics.Agree removed.other job'.graphics

structure Drawing.Stripped (removed : Channel) (d d' : Drawing) : Prop where
  agree : d.Agree removed.other d'
  invoked : List.Forall₂ (Job.Stripped removed) d.invoked d'.invoked

namespace Drawing

variable {removed : Channel} {d d' : Drawing}

theorem job?_stripped (library : Library) (resources : Resources) {g g' : Graphics}
    (h : g.Agree removed.other g') (name : String) :
    Option.Rel (Job.Stripped removed) (job? (library.openScope resources) g name)
      (job? ((library.without removed).openScope resources) g' name) := by
  simp only [job?, Library.openScope, Library.without, List.getElem?_map]
  split
  · next index _ =>
    cases library.streams[index]? with
    | none => exact .none
    | some form =>
      have hkind : (form.without removed).isForm = form.isForm := rfl
      simp only [Option.map_some, hkind]
      split
      · exact .some ⟨rfl, rfl, rfl, h⟩
      · exact .none
  · exact .none

theorem stripped_invoke (h : d.Stripped removed d') (library : Library) (resources : Resources)
    (name : String) : (d.invoke (library.openScope resources) name).Stripped removed
      (d'.invoke ((library.without removed).openScope resources) name) where
  agree := ((invoke_agree d _ name _).trans h.agree).trans (invoke_agree d' _ name _).symm
  invoked := by
    have hjob := job?_stripped library resources h.agree.graphics name
    rw [invoked_invoke, invoked_invoke]
    refine List.rel_append h.invoked ?_
    generalize job? (library.openScope resources) d.graphics name = job at hjob
    generalize job? ((library.without removed).openScope resources) d'.graphics name = job' at hjob
    cases hjob with
    | none => exact .nil
    | some hjob => exact .cons hjob .nil

theorem stripped_apply (h : d.Stripped removed d') (library : Library) (resources : Resources) {c : Command}
    (hc : c.channel? ≠ some removed) : (d.apply (library.openScope resources) c).Stripped removed
      (d'.apply ((library.without removed).openScope resources) c) := by
  cases hchannel : c.channel? with
  | none =>
    obtain ⟨name, rfl⟩ := Command.eq_invoke_of_channel? hchannel
    exact stripped_invoke h library resources name
  | some channel =>
    have hother : channel = removed.other := Channel.eq_other_of_ne fun heq => hc (heq ▸ hchannel)
    refine ⟨agree_apply h.agree rfl (hother ▸ hchannel), ?_⟩
    rw [invoked_apply_of_ne d _ (Command.ne_invoke_of_channel? hchannel),
      invoked_apply_of_ne d' _ (Command.ne_invoke_of_channel? hchannel)]
    exact h.invoked

theorem stripped_skip (h : d.Stripped removed d') (scope : Scope) {c : Command}
    (hc : c.channel? = some removed) : (d.apply scope c).Stripped removed d' := by
  have hother : c.channel? ≠ some removed.other :=
    fun heq => removed.other_ne (Option.some.inj (heq.symm.trans hc))
  refine ⟨(apply_agree d scope hother).trans h.agree, ?_⟩
  rw [invoked_apply_of_ne d scope (Command.ne_invoke_of_channel? hc)]
  exact h.invoked

theorem stripped_carryOut (h : d.Stripped removed d') (library : Library) (resources : Resources)
    (cs : List Command) : (d.carryOut (library.openScope resources) cs).Stripped removed
      (d'.carryOut ((library.without removed).openScope resources) (commandsWithout removed cs)) := by
  induction cs generalizing d d' with
  | nil => exact h
  | cons c cs ih =>
    by_cases hc : c.channel? = some removed
    · have hcs : commandsWithout removed (c :: cs) = commandsWithout removed cs := by
        simp [commandsWithout, hc]
      rw [carryOut_cons, hcs]
      exact ih (stripped_skip h _ hc)
    · have hcs : commandsWithout removed (c :: cs) = c :: commandsWithout removed cs := by
        simp [commandsWithout, hc]
      rw [carryOut_cons, hcs, carryOut_cons]
      exact ih (stripped_apply h library resources hc)

end Drawing

def Elements.Agree : Channel → Elements → Elements → Prop
  | .texts, e, e' => e.texts = e'.texts
  | .boxes, e, e' => e.boxes = e'.boxes

namespace Library

theorem keys_without (library : Library) (removed : Channel) :
    (library.without removed).keys = library.keys := by
  refine congrArg (List.cons StreamKey.page) (List.ext_getElem? fun index => ?_)
  rw [without, List.getElem?_mapIdx, List.getElem?_map, List.getElem?_mapIdx]
  cases library.streams[index]? <;> rfl

/-- A library beside the same one without the segments of a channel. -/
def stripping (library : Library) (removed : Channel) :
    Simulation library (library.without removed) False where
  jobs := Job.Stripped removed
  elements := Elements.Agree removed.other
  key_eq := Job.Stripped.key
  empty := by cases removed <;> rfl
  append h h' := by
    cases removed with
    | texts => exact congrArg₂ (· ++ ·) h h'
    | boxes => exact congrArg₂ (· ++ ·) h h'
  scanAlone {job job'} h := by
    rw [scanAlone, scanAlone, scan_eq, scan_eq, ← h.resources, h.content]
    cases hscript : script job.content with
    | error failure => exact False.elim
    | ok cs =>
      have hstart : (Drawing.start job.graphics).Stripped removed (.start job'.graphics) :=
        ⟨Drawing.agree_start h.graphics, .nil⟩
      have hend := Drawing.stripped_carryOut hstart library job.resources cs
      rw [script_readingWithout removed hscript]
      refine ⟨_, rfl, ?_, hend.invoked⟩
      have hagree := hend.agree
      cases removed with
      | texts => exact hagree.boxes
      | boxes => exact hagree.texts

theorem stripped_pageJob (removed : Channel) (content : Reading) (resources : Resources) :
    Job.Stripped removed (pageJob content resources) (pageJob (readingWithout removed content) resources) :=
  ⟨rfl, rfl, rfl, by cases removed <;> rfl⟩

theorem interpret_without_agrees (removed : Channel) {library : Library} {content : Reading}
    {resources : Resources} {elements : Elements} (h : library.interpret content resources = .ok elements) :
    ∃ left, (library.without removed).interpret (readingWithout removed content) resources = .ok left ∧
      elements.Agree removed.other left := by
  have hfollows := (library.stripping removed).interpret (library.keys_without removed)
    (stripped_pageJob removed content resources)
  rw [h] at hfollows
  exact hfollows

theorem source_of_stripped {removed : Channel} {job job' : Job} (h : Job.Stripped removed job job') :
    job'.source = job.source.without removed := by
  rw [Job.source, Job.source, Source.without, h.key, h.resources, h.content]

theorem scannedFor_without (removed : Channel) {library : Library} {content : Reading}
    {resources : Resources} {elements : Elements} (h : library.interpret content resources = .ok elements) :
    (library.without removed).scannedFor (readingWithout removed content) resources =
      (library.scannedFor content resources).map (·.without removed) := by
  rw [interpret, traverse_eq_outcome] at h
  have hscanned := (library.stripping removed).scanned library.keys [pageJob content resources]
    (Turn.not_failed_of_outcome h) _ (.cons (stripped_pageJob removed content resources) .nil)
  have hsources : ∀ turns : List Turn,
      turns.filterMap Turn.source? = (turns.filterMap Turn.scanned?).map Job.source := by
    intro turns
    rw [List.map_filterMap]
    rfl
  rw [scannedFor, scannedFor, scans, scans, hsources, hsources, keys_without, List.map_map]
  generalize (library.turns library.keys [pageJob content resources]).filterMap Turn.scanned? = jobs at hscanned
  generalize ((library.without removed).turns library.keys
    [pageJob (readingWithout removed content) resources]).filterMap Turn.scanned? = jobs' at hscanned
  induction hscanned with
  | nil => rfl
  | cons hjob _ ih => rw [List.map_cons, List.map_cons, ih, source_of_stripped hjob]; rfl

end Library

/-- The two channels are independent. Where a page comes to something, its texts are the same without the
operators of paths, fills and colours in the page and all its forms, its boxes are the same without the
operators of texts, and either way the same streams are scanned in the same order. -/
theorem interpret_without {library : Library} {content : Reading} {resources : Resources}
    {elements : Elements} (h : library.interpret content resources = .ok elements) :
    (∃ left, (library.without .boxes).interpret (readingWithout .boxes content) resources = .ok left ∧
      left.texts = elements.texts) ∧
    (∃ left, (library.without .texts).interpret (readingWithout .texts content) resources = .ok left ∧
      left.boxes = elements.boxes) ∧
    ∀ channel, (library.without channel).scannedFor (readingWithout channel content) resources =
      (library.scannedFor content resources).map (·.without channel) := by
  obtain ⟨withTexts, htexts, hsameTexts⟩ := Library.interpret_without_agrees .boxes h
  obtain ⟨withBoxes, hboxes, hsameBoxes⟩ := Library.interpret_without_agrees .texts h
  exact ⟨⟨withTexts, htexts, hsameTexts.symm⟩, ⟨withBoxes, hboxes, hsameBoxes.symm⟩,
    fun channel => Library.scannedFor_without channel h⟩

/-- A reading with a text and a box over it before everything else. -/
def overdrawn (content : Reading) : Reading :=
  ⟨coveredText.flatMap Figure.items ++ content.items, content.failure⟩

namespace Library

def overdrawnTangle : Library :=
  { tangle with streams := tangle.streams.map fun form => { form with content := overdrawn form.content } }

theorem overdrawnTangle_without :
    ∃ elements withTexts withBoxes,
      overdrawnTangle.interpret (overdrawn tanglePage.content) bothNames = .ok elements ∧
      (overdrawnTangle.without .boxes).interpret (readingWithout .boxes (overdrawn tanglePage.content))
        bothNames = .ok withTexts ∧ withTexts.texts = elements.texts ∧
      (overdrawnTangle.without .texts).interpret (readingWithout .texts (overdrawn tanglePage.content))
        bothNames = .ok withBoxes ∧ withBoxes.boxes = elements.boxes := by
  have hscripts : ∀ content ∈ overdrawn tanglePage.content :: overdrawnTangle.streams.map FormStream.content,
      (script content).isOk = true := by
    decide +kernel
  cases hshown : overdrawnTangle.interpret (overdrawn tanglePage.content) bothNames with
  | error failure =>
    obtain ⟨content, hmem, hfailed⟩ := exists_script_eq_error hshown
    have hok := hscripts content hmem
    rw [hfailed] at hok
    cases hok
  | ok elements =>
    obtain ⟨⟨withTexts, htexts, hsameTexts⟩, ⟨withBoxes, hboxes, hsameBoxes⟩, -⟩ := interpret_without hshown
    exact ⟨elements, withTexts, withBoxes, rfl, htexts, hsameTexts, hboxes, hsameBoxes⟩

end Library

end WeekGrid.Page
