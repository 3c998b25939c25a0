import WeekGrid.Proofs.Page.Pruning

/-!
The operands below those that an operator uses. An operator that succeeds takes what it needs off the top of the stack
and reads nothing below, and afterwards the whole stack is dropped. So operands that are put under those of such an
operator, or that an unknown keyword finds, make no difference anywhere.
-/
namespace WeekGrid.Page

open Pdf (Object Item Reading)
open Text (Bytes)

namespace Taking

variable {α β : Type}

/-- Where it succeeds, it does the same with more operands below, and leaves these. -/
def ReadsTop (t : Taking α) : Prop :=
  ∀ operands value rest, t.run operands = (.ok value, rest) →
    ∀ below, t.run (operands ++ below) = (.ok value, rest ++ below)

theorem readsTop_pure (a : α) : ReadsTop (pure a) := by
  intro operands value rest hrun below
  cases hrun
  rfl

theorem readsTop_throw (mishap : Mishap) : ReadsTop (throw mishap : Taking α) := by
  intro operands value rest hrun below
  cases hrun

theorem readsTop_bind {t : Taking α} {f : α → Taking β} (ht : ReadsTop t) (hf : ∀ a, ReadsTop (f a)) :
    ReadsTop (t >>= f) := by
  intro operands value rest hrun below
  obtain ⟨a, between, hfirst, hsecond⟩ := run_bind_eq_ok hrun
  rw [run_bind, ht operands a between hfirst below]
  exact hf a between value rest hsecond below

theorem readsTop_take (op : Operator) (wanted : OperandKind) (read : Object → Option (Except Fault α)) :
    ReadsTop (take op wanted read) := by
  intro operands value rest hrun below
  cases operands with
  | nil => cases hrun
  | cons object objects =>
    rw [run_take_cons, Prod.mk.injEq] at hrun
    obtain ⟨hread, rfl⟩ := hrun
    rw [List.cons_append, run_take_cons, hread]

theorem readsTop_number (op : Operator) : ReadsTop (number op) := readsTop_take op .number _

theorem readsTop_string (op : Operator) : ReadsTop (string op) := readsTop_take op .string _

theorem readsTop_array (op : Operator) : ReadsTop (array op) := readsTop_take op .array _

theorem readsTop_name (op : Operator) : ReadsTop (name op) := readsTop_take op .name _

end Taking

open Taking in
theorem Operator.readsTop_command (op : Operator) : Taking.ReadsTop op.command := by
  cases op with
  | fillColor =>
    refine readsTop_bind (readsTop_number _) fun b => readsTop_bind (readsTop_number _) fun g =>
      readsTop_bind (readsTop_number _) fun r => ?_
    cases hexColor r g b with
    | ok color => exact readsTop_pure _
    | error fault => exact readsTop_throw _
  | _ =>
    simp only [command]
    repeat first
      | refine readsTop_bind (readsTop_number _) fun _ => ?_
      | refine readsTop_bind (readsTop_string _) fun _ => ?_
      | refine readsTop_bind (readsTop_array _) fun _ => ?_
      | refine readsTop_bind (readsTop_name _) fun _ => ?_
    exact readsTop_pure _

theorem Operator.run_handler_append {op : Operator} {scope : Scope} {operands rest : List Object} {d d' : Drawing}
    (h : (op.handler scope).run ⟨operands, d⟩ = (.ok (), ⟨rest, d'⟩)) (below : List Object) :
    (op.handler scope).run ⟨operands ++ below, d⟩ = (.ok (), ⟨rest ++ below, d'⟩) := by
  rw [handler_eq, run_bind, Handler.run_taking] at h ⊢
  cases hrun : op.command.run operands with
  | mk result left =>
    rw [hrun] at h
    cases result with
    | error mishap => cases h
    | ok c =>
      rw [op.readsTop_command operands c left hrun below]
      cases h
      rfl

def Segment.Succeeds (s : Segment) : Prop :=
  ∃ op, Operator.ofKeyword? s.keyword = some op ∧
    ∃ scope drawing, (Machine.perform ⟨s.operands.reverse, drawing⟩ scope op).2 = none

def Segment.stackedOn (s : Segment) (below : List Object) : Segment := ⟨below ++ s.operands, s.keyword⟩

/-- Some items with operands put below those of segments that succeed, and with other operands before unknown
keywords and at the end. -/
inductive Restacked : List Item → List Item → Prop where
  | operands (operands others : List Object) : Restacked (operands.map .operand) (others.map .operand)
  | keep {items others : List Item} (s : Segment) (h : Restacked items others) :
      Restacked (s.items ++ items) (s.items ++ others)
  | under {items others : List Item} (s : Segment) (hs : s.Succeeds) (below : List Object)
      (h : Restacked items others) : Restacked (s.items ++ items) ((s.stackedOn below).items ++ others)
  | unknown {items others : List Item} {keyword : Bytes} (hkeyword : Operator.ofKeyword? keyword = none)
      (operands found : List Object) (h : Restacked items others) :
      Restacked ((⟨operands, keyword⟩ : Segment).items ++ items) ((⟨found, keyword⟩ : Segment).items ++ others)

structure RestackedReading (content other : Reading) : Prop where
  items : Restacked content.items other.items
  failure : content.failure = other.failure

structure FormStream.Restacked (form other : FormStream) : Prop where
  number : form.number = other.number
  subtype : form.subtype = other.subtype
  resources : form.resources = other.resources
  content : RestackedReading form.content other.content

structure Library.Restacked (library other : Library) : Prop where
  leading : library.leading = other.leading
  streams : List.Forall₂ FormStream.Restacked library.streams other.streams

theorem Segment.Succeeds.called_stackedOn {s : Segment} (h : s.Succeeds) (below : List Object) :
    called (s.stackedOn below).keyword (s.stackedOn below).operands.reverse = called s.keyword s.operands.reverse := by
  obtain ⟨op, hop, scope, drawing, hperform⟩ := h
  rw [Machine.perform_eq] at hperform
  cases hrun : op.command.run s.operands.reverse with
  | mk result rest =>
    rw [hrun] at hperform
    cases result with
    | error mishap => cases hperform
    | ok c =>
      have hbelow := op.readsTop_command s.operands.reverse c rest hrun below.reverse
      simp [called, stackedOn, hop, hrun, hbelow]

theorem Restacked.commandsFrom_eq {items others : List Item} (h : Restacked items others) :
    commandsFrom [] items = commandsFrom [] others := by
  induction h with
  | operands operands others => rw [commandsFrom_map_operand, commandsFrom_map_operand]
  | keep s _ ih => rw [commandsFrom_segment, commandsFrom_segment, ih]
  | under s hs below _ ih => rw [commandsFrom_segment, commandsFrom_segment, hs.called_stackedOn, ih]
  | @unknown items others keyword hkeyword operands found _ ih =>
    have hcalled : ∀ objects, called keyword objects = .ok [] := fun objects => by simp [called, hkeyword]
    rw [commandsFrom_segment, commandsFrom_segment, hcalled, hcalled, ih]

theorem RestackedReading.script_eq {content other : Reading} (h : RestackedReading content other) :
    script content = script other := by
  rw [script, h.items.commandsFrom_eq, h.failure]
  rfl

theorem FormStream.Restacked.alike {form other : FormStream} (h : form.Restacked other) : form.Alike other :=
  ⟨h.number, h.subtype, h.resources, h.content.script_eq⟩

theorem Library.Restacked.alike {library other : Library} (h : library.Restacked other) : library.Alike other :=
  ⟨h.leading, h.streams.imp fun _ _ => FormStream.Restacked.alike⟩

theorem Machine.operands_step_operator {m m' : Machine} {scope : Scope} {keyword : Bytes}
    (h : m.step scope (.operator keyword) = .ok m') : m'.operands = [] := by
  rw [step_operator] at h
  split at h
  · cases h
    rfl
  · cases h

/-- An operator that succeeds reads only what it takes off the top of the operands, and none of them survives to the
next operator. So a page comes to the same texts and boxes, or to the same failure, where operands are put below those
of operators that succeed, and where unknown keywords find other operands, in the page or its forms. -/
theorem interpret_restacked {library other : Library} (hlibrary : library.Restacked other)
    {content contentOther : Reading} (hcontent : RestackedReading content contentOther) (resources : Resources) :
    other.interpret contentOther resources = library.interpret content resources ∧
    (∀ (op : Operator) (scope : Scope) (operands rest below : List Object) (d d' : Drawing),
      (op.handler scope).run ⟨operands, d⟩ = (.ok (), ⟨rest, d'⟩) →
        (op.handler scope).run ⟨operands ++ below, d⟩ = (.ok (), ⟨rest ++ below, d'⟩)) ∧
    ∀ (m m' : Machine) (scope : Scope) (keyword : Bytes),
      m.step scope (.operator keyword) = .ok m' → m'.operands = [] :=
  ⟨hlibrary.alike.interpret_eq hcontent.script_eq resources,
    fun _ _ _ _ below _ _ hrun => Operator.run_handler_append hrun below,
    fun _ _ _ _ => Machine.operands_step_operator⟩

/-- A stream with an unknown keyword, a text that is shown and a name that is invoked; `found` stands before the unknown
keyword and `below` under the text. -/
def strewn (found below : List Object) (text name : String) : Reading :=
  ⟨(⟨found, Pdf.ascii "q"⟩ : Segment).items ++
    ((Segment.stackedOn ⟨[.string (Pdf.ascii text)], Pdf.ascii "Tj"⟩ below).items ++
      ((⟨[.name (Pdf.ascii name)], Pdf.ascii "Do"⟩ : Segment).items ++ [])), none⟩

theorem restackedReading_strewn (found below : List Object) (text name : String) :
    RestackedReading (strewn [] [] text name) (strewn found below text name) := by
  have hkeyword : Operator.ofKeyword? (Pdf.ascii "Tj") = some .showText := by decide
  have hshown : Segment.Succeeds ⟨[.string (Pdf.ascii text)], Pdf.ascii "Tj"⟩ :=
    ⟨.showText, hkeyword, ⟨Library.defaultLeading, [], .none, fun _ => false⟩, .start .initial, rfl⟩
  exact ⟨.unknown (by decide) [] found (.under _ hshown below (.keep _ (.operands [] []))), rfl⟩

def strewnLoop (found below : List Object) : Library :=
  ⟨Library.defaultLeading, [⟨some 1, some (.name (Pdf.ascii "Form")), none, strewn found below "a" "A"⟩]⟩

theorem strewnLoop_interpret :
    (strewnLoop [.integer 1] [.name (Pdf.ascii "X"), .integer 2]).interpret
        (strewn [.real 3] [.integer 4] "page" "A") Library.bothNames =
      (strewnLoop [] []).interpret (strewn [] [] "page" "A") Library.bothNames ∧
    ∀ scope, ((Operator.handler scope .showText).run ⟨[.string (Pdf.ascii "a")] ++ [.integer 4], .start .initial⟩ =
      (.ok (), ⟨[.integer 4], (Drawing.start .initial).showText "a"⟩)) := by
  have hlibrary : (strewnLoop [] []).Restacked (strewnLoop [.integer 1] [.name (Pdf.ascii "X"), .integer 2]) :=
    ⟨rfl, .cons ⟨rfl, rfl, rfl, restackedReading_strewn _ _ "a" "A"⟩ .nil⟩
  obtain ⟨hpage, hhandler, -⟩ := interpret_restacked hlibrary
    (restackedReading_strewn [.real 3] [.integer 4] "page" "A") Library.bothNames
  exact ⟨hpage, fun scope => hhandler .showText scope [.string (Pdf.ascii "a")] [] [.integer 4] _ _ rfl⟩

end WeekGrid.Page
