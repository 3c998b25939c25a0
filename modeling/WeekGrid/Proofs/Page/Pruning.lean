import WeekGrid.Proofs.Page.Reachability
import WeekGrid.Proofs.Page.Simulation

/-!
Operators that come to nothing. One that cannot use its operands takes some of them and changes nothing else,
and afterwards no operands are left, so it can as well be missing from its stream; likewise a keyword that is
unknown, and operands after the last keyword.
-/
namespace WeekGrid.Page

open Pdf (Object Item Reading)
open Text (Bytes)

structure Segment where
  operands : List Object
  keyword : Bytes

namespace Segment

def items (s : Segment) : List Item := s.operands.map .operand ++ [.operator s.keyword]

/-- The keyword is unknown, or its operator cannot use these operands in some state of a scan. -/
def IsIdle (s : Segment) : Prop :=
  Operator.ofKeyword? s.keyword = none ∨ ∃ op, Operator.ofKeyword? s.keyword = some op ∧
    ∃ scope drawing error, (Machine.perform ⟨s.operands.reverse, drawing⟩ scope op).2 = some (.operand error)

end Segment

/-- Some items without some of the segments that are idle and some of the operands after the last segment. -/
inductive Pruned : List Item → List Item → Prop where
  | operands {operands left : List Object} (h : left.Sublist operands) :
      Pruned (operands.map .operand) (left.map .operand)
  | keep {items left : List Item} (s : Segment) (h : Pruned items left) :
      Pruned (s.items ++ items) (s.items ++ left)
  | drop {items left : List Item} (s : Segment) (hidle : s.IsIdle) (h : Pruned items left) :
      Pruned (s.items ++ items) left

structure PrunedReading (content left : Reading) : Prop where
  items : Pruned content.items left.items
  failure : content.failure = left.failure

structure FormStream.Pruned (form left : FormStream) : Prop where
  number : form.number = left.number
  subtype : form.subtype = left.subtype
  resources : form.resources = left.resources
  content : PrunedReading form.content left.content

structure Library.Pruned (library left : Library) : Prop where
  leading : library.leading = left.leading
  streams : List.Forall₂ FormStream.Pruned library.streams left.streams

theorem Machine.drawing_of_operandError {m m' : Machine} {scope : Scope} {op : Operator}
    {error : OperandError} (h : m.perform scope op = (m', some (.operand error))) :
    m'.drawing = m.drawing := by
  rw [perform_eq] at h
  split at h
  · cases h
  · cases h
    rfl

theorem Segment.IsIdle.called_eq {s : Segment} (h : s.IsIdle) :
    called s.keyword s.operands.reverse = .ok [] := by
  rcases h with hop | ⟨op, hop, scope, drawing, error, hperform⟩
  · simp [called, hop]
  · rw [Machine.perform_eq] at hperform
    split at hperform
    · cases hperform
    · next mishap rest hrun =>
      have hmishap : mishap = .operand error := Option.some.inj hperform
      simp [called, hop, hrun, hmishap]

theorem commandsFrom_operands (operands objects : List Object) (items : List Item) :
    commandsFrom operands (objects.map .operand ++ items) = commandsFrom (objects.reverse ++ operands) items := by
  induction objects generalizing operands with
  | nil => rfl
  | cons object objects ih =>
    rw [List.map_cons, List.cons_append, commandsFrom, ih, List.reverse_cons, List.append_assoc,
      List.singleton_append]

theorem commandsFrom_map_operand (objects : List Object) : commandsFrom [] (objects.map .operand) = .ok [] := by
  have hall := commandsFrom_operands [] objects []
  rw [List.append_nil] at hall
  rw [hall]
  rfl

theorem commandsFrom_segment (s : Segment) (items : List Item) :
    commandsFrom [] (s.items ++ items) = called s.keyword s.operands.reverse >>= fun now =>
      commandsFrom [] items >>= fun later => .ok (now ++ later) := by
  rw [Segment.items, List.append_assoc, commandsFrom_operands, List.append_nil]
  rfl

theorem Pruned.commandsFrom_eq {items left : List Item} (h : Pruned items left) :
    commandsFrom [] items = commandsFrom [] left := by
  induction h with
  | operands _ => rw [commandsFrom_map_operand, commandsFrom_map_operand]
  | keep s _ ih => rw [commandsFrom_segment, commandsFrom_segment, ih]
  | @drop items _ s hidle _ ih =>
    rw [commandsFrom_segment, hidle.called_eq, ← ih]
    exact bind_pure (commandsFrom [] items)

theorem PrunedReading.script_eq {content left : Reading} (h : PrunedReading content left) :
    script content = script left := by
  rw [script, h.items.commandsFrom_eq, h.failure]
  rfl

theorem FormStream.Pruned.alike {form left : FormStream} (h : form.Pruned left) : form.Alike left :=
  ⟨h.number, h.subtype, h.resources, h.content.script_eq⟩

theorem Library.Pruned.alike {library left : Library} (h : library.Pruned left) : library.Alike left :=
  ⟨h.leading, h.streams.imp fun _ _ => FormStream.Pruned.alike⟩

/-- An operator that cannot use its operands has changed nothing but the operands. So a page comes to the same
texts and boxes, or to the same failure, without the operators that cannot use their operands or are unknown,
wherever they are missing from the page or its forms. -/
theorem interpret_pruned {library left : Library} (hlibrary : library.Pruned left)
    {content contentLeft : Reading} (hcontent : PrunedReading content contentLeft) (resources : Resources) :
    left.interpret contentLeft resources = library.interpret content resources ∧
    ∀ (m m' : Machine) (scope : Scope) (op : Operator) (error : OperandError),
      m.perform scope op = (m', some (.operand error)) → m'.drawing = m.drawing :=
  ⟨hlibrary.alike.interpret_eq hcontent.script_eq resources,
    fun _ _ _ _ _ hperform => Machine.drawing_of_operandError hperform⟩

/-- A number where a text is wanted, and a keyword that is unknown. -/
def idleSegments : List Segment := [⟨[.integer 5], Pdf.ascii "Tj"⟩, ⟨[], Pdf.ascii "q"⟩]

theorem isIdle_of_mem_idleSegments {s : Segment} (h : s ∈ idleSegments) : s.IsIdle := by
  rcases List.mem_cons.1 h with rfl | h
  · exact Or.inr ⟨.showText, by decide, ⟨Library.defaultLeading, [], .none, fun _ => false⟩,
      .start .initial, .unexpected .showText .string (.integer 5), rfl⟩
  · rw [List.mem_singleton.1 h]
    exact Or.inl (by decide)

def cluttered (content : Reading) : Reading :=
  ⟨idleSegments.flatMap Segment.items ++ content.items ++ [.operand (.integer 1)], content.failure⟩

/-- An operand after all items can go; `operands` are those read since the last keyword. -/
theorem pruned_append_operand (operands : List Object) (items : List Item) (object : Object) :
    Pruned (operands.map .operand ++ items ++ [.operand object]) (operands.map .operand ++ items) := by
  induction items generalizing operands with
  | nil =>
    have h := Pruned.operands (List.sublist_append_left operands [object])
    rw [List.map_append] at h
    simpa using h
  | cons item items ih =>
    cases item with
    | operand next =>
      have h := ih (operands ++ [next])
      simpa using h
    | operator keyword =>
      have h := Pruned.keep ⟨operands, keyword⟩ (ih [])
      simpa [Segment.items] using h

theorem prunedReading_cluttered (content : Reading) : PrunedReading (cluttered content) content := by
  refine ⟨?_, rfl⟩
  have hitems := pruned_append_operand [] content.items (.integer 1)
  have hdrop : ∀ segments : List Segment, (∀ s ∈ segments, s.IsIdle) →
      Pruned (segments.flatMap Segment.items ++ (content.items ++ [.operand (.integer 1)]))
        content.items := by
    intro segments
    induction segments with
    | nil => exact fun _ => hitems
    | cons s segments ih =>
      intro hidle
      obtain ⟨hs, hrest⟩ := List.forall_mem_cons.1 hidle
      rw [List.flatMap_cons, List.append_assoc]
      exact Pruned.drop s hs (ih hrest)
  have hall := hdrop idleSegments fun s => isIdle_of_mem_idleSegments
  rw [← List.append_assoc] at hall
  exact hall

namespace Library

def clutteredTangle : Library :=
  { tangle with streams := tangle.streams.map fun form => { form with content := cluttered form.content } }

theorem pruned_clutteredTangle : clutteredTangle.Pruned tangle := by
  refine ⟨rfl, ?_⟩
  rw [clutteredTangle, List.forall₂_map_left_iff, List.forall₂_same]
  exact fun form _ => ⟨rfl, rfl, rfl, prunedReading_cluttered form.content⟩

theorem tangle_interpret_cluttered :
    tangle.interpret tanglePage.content bothNames =
      clutteredTangle.interpret (cluttered tanglePage.content) bothNames :=
  (interpret_pruned pruned_clutteredTangle (prunedReading_cluttered tanglePage.content) bothNames).1

end Library

end WeekGrid.Page
