import WeekGrid.Proofs.Binary64.Whole
import WeekGrid.Proofs.Page.Figures
import WeekGrid.Proofs.Pdf.Reading

/-!
What breaks off the reading of a page for good. An operator that cannot use its operands is passed over; only
two things about operands get past this: an integer for which no double has room, and a colour channel that has
no whole part once it is scaled. Beyond that, a page fails only where the reading of a stream fails.
-/
namespace WeekGrid.Page

open Binary64 (HasNoWhole)
open Outcome (FailsOnly failsOnly_ok failsOnly_error failsOnly_bind)
open Pdf (Object Item Reading)
open Text (Bytes)

/-- An operator whose operands end the whole scan. -/
inductive Segment.Breaks (s : Segment) : Fault → Prop where
  | hugeInteger {n : Int} (hmem : .integer n ∈ s.operands) (h : (Binary64.ofInt n).isFinite = false) :
      Breaks s .outOfRange
  | channel {object : Object} {x : Binary64} {fault : Fault} (hkeyword : s.keyword = Pdf.ascii "rg")
      (hmem : object ∈ s.operands) (hreads : ReadsAs object x) (h : HasNoWhole (x * 255) fault) :
      Breaks s fault

namespace Taking

variable {s : Segment} {α β : Type}

/-- What a taking came to: a value with the property, and operands of the segment that are left; or a failure,
and a fault is one with which the segment ends a scan. -/
def Ended (s : Segment) (P : α → Prop) : Except Mishap α × List Object → Prop
  | (.ok a, rest) => rest ⊆ s.operands ∧ P a
  | (.error (.fault fault), _) => s.Breaks fault
  | (.error (.operand _), _) => True

def Within (s : Segment) (t : Taking α) (P : α → Prop) : Prop :=
  ∀ operands ⊆ s.operands, Ended s P (t.run operands)

theorem within_pure {P : α → Prop} {a : α} (h : P a) : Within s (pure a) P :=
  fun _ hsub => ⟨hsub, h⟩

theorem within_throw {P : α → Prop} {fault : Fault} (h : s.Breaks fault) :
    Within s (throw (.fault fault)) P :=
  fun _ _ => h

theorem within_bind {P : α → Prop} {Q : β → Prop} {t : Taking α} {f : α → Taking β} (ht : Within s t P)
    (hf : ∀ a, P a → Within s (f a) Q) : Within s (t >>= f) Q := by
  intro operands hsub
  have htaken := ht operands hsub
  rw [run_bind]
  generalize t.run operands = taken at htaken
  obtain ⟨result, rest⟩ := taken
  cases result with
  | ok a => exact hf a htaken.2 rest htaken.1
  | error mishap => cases mishap <;> exact htaken

theorem within_take {P : α → Prop} (op : Operator) (wanted : OperandKind)
    {read : Object → Option (Except Fault α)}
    (hok : ∀ object ∈ s.operands, ∀ a, read object = some (.ok a) → P a)
    (hfault : ∀ object ∈ s.operands, ∀ fault, read object = some (.error fault) → s.Breaks fault) :
    Within s (take op wanted read) P := by
  intro operands hsub
  cases operands with
  | nil => trivial
  | cons object rest =>
    have hmem : object ∈ s.operands := hsub List.mem_cons_self
    rw [run_take_cons]
    cases hread : read object with
    | none => trivial
    | some result =>
      cases result with
      | error fault => exact hfault object hmem fault hread
      | ok a => exact ⟨fun _ h => hsub (List.mem_cons_of_mem object h), hok object hmem a hread⟩

theorem within_number (op : Operator) :
    Within s (number op) fun x => ∃ object ∈ s.operands, ReadsAs object x := by
  refine within_take op .number ?_ ?_
  · intro object hmem x hread
    refine ⟨object, hmem, ?_⟩
    cases object with
    | integer n => exact .integer (Option.some.inj hread)
    | real =>
      cases hread
      exact .real x
    | _ => cases hread
  · intro object hmem fault hread
    cases object with
    | integer n =>
      obtain ⟨hinfinite, rfl⟩ := Binary64.ofInt?_eq_error_iff.1 (Option.some.inj hread)
      exact .hugeInteger hmem hinfinite
    | _ => cases hread

theorem within_string (op : Operator) : Within s (string op) fun _ => True :=
  within_take op .string (fun _ _ _ _ => trivial) fun object _ _ hread => by cases object <;> cases hread

theorem within_array (op : Operator) : Within s (array op) fun _ => True :=
  within_take op .array (fun _ _ _ _ => trivial) fun object _ _ hread => by cases object <;> cases hread

theorem within_name (op : Operator) : Within s (name op) fun _ => True :=
  within_take op .name (fun _ _ _ _ => trivial) fun object _ _ hread => by cases object <;> cases hread

end Taking

theorem failsOnly_hexColor (r g b : Binary64) :
    FailsOnly (hexColor r g b) fun fault => ∃ c, (c = r ∨ c = g ∨ c = b) ∧ HasNoWhole (c * 255) fault := by
  have hchannel : ∀ c : Binary64, FailsOnly (channel c) (HasNoWhole (c * 255)) := fun c =>
    failsOnly_bind (fun _ => Binary64.toWhole_eq_error_iff.1) fun _ _ => failsOnly_ok _
  refine failsOnly_bind (fun _ h => ⟨r, .inl rfl, hchannel r _ h⟩) fun _ _ => ?_
  refine failsOnly_bind (fun _ h => ⟨g, .inr (.inl rfl), hchannel g _ h⟩) fun _ _ => ?_
  exact failsOnly_bind (fun _ h => ⟨b, .inr (.inr rfl), hchannel b _ h⟩) fun _ _ => failsOnly_ok _

open Taking in
/-- An operator ends a scan with no other faults, one case for each. -/
theorem Operator.within_command {s : Segment} {op : Operator} (h : ofKeyword? s.keyword = some op) :
    Within s op.command fun _ => True := by
  cases op with
  | fillColor =>
    have hkeyword := ofKeyword?_eq_fillColor_iff.1 h
    refine within_bind (within_number _) fun b hb => within_bind (within_number _) fun g hg =>
      within_bind (within_number _) fun r hr => ?_
    split
    · exact within_pure trivial
    · next fault hcolor =>
      obtain ⟨c, hc, hwhole⟩ := failsOnly_hexColor r g b fault hcolor
      obtain ⟨object, hmem, hreads⟩ : ∃ object ∈ s.operands, ReadsAs object c := by
        rcases hc with rfl | rfl | rfl <;> assumption
      exact within_throw (.channel hkeyword hmem hreads hwhole)
  | _ =>
    simp only [command]
    repeat first
      | refine within_bind (within_number _) fun _ _ => ?_
      | refine within_bind (within_string _) fun _ _ => ?_
      | refine within_bind (within_array _) fun _ _ => ?_
      | refine within_bind (within_name _) fun _ _ => ?_
    exact within_pure trivial

theorem failsOnly_called (s : Segment) : FailsOnly (called s.keyword s.operands.reverse) s.Breaks := by
  intro fault h
  unfold called at h
  split at h
  · cases h
  · next op hop =>
    have hended := Operator.within_command hop s.operands.reverse fun _ => List.mem_reverse.1
    generalize op.command.run s.operands.reverse = taken at h hended
    obtain ⟨result, rest⟩ := taken
    cases result with
    | ok c => cases h
    | error mishap =>
      cases mishap with
      | operand error => cases h
      | fault other =>
        cases h
        exact hended

theorem failsOnly_commandsFrom (operands : List Object) (items : List Item) :
    FailsOnly (commandsFrom operands items) fun fault =>
      ∃ s : Segment, s.items <:+: operands.reverse.map .operand ++ items ∧ s.Breaks fault := by
  induction items generalizing operands with
  | nil => exact failsOnly_ok []
  | cons item items ih =>
    cases item with
    | operand object =>
      intro fault h
      obtain ⟨s, hs, hbreaks⟩ := ih (object :: operands) fault h
      exact ⟨s, by simpa using hs, hbreaks⟩
    | operator keyword =>
      have hsplit : operands.reverse.map .operand ++ .operator keyword :: items =
          (Segment.mk operands.reverse keyword).items ++ items := by simp [Segment.items]
      have hcalled := failsOnly_called ⟨operands.reverse, keyword⟩
      rw [List.reverse_reverse] at hcalled
      rw [hsplit]
      refine failsOnly_bind (fun fault h => ⟨_, (List.prefix_append _ _).isInfix, hcalled fault h⟩) fun _ _ => ?_
      refine failsOnly_bind (fun fault h => ?_) fun _ _ => failsOnly_ok _
      obtain ⟨s, hs, hbreaks⟩ := ih [] fault h
      exact ⟨s, hs.trans (List.suffix_append _ _).isInfix, hbreaks⟩

/-- What ends the scan of a content stream otherwise than in a refusal. -/
inductive BreaksScan (content : Reading) : Fault → Prop where
  | segment {s : Segment} {fault : Fault} (hs : s.items <:+: content.items) (h : s.Breaks fault) :
      BreaksScan content fault
  | reading {fault : Fault} (h : content.failure = some (.faulted fault)) (hfault : fault ∈ Pdf.readingFaults) :
      BreaksScan content fault

theorem failsOnly_script (streams : List Bytes) :
    FailsOnly (script (.ofStreams streams)) fun failure =>
      (∃ reason, failure = .refused (.scanFailed reason)) ∨
        ∃ fault, failure = .faulted fault ∧ BreaksScan (.ofStreams streams) fault := by
  intro failure h
  unfold script at h
  split at h
  · next hcommands =>
    cases h
    obtain ⟨s, hs, hbreaks⟩ := failsOnly_commandsFrom [] _ _ hcommands
    exact .inr ⟨_, rfl, .segment hs hbreaks⟩
  · next other _ hfailure =>
    cases h
    cases Pdf.endsReading_of_failure hfailure with
    | scanFailed reason => exact .inl ⟨reason, rfl⟩
    | faulted hfault => exact .inr ⟨_, rfl, .reading hfailure hfault⟩
  · cases h

end WeekGrid.Page
