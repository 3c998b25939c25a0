import WeekGrid.Pdf.Content
import WeekGrid.Proofs.Outcome

/-!
How the reading of content streams can fail. Whatever bytes they hold, the failure is one of scanning, or one
of a few faults: an octal escape that is no byte, or a filter of an inline image that cannot be looked into.
-/
namespace WeekGrid.Pdf

open Outcome (FailsOnly failsOnly_ok failsOnly_error failsOnly_bind)
open Text (Bytes)

def readingFaults : List Fault := [.octalOutOfRange, .filterEmpty, .filterWithoutFirst, .filterNotIndexable]

inductive EndsReading : Failure → Prop where
  | scanFailed (reason : String) : EndsReading (.refused (.scanFailed reason))
  | faulted {fault : Fault} (h : fault ∈ readingFaults) : EndsReading (.faulted fault)

namespace Mode

theorem failsOnly_octalByte (octal : Bytes) : FailsOnly (octalByte octal) (· ∈ readingFaults) := by
  simp only [octalByte]
  split
  · exact failsOnly_ok _
  · exact failsOnly_error (by decide)

theorem failsOnly_stepEscape (depth : Nat) (text octal : Bytes) (b : UInt8) :
    FailsOnly (stepEscape depth text octal b) (· ∈ readingFaults) := by
  unfold stepEscape
  split
  · exact failsOnly_ok _
  · split
    · exact failsOnly_bind (failsOnly_octalByte octal) fun _ _ => failsOnly_ok _
    · split <;> exact failsOnly_ok _

theorem failsOnly_step (mode : Mode) (place : Nat) (b : UInt8) :
    FailsOnly (mode.step place b) (· ∈ readingFaults) := by
  cases mode with
  | escape depth text octal => exact failsOnly_stepEscape depth text octal b
  | _ =>
    simp only [step]
    repeat' split
    all_goals exact failsOnly_ok _

theorem failsOnly_close (mode : Mode) : FailsOnly mode.close (· ∈ readingFaults) := by
  cases mode with
  | escape depth text octal =>
    simp only [close]
    split
    · exact failsOnly_ok _
    · exact failsOnly_bind (failsOnly_octalByte octal) fun _ _ => failsOnly_ok _
  | _ => exact failsOnly_ok _

theorem failsOnly_crossStream (mode : Mode) : FailsOnly mode.crossStream (· ∈ readingFaults) := by
  simp only [crossStream]
  split
  · exact failsOnly_ok _
  · exact failsOnly_close _

end Mode

namespace Reader

/-- A reader that has not failed, or has failed in one of the ways in which a reading ends. -/
def IsSound (r : Reader) : Prop := ∀ failure, r.failure = some failure → EndsReading failure

theorem isSound_of_failure_eq {r r' : Reader} (h : r.IsSound) (heq : r'.failure = r.failure) : r'.IsSound :=
  fun failure hfailure => h failure (heq ▸ hfailure)

theorem isSound_start : start.IsSound := fun _ h => nomatch h

theorem isSound_fail (r : Reader) {failure : Failure} (h : EndsReading failure) : (r.fail failure).IsSound := by
  rintro _ ⟨⟩
  exact h

theorem failsOnly_firstFilter? (attributes : List (String × Object)) :
    FailsOnly (firstFilter? attributes) (· ∈ readingFaults) := by
  unfold firstFilter?
  split
  · exact failsOnly_ok _
  · exact failsOnly_ok _
  · exact failsOnly_ok _
  · exact failsOnly_error (by decide)
  · split
    · exact failsOnly_error (by decide)
    · exact failsOnly_ok _
  · exact failsOnly_error (by decide)
  · exact failsOnly_error (by decide)

section

variable {r : Reader} (h : r.IsSound)
include h

theorem isSound_putValue (object : Object) : (r.putValue object).IsSound := by
  unfold putValue
  split <;> exact isSound_of_failure_eq h rfl

theorem isSound_putKeyword (keyword : Bytes) : (r.putKeyword keyword).IsSound := by
  unfold putKeyword
  split
  · exact isSound_of_failure_eq h rfl
  · exact isSound_putValue h _

theorem isSound_closeBracket (bracket : Bracket) {use : Reader → List Object → Reader}
    (huse : ∀ r' : Reader, r'.IsSound → ∀ values, (use r' values).IsSound) :
    (r.closeBracket bracket use).IsSound := by
  unfold closeBracket
  split
  · exact h
  · next frame frames _ =>
    have hinner : Reader.IsSound { r with frames := frames } := isSound_of_failure_eq h rfl
    split
    · exact huse _ hinner _
    · exact h

theorem isSound_closeDictionary (values : List Object) : (r.closeDictionary values).IsSound := by
  unfold closeDictionary
  split
  · exact isSound_putValue h _
  · exact isSound_fail _ (.scanFailed _)

theorem isSound_startImage (start : Nat) (values : List Object) : (startImage start r values).IsSound := by
  unfold startImage
  split
  · exact h
  · split
    · next _ _ _ fault hfilter =>
      exact isSound_fail _ (.faulted (failsOnly_firstFilter? _ fault hfilter))
    · exact isSound_of_failure_eq h rfl

theorem isSound_take (token : Token) : (r.take token).IsSound := by
  have hput : ∀ r' : Reader, r'.IsSound → ∀ values, (r'.putValue (.array values)).IsSound :=
    fun _ hr' _ => isSound_putValue hr' _
  cases token with
  | value object => exact isSound_putValue h object
  | keyword place bytes =>
    unfold take
    dsimp only
    repeat' split
    · exact isSound_of_failure_eq h rfl
    · exact isSound_closeBracket h _ hput
    · exact isSound_of_failure_eq h rfl
    · exact isSound_closeBracket h _ fun _ hr' => isSound_closeDictionary hr'
    · exact isSound_of_failure_eq h rfl
    · exact isSound_closeBracket h _ hput
    · exact isSound_of_failure_eq h rfl
    · exact isSound_closeBracket h _ fun _ hr' => isSound_startImage hr' place
    · exact isSound_putKeyword h bytes

theorem isSound_takeAll (tokens : List Token) : (r.takeAll tokens).IsSound := by
  induction tokens generalizing r with
  | nil => exact h
  | cons token tokens ih =>
    have htake := isSound_take h token
    rw [takeAll]
    split
    · exact htake
    · exact ih htake

theorem isSound_takeStep {step : Except Fault (Mode × List Token)}
    (hstep : FailsOnly step (· ∈ readingFaults)) : (r.takeStep step).IsSound := by
  cases step with
  | error fault => exact isSound_fail r (.faulted (hstep fault rfl))
  | ok result =>
    refine isSound_takeAll ?_ result.2
    exact isSound_of_failure_eq h rfl

theorem isSound_stepImage (image : ImageData) (b : UInt8) : (r.stepImage image b).IsSound := by
  unfold stepImage
  split
  · exact isSound_of_failure_eq h rfl
  · split
    · split
      · unfold endImage
        have hput : Reader.IsSound (Reader.putValue { r with image := none } (.stream image.attributes [])) := by
          refine isSound_putValue ?_ _
          exact isSound_of_failure_eq h rfl
        dsimp only
        split
        · exact isSound_putKeyword hput imageEnd
        · exact hput
      · exact isSound_of_failure_eq h rfl
    · exact isSound_of_failure_eq h rfl

theorem isSound_step (b : UInt8) : (r.step b).IsSound := by
  have hrefill : r.refill.IsSound := by
    unfold refill
    split <;> exact isSound_of_failure_eq h rfl
  unfold step
  split
  · exact h
  · dsimp only
    split
    · refine isSound_stepImage ?_ _ b
      exact isSound_of_failure_eq hrefill rfl
    · refine isSound_takeStep ?_ (Mode.failsOnly_step _ _ b)
      exact isSound_of_failure_eq hrefill rfl

theorem isSound_readStream (bytes : Bytes) : (r.readStream bytes).IsSound := by
  have hcross : r.crossStream.IsSound := by
    unfold crossStream
    split
    · exact h
    · dsimp only
      split
      · exact isSound_of_failure_eq h rfl
      · refine isSound_takeStep ?_ (Mode.failsOnly_crossStream _)
        exact isSound_of_failure_eq h rfl
  unfold readStream
  generalize r.crossStream = crossed at hcross
  induction bytes generalizing crossed with
  | nil => exact hcross
  | cons b bytes ih => exact ih _ (isSound_step hcross b)

theorem isSound_readStreams (streams : List Bytes) : (streams.foldl readStream r).IsSound := by
  induction streams generalizing r with
  | nil => exact h
  | cons stream streams ih => exact ih (isSound_readStream h stream)

theorem endsReading_finish {failure : Failure} (hfailure : r.finish.failure = some failure) :
    EndsReading failure := by
  simp only [finish] at hfailure
  split at hfailure
  · exact h failure hfailure
  · exact isSound_takeStep h (Mode.failsOnly_close _) failure hfailure

end

end Reader

/-- Whatever its streams hold, a reading ends in no other failures. -/
theorem endsReading_of_failure {streams : List Bytes} {failure : Failure}
    (h : (Reading.ofStreams streams).failure = some failure) : EndsReading failure := by
  unfold Reading.ofStreams at h
  split at h
  · cases h
    exact .scanFailed _
  · exact Reader.endsReading_finish (Reader.isSound_readStreams Reader.isSound_start _) h

end WeekGrid.Pdf
