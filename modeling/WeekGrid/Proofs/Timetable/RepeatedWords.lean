import Mathlib.Data.List.Basic
import Mathlib.Data.List.Induction
import WeekGrid.Proofs.Text.Joining
import WeekGrid.Timetable.Cell

/-!
Codes without repeated words. Reading the words of a code keeps each where it stands first, so words that were read
before add nothing of their own: a code may be read twice, or in parts, and comes out the same.
-/
namespace WeekGrid.Timetable

/-- Words that are kept of others: all of them, in the order in which they stand first. -/
structure KeepsFirst (words kept : List (List Char)) : Prop where
  mem_iff : ∀ w, w ∈ kept ↔ w ∈ words
  ordered : kept.Pairwise fun v w => words.idxOf v < words.idxOf w

theorem KeepsFirst.unique {words kept kept' : List (List Char)} (h : KeepsFirst words kept)
    (h' : KeepsFirst words kept') : kept = kept' := by
  have hnodup : ∀ {ws}, KeepsFirst words ws → ws.Nodup := fun h =>
    h.ordered.imp fun hlt heq => Nat.ne_of_lt hlt (congrArg words.idxOf heq)
  have hperm : kept.Perm kept' :=
    (List.perm_ext_iff_of_nodup (hnodup h) (hnodup h')).2 fun w => (h.mem_iff w).trans (h'.mem_iff w).symm
  exact hperm.eq_of_pairwise (fun _ _ _ _ hlt hgt => absurd hgt (Nat.lt_asymm hlt)) h.ordered h'.ordered

section DistinctWords

variable (seen kept words more : List (List Char))

theorem distinctWords_append :
    distinctWords seen (words ++ more) = distinctWords (distinctWords seen words) more := by
  induction words generalizing seen with
  | nil => rfl
  | cons word words ih =>
    rw [List.cons_append, distinctWords, distinctWords]
    split
    · exact ih seen
    · exact ih (seen ++ [word])

theorem distinctWords_concat (word : List Char) : distinctWords seen (words ++ [word]) =
    if word ∈ distinctWords seen words then distinctWords seen words else distinctWords seen words ++ [word] := by
  rw [distinctWords_append, distinctWords]
  simp only [List.contains_iff_mem, distinctWords]

theorem mem_distinctWords {w : List Char} : w ∈ distinctWords seen words ↔ w ∈ seen ∨ w ∈ words := by
  induction words generalizing seen with
  | nil => simp [distinctWords]
  | cons word words ih =>
    rw [distinctWords]
    split
    · next hseen =>
      rw [ih, List.mem_cons]
      constructor
      · exact Or.imp_right .inr
      · rintro (h | rfl | h)
        · exact .inl h
        · exact .inl (List.contains_iff_mem.1 hseen)
        · exact .inr h
    · rw [ih, List.mem_append, List.mem_singleton, List.mem_cons, or_assoc]

theorem mem_distinctWords_nil {w : List Char} : w ∈ distinctWords [] words ↔ w ∈ words := by
  rw [mem_distinctWords, or_iff_right List.not_mem_nil]

theorem distinctWords_distinctWords :
    distinctWords seen (distinctWords kept words) = distinctWords (distinctWords seen kept) words := by
  induction words generalizing kept with
  | nil => rfl
  | cons word words ih =>
    rw [distinctWords]
    split
    · next hkept =>
      have hseen : word ∈ distinctWords seen kept :=
        (mem_distinctWords ..).2 (.inr (List.contains_iff_mem.1 hkept))
      rw [ih, distinctWords, if_pos (List.contains_iff_mem.2 hseen)]
    · calc distinctWords seen (distinctWords (kept ++ [word]) words)
        _ = distinctWords (distinctWords (distinctWords seen kept) [word]) words := by rw [ih, distinctWords_append]
        _ = distinctWords (distinctWords seen kept) (word :: words) := (distinctWords_append _ [word] words).symm

theorem keepsFirst_distinctWords : KeepsFirst words (distinctWords [] words) := by
  refine ⟨fun w => mem_distinctWords_nil words, ?_⟩
  -- From the back: another word changes no place of those in front of it, and a new one stands behind them all.
  induction words using List.reverseRecOn with
  | nil => exact List.Pairwise.nil
  | append_singleton words word ih =>
    have hfront : (distinctWords [] words).Pairwise fun v w =>
        (words ++ [word]).idxOf v < (words ++ [word]).idxOf w := by
      refine ih.imp_of_mem fun {v w} hv hw hlt => ?_
      rw [mem_distinctWords_nil] at hv hw
      rwa [List.idxOf_append_of_mem hv, List.idxOf_append_of_mem hw]
    rw [distinctWords_concat]
    split
    · exact hfront
    · next hnew =>
      rw [mem_distinctWords_nil] at hnew
      refine List.pairwise_append.2 ⟨hfront, List.pairwise_singleton .., fun v hv w hw => ?_⟩
      cases List.mem_singleton.1 hw
      rw [mem_distinctWords_nil] at hv
      rw [List.idxOf_append_of_mem hv, List.idxOf_append_of_notMem hnew]
      exact Nat.lt_add_right _ (List.idxOf_lt_length_of_mem hv)

theorem keepsFirst_iff {words kept : List (List Char)} : KeepsFirst words kept ↔ distinctWords [] words = kept := by
  constructor
  · exact (keepsFirst_distinctWords words).unique
  · rintro rfl
    exact keepsFirst_distinctWords words

end DistinctWords

section WithoutRepeats

variable (code more : List Char)

theorem words_withoutRepeats : Text.words (withoutRepeats code) = distinctWords [] (Text.words code) := by
  refine Text.words_join fun w hw => ?_
  rw [mem_distinctWords_nil] at hw
  exact ⟨Text.ne_nil_of_mem_words hw, Text.not_blank_of_mem_words hw⟩

theorem withoutRepeats_congr {code code' : List Char}
    (h : distinctWords [] (Text.words code) = distinctWords [] (Text.words code')) :
    withoutRepeats code = withoutRepeats code' := congrArg (Text.join [' ']) h

/-- A code without repeats has the words of the code that stand first, in order, with one space between neighbours and
none at the ends. Nothing is left to drop from it, and a code that is put together of two has the same words kept whether
or not the repeats within either were dropped before. -/
theorem withoutRepeats_keepsFirst :
    (∀ kept, KeepsFirst (Text.spaced code) kept ↔ Text.spaced (withoutRepeats code) = kept) ∧
    withoutRepeats code = [' '].intercalate (Text.spaced (withoutRepeats code)) ∧
    withoutRepeats (withoutRepeats code) = withoutRepeats code ∧
    withoutRepeats (code ++ ' ' :: more) = withoutRepeats (withoutRepeats code ++ ' ' :: withoutRepeats more) := by
  have hspace : Text.isBlank ' ' = true := by decide
  simp only [← Text.words_eq_spaced, ← Text.join_eq_intercalate]
  refine ⟨fun kept => ?_, ?_, withoutRepeats_congr ?_, withoutRepeats_congr ?_⟩
  · rw [keepsFirst_iff, words_withoutRepeats]
  · rw [words_withoutRepeats, withoutRepeats]
  · rw [words_withoutRepeats, distinctWords_distinctWords]
    rfl
  · -- The words of the first part are kept before those of the second go through.
    rw [Text.words_append_blank hspace, Text.words_append_blank hspace, words_withoutRepeats, words_withoutRepeats,
      distinctWords_append, distinctWords_append, distinctWords_distinctWords, distinctWords_distinctWords]
    rfl

end WithoutRepeats

end WeekGrid.Timetable
