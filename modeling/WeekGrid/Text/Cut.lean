/-!
Cutting a text at a separator, and joining pieces with one. Joining undoes cutting; the first piece of a
cut text does not contain the separator before its end.
-/
namespace WeekGrid.Text

/-- The text before the first separator, and the text after it. -/
def cut? (separator : List Char) : List Char → Option (List Char × List Char)
  | [] => none
  | c :: cs =>
    if separator.isPrefixOf (c :: cs) then some ([], (c :: cs).drop separator.length)
    else (cut? separator cs).map fun (before, after) => (c :: before, after)

theorem cut?_eq_some {separator cs before after : List Char}
    (h : cut? separator cs = some (before, after)) : cs = before ++ separator ++ after := by
  induction cs generalizing before after with
  | nil => simp [cut?] at h
  | cons c cs ih =>
    unfold cut? at h
    split at h
    · next hp =>
      obtain ⟨t, ht⟩ := List.isPrefixOf_iff_prefix.1 hp
      simp only [Option.some.injEq, Prod.mk.injEq] at h
      obtain ⟨rfl, rfl⟩ := h
      rw [← ht]; simp
    · obtain ⟨⟨b, a⟩, hba, heq⟩ := Option.map_eq_some_iff.1 h
      simp only [Prod.mk.injEq] at heq
      obtain ⟨rfl, rfl⟩ := heq
      simp [ih hba]

def consHead (c : Char) : List (List Char) → List (List Char)
  | [] => [[c]]
  | piece :: pieces => (c :: piece) :: pieces

/-- The pieces between separators; the number counts the characters of a separator still to pass. -/
def pieces (separator : List Char) : Nat → List Char → List (List Char)
  | _, [] => [[]]
  | pass + 1, _ :: cs => pieces separator pass cs
  | 0, c :: cs =>
    if separator.isPrefixOf (c :: cs) then [] :: pieces separator (separator.length - 1) cs
    else consHead c (pieces separator 0 cs)

/-- A text split at every separator, from the left; empty pieces are kept. -/
def split (separator cs : List Char) : List (List Char) := pieces separator 0 cs

theorem split_of_not_mem {sep : Char} {cs : List Char} (h : sep ∉ cs) : split [sep] cs = [cs] := by
  induction cs with
  | nil => rfl
  | cons c cs ih =>
    rw [List.mem_cons, not_or] at h
    have hprefix : [sep].isPrefixOf (c :: cs) = false := by simp [List.isPrefixOf, h.1]
    have hrest := ih h.2
    rw [split] at hrest ⊢
    rw [pieces, hprefix, hrest]
    rfl

theorem split_append {sep : Char} {before : List Char} (h : sep ∉ before) (after : List Char) :
    split [sep] (before ++ sep :: after) = before :: split [sep] after := by
  induction before with
  | nil => simp [split, pieces]
  | cons c before ih =>
    rw [List.mem_cons, not_or] at h
    have hprefix : [sep].isPrefixOf (c :: (before ++ sep :: after)) = false := by simp [List.isPrefixOf, h.1]
    have hrest := ih h.2
    rw [split] at hrest ⊢
    rw [List.cons_append, pieces, hprefix, hrest]
    rfl

theorem split_ne_nil (sep : Char) (cs : List Char) : split [sep] cs ≠ [] := by
  by_cases h : sep ∈ cs
  · obtain ⟨before, after, rfl, hbefore⟩ := List.eq_append_cons_of_mem h
    rw [split_append hbefore]
    exact List.cons_ne_nil _ _
  · rw [split_of_not_mem h]
    exact List.cons_ne_nil _ _

theorem split_eq_singleton_iff {sep : Char} {cs piece : List Char} :
    split [sep] cs = [piece] ↔ cs = piece ∧ sep ∉ piece := by
  constructor
  · intro h
    by_cases hcs : sep ∈ cs
    · obtain ⟨before, after, rfl, hbefore⟩ := List.eq_append_cons_of_mem hcs
      rw [split_append hbefore] at h
      exact absurd (List.cons.inj h).2 (split_ne_nil sep after)
    · rw [split_of_not_mem hcs] at h
      cases h
      exact ⟨rfl, hcs⟩
  · rintro ⟨rfl, hpiece⟩
    exact split_of_not_mem hpiece

theorem split_eq_pair_iff {sep : Char} {cs before after : List Char} :
    split [sep] cs = [before, after] ↔ cs = before ++ sep :: after ∧ sep ∉ before ∧ sep ∉ after := by
  constructor
  · intro h
    by_cases hcs : sep ∈ cs
    · obtain ⟨front, back, rfl, hfront⟩ := List.eq_append_cons_of_mem hcs
      rw [split_append hfront] at h
      obtain ⟨rfl, hback⟩ := List.cons.inj h
      obtain ⟨rfl, hafter⟩ := split_eq_singleton_iff.1 hback
      exact ⟨rfl, hfront, hafter⟩
    · rw [split_of_not_mem hcs] at h
      cases h
  · rintro ⟨rfl, hbefore, hafter⟩
    rw [split_append hbefore, split_of_not_mem hafter]

def join (separator : List Char) : List (List Char) → List Char
  | [] => []
  | [piece] => piece
  | piece :: next :: rest => piece ++ separator ++ join separator (next :: rest)

theorem mem_join {separator piece : List Char} {pieces : List (List Char)} {c : Char} (hpiece : piece ∈ pieces)
    (hc : c ∈ piece) : c ∈ join separator pieces := by
  induction pieces with
  | nil => cases hpiece
  | cons first rest ih =>
    cases rest with
    | nil =>
      rw [List.mem_singleton.1 hpiece] at hc
      exact hc
    | cons next rest =>
      rw [join]
      rcases List.mem_cons.1 hpiece with rfl | hpiece
      · exact List.mem_append_left _ (List.mem_append_left _ hc)
      · exact List.mem_append_right _ (ih hpiece)

def joinWords (words : List String) : String := " ".intercalate words

end WeekGrid.Text
