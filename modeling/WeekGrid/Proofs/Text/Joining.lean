import WeekGrid.Text.Blank
import WeekGrid.Text.Cut

/-!
Reading back what was joined. A text is cut where the separator stands first. Splitting gives back the pieces that
were joined if no piece has the separator in it or begins one that runs over its end; cutting into words gives back
words. Blanks at the ends of a text make no difference to its words, which are the pieces between its white space that
are not empty.
-/
namespace WeekGrid.Text

section Cutting

variable {separator cs before after front back : List Char}

/-- A text is cut where the separator stands first. -/
structure CutsAt (separator cs before after : List Char) : Prop where
  eq : cs = before ++ separator ++ after
  first : ∀ front back, cs = front ++ separator ++ back → before.length ≤ front.length

theorem CutsAt.unique (h : CutsAt separator cs before after) (h' : CutsAt separator cs front back) :
    before = front ∧ after = back := by
  have hlength := Nat.le_antisymm (h.first front back h'.eq) (h'.first before after h.eq)
  have heq := h.eq.symm.trans h'.eq
  rw [List.append_assoc, List.append_assoc] at heq
  obtain ⟨hfront, hrest⟩ := List.append_inj heq hlength
  exact ⟨hfront, List.append_cancel_left hrest⟩

theorem cutsAt_of_cut? (h : cut? separator cs = some (before, after)) : CutsAt separator cs before after := by
  refine ⟨cut?_eq_some h, ?_⟩
  induction cs generalizing before with
  | nil => cases h
  | cons c cs ih =>
    intro front back heq
    rw [cut?] at h
    split at h
    · cases h
      exact Nat.zero_le _
    · next hfront =>
      obtain ⟨⟨more, rest⟩, hmore, hpair⟩ := Option.map_eq_some_iff.1 h
      cases hpair
      cases front with
      | nil =>
        rw [List.nil_append] at heq
        exact absurd (List.isPrefixOf_iff_prefix.2 ⟨back, heq.symm⟩) hfront
      | cons d front => exact Nat.succ_le_succ (ih hmore front back (List.cons.inj heq).2)

theorem cut?_eq_none_iff (hseparator : separator ≠ []) : cut? separator cs = none ↔ ¬ separator <:+: cs := by
  induction cs with
  | nil => exact iff_of_true rfl fun h => hseparator (List.infix_nil.1 h)
  | cons c cs ih =>
    rw [cut?, List.infix_cons_iff, not_or, ← ih, ← List.isPrefixOf_iff_prefix]
    split
    · next hfront => simp [hfront]
    · next hfront => simp [hfront]

theorem cut?_eq_some_iff (hseparator : separator ≠ []) :
    cut? separator cs = some (before, after) ↔ CutsAt separator cs before after := by
  constructor
  · exact cutsAt_of_cut?
  · intro h
    cases hcut : cut? separator cs with
    | none => exact absurd ⟨before, after, h.eq.symm⟩ ((cut?_eq_none_iff hseparator).1 hcut)
    | some pair =>
      obtain ⟨hbefore, hafter⟩ := h.unique (cutsAt_of_cut? hcut)
      rw [hbefore, hafter]

/-- A piece without the separator in it ends where the separator follows, unless a separator begins in it and runs
over its end. -/
theorem cutsAt_append {piece : List Char} (hinside : ¬ separator <:+: piece)
    (hborder : ∀ head tail, separator = head ++ tail → head ≠ [] → tail ≠ [] → tail <+: separator → ¬ head <:+ piece)
    (rest : List Char) : CutsAt separator (piece ++ separator ++ rest) piece rest := by
  refine ⟨rfl, fun front back heq => Nat.le_of_not_lt fun hlt => ?_⟩
  rw [List.append_assoc, List.append_assoc, List.append_eq_append_iff] at heq
  obtain ⟨gap, rfl, -⟩ | ⟨gap, rfl, hgap⟩ := heq
  · rw [List.length_append] at hlt
    omega
  · have hne : gap ≠ [] := by
      rintro rfl
      simp at hlt
    obtain ⟨more, rfl, -⟩ | ⟨tail, hseparator, hrest⟩ := List.append_eq_append_iff.1 hgap
    · exact hinside ⟨front, more, List.append_assoc ..⟩
    · -- The other separator begins in the piece and ends behind it.
      have htail : tail ≠ [] := by
        rintro rfl
        rw [List.append_nil] at hseparator
        exact hinside ⟨front, [], by simp [hseparator]⟩
      have hfront : tail <+: separator := by
        have hlength : tail.length ≤ separator.length := by
          rw [hseparator, List.length_append]
          exact Nat.le_add_left _ _
        exact List.prefix_of_prefix_length_le ⟨back, hrest.symm⟩ (List.prefix_append separator rest) hlength
      exact hborder gap tail hseparator hne htail hfront (List.suffix_append front gap)

theorem pieces_eq_drop (pass : Nat) (cs : List Char) : pieces separator pass cs = split separator (cs.drop pass) := by
  induction pass generalizing cs with
  | zero => rfl
  | succ pass ih =>
    cases cs with
    | nil => rfl
    | cons c cs => exact ih cs

theorem split_of_cut?_eq_none (h : cut? separator cs = none) : split separator cs = [cs] := by
  induction cs with
  | nil => rfl
  | cons c cs ih =>
    rw [cut?] at h
    split at h
    · cases h
    · next hfront =>
      have hrest := ih (Option.map_eq_none_iff.1 h)
      rw [split] at hrest ⊢
      rw [pieces, if_neg hfront, hrest]
      rfl

theorem split_of_cutsAt (hseparator : separator ≠ []) (h : CutsAt separator cs before after) :
    split separator cs = before :: split separator after := by
  have hcut := (cut?_eq_some_iff hseparator).2 h
  clear h
  induction cs generalizing before with
  | nil => cases hcut
  | cons c cs ih =>
    rw [cut?] at hcut
    split at hcut
    · next hfront =>
      cases hcut
      rw [split, pieces, if_pos hfront, pieces_eq_drop]
      cases separator with
      | nil => exact absurd rfl hseparator
      | cons s separator => rfl
    · next hfront =>
      obtain ⟨⟨more, rest⟩, hmore, hpair⟩ := Option.map_eq_some_iff.1 hcut
      cases hpair
      have hrest := ih hmore
      rw [split] at hrest ⊢
      rw [pieces, if_neg hfront, hrest]
      rfl

theorem split_join {pieces : List (List Char)} (hseparator : separator ≠ []) (hne : pieces ≠ [])
    (hinside : ∀ piece ∈ pieces, ¬ separator <:+: piece)
    (hborder : ∀ piece ∈ pieces.dropLast, ∀ rest, CutsAt separator (piece ++ separator ++ rest) piece rest) :
    split separator (join separator pieces) = pieces := by
  induction pieces with
  | nil => exact absurd rfl hne
  | cons piece pieces ih =>
    cases pieces with
    | nil => exact split_of_cut?_eq_none ((cut?_eq_none_iff hseparator).2 (hinside piece List.mem_cons_self))
    | cons next pieces =>
      rw [List.dropLast_cons_cons, List.forall_mem_cons] at hborder
      rw [join, split_of_cutsAt hseparator (hborder.1 _),
        ih (List.cons_ne_nil _ _) (List.forall_mem_cons.1 hinside).2 hborder.2]

theorem infix_of_infix_append {s : Char} {piece : List Char} (hs : s ∉ piece) (h : s :: separator <:+: piece ++ cs) :
    s :: separator <:+: cs := by
  induction piece with
  | nil => exact h
  | cons c piece ih =>
    rw [List.mem_cons, not_or] at hs
    rcases List.infix_cons_iff.1 h with hfront | hrest
    · exact absurd (List.cons_prefix_cons.1 hfront).1 hs.1
    · exact ih hs.2 hrest

theorem head?_join {piece : List Char} (h : piece ≠ []) (pieces : List (List Char)) :
    (join separator (piece :: pieces)).head? = piece.head? := by
  obtain ⟨c, piece, rfl⟩ := List.exists_cons_of_ne_nil h
  cases pieces <;> rfl

/-- Where no piece has the character in it that stands between them, this is followed by the first character of a
piece. -/
theorem not_infix_join {s c : Char} {pieces : List (List Char)} (h : ∀ piece ∈ pieces, piece ≠ [] ∧ s ∉ piece)
    (hhead : ∀ piece ∈ pieces.tail, piece.head? ≠ some c) : ¬ [s, c] <:+: join [s] pieces := by
  induction pieces with
  | nil => exact fun hoccurs => List.cons_ne_nil _ _ (List.infix_nil.1 hoccurs)
  | cons piece pieces ih =>
    obtain ⟨⟨-, hs⟩, hpieces⟩ := List.forall_mem_cons.1 h
    cases pieces with
    | nil => exact fun hoccurs => hs (hoccurs.subset List.mem_cons_self)
    | cons next pieces =>
      obtain ⟨hnext, hmore⟩ := List.forall_mem_cons.1 hhead
      rw [join, List.append_assoc]
      intro hoccurs
      rcases List.infix_cons_iff.1 (infix_of_infix_append hs hoccurs) with hfront | hrest
      · obtain ⟨rest, hrest⟩ : [c] <+: join [s] (next :: pieces) := (List.cons_prefix_cons.1 hfront).2
        have hfirst : (join [s] (next :: pieces)).head? = next.head? :=
          head?_join (hpieces next List.mem_cons_self).1 pieces
        rw [← hrest] at hfirst
        exact hnext hfirst.symm
      · exact ih hpieces hmore hrest

end Cutting

section Words

variable {cs w : List Char} {b : Char}

theorem wordsFrom_append_blank (hb : isBlank b = true) (cs more word : List Char) :
    wordsFrom (cs ++ b :: more) word = wordsFrom cs word ++ words more := by
  induction cs generalizing word with
  | nil => cases word <;> simp [wordsFrom, words, hb]
  | cons c cs ih =>
    rw [List.cons_append, wordsFrom, wordsFrom]
    split
    · split
      · exact ih []
      · rw [ih [], List.cons_append]
    · exact ih (word ++ [c])

theorem words_append_blank (hb : isBlank b = true) (cs more : List Char) :
    words (cs ++ b :: more) = words cs ++ words more := wordsFrom_append_blank hb cs more []

theorem words_of_not_blank (hne : w ≠ []) (hw : ∀ c ∈ w, isBlank c = false) : words w = [w] := by
  have hfrom : ∀ word, word ++ w ≠ [] → wordsFrom w word = [word ++ w] := by
    clear hne
    induction w with
    | nil =>
      intro word hword
      rw [List.append_nil] at hword ⊢
      cases word with
      | nil => exact absurd rfl hword
      | cons c word => rfl
    | cons c w ih =>
      intro word _
      obtain ⟨hc, hw⟩ := List.forall_mem_cons.1 hw
      rw [wordsFrom, hc, if_neg Bool.false_ne_true, ih hw _ (by simp), List.append_assoc, List.singleton_append]
  exact hfrom [] hne

theorem words_join {ws : List (List Char)} (h : ∀ w ∈ ws, w ≠ [] ∧ ∀ c ∈ w, isBlank c = false) :
    words (join [' '] ws) = ws := by
  induction ws with
  | nil => rfl
  | cons w ws ih =>
    obtain ⟨⟨hne, hw⟩, hws⟩ := List.forall_mem_cons.1 h
    cases ws with
    | nil => exact words_of_not_blank hne hw
    | cons next ws =>
      rw [join, List.append_assoc, List.singleton_append, words_append_blank (by decide), words_of_not_blank hne hw,
        ih hws, List.singleton_append]

theorem words_append_of_blank {blanks : List Char} (h : ∀ c ∈ blanks, isBlank c = true) :
    words (cs ++ blanks) = words cs := by
  cases blanks with
  | nil => rw [List.append_nil]
  | cons b blanks =>
    obtain ⟨hb, hblanks⟩ := List.forall_mem_cons.1 h
    rw [words_append_blank hb, words_eq_nil_iff.2 hblanks, List.append_nil]

theorem words_dropWhile (cs : List Char) : words (cs.dropWhile isBlank) = words cs := by
  induction cs with
  | nil => rfl
  | cons c cs ih =>
    cases hc : isBlank c with
    | false => rw [List.dropWhile_cons_of_neg (by simp [hc])]
    | true =>
      rw [List.dropWhile_cons_of_pos hc, ih]
      exact (words_append_blank hc [] cs).symm

theorem words_strip (cs : List Char) : words (strip cs) = words cs := by
  rw [← words_dropWhile cs, strip]
  generalize cs.dropWhile isBlank = front
  have hback : front = (front.reverse.dropWhile isBlank).reverse ++ (front.reverse.takeWhile isBlank).reverse := by
    rw [← List.reverse_append, List.takeWhile_append_dropWhile, List.reverse_reverse]
  have hblank : ∀ c ∈ (front.reverse.takeWhile isBlank).reverse, isBlank c = true := fun c hc =>
    List.all_eq_true.1 List.all_takeWhile c (List.mem_reverse.1 hc)
  conv => rhs; rw [hback, words_append_of_blank hblank]

theorem strip_cons_blank (hb : isBlank b = true) (cs : List Char) : strip (b :: cs) = strip cs := by
  rw [strip, List.dropWhile_cons_of_pos hb, strip]

theorem strip_of_blank (h : ∀ c ∈ cs, isBlank c = true) : strip cs = [] := by
  induction cs with
  | nil => rfl
  | cons c cs ih =>
    obtain ⟨hc, hcs⟩ := List.forall_mem_cons.1 h
    rw [strip_cons_blank hc, ih hcs]

end Words

section Pieces

/-- The white-space characters of Unicode, with the separators among the control characters. -/
def whiteSpace : List Nat :=
  [0x09, 0x0A, 0x0B, 0x0C, 0x0D, 0x1C, 0x1D, 0x1E, 0x1F, 0x20, 0x85, 0xA0, 0x1680, 0x2000, 0x2001, 0x2002, 0x2003,
    0x2004, 0x2005, 0x2006, 0x2007, 0x2008, 0x2009, 0x200A, 0x2028, 0x2029, 0x202F, 0x205F, 0x3000]

theorem isBlank_eq (c : Char) : isBlank c = decide (c.toNat ∈ whiteSpace) := by
  rw [Bool.eq_iff_iff, decide_eq_true_iff]
  generalize hn : c.toNat = n
  simp only [isBlank, hn, whiteSpace, Bool.or_eq_true, Bool.and_eq_true, decide_eq_true_eq, beq_iff_eq,
    List.mem_cons, List.not_mem_nil, or_false]
  omega

def spaced (cs : List Char) : List (List Char) :=
  (cs.splitOnP fun c => c.toNat ∈ whiteSpace).filter (· ≠ [])

theorem wordsFrom_eq (cs word : List Char) :
    wordsFrom cs word = ((cs.splitOnP isBlank).modifyHead (word ++ ·)).filter (· ≠ []) := by
  induction cs generalizing word with
  | nil => cases word <;> simp [wordsFrom, List.splitOnP_nil]
  | cons c cs ih =>
    rw [wordsFrom, List.splitOnP_cons_eq_if_modifyHead]
    split
    · have hrest : wordsFrom cs [] = (cs.splitOnP isBlank).filter (· ≠ []) := by
        rw [ih]
        cases cs.splitOnP isBlank <;> rfl
      split
      · next hword => simp [hword, hrest]
      · next hword => simp [hword, hrest]
    · rw [ih, List.modifyHead_modifyHead]
      simp [Function.comp_def]

theorem words_eq_spaced (cs : List Char) : words cs = spaced cs := by
  have hblank : isBlank = fun c => decide (c.toNat ∈ whiteSpace) := funext isBlank_eq
  rw [words, wordsFrom_eq, spaced, hblank]
  cases cs.splitOnP fun c => decide (c.toNat ∈ whiteSpace) <;> rfl

theorem join_eq_intercalate (separator : List Char) (pieces : List (List Char)) :
    join separator pieces = separator.intercalate pieces := by
  induction pieces with
  | nil => rfl
  | cons piece pieces ih =>
    cases pieces with
    | nil => simp [join, List.intercalate]
    | cons next pieces => rw [join, ih, List.intercalate_cons_cons]

end Pieces

end WeekGrid.Text
