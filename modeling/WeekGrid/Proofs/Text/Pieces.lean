import Mathlib.Algebra.Order.BigOperators.Group.List
import Mathlib.Algebra.Order.Group.Nat
import WeekGrid.Proofs.Text.Utf8

/-!
Strings in pieces. Each piece is read on its own, as UTF-8 if it is well formed and one character a byte otherwise, so
the texts of the pieces make the text of the whole only if the pieces are read as the whole is. Lengths show it: a text
has one character for each lead byte in the one case, and one for every byte in the other.
-/
namespace WeekGrid.Text

/-- How many bytes continue nothing. -/
def leads (bytes : Bytes) : Nat := bytes.countP fun b => !isContinuation b

@[simp] theorem leads_append (bytes more : Bytes) : leads (bytes ++ more) = leads bytes + leads more :=
  List.countP_append

theorem leads_le_length (bytes : Bytes) : leads bytes ≤ bytes.length := List.countP_le_length

theorem leads_eq_length_iff {bytes : Bytes} :
    leads bytes = bytes.length ↔ ∀ b ∈ bytes, isContinuation b = false := by
  simp [leads, List.countP_eq_length]

theorem leads_encode (cs : List Char) : leads (encode cs) = cs.length := by
  induction cs with
  | nil => rfl
  | cons c cs ih =>
    obtain ⟨lead, tail, hfront, hlead, htail, -⟩ := (spells_encodeChar c).exists_cons
    have hnone : leads tail = 0 := List.countP_eq_zero.2 (by simpa using htail)
    have hone : leads (encodeChar c) = leads tail + 1 := by
      rw [hfront, leads, List.countP_cons_of_pos (by simp [hlead])]
      rfl
    rw [encode_cons, leads_append, ih, hone, hnone, List.length_cons]
    omega

theorem encode_of_no_continuation {cs : List Char} (h : ∀ b ∈ encode cs, isContinuation b = false) :
    cs = (encode cs).map latinChar ∧ ∀ b ∈ encode cs, b < 0x80 := by
  induction cs with
  | nil => simp
  | cons c cs ih =>
    obtain ⟨lead, tail, hfront, -, htail, hascii⟩ := (spells_encodeChar c).exists_cons
    rw [encode_cons, hfront] at h ⊢
    have hnone : tail = [] := by
      refine List.eq_nil_iff_forall_not_mem.2 fun b hb => ?_
      have hfalse := h b (by simp [hb])
      rw [htail b hb] at hfalse
      cases hfalse
    obtain ⟨hlow, hlatin⟩ := hascii hnone
    obtain ⟨hrest, hlows⟩ := ih fun b hb => h b (by simp [hb])
    subst hnone
    exact ⟨by simp [← hlatin, ← hrest], by simpa [hlow] using hlows⟩

/-- Well-formed bytes are cut between two characters where no continuation byte stands before the cut, and none right
behind it. -/
theorem isUtf8_of_no_continuation {bytes more : Bytes} (hall : IsUtf8 (bytes ++ more))
    (hbytes : ∀ b ∈ bytes, isContinuation b = false) (hmore : ∀ b ∈ more.head?, isContinuation b = false) :
    IsUtf8 bytes := by
  obtain ⟨cs, hcs⟩ := hall
  induction cs generalizing bytes with
  | nil => exact ⟨[], (List.append_eq_nil_iff.1 hcs).1⟩
  | cons c cs ih =>
    cases bytes with
    | nil => exact ⟨[], rfl⟩
    | cons a bytes =>
      obtain ⟨lead, tail, hfront, -, htail, -⟩ := (spells_encodeChar c).exists_cons
      rw [encode_cons, hfront] at hcs
      obtain ⟨rfl, hrest⟩ := List.cons.inj hcs
      cases tail with
      | nil =>
        obtain ⟨ds, rfl⟩ := ih (fun b hb => hbytes b (List.mem_cons_of_mem _ hb)) hrest
        exact ⟨c :: ds, by rw [encode_cons, hfront]; rfl⟩
      | cons b tail =>
        have hb := htail b List.mem_cons_self
        cases bytes with
        | nil =>
          have hmoreEq : more = b :: (tail ++ encode cs) := hrest
          rw [hmore b (by simp [hmoreEq])] at hb
          cases hb
        | cons d bytes =>
          obtain ⟨rfl, -⟩ := List.cons.inj hrest
          rw [hbytes d (by simp)] at hb
          cases hb

/-- Pieces that are all well formed, or pieces of bytes that are not and where only ASCII is well formed. -/
inductive CutsCleanly (pieces : List Bytes) : Prop where
  | betweenCharacters (h : ∀ piece ∈ pieces, IsUtf8 piece)
  | betweenBytes (hall : ¬ IsUtf8 pieces.flatten) (h : ∀ piece ∈ pieces, IsUtf8 piece → ∀ b ∈ piece, b < 0x80)

section Pieces

variable {pieces : List Bytes}

theorem isUtf8_flatten (h : ∀ piece ∈ pieces, IsUtf8 piece) : IsUtf8 pieces.flatten := by
  induction pieces with
  | nil => exact ⟨[], rfl⟩
  | cons piece pieces ih =>
    obtain ⟨hpiece, hpieces⟩ := List.forall_mem_cons.1 h
    exact hpiece.append (ih hpieces)

theorem isUtf8_of_flatten (hall : IsUtf8 pieces.flatten)
    (h : ∀ piece ∈ pieces, ¬ IsUtf8 piece → ∀ b ∈ piece, isContinuation b = false) :
    ∀ piece ∈ pieces, IsUtf8 piece := by
  induction pieces with
  | nil => simp
  | cons piece pieces ih =>
    obtain ⟨hpiece, hpieces⟩ := List.forall_mem_cons.1 h
    rw [List.flatten_cons] at hall
    have hhead : ∀ b ∈ pieces.flatten.head?, isContinuation b = false := by
      intro b hb
      rw [List.head?_flatten] at hb
      obtain ⟨next, hnext, hb⟩ := List.exists_of_findSome?_eq_some hb
      by_cases hutf8 : IsUtf8 next
      · exact hutf8.head b hb
      · exact hpieces next hnext hutf8 b (List.mem_of_mem_head? hb)
    have hfirst : IsUtf8 piece := by
      by_contra hnot
      exact hnot (isUtf8_of_no_continuation hall (hpiece hnot) hhead)
    exact List.forall_mem_cons.2 ⟨hfirst, ih (hfirst.of_append hall) hpieces⟩

theorem length_decodeText (bytes : Bytes) : (IsUtf8 bytes → (decodeText bytes).length = leads bytes) ∧
    (¬ IsUtf8 bytes → (decodeText bytes).length = bytes.length) := by
  constructor
  · rintro ⟨cs, rfl⟩
    rw [decodeText_encode, leads_encode]
    simp
  · intro h
    simp [decodeText_of_not_isUtf8 h]

theorem length_eq_of_flatMap {α β γ : Type} {items : List α} {f : α → List β} {g : α → List γ}
    (hle : ∀ item ∈ items, (f item).length ≤ (g item).length)
    (h : (items.flatMap f).length = (items.flatMap g).length) :
    ∀ item ∈ items, (f item).length = (g item).length := by
  intro item hitem
  by_contra hne
  have hlt := List.sum_lt_sum (fun item => (f item).length) (fun item => (g item).length) hle
    ⟨item, hitem, Nat.lt_of_le_of_ne (hle item hitem) hne⟩
  rw [List.length_flatMap, List.length_flatMap] at h
  exact Nat.ne_of_lt hlt h

theorem leads_flatten (pieces : List Bytes) :
    leads pieces.flatten = (pieces.flatMap fun piece => piece.filter (!isContinuation ·)).length := by
  rw [leads, List.countP_eq_length_filter, List.filter_flatten, List.flatMap_def]

theorem length_join_decodeText (pieces : List Bytes) : (String.join (pieces.map decodeText)).length =
    (pieces.flatMap fun piece => (decodeText piece).toList).length := by
  rw [← String.length_toList, String.toList_join, List.flatMap_map]

theorem isUtf8_of_join_eq (h : String.join (pieces.map decodeText) = decodeText pieces.flatten)
    (hall : IsUtf8 pieces.flatten) : ∀ piece ∈ pieces, IsUtf8 piece := by
  have hle : ∀ piece ∈ pieces, (piece.filter (!isContinuation ·)).length ≤ (decodeText piece).toList.length := by
    intro piece _
    rw [← List.countP_eq_length_filter, String.length_toList]
    by_cases hpiece : IsUtf8 piece
    · exact Nat.le_of_eq ((length_decodeText piece).1 hpiece).symm
    · rw [(length_decodeText piece).2 hpiece]
      exact leads_le_length piece
  -- The lengths agree as sums, so they agree piece by piece; a piece that is no UTF-8 has a character for each byte.
  have hsum := congrArg String.length h
  rw [length_join_decodeText, (length_decodeText _).1 hall, leads_flatten] at hsum
  refine isUtf8_of_flatten hall fun piece hpiece hnot => leads_eq_length_iff.1 ?_
  have hlength := length_eq_of_flatMap hle hsum.symm piece hpiece
  rwa [← List.countP_eq_length_filter, String.length_toList, (length_decodeText piece).2 hnot] at hlength

theorem ascii_of_join_eq (h : String.join (pieces.map decodeText) = decodeText pieces.flatten)
    (hall : ¬ IsUtf8 pieces.flatten) : ∀ piece ∈ pieces, IsUtf8 piece → ∀ b ∈ piece, b < 0x80 := by
  have hle : ∀ piece ∈ pieces, (decodeText piece).toList.length ≤ (id piece).length := by
    intro piece _
    rw [String.length_toList]
    by_cases hpiece : IsUtf8 piece
    · rw [(length_decodeText piece).1 hpiece]
      exact leads_le_length piece
    · exact Nat.le_of_eq ((length_decodeText piece).2 hpiece)
  have hsum := congrArg String.length h
  rw [length_join_decodeText, (length_decodeText _).2 hall, ← List.flatMap_id] at hsum
  rintro piece hpiece ⟨cs, rfl⟩
  refine (encode_of_no_continuation (leads_eq_length_iff.1 ?_)).2
  rw [← (length_decodeText _).1 ⟨cs, rfl⟩, ← String.length_toList]
  exact length_eq_of_flatMap hle hsum _ hpiece

theorem CutsCleanly.join_eq (h : CutsCleanly pieces) :
    String.join (pieces.map decodeText) = decodeText pieces.flatten := by
  cases h with
  | betweenCharacters h =>
    induction pieces with
    | nil => rfl
    | cons piece pieces ih =>
      obtain ⟨⟨cs, rfl⟩, hpieces⟩ := List.forall_mem_cons.1 h
      obtain ⟨ds, hds⟩ := isUtf8_flatten hpieces
      rw [List.map_cons, String.join_cons, ih hpieces, List.flatten_cons, hds, ← encode_append, decodeText_encode,
        decodeText_encode, decodeText_encode, String.ofList_append]
  | betweenBytes hall h =>
    have hlatin : ∀ piece ∈ pieces, (decodeText piece).toList = piece.map latinChar := by
      intro piece hpiece
      by_cases hutf8 : IsUtf8 piece
      · have hnone : ∀ b ∈ piece, isContinuation b = false := by
          intro b hb
          have hlow := UInt8.lt_iff_toNat_lt.1 (h piece hpiece hutf8 b hb)
          rw [Bool.eq_false_iff, ne_eq, isContinuation_iff]
          exact fun hrange => Nat.lt_irrefl _ (Nat.lt_of_lt_of_le hlow hrange.1)
        obtain ⟨cs, rfl⟩ := hutf8
        rw [decodeText_encode, ← (encode_of_no_continuation hnone).1, String.toList_ofList]
      · rw [decodeText_of_not_isUtf8 hutf8]
        simp
    rw [decodeText_of_not_isUtf8 hall, ← String.toList_inj, String.toList_join, String.toList_ofList,
      List.flatMap_map, List.map_flatten, List.flatMap_def, List.map_congr_left hlatin]

/-- Pieces of a string that are read one by one have the text of the whole exactly if the string is cut cleanly. -/
theorem join_decodeText_eq_iff (pieces : List Bytes) :
    String.join (pieces.map decodeText) = decodeText pieces.flatten ↔ CutsCleanly pieces := by
  constructor
  · intro h
    by_cases hall : IsUtf8 pieces.flatten
    · exact .betweenCharacters (isUtf8_of_join_eq h hall)
    · exact .betweenBytes hall (ascii_of_join_eq h hall)
  · exact CutsCleanly.join_eq

end Pieces

end WeekGrid.Text
