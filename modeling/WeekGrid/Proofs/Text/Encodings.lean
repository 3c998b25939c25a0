import WeekGrid.Proofs.Text.Utf8

/-!
The texts that bytes stand for. Bytes are either what UTF-8 writes for a string, or they begin so and go on with
something that no character is written as: a continuation byte on its own, a sequence cut short or written longer than
need be, or a number that is no character's. In the second case every byte is one character, whatever the others are.
-/
namespace WeekGrid.Text

def utf8Bytes (s : String) : Bytes := s.toUTF8.data.toList

theorem encodeChar_eq (c : Char) : encodeChar c = String.utf8EncodeChar c := by
  have hlt : c.toNat < 0x110000 := by
    rcases c.valid with h | ⟨-, h⟩
    · exact Nat.lt_trans h (by decide)
    · exact h
  have hval : c.val.toNat = c.toNat := rfl
  simp only [encodeChar, String.utf8EncodeChar, hval, Nat.toUInt8]
  generalize c.toNat = n at hlt
  have hcomm : ∀ k m : Nat, UInt8.ofNat (k + m) = UInt8.ofNat (m + k) := fun k m => by rw [Nat.add_comm]
  by_cases hone : n < 0x80
  · rw [if_pos hone, if_pos (show n ≤ 0x7f by omega)]
  rw [if_neg hone, if_neg (show ¬ n ≤ 0x7f by omega)]
  by_cases htwo : n < 0x800
  · rw [if_pos htwo, if_pos (show n ≤ 0x7ff by omega), hcomm 0xC0, hcomm 0x80,
      Nat.mod_eq_of_lt (show n / 64 < 0x20 by omega)]
  rw [if_neg htwo, if_neg (show ¬ n ≤ 0x7ff by omega)]
  by_cases hthree : n < 0x10000
  · rw [if_pos hthree, if_pos (show n ≤ 0xffff by omega), hcomm 0xE0, hcomm 0x80, hcomm 0x80,
      Nat.mod_eq_of_lt (show n / 4096 < 0x10 by omega)]
  rw [if_neg hthree, if_neg (show ¬ n ≤ 0xffff by omega), hcomm 0xF0, hcomm 0x80, hcomm 0x80, hcomm 0x80,
    Nat.mod_eq_of_lt (show n / 262144 < 0x08 by omega)]

theorem encode_toList (s : String) : encode s.toList = utf8Bytes s := by
  have hencode : encode s.toList = s.toList.flatMap String.utf8EncodeChar :=
    congrArg (s.toList.flatMap ·) (funext encodeChar_eq)
  have hbytes := String.toByteArray_ofList (l := s.toList)
  rw [String.ofList_toList] at hbytes
  rw [hencode, utf8Bytes, String.toUTF8_eq_toByteArray, hbytes, List.utf8Encode, List.toList_data_toByteArray]

theorem isUtf8_iff {bytes : Bytes} : IsUtf8 bytes ↔ ∃ s, utf8Bytes s = bytes := by
  constructor
  · rintro ⟨cs, rfl⟩
    exact ⟨String.ofList cs, by rw [← encode_toList, String.toList_ofList]⟩
  · rintro ⟨s, rfl⟩
    exact ⟨s.toList, (encode_toList s).symm⟩

/-- A lead byte with the continuation bytes that it announces: the least number that so many bytes are meant for, and
the number that they carry. -/
inductive Carries : Bytes → Nat → Nat → Prop where
  | one {a : UInt8} (lead : a.toNat < 0x80) : Carries [a] 0 a.toNat
  | two {a b : UInt8} (lead : 0xC0 ≤ a.toNat ∧ a.toNat < 0xE0) (tail : isContinuation b = true) :
      Carries [a, b] 0x80 ((a.toNat - 0xC0) * 64 + payload b)
  | three {a b d : UInt8} (lead : 0xE0 ≤ a.toNat ∧ a.toNat < 0xF0)
      (tail : isContinuation b = true ∧ isContinuation d = true) :
      Carries [a, b, d] 0x800 (((a.toNat - 0xE0) * 64 + payload b) * 64 + payload d)
  | four {a b d e : UInt8} (lead : 0xF0 ≤ a.toNat ∧ a.toNat < 0xF8)
      (tail : isContinuation b = true ∧ isContinuation d = true ∧ isContinuation e = true) :
      Carries [a, b, d, e] 0x10000 ((((a.toNat - 0xF0) * 64 + payload b) * 64 + payload d) * 64 + payload e)

def announced? (lead : UInt8) : Option Nat :=
  let n := lead.toNat
  if n < 0x80 then some 0 else if n < 0xC0 then none else if n < 0xE0 then some 1
  else if n < 0xF0 then some 2 else if n < 0xF8 then some 3 else none

/-- Bytes at whose front stands no character. -/
inductive IsBroken : Bytes → Prop where
  /-- A continuation byte that continues nothing. -/
  | stray {a : UInt8} {rest : Bytes} (h : isContinuation a = true) : IsBroken (a :: rest)
  /-- A byte that could only lead more than four. -/
  | tooLong {a : UInt8} {rest : Bytes} (h : 0xF8 ≤ a.toNat) : IsBroken (a :: rest)
  /-- Fewer continuation bytes than announced. -/
  | cut {a : UInt8} {tail rest : Bytes} {count : Nat} (lead : announced? a = some count)
      (follow : ∀ b ∈ tail, isContinuation b = true) (short : tail.length < count)
      (stop : ∀ b ∈ rest.head?, isContinuation b = false) : IsBroken (a :: (tail ++ rest))
  /-- A number that fewer bytes are meant for. -/
  | overlong {front rest : Bytes} {least n : Nat} (h : Carries front least n) (low : n < least) :
      IsBroken (front ++ rest)
  /-- The number of a surrogate. -/
  | surrogate {front rest : Bytes} {least n : Nat} (h : Carries front least n) (range : 0xD800 ≤ n ∧ n < 0xE000) :
      IsBroken (front ++ rest)
  /-- A number past the last character. -/
  | beyond {front rest : Bytes} {least n : Nat} (h : Carries front least n) (high : 0x10FFFF < n) :
      IsBroken (front ++ rest)

/-! Which bytes are broken. -/

theorem Carries.exists_cons {front : Bytes} {least n : Nat} (h : Carries front least n) :
    ∃ a tail, front = a :: tail ∧ announced? a = some tail.length ∧ ∀ b ∈ tail, isContinuation b = true := by
  unfold announced?
  cases h with
  | @one a lead => exact ⟨a, [], rfl, by simp [lead], by simp⟩
  | @two a b lead tail =>
    exact ⟨a, [b], rfl, by simp [lead, show ¬ a.toNat < 0x80 by omega, show ¬ a.toNat < 0xC0 by omega], by simp [tail]⟩
  | @three a b d lead tail =>
    refine ⟨a, [b, d], rfl, ?_, by simp [tail]⟩
    simp [lead, show ¬ a.toNat < 0x80 by omega, show ¬ a.toNat < 0xC0 by omega, show ¬ a.toNat < 0xE0 by omega]
  | @four a b d e lead tail =>
    refine ⟨a, [b, d, e], rfl, ?_, by simp [tail]⟩
    simp [lead, show ¬ a.toNat < 0x80 by omega, show ¬ a.toNat < 0xC0 by omega, show ¬ a.toNat < 0xE0 by omega,
      show ¬ a.toNat < 0xF0 by omega]

theorem Carries.unique {front front' rest rest' : Bytes} {least least' n n' : Nat} (h : Carries front least n)
    (h' : Carries front' least' n') (heq : front ++ rest = front' ++ rest') :
    front = front' ∧ least = least' ∧ n = n' := by
  obtain ⟨a, tail, rfl, hlead, -⟩ := h.exists_cons
  obtain ⟨a', tail', rfl, hlead', -⟩ := h'.exists_cons
  obtain ⟨rfl, htail⟩ := List.cons.inj heq
  obtain ⟨rfl, -⟩ := List.append_inj htail (Option.some.inj (hlead.symm.trans hlead'))
  refine ⟨rfl, ?_⟩
  cases h <;> cases h' <;> exact ⟨rfl, rfl⟩

theorem spells_iff_carries {c : Char} {front : Bytes} :
    Spells c front ↔ ∃ least, Carries front least c.toNat ∧ least ≤ c.toNat := by
  constructor
  · intro h
    cases h with
    | one lead number => exact ⟨0, number ▸ .one lead, Nat.zero_le _⟩
    | two lead tail least number => exact ⟨0x80, number ▸ .two lead tail, least⟩
    | three lead tail least number => exact ⟨0x800, number ▸ .three lead tail, least⟩
    | four lead tail least number => exact ⟨0x10000, number ▸ .four lead tail, least⟩
  · rintro ⟨least, h, hleast⟩
    generalize hn : c.toNat = n at h hleast
    cases h with
    | one lead => exact .one lead hn
    | two lead tail => exact .two lead tail (hn ▸ hleast) hn
    | three lead tail => exact .three lead tail (hn ▸ hleast) hn
    | four lead tail => exact .four lead tail (hn ▸ hleast) hn

theorem exists_cons_of_lt_takeWhile {n : Nat} {bytes : Bytes} (h : n < (bytes.takeWhile isContinuation).length) :
    ∃ b rest, bytes = b :: rest ∧ isContinuation b = true ∧ n ≤ (rest.takeWhile isContinuation).length := by
  cases bytes with
  | nil => cases h
  | cons b rest =>
    rw [List.takeWhile_cons] at h
    split at h
    · next hb => exact ⟨b, rest, rfl, hb, Nat.le_of_lt_succ h⟩
    · cases h

theorem exists_carries {a : UInt8} {bytes : Bytes} {count : Nat} (lead : announced? a = some count)
    (h : count ≤ (bytes.takeWhile isContinuation).length) :
    ∃ front rest least n, a :: bytes = front ++ rest ∧ Carries front least n := by
  unfold announced? at lead
  dsimp only at lead
  split at lead
  · next hone => exact ⟨[a], bytes, _, _, rfl, .one hone⟩
  split at lead
  · cases lead
  next hone hcontinues =>
  split at lead
  · next htwo =>
    cases lead
    obtain ⟨b, bs, rfl, hb, -⟩ := exists_cons_of_lt_takeWhile h
    exact ⟨[a, b], bs, _, _, rfl, .two ⟨by omega, htwo⟩ hb⟩
  split at lead
  · next htwo hthree =>
    cases lead
    obtain ⟨b, bs, rfl, hb, h⟩ := exists_cons_of_lt_takeWhile h
    obtain ⟨d, ds, rfl, hd, -⟩ := exists_cons_of_lt_takeWhile h
    exact ⟨[a, b, d], ds, _, _, rfl, .three ⟨by omega, hthree⟩ ⟨hb, hd⟩⟩
  split at lead
  · next htwo hthree hfour =>
    cases lead
    obtain ⟨b, bs, rfl, hb, h⟩ := exists_cons_of_lt_takeWhile h
    obtain ⟨d, ds, rfl, hd, h⟩ := exists_cons_of_lt_takeWhile h
    obtain ⟨e, es, rfl, he, -⟩ := exists_cons_of_lt_takeWhile h
    exact ⟨[a, b, d, e], es, _, _, rfl, .four ⟨by omega, hfour⟩ ⟨hb, hd, he⟩⟩
  · cases lead

theorem announced?_eq_none_iff {a : UInt8} : announced? a = none ↔ isContinuation a = true ∨ 0xF8 ≤ a.toNat := by
  rw [isContinuation_iff, announced?]
  repeat' split
  all_goals simp
  all_goals omega

theorem exists_spells_or_isBroken {bytes : Bytes} (hne : bytes ≠ []) :
    (∃ c front rest, bytes = front ++ rest ∧ Spells c front) ∨ IsBroken bytes := by
  obtain ⟨a, as, rfl⟩ := List.exists_cons_of_ne_nil hne
  cases hlead : announced? a with
  | none =>
    right
    rcases announced?_eq_none_iff.1 hlead with h | h
    · exact .stray h
    · exact .tooLong h
  | some count =>
    by_cases hcount : count ≤ (as.takeWhile isContinuation).length
    · obtain ⟨front, rest, least, n, heq, hcarries⟩ := exists_carries hlead hcount
      rw [heq]
      by_cases hlow : n < least
      · exact .inr (.overlong hcarries hlow)
      by_cases hrange : 0xD800 ≤ n ∧ n < 0xE000
      · exact .inr (.surrogate hcarries hrange)
      by_cases hhigh : 0x10FFFF < n
      · exact .inr (.beyond hcarries hhigh)
      have hvalid : least ≤ n ∧ n.isValidChar := ⟨by omega, by unfold Nat.isValidChar; omega⟩
      obtain ⟨c, hc⟩ : ∃ c, scalar? least n = some c := ⟨_, dif_pos hvalid⟩
      obtain ⟨hleast, hnumber⟩ := scalar?_eq_some_iff.1 hc
      rw [← hnumber] at hcarries hleast
      exact .inl ⟨c, front, rest, rfl, spells_iff_carries.2 ⟨least, hcarries, hleast⟩⟩
    · right
      rw [← List.takeWhile_append_dropWhile (p := isContinuation) (l := as)]
      refine .cut hlead (fun b hb => List.all_eq_true.1 (List.all_takeWhile) b hb) (by omega) fun b hb => ?_
      have hstop := List.head?_dropWhile_not isContinuation as
      rw [Option.mem_def.1 hb] at hstop
      simpa using hstop

theorem IsBroken.ne_nil {bytes : Bytes} (h : IsBroken bytes) : bytes ≠ [] := by
  have hfront : ∀ {front rest : Bytes} {least n : Nat}, Carries front least n → front ++ rest ≠ [] := by
    intro front rest least n h
    obtain ⟨a, tail, rfl, -⟩ := h.exists_cons
    simp
  cases h with
  | stray h => simp
  | tooLong h => simp
  | cut lead follow short stop => simp
  | overlong h low => exact hfront h
  | surrogate h range => exact hfront h
  | beyond h high => exact hfront h

theorem IsBroken.not_spells {bytes front rest : Bytes} (h : IsBroken bytes) (heq : bytes = front ++ rest) (c : Char) :
    ¬ Spells c front := by
  intro hspells
  obtain ⟨least, hspelled, hleast⟩ := spells_iff_carries.1 hspells
  obtain ⟨lead, tail, rfl, hannounced, hfollow⟩ := hspelled.exists_cons
  have hvalid : c.toNat < 0xD800 ∨ 0xDFFF < c.toNat ∧ c.toNat < 0x110000 := c.valid
  cases h with
  | stray h =>
    obtain ⟨rfl, -⟩ := List.cons.inj heq
    rw [announced?_eq_none_iff.2 (.inl h)] at hannounced
    cases hannounced
  | tooLong h =>
    obtain ⟨rfl, -⟩ := List.cons.inj heq
    rw [announced?_eq_none_iff.2 (.inr h)] at hannounced
    cases hannounced
  | cut hlead follow short stop =>
    -- the character would have more continuation bytes than follow
    obtain ⟨rfl, htail⟩ := List.cons.inj heq
    cases hlead.symm.trans hannounced
    rcases List.append_eq_append_iff.1 htail with ⟨left, rfl, rfl⟩ | ⟨left, rfl, rfl⟩
    · cases left with
      | nil => simp at short
      | cons b left =>
        have hstop := stop b (by simp)
        rw [hfollow b (by simp)] at hstop
        cases hstop
    · rw [List.length_append] at short
      omega
  | overlong h low =>
    obtain ⟨-, rfl, rfl⟩ := h.unique hspelled heq
    omega
  | surrogate h range =>
    obtain ⟨-, -, rfl⟩ := h.unique hspelled heq
    omega
  | beyond h high =>
    obtain ⟨-, -, rfl⟩ := h.unique hspelled heq
    omega

/-- Bytes that begin as UTF-8 writes some string and are broken after that. -/
def BreaksOff (bytes : Bytes) : Prop := ∃ s rest, bytes = utf8Bytes s ++ rest ∧ IsBroken rest

theorem breaksOff_iff {bytes : Bytes} : BreaksOff bytes ↔ ¬ IsUtf8 bytes := by
  constructor
  · rintro ⟨s, rest, rfl, hbroken⟩ hall
    obtain ⟨cs, hcs⟩ := IsUtf8.of_append (isUtf8_iff.2 ⟨s, rfl⟩) hall
    cases cs with
    | nil => exact hbroken.ne_nil hcs
    | cons c cs => exact hbroken.not_spells hcs c (spells_encodeChar c)
  · intro h
    induction hn : bytes.length using Nat.strongRecOn generalizing bytes with
    | _ n ih =>
      have hne : bytes ≠ [] := by
        rintro rfl
        exact h ⟨[], rfl⟩
      rcases exists_spells_or_isBroken hne with ⟨c, front, rest, rfl, hspells⟩ | hbroken
      · obtain ⟨a, tail, rfl, -⟩ := hspells.exists_cons
        have hchar : IsUtf8 (a :: tail) := ⟨[c], by rw [spells_iff.1 hspells, encode_cons, encode_nil, List.append_nil]⟩
        have hshort : rest.length < n := by
          rw [← hn, List.length_append, List.length_cons]
          omega
        obtain ⟨s, left, rfl, hbroken⟩ := ih rest.length hshort (fun hrest => h (hchar.append hrest)) rfl
        refine ⟨String.ofList (c :: s.toList), left, ?_, hbroken⟩
        rw [← encode_toList (String.ofList _), String.toList_ofList, encode_cons, ← spells_iff.1 hspells, encode_toList,
          List.append_assoc]
      · exact ⟨"", bytes, rfl, hbroken⟩

/-- The encodings in which the bytes of a page are read; `windows` is code page 1252. -/
inductive Encoding where
  | utf8
  | latin
  | windows
  | ascii
  deriving DecidableEq

namespace Encoding

/-- The characters of code page 1252 in the two rows where it departs from Latin-1, five of them unassigned. -/
def windowsRows : List (Option Char) := [
  some '\u20AC', none, some '\u201A', some '\u0192', some '\u201E', some '\u2026', some '\u2020', some '\u2021',
  some '\u02C6', some '\u2030', some '\u0160', some '\u2039', some '\u0152', none, some '\u017D', none,
  none, some '\u2018', some '\u2019', some '\u201C', some '\u201D', some '\u2022', some '\u2013', some '\u2014',
  some '\u02DC', some '\u2122', some '\u0161', some '\u203A', some '\u0153', none, some '\u017E', some '\u0178']

def windowsChar? (b : UInt8) : Option Char :=
  if 0x80 ≤ b.toNat ∧ b.toNat < 0xA0 then windowsRows[b.toNat - 0x80]?.join else some (latinChar b)

def read? : Encoding → Bytes → Option String
  | utf8, bytes => (decode? bytes).map String.ofList
  | latin, bytes => some (String.ofList (bytes.map latinChar))
  | windows, bytes => (bytes.mapM windowsChar?).map String.ofList
  | ascii, bytes => if bytes.all (·.toNat < 0x80) then some (String.ofList (bytes.map latinChar)) else none

def tried : List Encoding := [utf8, latin, windows, ascii]

-- Latin-1 reads every byte, so the encodings behind it are never reached.
theorem findSome?_read?_tried (bytes : Bytes) : tried.findSome? (·.read? bytes) = some (decodeText bytes) := by
  rw [decodeText]
  cases h : decode? bytes with
  | none => simp [tried, read?, h]
  | some cs => simp [tried, read?, h]

end Encoding

def latinBytes (s : String) : Bytes := s.toList.map fun c => c.toNat.toUInt8

theorem toNat_latinChar (b : UInt8) : (latinChar b).toNat = b.toNat := by
  have hvalid : b.toNat.isValidChar := Or.inl (Nat.lt_trans b.toNat_lt (by decide))
  rw [latinChar, Char.ofNat, dif_pos hvalid]
  rfl

theorem map_toNat_eq_iff {cs : List Char} {bytes : Bytes} :
    cs.map Char.toNat = bytes.map UInt8.toNat ↔ cs = bytes.map latinChar := by
  have hmap : bytes.map UInt8.toNat = (bytes.map latinChar).map Char.toNat := by
    rw [List.map_map]
    exact List.map_congr_left fun b _ => (toNat_latinChar b).symm
  rw [hmap]
  exact List.map_inj_right fun c d h => Char.ext (UInt32.toNat_inj.1 h)

theorem decodeText_utf8Bytes (s : String) : decodeText (utf8Bytes s) = s := by
  rw [← encode_toList, decodeText_encode, String.ofList_toList]

theorem decodeText_eq_iff {bytes : Bytes} {s : String} : decodeText bytes = s ↔
    utf8Bytes s = bytes ∨ BreaksOff bytes ∧ s.toList.map Char.toNat = bytes.map UInt8.toNat := by
  rw [map_toNat_eq_iff, breaksOff_iff]
  constructor
  · rintro rfl
    by_cases hutf8 : IsUtf8 bytes
    · obtain ⟨s, rfl⟩ := isUtf8_iff.1 hutf8
      exact .inl (by rw [decodeText_utf8Bytes])
    · exact .inr ⟨hutf8, by rw [decodeText_of_not_isUtf8 hutf8, String.toList_ofList]⟩
  · rintro (rfl | ⟨hutf8, hlatin⟩)
    · exact decodeText_utf8Bytes s
    · rw [decodeText_of_not_isUtf8 hutf8, ← hlatin, String.ofList_toList]

/-- One of the encodings that are tried always reads the bytes. The text is the string for which UTF-8 writes them; if
there is none, the bytes break off somewhere, and each of them is a character. So reading undoes writing in UTF-8, and
writing with one byte for each character wherever that is not well-formed UTF-8 as well. -/
theorem decodeText_outcome :
    (∀ bytes, Encoding.tried.findSome? (·.read? bytes) = some (decodeText bytes) ∧
      (BreaksOff bytes ↔ ∀ s, utf8Bytes s ≠ bytes) ∧
      ∀ s, decodeText bytes = s ↔
        utf8Bytes s = bytes ∨ BreaksOff bytes ∧ s.toList.map Char.toNat = bytes.map UInt8.toNat) ∧
    (∀ s, decodeText (utf8Bytes s) = s) ∧
    (∀ s : String, (∀ c ∈ s.toList, c.toNat < 256) → BreaksOff (latinBytes s) → decodeText (latinBytes s) = s) := by
  refine ⟨fun bytes => ⟨Encoding.findSome?_read?_tried bytes, ?_, fun s => decodeText_eq_iff⟩, decodeText_utf8Bytes,
    fun s hlow hbreaks => ?_⟩
  · rw [breaksOff_iff, isUtf8_iff, not_exists]
  · refine decodeText_eq_iff.2 (.inr ⟨hbreaks, ?_⟩)
    rw [latinBytes, List.map_map]
    exact List.map_congr_left fun c hc => (toNat_toUInt8 (hlow c hc)).symm

theorem accented_read : (∀ c ∈ "é".toList, c.toNat < 256) ∧ BreaksOff (latinBytes "é") ∧
    decodeText (latinBytes "é") = "é" := by
  have hlow : ∀ c ∈ "é".toList, c.toNat < 256 := by
    have hletter : "é".toList = ['é'] := by decide
    rw [hletter, List.forall_mem_singleton]
    decide
  have hcut : IsBroken (0xE9 :: ([] ++ [])) :=
    .cut (show announced? 0xE9 = some 2 by decide) (by simp) (by decide) (by simp)
  have hbreaks : BreaksOff (latinBytes "é") := ⟨"", [0xE9], by decide, hcut⟩
  exact ⟨hlow, hbreaks, decodeText_outcome.2.2 "é" hlow hbreaks⟩

end WeekGrid.Text
