import WeekGrid.Text.Utf8

/-!
UTF-8, reading and writing. A character is spelled in one way; reading takes the spellings of characters off the front,
one by one, and so it is the inverse of writing. A spelling begins with a byte that continues nothing and goes on with
continuation bytes.
-/
namespace WeekGrid.Text

/-- The bytes that spell a character: one byte of ASCII, or a lead byte with one, two or three continuation bytes, as
few as the character needs. -/
inductive Spells (c : Char) : Bytes → Prop where
  | one {a : UInt8} (lead : a.toNat < 0x80) (number : c.toNat = a.toNat) : Spells c [a]
  | two {a b : UInt8} (lead : 0xC0 ≤ a.toNat ∧ a.toNat < 0xE0) (tail : isContinuation b = true)
      (least : 0x80 ≤ c.toNat) (number : c.toNat = (a.toNat - 0xC0) * 64 + payload b) : Spells c [a, b]
  | three {a b d : UInt8} (lead : 0xE0 ≤ a.toNat ∧ a.toNat < 0xF0)
      (tail : isContinuation b = true ∧ isContinuation d = true) (least : 0x800 ≤ c.toNat)
      (number : c.toNat = ((a.toNat - 0xE0) * 64 + payload b) * 64 + payload d) : Spells c [a, b, d]
  | four {a b d e : UInt8} (lead : 0xF0 ≤ a.toNat ∧ a.toNat < 0xF8)
      (tail : isContinuation b = true ∧ isContinuation d = true ∧ isContinuation e = true) (least : 0x10000 ≤ c.toNat)
      (number : c.toNat = (((a.toNat - 0xF0) * 64 + payload b) * 64 + payload d) * 64 + payload e) :
      Spells c [a, b, d, e]

theorem scalar?_eq_some_iff {least n : Nat} {c : Char} : scalar? least n = some c ↔ least ≤ n ∧ c.toNat = n := by
  unfold scalar?
  constructor
  · intro h
    split at h
    · next hvalid =>
      cases h
      have hlt : n < 2 ^ 32 := by
        rcases hvalid.2 with hlow | ⟨-, hhigh⟩ <;> omega
      exact ⟨hvalid.1, UInt32.toNat_ofNat_of_lt' hlt⟩
    · cases h
  · rintro ⟨hle, rfl⟩
    rw [dif_pos ⟨hle, c.valid⟩]
    exact congrArg some (Char.ext (UInt32.ofNat_toNat ..))

theorem Spells.decode?_append {c : Char} {front : Bytes} (h : Spells c front) (rest : Bytes) :
    decode? (front ++ rest) = (decode? rest).map (c :: ·) := by
  have hmap : (do let cs ← decode? rest; return c :: cs) = (decode? rest).map (c :: ·) := by
    cases decode? rest <;> rfl
  rw [← hmap, decode?.eq_def]
  cases h with
  | @one a lead number =>
    have hscalar := scalar?_eq_some_iff.2 ⟨Nat.zero_le _, number⟩
    simp [UInt8.lt_iff_toNat_lt, lead, hscalar]
  | @two a b lead tail least number =>
    have hscalar := scalar?_eq_some_iff.2 ⟨number ▸ least, number⟩
    have hlow : ¬ a.toNat < 0x80 := by omega
    simp [UInt8.lt_iff_toNat_lt, UInt8.le_iff_toNat_le, hlow, lead, tail, hscalar]
  | @three a b d lead tail least number =>
    have hscalar := scalar?_eq_some_iff.2 ⟨number ▸ least, number⟩
    have hlow : ¬ a.toNat < 0x80 := by omega
    have htwo : ¬ a.toNat < 0xE0 := by omega
    simp [UInt8.lt_iff_toNat_lt, UInt8.le_iff_toNat_le, hlow, htwo, lead, tail, hscalar]
  | @four a b d e lead tail least number =>
    have hscalar := scalar?_eq_some_iff.2 ⟨number ▸ least, number⟩
    have hlow : ¬ a.toNat < 0x80 := by omega
    have htwo : ¬ a.toNat < 0xE0 := by omega
    have hthree : ¬ a.toNat < 0xF0 := by omega
    simp [UInt8.lt_iff_toNat_lt, UInt8.le_iff_toNat_le, hlow, htwo, hthree, lead, tail, hscalar]

theorem exists_spells_of_decode? {bytes : Bytes} {c : Char} {cs : List Char} (h : decode? bytes = some (c :: cs)) :
    ∃ front rest, bytes = front ++ rest ∧ Spells c front ∧ decode? rest = some cs := by
  have hfirst : ∀ {least n : Nat} {rest : Bytes},
      (do let c ← scalar? least n; let cs ← decode? rest; return c :: cs) = some (c :: cs) →
        (least ≤ c.toNat ∧ c.toNat = n) ∧ decode? rest = some cs := by
    intro least n rest hsome
    obtain ⟨d, hd, hsome⟩ := Option.bind_eq_some_iff.1 hsome
    obtain ⟨ds, hds, hsome⟩ := Option.bind_eq_some_iff.1 hsome
    cases hsome
    obtain ⟨hleast, hnumber⟩ := scalar?_eq_some_iff.1 hd
    exact ⟨⟨hnumber ▸ hleast, hnumber⟩, hds⟩
  unfold decode? at h
  split at h
  · cases h
  next a as =>
  split at h
  · next hlow =>
    obtain ⟨⟨-, hnumber⟩, hrest⟩ := hfirst h
    exact ⟨[a], as, rfl, .one (UInt8.lt_iff_toNat_lt.1 hlow) hnumber, hrest⟩
  split at h
  · cases h
  next b bs =>
  split at h
  · cases h
  next hb =>
  rw [Bool.not_eq_true, Bool.not_eq_false'] at hb
  split at h
  · next hlead =>
    obtain ⟨⟨hleast, hnumber⟩, hrest⟩ := hfirst h
    rw [Bool.and_eq_true, decide_eq_true_iff, decide_eq_true_iff] at hlead
    exact ⟨[a, b], bs, rfl, .two hlead hb hleast hnumber, hrest⟩
  split at h
  · cases h
  next d ds =>
  split at h
  · cases h
  next hd =>
  rw [Bool.not_eq_true, Bool.not_eq_false'] at hd
  split at h
  · next hlead =>
    obtain ⟨⟨hleast, hnumber⟩, hrest⟩ := hfirst h
    rw [Bool.and_eq_true, decide_eq_true_iff, decide_eq_true_iff] at hlead
    exact ⟨[a, b, d], ds, rfl, .three hlead ⟨hb, hd⟩ hleast hnumber, hrest⟩
  split at h
  · cases h
  next e es =>
  split at h
  · next hlead =>
    obtain ⟨⟨hleast, hnumber⟩, hrest⟩ := hfirst h
    rw [Bool.and_assoc, Bool.and_eq_true, Bool.and_eq_true, decide_eq_true_iff, decide_eq_true_iff] at hlead
    exact ⟨[a, b, d, e], es, rfl, .four hlead.2 ⟨hb, hd, hlead.1⟩ hleast hnumber, hrest⟩
  · cases h

theorem isContinuation_iff {b : UInt8} : isContinuation b = true ↔ 0x80 ≤ b.toNat ∧ b.toNat < 0xC0 := by
  simp [isContinuation, UInt8.le_iff_toNat_le, UInt8.lt_iff_toNat_lt]

theorem toUInt8_eq {n : Nat} {a : UInt8} (h : n = a.toNat) : n.toUInt8 = a := by
  rw [h]
  exact UInt8.ofNat_toNat ..

theorem toNat_toUInt8 {n : Nat} (h : n < 256) : n.toUInt8.toNat = n := by
  simpa using Nat.mod_eq_of_lt h

theorem spells_encodeChar (c : Char) : Spells c (encodeChar c) := by
  have hlt : c.toNat < 0x110000 := by
    rcases c.valid with h | ⟨-, h⟩
    · exact Nat.lt_trans h (by decide)
    · exact h
  have htail : ∀ n, isContinuation (0x80 + n % 64).toUInt8 = true ∧ payload (0x80 + n % 64).toUInt8 = n % 64 := by
    intro n
    have hn : (0x80 + n % 64).toUInt8.toNat = 0x80 + n % 64 := toNat_toUInt8 (by omega)
    unfold payload
    rw [isContinuation_iff]
    omega
  unfold encodeChar
  dsimp only
  split
  · next hone =>
    have hlead : c.toNat.toUInt8.toNat = c.toNat := toNat_toUInt8 (by omega)
    exact .one (by omega) hlead.symm
  split
  · next hone htwo =>
    have hlead : (0xC0 + c.toNat / 64).toUInt8.toNat = 0xC0 + c.toNat / 64 := toNat_toUInt8 (by omega)
    have hb := htail c.toNat
    exact .two (by omega) hb.1 (by omega) (by omega)
  split
  · next hone htwo hthree =>
    have hlead : (0xE0 + c.toNat / 4096).toUInt8.toNat = 0xE0 + c.toNat / 4096 := toNat_toUInt8 (by omega)
    have hb := htail (c.toNat / 64)
    have hd := htail c.toNat
    exact .three (by omega) ⟨hb.1, hd.1⟩ (by omega) (by omega)
  · next hone htwo hthree =>
    have hlead : (0xF0 + c.toNat / 262144).toUInt8.toNat = 0xF0 + c.toNat / 262144 := toNat_toUInt8 (by omega)
    have hb := htail (c.toNat / 4096)
    have hd := htail (c.toNat / 64)
    have he := htail c.toNat
    exact .four (by omega) ⟨hb.1, hd.1, he.1⟩ (by omega) (by omega)

theorem spells_iff {c : Char} {front : Bytes} : Spells c front ↔ front = encodeChar c := by
  constructor
  · intro h
    unfold encodeChar
    dsimp only
    cases h with
    | @one a lead number => rw [if_pos (by omega), toUInt8_eq number]
    | @two a b lead tail least number =>
      have hb := isContinuation_iff.1 tail
      unfold payload at number
      rw [if_neg (by omega), if_pos (by omega), toUInt8_eq (a := a) (by omega), toUInt8_eq (a := b) (by omega)]
    | @three a b d lead tail least number =>
      have hb := isContinuation_iff.1 tail.1
      have hd := isContinuation_iff.1 tail.2
      unfold payload at number
      rw [if_neg (by omega), if_neg (by omega), if_pos (by omega), toUInt8_eq (a := a) (by omega),
        toUInt8_eq (a := b) (by omega), toUInt8_eq (a := d) (by omega)]
    | @four a b d e lead tail least number =>
      have hb := isContinuation_iff.1 tail.1
      have hd := isContinuation_iff.1 tail.2.1
      have he := isContinuation_iff.1 tail.2.2
      unfold payload at number
      rw [if_neg (by omega), if_neg (by omega), if_neg (by omega), toUInt8_eq (a := a) (by omega),
        toUInt8_eq (a := b) (by omega), toUInt8_eq (a := d) (by omega), toUInt8_eq (a := e) (by omega)]
  · rintro rfl
    exact spells_encodeChar c

theorem decode?_encode_append (cs : List Char) (rest : Bytes) :
    decode? (encode cs ++ rest) = (decode? rest).map (cs ++ ·) := by
  induction cs with
  | nil => cases h : decode? rest <;> simp [h]
  | cons c cs ih =>
    rw [encode_cons, List.append_assoc, (spells_encodeChar c).decode?_append, ih, Option.map_map]
    rfl

/-- Reading is the inverse of writing: what is read has been written so. -/
theorem decode?_eq_some_iff {bytes : Bytes} {cs : List Char} : decode? bytes = some cs ↔ bytes = encode cs := by
  constructor
  · intro h
    induction cs generalizing bytes with
    | nil => exact Decidable.byContradiction fun hne => decode?_ne_nil hne h
    | cons c cs ih =>
      obtain ⟨front, rest, rfl, hfront, hrest⟩ := exists_spells_of_decode? h
      rw [encode_cons, spells_iff.1 hfront, ih hrest]
  · rintro rfl
    have h := decode?_encode_append cs []
    simpa [decode?] using h

def IsUtf8 (bytes : Bytes) : Prop := ∃ cs, bytes = encode cs

theorem decodeText_encode (cs : List Char) : decodeText (encode cs) = String.ofList cs := by
  rw [decodeText, decode?_eq_some_iff.2 rfl]

theorem decodeText_of_not_isUtf8 {bytes : Bytes} (h : ¬ IsUtf8 bytes) :
    decodeText bytes = String.ofList (bytes.map latinChar) := by
  cases hbytes : decode? bytes with
  | none => simp [decodeText, hbytes]
  | some cs => exact absurd ⟨cs, decode?_eq_some_iff.1 hbytes⟩ h

theorem Spells.exists_cons {c : Char} {front : Bytes} (h : Spells c front) : ∃ lead tail, front = lead :: tail ∧
    isContinuation lead = false ∧ (∀ b ∈ tail, isContinuation b = true) ∧
    (tail = [] → lead < 0x80 ∧ c = latinChar lead) := by
  have hlead : ∀ {a : UInt8}, a.toNat < 0x80 ∨ 0xC0 ≤ a.toNat → isContinuation a = false := by
    intro a ha
    rw [Bool.eq_false_iff, ne_eq, isContinuation_iff]
    omega
  cases h with
  | @one a lead number =>
    refine ⟨a, [], rfl, hlead (.inl lead), by simp, fun _ => ⟨UInt8.lt_iff_toNat_lt.2 lead, ?_⟩⟩
    rw [latinChar, ← number, Char.ofNat_toNat]
  | @two a b lead tail least number => exact ⟨a, [b], rfl, hlead (.inr lead.1), by simp [tail], by simp⟩
  | @three a b d lead tail least number =>
    exact ⟨a, [b, d], rfl, hlead (.inr (by omega)), by simp [tail], by simp⟩
  | @four a b d e lead tail least number =>
    exact ⟨a, [b, d, e], rfl, hlead (.inr (by omega)), by simp [tail], by simp⟩

theorem IsUtf8.head {bytes : Bytes} (h : IsUtf8 bytes) : ∀ b ∈ bytes.head?, isContinuation b = false := by
  obtain ⟨cs, rfl⟩ := h
  cases cs with
  | nil => simp
  | cons c cs =>
    obtain ⟨lead, tail, hfront, hlead, -, -⟩ := (spells_encodeChar c).exists_cons
    simp [hfront, hlead]

theorem IsUtf8.append {bytes more : Bytes} (h : IsUtf8 bytes) (hmore : IsUtf8 more) : IsUtf8 (bytes ++ more) := by
  obtain ⟨cs, rfl⟩ := h
  obtain ⟨ds, rfl⟩ := hmore
  exact ⟨cs ++ ds, (encode_append cs ds).symm⟩

theorem IsUtf8.of_append {bytes more : Bytes} (h : IsUtf8 bytes) (hall : IsUtf8 (bytes ++ more)) : IsUtf8 more := by
  obtain ⟨cs, rfl⟩ := h
  obtain ⟨all, hall⟩ := hall
  have hread := decode?_eq_some_iff.2 hall
  rw [decode?_encode_append] at hread
  obtain ⟨ds, hds, -⟩ := Option.map_eq_some_iff.1 hread
  exact ⟨ds, decode?_eq_some_iff.1 hds⟩

end WeekGrid.Text
