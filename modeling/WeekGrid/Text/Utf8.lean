/-!
UTF-8. `encode` writes characters as bytes, `decode?` reads well-formed bytes and refuses all others
(cut or overlong sequences, surrogates, values past the last character), and `decodeLossy` puts a
replacement character for each part that cannot be read.
-/
namespace WeekGrid.Text

abbrev Bytes := List UInt8

def encodeChar (c : Char) : Bytes :=
  let n := c.toNat
  if n < 0x80 then [n.toUInt8]
  else if n < 0x800 then [(0xC0 + n / 64).toUInt8, (0x80 + n % 64).toUInt8]
  else if n < 0x10000 then
    [(0xE0 + n / 4096).toUInt8, (0x80 + n / 64 % 64).toUInt8, (0x80 + n % 64).toUInt8]
  else
    [(0xF0 + n / 262144).toUInt8, (0x80 + n / 4096 % 64).toUInt8, (0x80 + n / 64 % 64).toUInt8,
      (0x80 + n % 64).toUInt8]

def encode (cs : List Char) : Bytes := cs.flatMap encodeChar

@[simp] theorem encode_nil : encode [] = [] := rfl

@[simp] theorem encode_cons (c : Char) (cs : List Char) :
    encode (c :: cs) = encodeChar c ++ encode cs := rfl

theorem encode_append (cs ds : List Char) : encode (cs ++ ds) = encode cs ++ encode ds := by
  simp [encode]

def isContinuation (b : UInt8) : Bool := 0x80 ≤ b && b < 0xC0

def payload (b : UInt8) : Nat := b.toNat - 0x80

/-- The character with a number, if the number is one that its length of sequence is meant for. -/
def scalar? (least n : Nat) : Option Char :=
  if h : least ≤ n ∧ n.isValidChar then some ⟨n.toUInt32, by
    have := h.2
    have hn : n < 2 ^ 32 := by rcases this with h | ⟨_, h⟩ <;> omega
    simpa [UInt32.isValidChar, Nat.toUInt32, UInt32.toNat_ofNat_of_lt' hn] using this⟩
  else none

/-- The characters that well-formed bytes spell. -/
def decode? : Bytes → Option (List Char)
  | [] => some []
  | a :: as =>
    if a < 0x80 then do
      let c ← scalar? 0 a.toNat
      let rest ← decode? as
      return c :: rest
    else match as with
      | [] => none
      | b :: bs =>
        if !isContinuation b then none
        else if 0xC0 ≤ a && a < 0xE0 then do
          let c ← scalar? 0x80 ((a.toNat - 0xC0) * 64 + payload b)
          let rest ← decode? bs
          return c :: rest
        else match bs with
          | [] => none
          | d :: ds =>
            if !isContinuation d then none
            else if 0xE0 ≤ a && a < 0xF0 then do
              let c ← scalar? 0x800 (((a.toNat - 0xE0) * 64 + payload b) * 64 + payload d)
              let rest ← decode? ds
              return c :: rest
            else match ds with
              | [] => none
              | e :: es =>
                if isContinuation e && 0xF0 ≤ a && a < 0xF8 then do
                  let c ← scalar? 0x10000
                    ((((a.toNat - 0xF0) * 64 + payload b) * 64 + payload d) * 64 + payload e)
                  let rest ← decode? es
                  return c :: rest
                else none

def sequenceLength (lead : UInt8) : Nat :=
  if lead < 0xC2 then 1 else if lead < 0xE0 then 2 else if lead < 0xF0 then 3
  else if lead < 0xF5 then 4 else 1

def canFollow (lead second : UInt8) : Bool :=
  isContinuation second &&
    (if lead = 0xE0 then 0xA0 ≤ second
    else if lead = 0xED then second < 0xA0
    else if lead = 0xF0 then 0x90 ≤ second
    else if lead = 0xF4 then second < 0x90
    else true)

/-- The length of the longest beginning of a sequence at the front of bytes that hold no whole one. -/
def brokenLength : Bytes → Nat
  | a :: b :: rest =>
    if 3 ≤ sequenceLength a && canFollow a b then
      if sequenceLength a = 4 && rest.head?.any isContinuation then 3 else 2
    else 1
  | _ => 1

/-- The readable characters of any bytes, the rest replaced; the number counts bytes already read. -/
def lossyFrom : Nat → Bytes → List Char
  | _, [] => []
  | passed + 1, _ :: bs => lossyFrom passed bs
  | 0, b :: bs =>
    match decode? ((b :: bs).take (sequenceLength b)) with
    | some [c] => c :: lossyFrom (sequenceLength b - 1) bs
    | _ => '\uFFFD' :: lossyFrom (brokenLength (b :: bs) - 1) bs

def decodeLossy (bytes : Bytes) : String := String.ofList (lossyFrom 0 bytes)

def latinChar (b : UInt8) : Char := Char.ofNat b.toNat

theorem decode?_ne_nil {bytes : Bytes} (h : bytes ≠ []) : decode? bytes ≠ some [] := by
  have hcons : ∀ (first : Option Char) (rest : Option (List Char)),
      (do let c ← first; let cs ← rest; return c :: cs) ≠ some [] := by
    intro first rest
    cases first <;> cases rest <;> simp
  intro hnil
  unfold decode? at hnil
  split at hnil
  · exact h rfl
  split at hnil
  · exact hcons _ _ hnil
  split at hnil
  · cases hnil
  split at hnil
  · cases hnil
  split at hnil
  · exact hcons _ _ hnil
  split at hnil
  · cases hnil
  split at hnil
  · cases hnil
  split at hnil
  · exact hcons _ _ hnil
  split at hnil
  · cases hnil
  split at hnil
  · exact hcons _ _ hnil
  · cases hnil

/-- The text of a string in a page: UTF-8 if it is well formed, and one character a byte otherwise. -/
def decodeText (bytes : Bytes) : String :=
  match decode? bytes with
  | some cs => String.ofList cs
  | none => String.ofList (bytes.map latinChar)

theorem decodeText_ne_empty {bytes : Bytes} (h : bytes ≠ []) : decodeText bytes ≠ "" := by
  unfold decodeText
  split
  · next cs hcs => exact fun hempty => decode?_ne_nil h (hcs.trans (congrArg some (by simpa using hempty)))
  · simpa using h

end WeekGrid.Text
