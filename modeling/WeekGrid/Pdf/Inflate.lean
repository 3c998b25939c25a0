import WeekGrid.Text.Utf8

/-!
Reading compressed stream data: the deflate format in its zlib wrapping. Bits are taken from the low end of
each byte; a code word is read from its high end. What can be read up to an error is the result.
-/
namespace WeekGrid.Pdf.Inflate

open Text (Bytes)

abbrev Bits := List Bool

def bitsOf (bytes : Bytes) : Bits :=
  bytes.flatMap fun b => (List.range 8).map fun i => b.toNat.testBit i

def takeBits : Nat → Bits → Option (Nat × Bits)
  | 0, bits => some (0, bits)
  | _, [] => none
  | n + 1, b :: bits => (takeBits n bits).map fun (high, rest) => (b.toNat + 2 * high, rest)

def longestCode : Nat := 15

/-- A canonical code: how many code words there are of each length from 1 on, and the symbols in the order
of their code words. -/
structure Code where
  counts : List Nat
  symbols : Array Nat

namespace Code

def ofLengths (lengths : List Nat) : Code :=
  let sizes := (List.range longestCode).map (· + 1)
  { counts := sizes.map fun size => lengths.count size
    symbols := (sizes.flatMap fun size =>
      (lengths.zipIdx.filter fun (length, _) => length == size).map (·.2)).toArray }

/-- Reads on in a code word: `word` is what has been read, `first` the first code word of this length and
`index` the number of shorter ones. -/
def symbolFrom (symbols : Array Nat) : List Nat → Nat → Nat → Nat → Bits → Option (Nat × Bits)
  | [], _, _, _, _ => none
  | _, _, _, _, [] => none
  | count :: counts, word, first, index, b :: bits =>
    let word := 2 * word + b.toNat
    if word < first + count then (symbols[index + (word - first)]?).map (·, bits)
    else symbolFrom symbols counts word (2 * (first + count)) (index + count) bits

def symbol? (code : Code) (bits : Bits) : Option (Nat × Bits) :=
  symbolFrom code.symbols code.counts 0 0 0 bits

end Code

def lengthTable : List (Nat × Nat) :=
  [(3, 0), (4, 0), (5, 0), (6, 0), (7, 0), (8, 0), (9, 0), (10, 0), (11, 1), (13, 1), (15, 1), (17, 1),
    (19, 2), (23, 2), (27, 2), (31, 2), (35, 3), (43, 3), (51, 3), (59, 3), (67, 4), (83, 4), (99, 4),
    (115, 4), (131, 5), (163, 5), (195, 5), (227, 5), (258, 0)]

def distanceTable : List (Nat × Nat) :=
  [(1, 0), (2, 0), (3, 0), (4, 0), (5, 1), (7, 1), (9, 2), (13, 2), (17, 3), (25, 3), (33, 4), (49, 4),
    (65, 5), (97, 5), (129, 6), (193, 6), (257, 7), (385, 7), (513, 8), (769, 8), (1025, 9), (1537, 9),
    (2049, 10), (3073, 10), (4097, 11), (6145, 11), (8193, 12), (12289, 12), (16385, 13), (24577, 13)]

def tableValue? (table : List (Nat × Nat)) (symbol : Nat) (bits : Bits) : Option (Nat × Bits) := do
  let (base, extra) ← table[symbol]?
  let (more, bits) ← takeBits extra bits
  return (base + more, bits)

def copyBack (distance : Nat) : Nat → Array UInt8 → Array UInt8
  | 0, out => out
  | n + 1, out => copyBack distance n (out.push (out.getD (out.size - distance) 0))

def repetition? (distances : Code) (symbol : Nat) (bits : Bits) : Option (Nat × Nat × Bits) := do
  let (length, bits) ← tableValue? lengthTable (symbol - 257) bits
  let (distanceSymbol, bits) ← distances.symbol? bits
  let (distance, bits) ← tableValue? distanceTable distanceSymbol bits
  return (length, distance, bits)

/-- The symbols of a block up to its end. Each takes at least a bit, so the bits bound their number. The
rest is missing if there is no end. -/
def symbols (literals distances : Code) : Nat → Bits → Array UInt8 → Array UInt8 × Option Bits
  | 0, _, out => (out, none)
  | fuel + 1, bits, out =>
    match literals.symbol? bits with
    | none => (out, none)
    | some (symbol, bits) =>
      if symbol < 256 then symbols literals distances fuel bits (out.push symbol.toUInt8)
      else if symbol = 256 then (out, some bits)
      else match repetition? distances symbol bits with
        | none => (out, none)
        | some (length, distance, bits) =>
          if out.size < distance then (out, none)
          else symbols literals distances fuel bits (copyBack distance length out)

def fixedCodes : Code × Code :=
  (.ofLengths (List.replicate 144 8 ++ List.replicate 112 9 ++ List.replicate 24 7 ++
      List.replicate 8 8), .ofLengths (List.replicate 30 5))

def lengthOrder : List Nat := [16, 17, 18, 0, 8, 7, 9, 6, 10, 5, 11, 4, 12, 3, 13, 2, 14, 1, 15]

def takeTriples : Nat → Bits → Option (List Nat × Bits)
  | 0, bits => some ([], bits)
  | n + 1, bits => do
    let (value, bits) ← takeBits 3 bits
    let (values, bits) ← takeTriples n bits
    return (value :: values, bits)

/-- Code lengths in their run-length form, the last one first, until there are `total`. -/
def takeLengths (code : Code) (total : Nat) : Nat → Bits → List Nat → Option (List Nat × Bits)
  | 0, _, _ => none
  | fuel + 1, bits, lengths =>
    if total ≤ lengths.length then some (lengths, bits)
    else do
      let (symbol, bits) ← code.symbol? bits
      if symbol < 16 then takeLengths code total fuel bits (symbol :: lengths)
      else
        let (value, base, extra) :=
          if symbol = 16 then (lengths.headD 0, 3, 2) else if symbol = 17 then (0, 3, 3) else (0, 11, 7)
        let (more, bits) ← takeBits extra bits
        takeLengths code total fuel bits (List.replicate (base + more) value ++ lengths)

def takeCodes (bits : Bits) : Option (Code × Code × Bits) := do
  let (literals, bits) ← takeBits 5 bits
  let (distances, bits) ← takeBits 5 bits
  let (count, bits) ← takeBits 4 bits
  let (given, bits) ← takeTriples (count + 4) bits
  let lengthCode := Code.ofLengths ((List.range 19).map fun symbol =>
    ((lengthOrder.zip given).lookup symbol).getD 0)
  let total := literals + 257 + distances + 1
  let (lengths, bits) ← takeLengths lengthCode total (total + 1) bits []
  let lengths := lengths.reverse
  return (.ofLengths (lengths.take (literals + 257)), .ofLengths (lengths.drop (literals + 257)), bits)

def copyBytes : Nat → Bits → Array UInt8 → Array UInt8 × Option Bits
  | 0, bits, out => (out, some bits)
  | n + 1, bits, out =>
    match takeBits 8 bits with
    | some (b, bits) => copyBytes n bits (out.push b.toUInt8)
    | none => (out, none)

/-- A block without compression: from the next whole byte on, a length, its complement, and the bytes. -/
def plainBlock (bits : Bits) (out : Array UInt8) : Array UInt8 × Option Bits :=
  match takeBits 16 (bits.drop (bits.length % 8)) with
  | none => (out, none)
  | some (length, bits) => copyBytes length (bits.drop 16) out

def blocks : Nat → Bits → Array UInt8 → Array UInt8
  | 0, _, out => out
  | fuel + 1, bits, out =>
    match takeBits 3 bits with
    | none => out
    | some (head, bits) =>
      let (out, rest) :=
        match head / 2 with
        | 0 => plainBlock bits out
        | 1 => symbols fixedCodes.1 fixedCodes.2 (bits.length + 1) bits out
        | 2 => match takeCodes bits with
          | some (literals, distances, bits) => symbols literals distances (bits.length + 1) bits out
          | none => (out, none)
        | _ => (out, none)
      match rest with
      | none => out
      | some bits => if head % 2 = 1 then out else blocks fuel bits out

/-- The data of a zlib stream; without its two-byte head there is none. -/
def inflate : Bytes → Bytes
  | method :: flags :: data =>
    if method.toNat % 16 = 8 ∧ (method.toNat * 256 + flags.toNat) % 31 = 0 then
      let bits := bitsOf data
      (blocks (bits.length + 1) bits #[]).toList
    else []
  | _ => []

end WeekGrid.Pdf.Inflate
