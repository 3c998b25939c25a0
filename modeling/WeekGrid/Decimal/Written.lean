import WeekGrid.Decimal.Shortest

/-!
Decimal text of a double: the shortest digits that read back, positional for middling exponents and
with a signed two-digit exponent elsewhere.
-/
namespace WeekGrid

/-- The choices of a written number that its value leaves open. -/
structure NumberStyle where
  /-- The least power of ten of a first digit that is still written positionally. -/
  leastPlace : Int
  /-- The first power of ten that is no longer written positionally. -/
  placeLimit : Int
  /-- How many digits an exponent has at least. -/
  exponentWidth : Nat

namespace NumberStyle

/-- Positional from `10 ^ -4` and below `10 ^ 16`; exponents have a sign and at least two digits. -/
def plain : NumberStyle := ⟨-4, 16, 2⟩

end NumberStyle

def paddedDigits (width n : Nat) : List Char :=
  let digits := Nat.toDigits 10 n
  List.replicate (width - digits.length) '0' ++ digits

def dropTrailingZeros (digits : List Char) : List Char :=
  (digits.reverse.dropWhile (· == '0')).reverse

namespace Decimal

def write (style : NumberStyle) (d : Decimal) : List Char :=
  let all := Nat.toDigits 10 d.digits
  let place : Int := d.exponent + all.length - 1
  let digits := dropTrailingZeros all
  if style.leastPlace ≤ place ∧ place < style.placeLimit then
    if place < 0 then
      '0' :: '.' :: (List.replicate (-place - 1).toNat '0' ++ digits)
    else
      let whole := place.toNat + 1
      digits.take whole ++ List.replicate (whole - digits.length) '0' ++ '.' ::
        (if digits.length ≤ whole then ['0'] else digits.drop whole)
  else
    let mantissa := match digits with
      | first :: second :: rest => first :: '.' :: second :: rest
      | short => short
    mantissa ++ 'e' :: (if place < 0 then '-' else '+') ::
      paddedDigits style.exponentWidth place.natAbs

end Decimal

namespace Binary64

def chars : Binary64 → List Char
  | .nan => ['n', 'a', 'n']
  | .infinite negative => (if negative then ['-'] else []) ++ ['i', 'n', 'f']
  | .finite negative quanta _ =>
    (if negative then ['-'] else []) ++
      if quanta = 0 then ['0', '.', '0']
      else (Decimal.shortest quanta).write .plain

def text (x : Binary64) : String := String.ofList x.chars

end Binary64
end WeekGrid
