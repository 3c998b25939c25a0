import WeekGrid.Binary64.Basic

/-!
The shortest decimal that reads back to a given double. The reals that round to a double form an
interval around it, with its ends where the significand is even; on the grids of 1, 2, ... 17
significant digits the two neighbours of the value are tried, and the first grid with a hit wins.
-/
namespace WeekGrid

/-- The number `digits * 10 ^ exponent`. -/
structure Decimal where
  digits : Nat
  exponent : Int
  deriving DecidableEq, Repr

namespace Decimal

def num (d : Decimal) : Nat := d.digits * Nat.pow 10 d.exponent.toNat

def den (d : Decimal) : Nat := Nat.pow 10 (-d.exponent).toNat

def gapAbove (quanta : Nat) : Nat := Nat.pow 2 (quanta.log2 - 52)

/-- Twice the distance to the next smaller magnitude: below a power of two the doubles lie closer. -/
def twiceGapBelow (quanta : Nat) : Nat :=
  if 52 < quanta.log2 ∧ quanta = Nat.pow 2 quanta.log2 then gapAbove quanta else 2 * gapAbove quanta

/-- Whether a decimal lies among the reals that round to the magnitude; in quarters of a quantum. -/
def readsBack (quanta : Nat) (d : Decimal) : Bool :=
  let value := d.num * (4 * Binary64.quantaPerUnit)
  let low := (4 * quanta - twiceGapBelow quanta) * d.den
  let high := (4 * quanta + 2 * gapAbove quanta) * d.den
  if quanta / gapAbove quanta % 2 = 0 then decide (low ≤ value ∧ value ≤ high)
  else decide (low < value ∧ value < high)

/-- The power of ten of a positive magnitude's first decimal digit; no magnitude is below `10 ^ -324`,
so `400` places show it. -/
def firstPlace (quanta : Nat) : Int :=
  ((Nat.toDigits 10 (quanta * Nat.pow 10 400 / Binary64.quantaPerUnit)).length : Int) - 401

/-- The hit on the grid of multiples of `10 ^ exponent`: the nearer neighbour if both read back, and
the even one if they are equally near. -/
def onGrid? (quanta : Nat) (exponent : Int) : Option Decimal :=
  let num := quanta * Nat.pow 10 (-exponent).toNat
  let den := Binary64.quantaPerUnit * Nat.pow 10 exponent.toNat
  let below : Decimal := ⟨num / den, exponent⟩
  let above : Decimal := ⟨num / den + 1, exponent⟩
  match readsBack quanta below, readsBack quanta above with
  | true, true => some ⟨roundDiv num den, exponent⟩
  | true, false => some below
  | false, true => some above
  | false, false => none

def shortest (quanta : Nat) : Decimal :=
  let place := firstPlace quanta
  ((List.range 17).findSome? fun k : Nat => onGrid? quanta (place - k)).getD ⟨0, 0⟩

end Decimal
end WeekGrid
