import WeekGrid.Binary64.Basic
import WeekGrid.Failure

/-!
Doubles and whole numbers: the whole part, the nearest integer, powers of ten, and rounding to a number
of decimal places. Infinite numbers and NaN have no whole part.
-/
namespace WeekGrid.Binary64

def toWhole (round : Nat → Nat) : Binary64 → Except Fault Int
  | .nan => throw .notANumber
  | .infinite _ => throw .outOfRange
  | .finite negative quanta _ => return signedQuanta negative (round quanta)

def truncate : Binary64 → Except Fault Int := toWhole (· / quantaPerUnit)

def roundEven : Binary64 → Except Fault Int := toWhole (roundDiv · quantaPerUnit)

def ofInt? (n : Int) : Except Fault Binary64 :=
  let x := ofInt n
  if x.isFinite then return x else throw .outOfRange

/-- The double nearest to a power of ten, the larger of two that are equally near: half a quantum is
added, which is too little to matter otherwise. An exponent that is itself beyond all finite doubles is out
of range, even a negative one. -/
def powTen (places : Int) : Except Fault Binary64 :=
  if 308 < places ∨ (ofInt places).isFinite = false then throw .outOfRange
  else if places < -323 then return zero false
  else if 0 ≤ places then return nearest false (Nat.pow 10 places.toNat * (2 * quantaPerUnit) + 1) 2
  else return nearest false quantaPerUnit (Nat.pow 10 (-places).toNat)

/-- A double rounded to a number of decimal places: scaled up, moved half a unit away from zero and cut
to its whole part, and scaled down again. The sign of a zero result is positive. -/
def roundPlaces (x : Binary64) (places : Int) : Except Fault Binary64 := do
  let multiplier ← powTen places
  let scaled := x * multiplier
  let half := ofRatio 1 2
  let whole ← if le 0 scaled then truncate (scaled + half)
    else (do return -(← truncate (neg scaled + half)))
  if multiplier.same 0 then throw .divisionByZero
  return (← ofInt? whole) / multiplier

end WeekGrid.Binary64
