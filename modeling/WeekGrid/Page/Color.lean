import WeekGrid.Binary64.Whole

/-!
Fill colours as `#RRGGBB`.
-/
namespace WeekGrid.Page

/-- A colour channel as a number from 0 to 255: the nearest one, a tie going to the even one. -/
def channel (c : Binary64) : Except Fault Nat := do
  return min 255 (← (c * 255).roundEven).toNat

def upperHexDigits : List Char :=
  ['0', '1', '2', '3', '4', '5', '6', '7', '8', '9', 'A', 'B', 'C', 'D', 'E', 'F']

def hexPair (n : Nat) : List Char :=
  [upperHexDigits.getD (n / 16) '0', upperHexDigits.getD (n % 16) '0']

def hexColor (r g b : Binary64) : Except Fault String := do
  let r ← channel r
  let g ← channel g
  let b ← channel b
  return String.ofList ('#' :: hexPair r ++ hexPair g ++ hexPair b)

end WeekGrid.Page
