/-!
Double-precision numbers as exact naturals. A finite double is a whole number of quanta, one quantum
being `2 ^ -1074`; an operation computes the exact result and rounds it once, to the nearest double,
a tie going to the even significand. The main lemma, `dvd_roundToQuanta`, says that rounding leaves a
whole number of quanta with at most 53 significant bits.
-/
namespace WeekGrid

def roundDiv (num den : Nat) : Nat :=
  let q := num / den
  let r := num % den
  if 2 * r < den then q
  else if den < 2 * r then q + 1
  else if q % 2 = 0 then q else q + 1

theorem roundDiv_le (num den : Nat) : roundDiv num den ≤ num / den + 1 := by
  simp only [roundDiv]
  repeat' split
  all_goals omega

namespace Binary64

/-- The magnitudes of the finite doubles, in quanta. -/
def Fits (n : Nat) : Prop := n.log2 < 2098 ∧ Nat.pow 2 (n.log2 - 52) ∣ n

instance (n : Nat) : Decidable (Fits n) := inferInstanceAs (Decidable (_ ∧ _))

/-- How many low bits the significand of a magnitude of `num / den` quanta leaves out. -/
def spareBits (num den : Nat) : Nat := (num / den).log2 - 52

/-- The nearest whole number of quanta with at most 53 significant bits. -/
def roundToQuanta (num den : Nat) : Nat :=
  let step := Nat.pow 2 (spareBits num den)
  roundDiv num (den * step) * step

theorem roundDiv_spareBits_le (num den : Nat) :
    roundDiv num (den * Nat.pow 2 (spareBits num den)) ≤ Nat.pow 2 53 := by
  have hq : num / den < 2 ^ (53 + spareBits num den) := by
    refine Nat.lt_of_lt_of_le Nat.lt_log2_self (Nat.pow_le_pow_right (by decide) ?_)
    simp only [spareBits]; omega
  refine Nat.le_trans (roundDiv_le _ _) (Nat.succ_le_of_lt ?_)
  rw [← Nat.div_div_eq_div_mul]
  exact Nat.div_lt_of_lt_mul (by rw [Nat.mul_comm, Nat.pow_eq, Nat.pow_eq, ← Nat.pow_add]; exact hq)

theorem dvd_roundToQuanta (num den : Nat) :
    Nat.pow 2 ((roundToQuanta num den).log2 - 52) ∣ roundToQuanta num den := by
  have hm := roundDiv_spareBits_le num den
  simp only [roundToQuanta, Nat.pow_eq] at hm ⊢
  generalize roundDiv num (den * 2 ^ spareBits num den) = m at hm
  generalize spareBits num den = s
  rcases Nat.eq_zero_or_pos m with rfl | hpos
  · simp
  rcases Nat.lt_or_eq_of_le hm with hlt | rfl
  · refine Nat.dvd_trans (Nat.pow_dvd_pow 2 ?_) (Nat.dvd_mul_left (2 ^ s) m)
    have hbits : (m * 2 ^ s).log2 < 53 + s := by
      rw [Nat.log2_lt (by have := Nat.two_pow_pos s; exact Nat.mul_ne_zero (by omega) (by omega)),
        Nat.pow_add]
      exact Nat.mul_lt_mul_of_pos_right hlt (Nat.two_pow_pos s)
    omega
  · rw [← Nat.pow_add, Nat.log2_two_pow]
    exact Nat.pow_dvd_pow 2 (by omega)

end Binary64

/-- A double-precision number; two finite ones with the same sign and magnitude are one. -/
inductive Binary64 where
  | nan
  | infinite (negative : Bool)
  | finite (negative : Bool) (quanta : Nat) (fits : Binary64.Fits quanta)
  deriving DecidableEq

namespace Binary64

/-- The double nearest to `num / den` quanta; past the largest finite one it is infinite. -/
def nearest (negative : Bool) (num den : Nat) : Binary64 :=
  if h : (roundToQuanta num den).log2 < 2098 then
    .finite negative (roundToQuanta num den) ⟨h, dvd_roundToQuanta num den⟩
  else .infinite negative

def zero (negative : Bool) : Binary64 := .finite negative 0 (by decide)

def quantaPerUnit : Nat := Nat.pow 2 1074

def ofInt (n : Int) : Binary64 := nearest (decide (n < 0)) (n.natAbs * quantaPerUnit) 1

instance (n : Nat) : OfNat Binary64 n := ⟨ofInt n⟩

instance : Inhabited Binary64 := ⟨0⟩

def ofRatio (num den : Nat) : Binary64 := nearest false (num * quantaPerUnit) den

/-- The nearest double to `digits * 10 ^ exponent`; the two outer cases only spare a huge power. -/
def ofDecimal (negative : Bool) (digits : Nat) (exponent : Int) : Binary64 :=
  let size := exponent + (digits.log2 / 3 : Nat)
  if digits = 0 then zero negative
  else if 800 < exponent then .infinite negative
  else if size < -800 then zero negative
  else nearest negative (digits * Nat.pow 10 exponent.toNat * quantaPerUnit)
      (Nat.pow 10 (-exponent).toNat)

def isFinite : Binary64 → Bool
  | .finite .. => true
  | _ => false

def signedQuanta (negative : Bool) (quanta : Nat) : Int :=
  if negative then -(quanta : Int) else quanta

/-- Where a number stands on the line, in quanta; the infinities stand at the two ends of the finite
range, and a NaN nowhere. -/
def level : Binary64 → Option Int
  | .nan => none
  | .infinite negative => some (signedQuanta negative (Nat.pow 2 2098))
  | .finite negative quanta _ => some (signedQuanta negative quanta)

/-- Equality of numbers: the two zeros are equal, and a NaN equals nothing. -/
def same (x y : Binary64) : Bool :=
  match x.level, y.level with
  | some a, some b => a == b
  | _, _ => false

def lt (x y : Binary64) : Bool :=
  match x.level, y.level with
  | some a, some b => decide (a < b)
  | _, _ => false

def le (x y : Binary64) : Bool :=
  match x.level, y.level with
  | some a, some b => decide (a ≤ b)
  | _, _ => false

def neg : Binary64 → Binary64
  | .nan => .nan
  | .infinite negative => .infinite !negative
  | .finite negative quanta fits => .finite (!negative) quanta fits

/-- A sum of zero is negative only if both terms are negative zeros. -/
def add : Binary64 → Binary64 → Binary64
  | .nan, _ => .nan
  | _, .nan => .nan
  | .infinite s, .infinite t => if s = t then .infinite s else .nan
  | .infinite s, .finite .. => .infinite s
  | .finite .., .infinite t => .infinite t
  | .finite s m _, .finite t n _ =>
    let sum := signedQuanta s m + signedQuanta t n
    if sum = 0 then zero (s && t) else nearest (decide (sum < 0)) sum.natAbs 1

def sub (x y : Binary64) : Binary64 := add x (neg y)

def mul : Binary64 → Binary64 → Binary64
  | .nan, _ => .nan
  | _, .nan => .nan
  | .infinite s, .infinite t => .infinite (s != t)
  | .infinite s, .finite t n _ => if n = 0 then .nan else .infinite (s != t)
  | .finite s m _, .infinite t => if m = 0 then .nan else .infinite (s != t)
  | .finite s m _, .finite t n _ => nearest (s != t) (m * n) quantaPerUnit

def div : Binary64 → Binary64 → Binary64
  | .nan, _ => .nan
  | _, .nan => .nan
  | .infinite _, .infinite _ => .nan
  | .infinite s, .finite t _ _ => .infinite (s != t)
  | .finite s _ _, .infinite t => zero (s != t)
  | .finite s m _, .finite t n _ =>
    if n = 0 then (if m = 0 then .nan else .infinite (s != t))
    else nearest (s != t) (m * quantaPerUnit) n

instance : Neg Binary64 := ⟨neg⟩
instance : Add Binary64 := ⟨add⟩
instance : Sub Binary64 := ⟨sub⟩
instance : Mul Binary64 := ⟨mul⟩
instance : Div Binary64 := ⟨div⟩

end Binary64
end WeekGrid
