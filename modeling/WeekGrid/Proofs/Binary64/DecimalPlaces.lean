import Mathlib.Algebra.Group.Int.Defs
import Mathlib.Data.Int.Basic
import WeekGrid.Proofs.Binary64.HalfStep
import WeekGrid.Proofs.Binary64.Nearest

/-!
Rounding to decimal places beside exact rounding, a tie going away from zero. A number is scaled up, which rounds
the product; a half is added, which rounds the sum; and the whole part of that is scaled down. What comes out is
always the double nearest to that integer over the power of ten. The integer is the one nearest to the exact
product unless the product strays, and mostly the next one at worst.
-/
namespace WeekGrid.Binary64

/-- The integer nearest to a number of quanta, a tie going away from zero: every other one is further away, or as far
and nearer to zero. -/
def IsHalfAway (a k : Int) : Prop :=
  ∀ n : Int, n ≠ k → (a - k * quantaPerUnit).natAbs < (a - n * quantaPerUnit).natAbs ∨
    (a - k * quantaPerUnit).natAbs = (a - n * quantaPerUnit).natAbs ∧ n.natAbs < k.natAbs

def halfAway : Int → Int := mirror fun m => (m + quantaPerHalf) / quantaPerUnit

theorem halfAway_neg (a : Int) : halfAway (-a) = -halfAway a := mirror_neg (by decide +kernel) a

theorem isHalfAway_halfAway_natCast (m : Nat) : IsHalfAway m (halfAway m) := by
  intro n hne
  have hunit := quantaPerUnit_eq
  have hpos := quantaPerHalf_pos
  obtain ⟨hlow, hhigh⟩ := div_quantaPerUnit_eq_iff.1 (Eq.refl ((m + quantaPerHalf) / quantaPerUnit))
  rw [Nat.succ_mul] at hhigh
  rw [halfAway, mirror_natCast] at hne ⊢
  generalize (m + quantaPerHalf) / quantaPerUnit = k at hne hlow hhigh ⊢
  have hunitNonneg : (0 : Int) ≤ quantaPerUnit := Int.natCast_nonneg _
  rw [← Int.natCast_mul]
  have hside : n * quantaPerUnit ≤ (k * quantaPerUnit : Nat) - (quantaPerUnit : Int) ∧ n < k ∨
      (k * quantaPerUnit : Nat) + (quantaPerUnit : Int) ≤ n * quantaPerUnit := by
    rcases Int.lt_or_gt_of_ne hne with hless | hmore
    · have hmul := Int.mul_le_mul_of_nonneg_right (Int.le_sub_one_of_lt hless) hunitNonneg
      rw [Int.sub_mul, Int.one_mul] at hmul
      exact .inl ⟨hmul, hless⟩
    · have hmul := Int.mul_le_mul_of_nonneg_right (Int.add_one_le_of_lt hmore) hunitNonneg
      rw [Int.add_mul, Int.one_mul] at hmul
      exact .inr hmul
  have hmirrored : n ≤ -k → n * quantaPerUnit ≤ -((k * quantaPerUnit : Nat) : Int) := by
    intro hle
    have hmul := Int.mul_le_mul_of_nonneg_right hle hunitNonneg
    rwa [Int.neg_mul] at hmul
  have hwhole : k * quantaPerUnit = 0 ∧ k = 0 ∨ quantaPerUnit ≤ k * quantaPerUnit := by
    rcases Nat.eq_zero_or_pos k with rfl | hk
    · exact .inl ⟨Nat.zero_mul _, rfl⟩
    · exact .inr (Nat.le_mul_of_pos_left quantaPerUnit hk)
  generalize n * (quantaPerUnit : Int) = other at hside hmirrored ⊢
  generalize k * quantaPerUnit = nearest at hlow hhigh hside hmirrored hwhole ⊢
  omega

theorem IsHalfAway.neg {a k : Int} (h : IsHalfAway a k) : IsHalfAway (-a) (-k) := by
  intro n hne
  have hmirror : ∀ b c : Int, (-b - -c * quantaPerUnit).natAbs = (b - c * quantaPerUnit).natAbs := by
    intro b c
    rw [Int.neg_mul, ← Int.natAbs_neg]
    congr 1
    omega
  have hother := hmirror a (-n)
  rw [Int.neg_neg] at hother
  rw [hmirror, hother, Int.natAbs_neg, ← Int.natAbs_neg n]
  exact h (-n) (by omega)

theorem isHalfAway_halfAway (a : Int) : IsHalfAway a (halfAway a) := by
  obtain ⟨m, rfl | rfl⟩ := Int.eq_nat_or_neg a
  · exact isHalfAway_halfAway_natCast m
  · rw [halfAway_neg]
    exact (isHalfAway_halfAway_natCast m).neg

theorem isHalfAway_iff {a k : Int} : IsHalfAway a k ↔ k = halfAway a := by
  constructor
  · intro h
    by_contra hne
    have hbetter := isHalfAway_halfAway a k hne
    have hworse := h (halfAway a) (Ne.symm hne)
    omega
  · rintro rfl
    exact isHalfAway_halfAway a

theorem halfAway_mul_quantaPerUnit (n : Int) : halfAway (n * quantaPerUnit) = n := by
  have hwhole : ∀ m : Nat, halfAway (m * quantaPerUnit : Nat) = m := by
    intro m
    have hunit := quantaPerUnit_eq
    have hpos := quantaPerHalf_pos
    rw [halfAway, mirror_natCast, Int.natCast_inj, div_quantaPerUnit_eq_iff, Nat.succ_mul]
    omega
  obtain ⟨m, rfl | rfl⟩ := Int.eq_nat_or_neg n
  · rw [← Int.natCast_mul, hwhole]
  · rw [Int.neg_mul, halfAway_neg, ← Int.natCast_mul, hwhole]

/-- When the integer that is cut off is not the one nearest to an exact product. -/
inductive Strays (exact : Nat) : Prop where
  /-- The product comes to the double below a half; with a half it comes to one. -/
  | belowHalf (product : rounded exact 1 = belowHalf)
  /-- The product comes to an odd integer of 53 bits; with a half it comes to the next. -/
  | oddWhole (n : Nat) (odd : n % 2 = 1) (low : 2 ^ 52 ≤ n) (high : n < 2 ^ 53)
    (product : rounded exact 1 = n * quantaPerUnit)
  /-- The product lies below a tie and comes to the tie. -/
  | ontoTie (small : rounded exact 1 < 2 ^ 52 * quantaPerUnit) (up : exact < rounded exact 1)
    (tie : rounded exact 1 % quantaPerUnit = quantaPerHalf)
  /-- The product is so large that it comes to an integer, but to another one. -/
  | otherWhole (large : 2 ^ 52 * quantaPerUnit ≤ rounded exact 1)
    (off : exact + quantaPerHalf < rounded exact 1 ∨ rounded exact 1 + quantaPerHalf ≤ exact)

section Products

variable {exact : Nat}

theorem strays_iff_of_lt_half (hlt : rounded exact 1 < quantaPerHalf) :
    Strays exact ↔ rounded exact 1 = belowHalf := by
  have hunit := quantaPerUnit_eq
  constructor
  · rintro (h | ⟨n, -, hlow, -, h⟩ | ⟨-, -, h⟩ | ⟨h, -⟩)
    · exact h
    · have hle := Nat.mul_le_mul_right quantaPerUnit hlow
      omega
    · rw [Nat.mod_eq_of_lt (by omega)] at h
      omega
    · omega
  · exact .belowHalf

theorem strays_iff_of_lt (hge : quantaPerHalf ≤ rounded exact 1) (hlt : rounded exact 1 < 2 ^ 52 * quantaPerUnit) :
    Strays exact ↔ exact < rounded exact 1 ∧ rounded exact 1 % quantaPerUnit = quantaPerHalf := by
  have hbelow := belowHalf_lt
  constructor
  · rintro (h | ⟨n, -, hlow, -, h⟩ | ⟨-, hup, htie⟩ | ⟨h, -⟩)
    · omega
    · have hle := Nat.mul_le_mul_right quantaPerUnit hlow
      omega
    · exact ⟨hup, htie⟩
    · omega
  · rintro ⟨hup, htie⟩
    exact .ontoTie hlt hup htie

theorem strays_iff_of_whole {n : Nat} (hlow : 2 ^ 52 ≤ n) (h : rounded exact 1 = n * quantaPerUnit) :
    Strays exact ↔ n % 2 = 1 ∧ n < 2 ^ 53 ∨
      (exact + quantaPerHalf < n * quantaPerUnit ∨ n * quantaPerUnit + quantaPerHalf ≤ exact) := by
  have hpos := quantaPerHalf_pos
  have hunit := quantaPerUnit_eq
  have hbelow := belowHalf_lt
  have hle := Nat.mul_le_mul_right quantaPerUnit hlow
  constructor
  · rintro (hproduct | ⟨m, hodd, -, hhigh, hproduct⟩ | ⟨hsmall, -, -⟩ | ⟨-, hoff⟩)
    · omega
    · rw [h] at hproduct
      obtain rfl := Nat.eq_of_mul_eq_mul_right (by omega) hproduct
      exact .inl ⟨hodd, hhigh⟩
    · omega
    · rw [h] at hoff
      exact .inr hoff
  · rintro (⟨hodd, hhigh⟩ | hoff)
    · exact .oddWhole n hodd hlow hhigh h
    · rw [← h] at hle hoff
      exact .otherWhole hle hoff

theorem strays_iff_of_fits (h : Fits exact) :
    Strays exact ↔ exact = belowHalf ∨ ∃ n, n % 2 = 1 ∧ 2 ^ 52 ≤ n ∧ n < 2 ^ 53 ∧ exact = n * quantaPerUnit := by
  have hpos := quantaPerHalf_pos
  have hround := rounded_of_fits h
  constructor
  · rintro (hproduct | ⟨n, hodd, hlow, hhigh, hproduct⟩ | ⟨-, hup, -⟩ | ⟨-, hoff⟩)
    · exact .inl (hround.symm.trans hproduct)
    · exact .inr ⟨n, hodd, hlow, hhigh, hround.symm.trans hproduct⟩
    · omega
    · omega
  · rintro (hproduct | ⟨n, hodd, hlow, hhigh, hproduct⟩)
    · exact .belowHalf (hround.trans hproduct)
    · exact .oddWhole n hodd hlow hhigh (hround.trans hproduct)

theorem strays_whole_iff {n : Nat} (h : Fits (n * quantaPerUnit)) :
    Strays (n * quantaPerUnit) ↔ n % 2 = 1 ∧ 2 ^ 52 ≤ n ∧ n < 2 ^ 53 := by
  have hunit := quantaPerUnit_eq
  have hbelow := belowHalf_lt
  have hpos : 0 < belowHalf := by decide +kernel
  rw [strays_iff_of_fits h]
  constructor
  · rintro (hproduct | ⟨m, hodd, hlow, hhigh, hproduct⟩)
    · rcases Nat.eq_zero_or_pos n with rfl | hn
      · omega
      · have hle := Nat.le_mul_of_pos_left quantaPerUnit hn
        omega
    · obtain rfl := Nat.eq_of_mul_eq_mul_right quantaPerUnit_pos hproduct
      exact ⟨hodd, hlow, hhigh⟩
  · rintro ⟨hodd, hlow, hhigh⟩
    exact .inr ⟨n, hodd, hlow, hhigh, rfl⟩

theorem nearestWhole_eq_iff_of_lt_half (h : Fits (rounded exact 1)) (hlt : rounded exact 1 < quantaPerHalf) :
    nearestWhole (rounded exact 1) = (exact + quantaPerHalf) / quantaPerUnit ↔ ¬ Strays exact := by
  have hunit := quantaPerUnit_eq
  have hexact := lt_of_rounded_lt fits_half hlt
  rw [strays_iff_of_lt_half hlt, Nat.div_eq_of_lt (a := exact + quantaPerHalf) (by omega)]
  rcases Nat.lt_or_eq_of_le (le_belowHalf h hlt) with hless | heq
  · exact iff_of_true (nearestWhole_of_lt_belowHalf h hless) (Nat.ne_of_lt hless)
  · rw [heq, nearestWhole_belowHalf]
    simp

/-- A product that is rounded to less than a tie lies below it, or below all products that are so small. -/
theorem add_half_lt_of_rounded {n : Nat} (hlt : rounded exact 1 < 2 ^ 52 * quantaPerUnit)
    (hbelow : rounded exact 1 + quantaPerHalf < (n + 1) * quantaPerUnit) (hn : n ≤ 2 ^ 52) :
    exact + quantaPerHalf < (n + 1) * quantaPerUnit := by
  have hunit := quantaPerUnit_eq
  have hpos := quantaPerHalf_pos
  have hsucc : (n + 1) * quantaPerUnit = n * quantaPerUnit + quantaPerUnit := Nat.succ_mul ..
  rcases Nat.lt_or_eq_of_le hn with hless | rfl
  · have htie : rounded exact 1 < n * quantaPerUnit + quantaPerHalf := by omega
    have hexact := lt_of_rounded_lt (fits_whole_add_half hless) htie
    omega
  · have hexact := lt_of_rounded_lt (fits_whole (by decide)) hlt
    omega

theorem mod_quantaPerUnit_eq_half_iff {m n : Nat} (hn : (m + quantaPerHalf) / quantaPerUnit = n + 1) :
    m % quantaPerUnit = quantaPerHalf ↔ m = n * quantaPerUnit + quantaPerHalf := by
  have hunit := quantaPerUnit_eq
  have hpos := quantaPerHalf_pos
  constructor
  · intro htie
    have hsplit := Nat.div_add_mod' m quantaPerUnit
    have hwhole : (m + quantaPerHalf) / quantaPerUnit = m / quantaPerUnit + 1 := by
      simp only [div_quantaPerUnit_eq_iff, Nat.succ_mul]
      omega
    obtain rfl := Nat.succ.inj (hwhole.symm.trans hn)
    omega
  · intro heq
    rw [heq, Nat.mul_comm, Nat.mul_add_mod, Nat.mod_eq_of_lt (by omega)]

theorem nearestWhole_eq_iff_of_lt (h : Fits (rounded exact 1)) (hge : quantaPerHalf ≤ rounded exact 1)
    (hlt : rounded exact 1 < 2 ^ 52 * quantaPerUnit) :
    nearestWhole (rounded exact 1) = (exact + quantaPerHalf) / quantaPerUnit ↔ ¬ Strays exact := by
  have hunit := quantaPerUnit_eq
  have hpos := quantaPerHalf_pos
  obtain ⟨n, hn⟩ : ∃ n, (rounded exact 1 + quantaPerHalf) / quantaPerUnit = n + 1 :=
    ⟨_, (Nat.succ_pred_eq_of_pos (Nat.div_pos (by omega) quantaPerUnit_pos)).symm⟩
  obtain ⟨hlow, hhigh⟩ := div_quantaPerUnit_eq_iff.1 hn
  have hsucc : (n + 1) * quantaPerUnit = n * quantaPerUnit + quantaPerUnit := Nat.succ_mul ..
  have hnHigh : n < 2 ^ 52 := Nat.lt_of_mul_lt_mul_right (a := quantaPerUnit) (by omega)
  have hupper := add_half_lt_of_rounded hlt hhigh hnHigh
  rw [strays_iff_of_lt hge hlt, mod_quantaPerUnit_eq_half_iff hn, nearestWhole_of_lt h hge hlt, hn, eq_comm,
    div_quantaPerUnit_eq_iff]
  -- the lower end of what is rounded to the integer is a tie, and only from there can a product come from below
  have hle : n * quantaPerUnit + quantaPerHalf ≤ rounded exact 1 := by omega
  rcases Nat.lt_or_eq_of_le hle with hless | heq
  · have hexact := lt_of_lt_rounded (fits_whole_add_half hnHigh) hless
    exact iff_of_true ⟨by omega, hupper⟩ fun hstray => Nat.ne_of_gt hless hstray.2
  · omega

theorem nearestWhole_eq_iff_of_whole {n : Nat} (hlow : 2 ^ 52 ≤ n) (h : rounded exact 1 = n * quantaPerUnit)
    (hfits : Fits (rounded exact 1)) :
    nearestWhole (rounded exact 1) = (exact + quantaPerHalf) / quantaPerUnit ↔ ¬ Strays exact := by
  have hunit := quantaPerUnit_eq
  have hpos := quantaPerHalf_pos
  have hsucc : (n + 1) * quantaPerUnit = n * quantaPerUnit + quantaPerUnit := Nat.succ_mul ..
  rw [strays_iff_of_whole hlow h, eq_comm, h]
  rcases Nat.lt_or_ge n (2 ^ 53) with hless | hmore
  · rw [nearestWhole_of_whole hlow hless]
    rcases Nat.mod_two_eq_zero_or_one n with heven | hodd
    · rw [heven, Nat.add_zero, div_quantaPerUnit_eq_iff]
      omega
    · -- what reaches the tie above an odd integer is rounded to the next one
      refine iff_of_false (fun hnext => ?_) fun hnone => hnone (.inl ⟨hodd, hless⟩)
      rw [hodd, div_quantaPerUnit_eq_iff] at hnext
      have htie : n * quantaPerUnit + quantaPerHalf ≤ exact := by omega
      have hmono := rounded_mono htie 1
      rw [rounded_add_half_of_whole hlow hless, hodd, h] at hmono
      omega
  · have hmul := Nat.mul_le_mul_right quantaPerUnit hmore
    rw [nearestWhole_of_le (h ▸ hfits) hmul, Nat.mul_div_cancel _ (by omega), div_quantaPerUnit_eq_iff]
    omega

/-- The integer cut off the sum of a rounded product and a half is the one nearest to the exact product, unless
it strays. -/
theorem nearestWhole_rounded_eq_iff (h : Fits (rounded exact 1)) :
    nearestWhole (rounded exact 1) = (exact + quantaPerHalf) / quantaPerUnit ↔ ¬ Strays exact := by
  rcases Nat.lt_or_ge (rounded exact 1) quantaPerHalf with hlt | hge
  · exact nearestWhole_eq_iff_of_lt_half h hlt
  · rcases Nat.lt_or_ge (rounded exact 1) (2 ^ 52 * quantaPerUnit) with hlt | hlarge
    · exact nearestWhole_eq_iff_of_lt h hge hlt
    · obtain ⟨n, hn⟩ := exists_whole_of_le h hlarge
      refine nearestWhole_eq_iff_of_whole ?_ hn h
      rw [hn] at hlarge
      exact Nat.le_of_mul_le_mul_right hlarge quantaPerUnit_pos

theorem rounded_near (h : Fits (rounded exact 1)) (hlt : rounded exact 1 < 2 ^ 53 * quantaPerUnit) :
    exact ≤ rounded exact 1 + quantaPerHalf ∧ rounded exact 1 ≤ exact + quantaPerHalf := by
  have hunit := quantaPerUnit_eq
  have hpos := quantaPerHalf_pos
  have hexact := lt_of_rounded_lt (fits_whole (Nat.le_refl _)) hlt
  obtain ⟨hlow, hhigh⟩ := div_quantaPerUnit_eq_iff.1 (Eq.refl ((exact + quantaPerHalf) / quantaPerUnit))
  have hfits : Fits ((exact + quantaPerHalf) / quantaPerUnit * quantaPerUnit) := by
    refine fits_whole (Nat.le_of_lt_succ (Nat.div_lt_of_lt_mul ?_))
    rw [Nat.mul_succ, Nat.mul_comm]
    omega
  have hround : rounded exact 1 = roundToQuanta exact 1 := by
    have hroom := log2_lt_mostBits_iff.1 h.1
    unfold rounded at hroom ⊢
    generalize Nat.pow 2 mostBits = limit at hroom ⊢
    omega
  have hle := natAbs_sub_roundToQuanta_le exact Nat.one_pos hfits
  rw [← hround, Nat.mul_one, Nat.mul_one] at hle
  rw [Nat.succ_mul] at hhigh
  omega

theorem nearestWhole_rounded_near (h : Fits (rounded exact 1))
    (hlt : rounded exact 1 < 2 ^ 53 * quantaPerUnit) :
    nearestWhole (rounded exact 1) ≤ (exact + quantaPerHalf) / quantaPerUnit + 1 ∧
      (exact + quantaPerHalf) / quantaPerUnit ≤ nearestWhole (rounded exact 1) + 1 := by
  have hunit := quantaPerUnit_eq
  have hpos := quantaPerHalf_pos
  obtain ⟨habove, hbelow⟩ := rounded_near h hlt
  obtain ⟨whole, hwhole⟩ : ∃ whole, (exact + quantaPerHalf) / quantaPerUnit = whole := ⟨_, rfl⟩
  obtain ⟨hlow, hhigh⟩ := div_quantaPerUnit_eq_iff.1 hwhole
  have hless : ∀ {m n : Nat}, m * quantaPerUnit < n * quantaPerUnit → m < n := Nat.lt_of_mul_lt_mul_right
  have hsucc : ∀ n : Nat, (n + 1) * quantaPerUnit = n * quantaPerUnit + quantaPerUnit := fun n => Nat.succ_mul n _
  rw [hwhole]
  -- Below a half the result is 0 or 1, up to 2 ^ 52 the sum with a half is exact, and from there on the product is
  -- itself whole.
  rcases Nat.lt_or_ge (rounded exact 1) quantaPerHalf with hsmall | hlarge
  · have hcut : nearestWhole (rounded exact 1) ≤ 1 := by
      rcases Nat.lt_or_eq_of_le (le_belowHalf h hsmall) with hlt | heq
      · rw [nearestWhole_of_lt_belowHalf h hlt]
        exact Nat.zero_le 1
      · rw [heq, nearestWhole_belowHalf]
    have hnone : whole < 2 := hless (by omega)
    omega
  · rcases Nat.lt_or_ge (rounded exact 1) (2 ^ 52 * quantaPerUnit) with hmiddle | hwide
    · obtain ⟨cut, hcut⟩ : ∃ cut, (rounded exact 1 + quantaPerHalf) / quantaPerUnit = cut := ⟨_, rfl⟩
      obtain ⟨hcutLow, hcutHigh⟩ := div_quantaPerUnit_eq_iff.1 hcut
      have hcutBelow : cut < whole + 1 + 1 := hless (by rw [hsucc]; omega)
      have hcutAbove : whole < cut + 1 + 1 := hless (by rw [hsucc]; omega)
      rw [nearestWhole_of_lt h hlarge hmiddle, hcut]
      omega
    · obtain ⟨n, hn⟩ := exists_whole_of_le h hwide
      rw [hn] at habove hbelow hlt hwide
      have hnLow : 2 ^ 52 ≤ n := Nat.le_of_mul_le_mul_right hwide (by omega)
      have hnBelow : n < whole + 1 := hless (by omega)
      have hnAbove : whole < n + 1 + 1 := hless (by rw [hsucc, hsucc]; omega)
      rw [hn, nearestWhole_of_whole hnLow (hless hlt)]
      omega

end Products

theorem ofInt_of_fits {n : Int} (h : Fits (n.natAbs * quantaPerUnit)) :
    ofInt n = .finite (decide (n < 0)) (n.natAbs * quantaPerUnit) h := nearest_of_fits _ h

theorem fits_tens {places : Nat} (h : places ≤ 15) : Fits (10 ^ places * quantaPerUnit) :=
  fits_whole (Nat.le_trans (Nat.pow_le_pow_right (by decide) h) (by decide))

theorem tens_ne_zero (places : Nat) : 10 ^ places * quantaPerUnit ≠ 0 :=
  Nat.mul_ne_zero (Nat.pos_iff_ne_zero.1 (Nat.pow_pos (by decide))) (Nat.pos_iff_ne_zero.1 quantaPerUnit_pos)

theorem ofInt_tens {places : Nat} (h : places ≤ 15) :
    ofInt (10 ^ places) = .finite false (10 ^ places * quantaPerUnit) (fits_tens h) := by
  have hcast : (10 : Int) ^ places = ((10 ^ places : Nat) : Int) := by push_cast; rfl
  rw [hcast]
  exact ofInt_of_fits (n := (10 ^ places : Nat)) (fits_tens h)

theorem powTen_of_le {places : Nat} (h : places ≤ 15) : powTen places = .ok (ofInt (10 ^ places)) := by
  have hall : ∀ places : Fin 16, powTen (places : Nat) = .ok (ofInt (10 ^ (places : Nat))) := by decide +kernel
  exact hall ⟨places, Nat.lt_succ_of_le h⟩

theorem level_mul_tens {x : Binary64} {a : Int} {places : Nat} (hplaces : places ≤ 15) (hx : x.isFinite = true)
    (ha : x.level = some a) :
    (x * ofInt (10 ^ places)).level = some (mirror (fun m => rounded (m * 10 ^ places) 1) a) := by
  have hscale : ∀ m, rounded (m * (10 ^ places * quantaPerUnit)) quantaPerUnit = rounded (m * 10 ^ places) 1 := by
    intro m
    have hscaled := rounded_mul_right (m * 10 ^ places) 1 quantaPerUnit_pos
    rwa [Nat.mul_assoc, Nat.one_mul] at hscaled
  rw [ofInt_tens hplaces, level_mul hx ha]
  simp only [hscale]

theorem ofInt_div_tens {k : Int} {places : Nat} (hplaces : places ≤ 15) (hk : Fits (k.natAbs * quantaPerUnit)) :
    ofInt k / ofInt (10 ^ places) = nearestRatio k (10 ^ places) := by
  rw [ofInt_of_fits hk, ofInt_tens hplaces]
  change div _ _ = _
  rw [div, if_neg (tens_ne_zero places), Bool.bne_false, nearest_mul_right _ _ _ quantaPerUnit_pos, nearestRatio]

def cutWhole (places : Nat) : Int → Int := mirror fun m => nearestWhole (rounded (m * 10 ^ places) 1)

theorem nearestWhole_zero : nearestWhole 0 = 0 := nearestWhole_of_lt_belowHalf (by decide) (by decide +kernel)

theorem cutWhole_neg (places : Nat) (a : Int) : cutWhole places (-a) = -cutWhole places a := by
  refine mirror_neg ?_ a
  simp only [Nat.zero_mul, rounded_zero, nearestWhole_zero]

theorem halfAway_mul_tens (a : Int) (places : Nat) :
    halfAway (a * 10 ^ places) = mirror (fun m => (m * 10 ^ places + quantaPerHalf) / quantaPerUnit) a := by
  have hcast : (10 : Int) ^ places = ((10 ^ places : Nat) : Int) := by push_cast; rfl
  rw [halfAway, hcast, mirror_mul_natCast _ _ (Nat.pow_pos (by decide))]

theorem cutWhole_eq_halfAway_iff {places : Nat} {a : Int} (h : Fits (rounded (a.natAbs * 10 ^ places) 1)) :
    cutWhole places a = halfAway (a * 10 ^ places) ↔ ¬ Strays (a.natAbs * 10 ^ places) := by
  rw [cutWhole, halfAway_mul_tens, mirror_eq_mirror_iff]
  exact nearestWhole_rounded_eq_iff h

/-- What comes out of rounding a finite number with some level to decimal places. -/
structure RoundsTo (x : Binary64) (a : Int) (places : Nat) (k : Int) (y : Binary64) : Prop where
  result : x.roundPlaces places = .ok y
  /-- The integer that was cut off, over the power of ten, is rounded once. -/
  quotient : y = nearestRatio k (10 ^ places)
  nearest : y.IsNearest k (10 ^ places)
  /-- It is the integer nearest to the exact product, unless that strays. -/
  exact_iff : IsHalfAway (a * 10 ^ places) k ↔ ¬ Strays (a.natAbs * 10 ^ places)
  /-- And it is the next one at worst, as long as the product has a place for the units. -/
  near : rounded (a.natAbs * 10 ^ places) 1 < 2 ^ 53 * quantaPerUnit →
    ∀ n, IsHalfAway (a * 10 ^ places) n → (k - n).natAbs ≤ 1
  /-- Larger products are rounded to integers, and nothing else happens to them. -/
  large : 2 ^ 53 * quantaPerUnit ≤ rounded (a.natAbs * 10 ^ places) 1 →
    k.natAbs * quantaPerUnit = rounded (a.natAbs * 10 ^ places) 1
  opposite : ∃ z, x.neg.roundPlaces places = .ok z ∧ z.same y.neg = true
  whole_iff : places = 0 → ∀ n : Int, a = n * quantaPerUnit →
    (y.same x = true ↔ ¬ (n % 2 = 1 ∧ 2 ^ 52 < n.natAbs ∧ n.natAbs < 2 ^ 53))

section Scaled

variable {x : Binary64} {a : Int} {places : Nat}

theorem fits_scaled (hplaces : places ≤ 15) (ha : x.level = some a)
    (hfinite : (x * ofInt (10 ^ places)).isFinite = true) : Fits (rounded (a.natAbs * 10 ^ places) 1) := by
  have hfits := fits_of_level hfinite (level_mul_tens hplaces (isFinite_of_mul hfinite) ha)
  rwa [natAbs_mirror] at hfits

theorem fits_cutWhole (hplaces : places ≤ 15) (ha : x.level = some a)
    (hfinite : (x * ofInt (10 ^ places)).isFinite = true) :
    Fits ((cutWhole places a).natAbs * quantaPerUnit) := by
  rw [cutWhole, natAbs_mirror]
  exact fits_nearestWhole (fits_scaled hplaces ha hfinite)

theorem roundPlaces_eq_nearestRatio (hplaces : places ≤ 15) (ha : x.level = some a)
    (hfinite : (x * ofInt (10 ^ places)).isFinite = true) :
    x.roundPlaces places = .ok (nearestRatio (cutWhole places a) (10 ^ places)) := by
  have hwhole : roundAway (x * ofInt (10 ^ places)) = .ok (cutWhole places a) := by
    rw [roundAway_eq hfinite (level_mul_tens hplaces (isFinite_of_mul hfinite) ha), mirror_mirror nearestWhole_zero,
      cutWhole]
  have hnotZero : (ofInt (10 ^ places)).same 0 = false := by
    rw [ofInt_tens hplaces]
    exact same_zero_of_ne (tens_ne_zero places)
  have hfits := fits_cutWhole hplaces ha hfinite
  have hwholeFinite : (ofInt (cutWhole places a)).isFinite = true := by
    rw [ofInt_of_fits hfits]
    rfl
  have hok : ∀ {α β : Type} (a : α) (f : α → Except Fault β), (Except.ok a >>= f) = f a := fun _ _ => rfl
  rw [← ofInt_div_tens hplaces hfits, roundPlaces_eq, powTen_of_le hplaces, hok, hwhole, hok, hnotZero,
    ofInt?_of_isFinite hwholeFinite]
  rfl

theorem level_nearestRatio_one {n : Int} (h : Fits (n.natAbs * quantaPerUnit)) :
    (nearestRatio n 1).level = some (n * quantaPerUnit) := by
  have hmirror : mirror (fun m => rounded (m * quantaPerUnit) 1) n = mirror (· * quantaPerUnit) n :=
    mirror_eq_mirror_iff.2 (rounded_of_fits h)
  rw [level_nearestRatio, hmirror]
  obtain ⟨m, rfl | rfl⟩ := Int.eq_nat_or_neg n
  · rw [mirror_natCast, Int.natCast_mul]
  · rw [mirror_neg (f := (· * quantaPerUnit)) (Nat.zero_mul _), mirror_natCast, Int.natCast_mul, Int.neg_mul]

theorem cutWhole_near (h : Fits (rounded (a.natAbs * 10 ^ places) 1))
    (hlt : rounded (a.natAbs * 10 ^ places) 1 < 2 ^ 53 * quantaPerUnit) {n : Int}
    (hn : IsHalfAway (a * 10 ^ places) n) : (cutWhole places a - n).natAbs ≤ 1 := by
  obtain rfl := isHalfAway_iff.1 hn
  obtain ⟨hbelow, habove⟩ := nearestWhole_rounded_near h hlt
  rw [cutWhole, halfAway_mul_tens, mirror, mirror]
  split <;> omega

theorem natAbs_cutWhole_of_le (h : Fits (rounded (a.natAbs * 10 ^ places) 1))
    (hge : 2 ^ 53 * quantaPerUnit ≤ rounded (a.natAbs * 10 ^ places) 1) :
    (cutWhole places a).natAbs * quantaPerUnit = rounded (a.natAbs * 10 ^ places) 1 := by
  obtain ⟨n, hn⟩ := exists_whole_of_le h (by omega)
  rw [cutWhole, natAbs_mirror, nearestWhole_of_le h hge, hn, Nat.mul_div_cancel _ quantaPerUnit_pos]

theorem isNearest_cutWhole (hplaces : places ≤ 15) (ha : x.level = some a)
    (hfinite : (x * ofInt (10 ^ places)).isFinite = true) :
    (nearestRatio (cutWhole places a) (10 ^ places)).IsNearest (cutWhole places a) (10 ^ places) := by
  have hroom := add_half_lt_of_fits (fits_cutWhole hplaces ha hfinite)
  have hpow : 0 < 10 ^ places := Nat.pow_pos (by decide)
  have hscaled : roundingLimit ≤ roundingLimit * 10 ^ places := Nat.le_mul_of_pos_right _ hpow
  exact isNearest_nearestRatio hpow (by omega)

theorem roundPlaces_neg (hplaces : places ≤ 15) (ha : x.level = some a)
    (hfinite : (x * ofInt (10 ^ places)).isFinite = true) :
    ∃ z, x.neg.roundPlaces places = .ok z ∧ z.same (nearestRatio (cutWhole places a) (10 ^ places)).neg = true := by
  have hodd := mirror_neg (f := fun m => rounded (m * quantaPerUnit) (10 ^ places))
    (by simp only [Nat.zero_mul, rounded_zero]) (cutWhole places a)
  have hlevel := level_neg (isNearest_cutWhole hplaces ha hfinite).finite
    (level_nearestRatio (cutWhole places a) (10 ^ places))
  refine ⟨_, roundPlaces_eq_nearestRatio hplaces (level_neg (isFinite_of_mul hfinite) ha)
    (isFinite_neg_mul hfinite), same_iff.2 ⟨_, ?_, hlevel⟩⟩
  rw [cutWhole_neg, level_nearestRatio, hodd]

theorem same_nearestRatio_one_iff {k n : Int} (hk : Fits (k.natAbs * quantaPerUnit))
    (ha : x.level = some (n * quantaPerUnit)) : (nearestRatio k 1).same x = true ↔ k = n := by
  have hlevel := level_nearestRatio_one hk
  constructor
  · intro hsame
    have heq := level_eq_of_same hsame
    rw [hlevel, ha] at heq
    exact Int.eq_of_mul_eq_mul_right (Int.natCast_ne_zero.2 (Nat.pos_iff_ne_zero.1 quantaPerUnit_pos))
      (Option.some.inj heq)
  · rintro rfl
    exact same_iff.2 ⟨_, hlevel, ha⟩

/-- Every finite number is rounded that stays finite when it is scaled up, and this is what it comes to. -/
theorem roundPlaces_outcome (hplaces : places ≤ 15) (ha : x.level = some a)
    (hfinite : (x * ofInt (10 ^ places)).isFinite = true) : ∃ k y, RoundsTo x a places k y := by
  have hscaled := fits_scaled hplaces ha hfinite
  have hwhole := cutWhole_eq_halfAway_iff hscaled
  refine ⟨cutWhole places a, _, roundPlaces_eq_nearestRatio hplaces ha hfinite, rfl,
    isNearest_cutWhole hplaces ha hfinite, isHalfAway_iff.trans hwhole, fun hlt _ => cutWhole_near hscaled hlt,
    natAbs_cutWhole_of_le hscaled, roundPlaces_neg hplaces ha hfinite, ?_⟩
  rintro rfl n rfl
  have hn : Fits (n.natAbs * quantaPerUnit) := by
    have hlevel := fits_of_level (isFinite_of_mul hfinite) ha
    rwa [Int.natAbs_mul, Int.natAbs_natCast] at hlevel
  rw [Int.pow_zero, Int.mul_one, halfAway_mul_quantaPerUnit] at hwhole
  rw [Nat.pow_zero, same_nearestRatio_one_iff (fits_cutWhole hplaces ha hfinite) ha, hwhole, Nat.pow_zero, Nat.mul_one,
    Int.natAbs_mul, Int.natAbs_natCast, strays_whole_iff hn]
  omega

end Scaled

theorem fiveHalves_rounded : ∃ k y, RoundsTo (ofRatio 5 2) (5 * quantaPerHalf : Nat) 0 k y ∧ k = 3 ∧ y = 3 := by
  obtain ⟨k, y, hrounds⟩ : ∃ k y, RoundsTo (ofRatio 5 2) (5 * quantaPerHalf : Nat) 0 k y :=
    roundPlaces_outcome (by decide) (by decide +kernel) (by decide +kernel)
  have hk : k = 3 := by
    refine (isHalfAway_iff.1 (hrounds.exact_iff.2 ?_)).trans (by decide +kernel)
    rw [strays_iff_of_lt (by decide +kernel) (by decide +kernel)]
    decide +kernel
  refine ⟨k, y, hrounds, hk, ?_⟩
  rw [hrounds.quotient, hk]
  decide +kernel

theorem halfAway_missed :
    ((ofInt (2 ^ 52 + 1)).roundPlaces 0 = .ok (ofInt (2 ^ 52 + 2)) ∧
      (ofInt (2 ^ 52 + 2)).same (ofInt (2 ^ 52 + 1)) = false) ∧
    ((ofRatio (2 ^ 53 - 1) (2 ^ 54)).level = some (belowHalf : Int) ∧
      (ofRatio (2 ^ 53 - 1) (2 ^ 54)).roundPlaces 0 = .ok 1 ∧
      ∀ k, IsHalfAway belowHalf k → ¬ IsNearest k 1 1) ∧
    ((ofRatio 2675 1000).level = some (rounded (2675 * quantaPerUnit) 1000 : Int) ∧
      (ofRatio 2675 1000).roundPlaces 2 = .ok (ofRatio 268 100) ∧
      ∀ k, IsHalfAway (rounded (2675 * quantaPerUnit) 1000 * 100) k → ¬ IsNearest k 100 (ofRatio 268 100)) := by
  refine ⟨by decide +kernel, ⟨by decide +kernel, by decide +kernel, fun k hk h => ?_⟩,
    ⟨by decide +kernel, by decide +kernel, fun k hk h => ?_⟩⟩
  · rw [isHalfAway_iff.1 hk] at h
    have hle := h.le 0 quantaPerUnit 0 (by decide +kernel) (by decide +kernel) level_zero
    exact absurd hle (by decide +kernel)
  · rw [isHalfAway_iff.1 hk] at h
    have hle := h.le (ofRatio 267 100) (rounded (268 * quantaPerUnit) 100) (rounded (267 * quantaPerUnit) 100)
      (by decide +kernel) (by decide +kernel) (by decide +kernel)
    exact absurd hle (by decide +kernel)

end WeekGrid.Binary64
