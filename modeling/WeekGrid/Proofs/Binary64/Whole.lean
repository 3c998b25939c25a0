import WeekGrid.Binary64.Whole

/-!
When numbers can be turned into whole numbers and rounded to decimal places. Only infinite numbers and NaN
have no whole part; so a number can be rounded unless it is infinite or NaN once it is scaled up.
-/
namespace WeekGrid

theorem two_mul_roundDiv_le (num den : Nat) : 2 * (roundDiv num den * den) ≤ 2 * num + den := by
  have hdiv : num / den * den + num % den = num := by rw [Nat.mul_comm]; exact Nat.div_add_mod num den
  have hsucc : (num / den + 1) * den = num / den * den + den := Nat.succ_mul ..
  simp only [roundDiv]
  repeat' split
  all_goals omega

namespace Binary64

def mostBits : Nat := 2098

/-- How many low bits the significands of the largest finite doubles leave out. -/
def mostSpareBits : Nat := 2045

/-- Half a unit above the largest finite double, in quanta. -/
def roundingLimit : Nat := (Nat.pow 2 54 - 1) * Nat.pow 2 2044

def quantaPerHalf : Nat := Nat.pow 2 1073

theorem log2_lt_mostBits_iff {n : Nat} : n.log2 < mostBits ↔ n < Nat.pow 2 mostBits := by
  have hbits : 0 < mostBits := by decide
  generalize mostBits = bits at hbits ⊢
  rcases Nat.eq_zero_or_pos n with rfl | hpos
  · exact iff_of_true hbits (Nat.two_pow_pos bits)
  · exact Nat.log2_lt (Nat.pos_iff_ne_zero.1 hpos)

theorem roundToQuanta_lt {num den : Nat} (h : num < roundingLimit * den) :
    roundToQuanta num den < Nat.pow 2 mostBits := by
  have hspare : spareBits num den ≤ mostSpareBits := by
    have hlimit : roundingLimit < Nat.pow 2 mostBits := by decide +kernel
    have hquotient : num / den < roundingLimit := Nat.div_lt_of_lt_mul (Nat.mul_comm .. ▸ h)
    have hlog := log2_lt_mostBits_iff.2 (Nat.lt_trans hquotient hlimit)
    unfold spareBits mostSpareBits
    unfold mostBits at hlog
    omega
  generalize hunit : 2 ^ spareBits num den = unit
  have hunitLe : den * unit ≤ den * 2 ^ mostSpareBits := by
    rw [← hunit]
    exact Nat.mul_le_mul_left den (Nat.pow_le_pow_right (n := 2) (by decide) hspare)
  have hresult : 2 * (roundToQuanta num den * den) ≤ 2 * num + den * unit := by
    have hround := two_mul_roundDiv_le num (den * unit)
    have hcomm : roundToQuanta num den * den = roundDiv num (den * unit) * (den * unit) := by
      simp only [roundToQuanta, Nat.pow_eq, hunit, Nat.mul_assoc, Nat.mul_comm]
    rwa [hcomm]
  have hsum : 2 * roundingLimit + 2 ^ mostSpareBits = 2 * Nat.pow 2 mostBits := by decide +kernel
  refine Nat.lt_of_mul_lt_mul_left (a := 2 * den) ?_
  calc 2 * den * roundToQuanta num den = 2 * (roundToQuanta num den * den) := by
        rw [Nat.mul_assoc, Nat.mul_comm den]
    _ ≤ 2 * num + den * 2 ^ mostSpareBits := Nat.le_trans hresult (Nat.add_le_add_left hunitLe _)
    _ < 2 * (roundingLimit * den) + den * 2 ^ mostSpareBits := by omega
    _ = den * (2 * roundingLimit + 2 ^ mostSpareBits) := by
        rw [Nat.mul_add, ← Nat.mul_assoc, Nat.mul_comm _ den]
    _ = 2 * den * Nat.pow 2 mostBits := by rw [hsum, ← Nat.mul_assoc, Nat.mul_comm den]

theorem isFinite_nearest (negative : Bool) {num den : Nat} (h : num < roundingLimit * den) :
    (nearest negative num den).isFinite = true := by
  have hlog : (roundToQuanta num den).log2 < 2098 := log2_lt_mostBits_iff.2 (roundToQuanta_lt h)
  rw [nearest, dif_pos hlog]
  rfl

/-- A finite double lies half a unit below the limit, which leaves room for a half. -/
theorem add_half_lt_of_fits {quanta : Nat} (h : Fits quanta) : quanta + quantaPerHalf < roundingLimit := by
  have hroom : (2 ^ 53 - 1) * 2 ^ mostSpareBits + quantaPerHalf < roundingLimit := by decide +kernel
  refine Nat.lt_of_le_of_lt (Nat.add_le_add_right ?_ quantaPerHalf) hroom
  obtain ⟨hlog, significand, hquanta⟩ := h
  rcases Nat.eq_zero_or_pos quanta with hzero | hpos
  · rw [hzero]
    exact Nat.zero_le _
  · have hunit : 2 ^ (quanta.log2 - 52) ≤ 2 ^ mostSpareBits :=
      Nat.pow_le_pow_right (by decide) (by unfold mostSpareBits; omega)
    have hsignificand : significand ≤ 2 ^ 53 - 1 := by
      have hlt : quanta < 2 ^ 53 * 2 ^ (quanta.log2 - 52) := by
        rw [← Nat.pow_add]
        refine Nat.lt_of_lt_of_le Nat.lt_log2_self (Nat.pow_le_pow_right (by decide) (by omega))
      have hmul : 2 ^ (quanta.log2 - 52) * significand < 2 ^ (quanta.log2 - 52) * 2 ^ 53 := by
        rw [Nat.mul_comm _ (2 ^ 53)]
        exact Nat.lt_of_le_of_lt (Nat.le_of_eq hquanta.symm) hlt
      exact Nat.le_sub_one_of_lt (Nat.lt_of_mul_lt_mul_left hmul)
    calc quanta = significand * 2 ^ (quanta.log2 - 52) := by rw [Nat.mul_comm]; exact hquanta
      _ ≤ (2 ^ 53 - 1) * 2 ^ mostSpareBits := Nat.mul_le_mul hsignificand hunit

theorem isFinite_ofInt {n : Int} {quanta : Nat} (hfits : Fits quanta)
    (hle : n.natAbs * quantaPerUnit ≤ quanta) : (ofInt n).isFinite = true := by
  refine isFinite_nearest _ ?_
  have hroom := add_half_lt_of_fits hfits
  rw [Nat.mul_one]
  exact Nat.lt_of_le_of_lt hle (Nat.lt_of_le_of_lt (Nat.le_add_right _ _) hroom)

theorem natAbs_signedQuanta (negative : Bool) (quanta : Nat) :
    (signedQuanta negative quanta).natAbs = quanta := by
  cases negative <;> simp [signedQuanta]

theorem half_eq : ofRatio 1 2 = .finite false quantaPerHalf (by decide +kernel) := by decide +kernel

theorem isFinite_add_half {x : Binary64} (h : x.isFinite = true) : (x + ofRatio 1 2).isFinite = true := by
  cases x with
  | nan => cases h
  | infinite => cases h
  | finite negative quanta fits =>
    have hsum : (signedQuanta negative quanta + signedQuanta false quantaPerHalf).natAbs ≤
        quanta + quantaPerHalf := by
      refine Nat.le_trans (Int.natAbs_add_le _ _) (Nat.le_of_eq ?_)
      rw [natAbs_signedQuanta, natAbs_signedQuanta]
    rw [half_eq]
    change (add _ _).isFinite = true
    rw [add]
    split
    · rfl
    · refine isFinite_nearest _ (Nat.lt_of_le_of_lt hsum ?_)
      rw [Nat.mul_one]
      exact add_half_lt_of_fits fits

/-- Why a number has no whole part. -/
inductive HasNoWhole : Binary64 → Fault → Prop where
  | nan : HasNoWhole .nan .notANumber
  | infinite (negative : Bool) : HasNoWhole (.infinite negative) .outOfRange

theorem toWhole_eq_error_iff {round : Nat → Nat} {x : Binary64} {fault : Fault} :
    toWhole round x = .error fault ↔ HasNoWhole x fault := by
  cases x with
  | nan =>
    constructor
    · rintro ⟨⟩
      exact .nan
    · rintro ⟨⟩
      rfl
  | infinite negative =>
    constructor
    · rintro ⟨⟩
      exact .infinite negative
    · rintro ⟨⟩
      rfl
  | finite negative quanta fits =>
    constructor
    · rintro ⟨⟩
    · rintro ⟨⟩

theorem hasNoWhole_of_not_isFinite {x : Binary64} (h : x.isFinite = false) : ∃ fault, HasNoWhole x fault := by
  cases x with
  | nan => exact ⟨_, .nan⟩
  | infinite negative => exact ⟨_, .infinite negative⟩
  | finite => cases h

theorem exists_truncate {x : Binary64} (h : x.isFinite = true) :
    ∃ n, truncate x = .ok n ∧ (ofInt n).isFinite = true ∧ (ofInt (-n)).isFinite = true := by
  cases x with
  | nan => cases h
  | infinite => cases h
  | finite negative quanta fits =>
    have hle : (signedQuanta negative (quanta / quantaPerUnit)).natAbs * quantaPerUnit ≤ quanta := by
      rw [natAbs_signedQuanta]
      exact Nat.div_mul_le_self quanta quantaPerUnit
    exact ⟨_, rfl, isFinite_ofInt fits hle, isFinite_ofInt fits (by rwa [Int.natAbs_neg])⟩

theorem ofInt?_of_isFinite {n : Int} (h : (ofInt n).isFinite = true) : ofInt? n = .ok (ofInt n) := by
  rw [ofInt?, if_pos h]
  rfl

theorem ofInt?_eq_error_iff {n : Int} {fault : Fault} :
    ofInt? n = .error fault ↔ (ofInt n).isFinite = false ∧ fault = .outOfRange := by
  cases hfinite : (ofInt n).isFinite with
  | true => simp [ofInt?_of_isFinite hfinite]
  | false =>
    have hthrow : ofInt? n = .error .outOfRange := if_neg (Bool.eq_false_iff.1 hfinite)
    rw [hthrow]
    exact ⟨fun h => ⟨rfl, (Except.error.inj h).symm⟩, fun h => congrArg Except.error h.2.symm⟩

theorem isFinite_neg (x : Binary64) : x.neg.isFinite = x.isFinite := by cases x <;> rfl

def roundAway (x : Binary64) : Except Fault Int :=
  let half := ofRatio 1 2
  if le 0 x then truncate (x + half) else (do return -(← truncate (neg x + half)))

theorem roundPlaces_eq (x : Binary64) (places : Int) :
    x.roundPlaces places = do
      let multiplier ← powTen places
      let whole ← roundAway (x * multiplier)
      if multiplier.same 0 then throw .divisionByZero
      return (← ofInt? whole) / multiplier := by
  unfold roundPlaces roundAway
  refine congrArg (powTen places >>= ·) (funext fun multiplier => ?_)
  generalize ofRatio 1 2 = half
  dsimp only
  generalize le 0 (x * multiplier) = isPositive
  generalize multiplier.same 0 = isZero
  cases isPositive with
  | false => cases ((x * multiplier).neg + half).truncate <;> rfl
  | true => rfl

theorem roundAway_of_hasNoWhole {x : Binary64} {fault : Fault} (h : HasNoWhole x fault) :
    roundAway x = .error fault := by
  obtain ⟨quanta, fits, hhalf⟩ : ∃ quanta fits, ofRatio 1 2 = .finite false quanta fits := ⟨_, _, half_eq⟩
  unfold roundAway
  rw [hhalf]
  generalize le 0 x = isPositive
  cases h with
  | nan => cases isPositive <;> rfl
  | infinite => cases isPositive <;> rfl

theorem exists_roundAway {x : Binary64} (h : x.isFinite = true) :
    ∃ n, roundAway x = .ok n ∧ (ofInt n).isFinite = true := by
  rw [roundAway]
  split
  · obtain ⟨n, hn, hroom, -⟩ := exists_truncate (isFinite_add_half h)
    exact ⟨n, hn, hroom⟩
  · obtain ⟨n, hn, -, hroom⟩ := exists_truncate (isFinite_add_half ((isFinite_neg x).trans h))
    exact ⟨-n, by rw [hn]; rfl, hroom⟩

/-- A number can be rounded to decimal places if it is finite once it is scaled up, and not otherwise. -/
theorem roundPlaces_eq_error_iff {x multiplier : Binary64} {places : Int} {fault : Fault}
    (hpow : powTen places = .ok multiplier) (hzero : multiplier.same 0 = false) :
    x.roundPlaces places = .error fault ↔ HasNoWhole (x * multiplier) fault := by
  have hok : ∀ {α β : Type} (a : α) (f : α → Except Fault β), (Except.ok a >>= f) = f a := fun _ _ => rfl
  rw [roundPlaces_eq, hpow, hok, hzero]
  constructor
  · intro h
    cases hfinite : (x * multiplier).isFinite with
    | true =>
      obtain ⟨n, hn, hroom⟩ := exists_roundAway hfinite
      rw [hn, hok, ofInt?_of_isFinite hroom] at h
      cases h
    | false =>
      obtain ⟨other, hother⟩ := hasNoWhole_of_not_isFinite hfinite
      rw [roundAway_of_hasNoWhole hother] at h
      cases h
      exact hother
  · intro h
    rw [roundAway_of_hasNoWhole h]
    rfl

end Binary64
end WeekGrid
