import WeekGrid.Proofs.Binary64.Order
import WeekGrid.Proofs.Binary64.Whole

/-!
Rounding keeps the order of numbers. An operation with a positive constant is told by what it does to levels:
a monotone function of the magnitude, mirrored to the negative side. Rounding to decimal places is made of
such operations only, and so it is monotone, too.
-/
namespace WeekGrid

theorem le_roundDiv (num den : Nat) : num / den ≤ roundDiv num den := by
  simp only [roundDiv]
  repeat' split
  all_goals omega

theorem roundDiv_mono {num num' : Nat} (h : num ≤ num') (den : Nat) : roundDiv num den ≤ roundDiv num' den := by
  have hdiv : num / den ≤ num' / den := Nat.div_le_div_right h
  rcases Nat.lt_or_eq_of_le hdiv with hlt | heq
  · have hle := roundDiv_le num den
    have hge := le_roundDiv num' den
    omega
  · have hnum := Nat.div_add_mod num den
    have hnum' := Nat.div_add_mod num' den
    rw [heq] at hnum
    have hmod : num % den ≤ num' % den := by omega
    simp only [roundDiv, heq]
    repeat' split
    all_goals omega

namespace Binary64

theorem roundToQuanta_mono {num num' : Nat} (h : num ≤ num') (den : Nat) :
    roundToQuanta num den ≤ roundToQuanta num' den := by
  have hdiv : num / den ≤ num' / den := Nat.div_le_div_right h
  have hspare : spareBits num den ≤ spareBits num' den := by
    unfold spareBits
    have hlog : (num / den).log2 ≤ (num' / den).log2 := by
      rcases Nat.eq_zero_or_pos (num / den) with hzero | hpos
      · rw [hzero]; exact Nat.zero_le _
      · exact (Nat.le_log2 (by omega)).2 (Nat.le_trans (Nat.log2_self_le (by omega)) hdiv)
    omega
  rcases Nat.lt_or_eq_of_le hspare with hlt | heq
  · -- the larger number leaves out more bits, and so it is above a power of two that the smaller does not reach
    have hlow := roundDiv_spareBits_le num den
    have hhigh : 2 ^ 52 ≤ roundDiv num' (den * Nat.pow 2 (spareBits num' den)) := by
      refine Nat.le_trans ?_ (le_roundDiv _ _)
      rw [← Nat.div_div_eq_div_mul, Nat.pow_eq, Nat.le_div_iff_mul_le (Nat.two_pow_pos _), ← Nat.pow_add]
      have hpos : num' / den ≠ 0 := by
        intro hzero
        simp [spareBits, hzero] at hlt
      refine Nat.le_trans (Nat.pow_le_pow_right (by decide) ?_) (Nat.log2_self_le hpos)
      unfold spareBits at hlt ⊢
      omega
    calc roundToQuanta num den ≤ 2 ^ 53 * 2 ^ spareBits num den := Nat.mul_le_mul_right _ hlow
      _ = 2 ^ 52 * 2 ^ (spareBits num den + 1) := by rw [← Nat.pow_add, ← Nat.pow_add]; congr 1; omega
      _ ≤ 2 ^ 52 * 2 ^ spareBits num' den := Nat.mul_le_mul_left _ (Nat.pow_le_pow_right (by decide) hlt)
      _ ≤ roundToQuanta num' den := Nat.mul_le_mul_right _ hhigh
  · simp only [roundToQuanta, heq]
    exact Nat.mul_le_mul_right _ (roundDiv_mono h _)

theorem roundToQuanta_of_fits {quanta : Nat} (h : Fits quanta) : roundToQuanta quanta 1 = quanta := by
  obtain ⟨-, hdvd⟩ := h
  have hspare : spareBits quanta 1 = quanta.log2 - 52 := by rw [spareBits, Nat.div_one]
  have hround : ∀ unit : Nat, 0 < unit → unit ∣ quanta → roundDiv quanta unit * unit = quanta := by
    rintro unit hunit ⟨significand, rfl⟩
    have hdiv : roundDiv (unit * significand) unit = significand := by
      simp only [roundDiv, Nat.mul_div_cancel_left _ hunit, Nat.mul_mod_right, Nat.mul_zero, if_pos hunit]
    rw [hdiv, Nat.mul_comm]
  simp only [roundToQuanta, hspare, Nat.one_mul]
  exact hround _ (Nat.two_pow_pos _) hdvd

/-- The magnitude of the nearest double; what is past the largest finite one has the magnitude of the
infinite. -/
def rounded (num den : Nat) : Nat := min (roundToQuanta num den) (Nat.pow 2 mostBits)

theorem rounded_mono {num num' : Nat} (h : num ≤ num') (den : Nat) : rounded num den ≤ rounded num' den := by
  have hround := roundToQuanta_mono h den
  unfold rounded
  generalize Nat.pow 2 mostBits = limit
  omega

theorem roundToQuanta_zero (den : Nat) : roundToQuanta 0 den = 0 := by simp [roundToQuanta, roundDiv]

@[simp] theorem rounded_zero (den : Nat) : rounded 0 den = 0 := by rw [rounded, roundToQuanta_zero, Nat.zero_min]

theorem rounded_of_fits {quanta : Nat} (h : Fits quanta) : rounded quanta 1 = quanta := by
  rw [rounded, roundToQuanta_of_fits h]
  exact Nat.min_eq_left (Nat.le_of_lt (log2_lt_mostBits_iff.1 h.1))

theorem fits_rounded {num den : Nat} (h : num < roundingLimit * den) : Fits (rounded num den) := by
  have hlt := roundToQuanta_lt h
  rw [rounded, Nat.min_eq_left (Nat.le_of_lt hlt)]
  exact ⟨log2_lt_mostBits_iff.2 hlt, dvd_roundToQuanta num den⟩

theorem lt_of_rounded_lt {num quanta : Nat} (h : Fits quanta) (hlt : rounded num 1 < quanta) : num < quanta := by
  refine Nat.lt_of_not_le fun hle => Nat.lt_irrefl quanta (Nat.lt_of_le_of_lt ?_ hlt)
  have hmono := rounded_mono hle 1
  rwa [rounded_of_fits h] at hmono

theorem lt_of_lt_rounded {num quanta : Nat} (h : Fits quanta) (hlt : quanta < rounded num 1) : quanta < num := by
  refine Nat.lt_of_not_le fun hle => Nat.lt_irrefl quanta (Nat.lt_of_lt_of_le hlt ?_)
  have hmono := rounded_mono hle 1
  rwa [rounded_of_fits h] at hmono

theorem level_nearest (negative : Bool) (num den : Nat) :
    (nearest negative num den).level = some (signedQuanta negative (rounded num den)) := by
  by_cases hlog : (roundToQuanta num den).log2 < 2098
  · rw [nearest, dif_pos hlog, rounded, Nat.min_eq_left (Nat.le_of_lt (log2_lt_mostBits_iff.1 hlog))]
    rfl
  · have hlarge : Nat.pow 2 mostBits ≤ roundToQuanta num den :=
      Nat.not_lt.1 fun hlt => hlog (log2_lt_mostBits_iff.2 hlt)
    have hbits : 2098 = mostBits := rfl
    rw [nearest, dif_neg hlog, rounded, Nat.min_eq_right hlarge]
    simp only [level, hbits]

/-- A function of magnitudes, mirrored to the negative integers. -/
def mirror (f : Nat → Nat) (a : Int) : Int := if a < 0 then -(f a.natAbs : Int) else f a.natAbs

theorem mirror_signedQuanta {f : Nat → Nat} (hzero : f 0 = 0) (negative : Bool) (quanta : Nat) :
    mirror f (signedQuanta negative quanta) = signedQuanta negative (f quanta) := by
  rw [mirror, natAbs_signedQuanta]
  cases negative with
  | false =>
    rw [if_neg (by simp [signedQuanta])]
    rfl
  | true =>
    rcases Nat.eq_zero_or_pos quanta with rfl | hpos
    · simp [signedQuanta, hzero]
    · rw [if_pos (by simpa [signedQuanta] using hpos)]
      rfl

theorem mirror_mono {f : Nat → Nat} (hmono : ∀ {m n}, m ≤ n → f m ≤ f n) {a b : Int} (h : a ≤ b) :
    mirror f a ≤ mirror f b := by
  unfold mirror
  split
  · next ha =>
    split
    · have := hmono (m := b.natAbs) (n := a.natAbs) (by omega)
      omega
    · omega
  · next ha =>
    rw [if_neg (by omega)]
    have := hmono (m := a.natAbs) (n := b.natAbs) (by omega)
    omega

@[simp] theorem mirror_natCast (f : Nat → Nat) (n : Nat) : mirror f n = f n := by
  rw [mirror, if_neg (by omega), Int.natAbs_natCast]

theorem mirror_mirror {f : Nat → Nat} (hzero : f 0 = 0) (g : Nat → Nat) (a : Int) :
    mirror f (mirror g a) = mirror (fun m => f (g m)) a := by
  unfold mirror
  by_cases ha : a < 0
  · simp only [if_pos ha]
    rcases Nat.eq_zero_or_pos (g a.natAbs) with hg | hg
    · simp [hg, hzero]
    · rw [if_pos (by omega), Int.natAbs_neg, Int.natAbs_natCast]
  · simp only [if_neg ha]
    rw [if_neg (by omega), Int.natAbs_natCast]

theorem mirror_neg {f : Nat → Nat} (hzero : f 0 = 0) (a : Int) : mirror f (-a) = -mirror f a := by
  rcases Int.lt_trichotomy a 0 with hneg | rfl | hpos
  · rw [mirror, mirror, if_neg (by omega), if_pos hneg, Int.natAbs_neg, Int.neg_neg]
  · simp [mirror, hzero]
  · rw [mirror, mirror, if_pos (by omega), if_neg (by omega), Int.natAbs_neg]

theorem mirror_mul_natCast (f : Nat → Nat) (a : Int) {c : Nat} (hc : 0 < c) :
    mirror f (a * c) = mirror (fun m => f (m * c)) a := by
  have hsign : a * c < 0 ↔ a < 0 := by
    constructor
    · intro h
      refine Int.not_le.1 fun hle => ?_
      have := Int.mul_nonneg hle (Int.natCast_nonneg c)
      omega
    · exact fun h => Int.mul_neg_of_neg_of_pos h (by omega)
  simp only [mirror, hsign, Int.natAbs_mul, Int.natAbs_natCast]

theorem mirror_eq_mirror_iff {f g : Nat → Nat} {a : Int} : mirror f a = mirror g a ↔ f a.natAbs = g a.natAbs := by
  unfold mirror
  split <;> omega

theorem natAbs_mirror (f : Nat → Nat) (a : Int) : (mirror f a).natAbs = f a.natAbs := by
  unfold mirror
  split <;> omega

theorem level_neg {x : Binary64} {a : Int} (hx : x.isFinite = true) (ha : x.level = some a) :
    x.neg.level = some (-a) := by
  cases x with
  | nan => cases hx
  | infinite => cases hx
  | finite negative quanta fits =>
    cases ha
    cases negative <;> simp [neg, level, signedQuanta]

theorem level_add {x y : Binary64} {a b : Int} (hx : x.isFinite = true) (hy : y.isFinite = true)
    (ha : x.level = some a) (hb : y.level = some b) :
    (x + y).level = some (mirror (rounded · 1) (a + b)) := by
  cases x with
  | nan => cases hx
  | infinite => cases hx
  | finite s m mfits =>
    cases y with
    | nan => cases hy
    | infinite => cases hy
    | finite t n nfits =>
      cases ha
      cases hb
      change (add _ _).level = _
      rw [add]
      generalize signedQuanta s m + signedQuanta t n = sum
      by_cases hsum : sum = 0
      · rw [if_pos hsum, hsum]
        cases hboth : s && t <;> simp [zero, level, signedQuanta, mirror]
      · rw [if_neg hsum, level_nearest, mirror]
        by_cases hneg : sum < 0 <;> simp [hneg, signedQuanta]

theorem level_sub {x y : Binary64} {a b : Int} (hx : x.isFinite = true) (hy : y.isFinite = true)
    (ha : x.level = some a) (hb : y.level = some b) :
    (x - y).level = some (mirror (rounded · 1) (a - b)) := by
  rw [Int.sub_eq_add_neg]
  exact level_add hx ((isFinite_neg y).trans hy) ha (level_neg hy hb)

theorem level_mul {x : Binary64} {a : Int} (hx : x.isFinite = true) (ha : x.level = some a) (quanta : Nat)
    (fits : Fits quanta) :
    (x * .finite false quanta fits).level = some (mirror (fun m => rounded (m * quanta) quantaPerUnit) a) := by
  cases x with
  | nan => cases hx
  | infinite => cases hx
  | finite s m mfits =>
    cases ha
    change (mul _ _).level = _
    rw [mul, level_nearest, mirror_signedQuanta (by simp), Bool.bne_false]

theorem level_div {x : Binary64} {a : Int} (hx : x.isFinite = true) (ha : x.level = some a) {quanta : Nat}
    (hpos : quanta ≠ 0) (fits : Fits quanta) :
    (x / .finite false quanta fits).level = some (mirror (fun m => rounded (m * quantaPerUnit) quanta) a) := by
  cases x with
  | nan => cases hx
  | infinite => cases hx
  | finite s m mfits =>
    cases ha
    change (div _ _).level = _
    rw [div, if_neg hpos, level_nearest, mirror_signedQuanta (by simp), Bool.bne_false]

theorem level_ofInt (n : Int) : (ofInt n).level = some (mirror (fun m => rounded (m * quantaPerUnit) 1) n) := by
  rw [ofInt, level_nearest, mirror]
  by_cases hneg : n < 0 <;> simp [hneg, signedQuanta]

theorem level_zero : (0 : Binary64).level = some 0 := by
  change (ofInt 0).level = some 0
  rw [level_ofInt]
  simp [mirror]

theorem same_zero_of_ne {quanta : Nat} {fits : Fits quanta} (hne : quanta ≠ 0) :
    (finite false quanta fits).same 0 = false := by
  refine Bool.eq_false_iff.2 fun hsame => hne ?_
  have hlevel := level_eq_of_same hsame
  rw [level_zero] at hlevel
  exact Int.ofNat.inj (Option.some.inj hlevel)

theorem ofInt?_eq_ok_iff {n : Int} {x : Binary64} : ofInt? n = .ok x ↔ (ofInt n).isFinite = true ∧ ofInt n = x := by
  cases hfinite : (ofInt n).isFinite with
  | true => simp [ofInt?_of_isFinite hfinite]
  | false => simp [ofInt?_eq_error_iff.2 ⟨hfinite, rfl⟩]

theorem truncate_eq {x : Binary64} {a : Int} (hx : x.isFinite = true) (ha : x.level = some a) :
    truncate x = .ok (mirror (· / quantaPerUnit) a) := by
  cases x with
  | nan => cases hx
  | infinite => cases hx
  | finite s m mfits =>
    cases ha
    have hmirror := @mirror_signedQuanta (· / quantaPerUnit) (Nat.zero_div _) s m
    rw [hmirror]
    rfl

/-- Half a unit more, rounded to a double, then cut: the nearest integer to a magnitude. -/
def nearestWhole (quanta : Nat) : Nat := rounded (quanta + quantaPerHalf) 1 / quantaPerUnit

theorem roundAway_eq {x : Binary64} {a : Int} (hx : x.isFinite = true) (ha : x.level = some a) :
    roundAway x = .ok (mirror nearestWhole a) := by
  have hhalf : (ofRatio 1 2).isFinite = true ∧ (ofRatio 1 2).level = some (quantaPerHalf : Int) := by
    rw [half_eq]
    exact ⟨rfl, rfl⟩
  have hpositive : ∀ {y : Binary64} {b : Nat}, y.isFinite = true → y.level = some (b : Int) →
      truncate (y + ofRatio 1 2) = .ok (nearestWhole b : Int) := by
    intro y b hy hb
    have hsum := level_add hy hhalf.1 hb hhalf.2
    rw [← Int.natCast_add, mirror_natCast] at hsum
    rw [truncate_eq (isFinite_add_half hy) hsum, mirror_natCast, nearestWhole]
  rw [roundAway]
  simp only [le, level_zero, ha]
  by_cases hneg : a < 0
  · have hlevel : x.neg.level = some (a.natAbs : Int) := by
      rw [level_neg hx ha]
      congr 1
      omega
    rw [if_neg (by simpa using hneg), hpositive ((isFinite_neg x).trans hx) hlevel, mirror, if_pos hneg]
    rfl
  · have hlevel : x.level = some (a.natAbs : Int) := by
      rw [ha]
      congr 1
      omega
    rw [if_pos (by simpa using hneg), hpositive hx hlevel, mirror, if_neg hneg]

/-- A finite number rounded to decimal places, on levels; the power of ten has so many quanta. -/
def roundedLevel (quanta : Nat) (a : Int) : Int :=
  mirror (fun m => rounded (m * quantaPerUnit) quanta)
    (mirror (fun m => rounded (m * quantaPerUnit) 1)
      (mirror nearestWhole (mirror (fun m => rounded (m * quanta) quantaPerUnit) a)))

theorem roundedLevel_mono (quanta : Nat) {a b : Int} (h : a ≤ b) : roundedLevel quanta a ≤ roundedLevel quanta b := by
  refine mirror_mono (fun hle => ?_) (mirror_mono (fun hle => ?_) (mirror_mono (fun hle => ?_)
    (mirror_mono (fun hle => ?_) h)))
  · exact rounded_mono (Nat.mul_le_mul_right _ hle) _
  · exact rounded_mono (Nat.mul_le_mul_right _ hle) _
  · exact Nat.div_le_div_right (rounded_mono (Nat.add_le_add_right hle _) _)
  · exact rounded_mono (Nat.mul_le_mul_right _ hle) _

theorem isFinite_of_mul {x y : Binary64} (h : (x * y).isFinite = true) : x.isFinite = true := by
  change (mul x y).isFinite = true at h
  cases x with
  | nan => cases h
  | infinite s =>
    cases y with
    | nan => cases h
    | infinite t => cases h
    | finite t n nfits =>
      rw [mul] at h
      split at h <;> cases h
  | finite => rfl

theorem isFinite_of_add {x y : Binary64} (h : (x + y).isFinite = true) : x.isFinite = true ∧ y.isFinite = true := by
  change (add x y).isFinite = true at h
  cases x with
  | nan => cases h
  | infinite s =>
    cases y with
    | nan => cases h
    | infinite t =>
      rw [add] at h
      split at h <;> cases h
    | finite => cases h
  | finite =>
    cases y with
    | nan => cases h
    | infinite t => cases h
    | finite => exact ⟨rfl, rfl⟩

theorem level_roundPlaces {x y : Binary64} {places : Int} {quanta : Nat} {fits : Fits quanta}
    (hpow : powTen places = .ok (.finite false quanta fits)) (hpos : quanta ≠ 0)
    (h : x.roundPlaces places = .ok y) :
    x.isFinite = true ∧ ∃ a, x.level = some a ∧ y.level = some (roundedLevel quanta a) := by
  rw [roundPlaces_eq] at h
  obtain ⟨multiplier, hmultiplier, h⟩ := Outcome.bind_eq_ok_iff.1 h
  cases hpow.symm.trans hmultiplier
  obtain ⟨whole, hwhole, h⟩ := Outcome.bind_eq_ok_iff.1 h
  rw [same_zero_of_ne hpos] at h
  obtain ⟨w, hw, h⟩ := Outcome.bind_eq_ok_iff.1 h
  cases h
  cases hscaled : (x * .finite false quanta fits).isFinite with
  | false =>
    obtain ⟨fault, hfault⟩ := hasNoWhole_of_not_isFinite hscaled
    rw [roundAway_of_hasNoWhole hfault] at hwhole
    cases hwhole
  | true =>
    have hx := isFinite_of_mul hscaled
    obtain ⟨a, ha⟩ := exists_level hx
    rw [roundAway_eq hscaled (level_mul hx ha quanta fits)] at hwhole
    cases hwhole
    obtain ⟨hfinite, rfl⟩ := ofInt?_eq_ok_iff.1 hw
    exact ⟨hx, a, ha, level_div hfinite (level_ofInt _) hpos fits⟩

theorem roundPlaces_le {x y u v : Binary64} {places : Int} {quanta : Nat} {fits : Fits quanta}
    (hpow : powTen places = .ok (.finite false quanta fits)) (hpos : quanta ≠ 0)
    (hu : x.roundPlaces places = .ok u) (hv : y.roundPlaces places = .ok v) (h : x.le y = true) :
    u.le v = true := by
  obtain ⟨-, a, ha, hu⟩ := level_roundPlaces hpow hpos hu
  obtain ⟨-, b, hb, hv⟩ := level_roundPlaces hpow hpos hv
  obtain ⟨a', b', ha', hb', hle⟩ := le_iff.1 h
  rw [ha] at ha'
  rw [hb] at hb'
  cases ha'
  cases hb'
  exact le_iff.2 ⟨_, _, hu, hv, roundedLevel_mono quanta hle⟩

theorem fits_of_level {x : Binary64} {a : Int} (hx : x.isFinite = true) (ha : x.level = some a) : Fits a.natAbs := by
  cases x with
  | nan => cases hx
  | infinite => cases hx
  | finite negative quanta fits =>
    cases ha
    rwa [natAbs_signedQuanta]

theorem mirror_rounded_level {x : Binary64} {a : Int} (hx : x.isFinite = true) (ha : x.level = some a) :
    mirror (rounded · 1) a = a := by
  cases x with
  | nan => cases hx
  | infinite => cases hx
  | finite negative quanta fits =>
    cases ha
    have hmirror := @mirror_signedQuanta (rounded · 1) (rounded_zero 1) negative quanta
    rw [hmirror, rounded_of_fits fits]

theorem same_sub {x y u v : Binary64} (hx : x.isFinite = true) (hy : y.isFinite = true) (hu : u.isFinite = true)
    (hv : v.isFinite = true) (hxu : x.same u = true) (hyv : y.same v = true) : (x - y).same (u - v) = true := by
  obtain ⟨a, hxa, hua⟩ := same_iff.1 hxu
  obtain ⟨b, hyb, hvb⟩ := same_iff.1 hyv
  exact same_iff.2 ⟨_, level_sub hx hy hxa hyb, level_sub hu hv hua hvb⟩

theorem sub_pos_of_lt {x y : Binary64} (hx : x.isFinite = true) (hy : y.isFinite = true) (h : y.lt x = true) :
    lt 0 (x - y) = true := by
  obtain ⟨b, a, hb, ha, hlt⟩ := lt_iff.1 h
  refine lt_iff.2 ⟨0, _, level_zero, level_sub hx hy ha hb, ?_⟩
  have hone : rounded 1 1 = 1 := rounded_of_fits (by decide)
  have hround : rounded 1 1 ≤ rounded (a - b).natAbs 1 := rounded_mono (by omega) 1
  rw [mirror, if_neg (by omega)]
  omega

/-- Adding zero changes no number, except that it may turn a negative zero into a positive one. -/
theorem level_add_zero (x : Binary64) : (x + 0).level = x.level := by
  cases hfinite : x.isFinite with
  | true =>
    obtain ⟨a, ha⟩ := exists_level hfinite
    rw [level_add hfinite (by decide +kernel) ha level_zero, Int.add_zero, mirror_rounded_level hfinite ha, ha]
  | false =>
    have hzero : (0 : Binary64) = zero false := by decide +kernel
    rw [hzero]
    cases x with
    | nan => rfl
    | infinite => rfl
    | finite => cases hfinite

theorem le_add {x y : Binary64} (hx : x.isFinite = true) (hy : y.isFinite = true) (h : le 0 y = true) :
    x.le (x + y) = true := by
  obtain ⟨a, ha⟩ := exists_level hx
  obtain ⟨zero, b, hzero, hb, hle⟩ := le_iff.1 h
  cases level_zero.symm.trans hzero
  refine le_iff.2 ⟨a, _, ha, level_add hx hy ha hb, ?_⟩
  calc a = mirror (rounded · 1) a := (mirror_rounded_level hx ha).symm
    _ ≤ mirror (rounded · 1) (a + b) := mirror_mono (fun hle => rounded_mono hle 1) (by omega)

theorem pos_of_lt_add {x y : Binary64} (hsum : (x + y).isFinite = true) (h : x.lt (x + y) = true) :
    lt 0 y = true := by
  obtain ⟨hx, hy⟩ := isFinite_of_add hsum
  obtain ⟨a, c, ha, hc, hlt⟩ := lt_iff.1 h
  obtain ⟨b, hb⟩ := exists_level hy
  cases (level_add hx hy ha hb).symm.trans hc
  refine lt_iff.2 ⟨0, b, level_zero, hb, Int.not_le.1 fun hle => ?_⟩
  have hround : mirror (rounded · 1) (a + b) ≤ mirror (rounded · 1) a :=
    mirror_mono (fun hle => rounded_mono hle 1) (by omega)
  rw [mirror_rounded_level hx ha] at hround
  omega

theorem two_eq : (2 : Binary64) = .finite false (2 * quantaPerUnit) (by decide +kernel) := by decide +kernel

theorem le_half {x : Binary64} (hx : x.isFinite = true) (h : lt 0 x = true) : le 0 (x / 2) = true := by
  obtain ⟨zero, a, hzero, ha, hlt⟩ := lt_iff.1 h
  cases level_zero.symm.trans hzero
  have hpos : 2 * quantaPerUnit ≠ 0 := by decide +kernel
  rw [two_eq]
  refine le_iff.2 ⟨0, _, level_zero, level_div hx ha hpos _, ?_⟩
  rw [mirror, if_neg (by omega)]
  exact Int.natCast_nonneg _

end Binary64
end WeekGrid
