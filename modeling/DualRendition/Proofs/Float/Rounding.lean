import DualRendition.Proofs.Float.Parts

/-!
# Rounding

Sums, products and quotients of floats are those of the numbers, up to one rounding: `Computes`. The
bound is a whole unit in the last place, relative for normal results and absolute for subnormal ones
(`Rounds`); that the nearest float is taken is not used. Integers of 53 bits are not rounded at all.

Structure: a rounded significand lies in the same unit as the exact one (`Dyadic.exists_carried`),
and the unit is small (`Dyadic.unit_le`). Each operation then says which significand and exponent it
rounds, and that they stand for the exact result.
-/

namespace DualRendition

open Float.Model
open Float.Model.UnpackedFloat (ExtendedMantissa Accuracy shiftToTargetExponent shiftToExponent
  roundWithAccuracy)

/-! ## Significands -/

theorem mantissa_shiftRight (m : ExtendedMantissa) (n : Nat) :
    (m >>> n).mantissa = m.mantissa / 2 ^ n := by
  induction n with
  | zero => exact (Nat.div_one _).symm
  | succ n ih =>
    show (m >>> n).mantissa / 2 = _
    rw [ih, Nat.div_div_eq_div_mul, Nat.pow_succ]

theorem mantissa_ofMantissaAndAccuracy (m : Nat) (a : Accuracy) :
    (ExtendedMantissa.ofMantissaAndAccuracy m a).mantissa = m := by
  match a with
  | .exact => rfl
  | .inexact .lt => rfl
  | .inexact .eq => rfl
  | .inexact .gt => rfl

/-- Zeros that are shifted out leave the significand exact. -/
theorem shiftRight_exact (m n : Nat) :
    ExtendedMantissa.ofMantissaAndAccuracy (m * 2 ^ n) .exact >>> n = ⟨m, false, false⟩ := by
  induction n generalizing m with
  | zero =>
    rw [Nat.pow_zero, Nat.mul_one]
    rfl
  | succ n ih =>
    show ExtendedMantissa.shiftRightOne
      (ExtendedMantissa.ofMantissaAndAccuracy (m * 2 ^ (n + 1)) .exact >>> n) = _
    rw [Nat.pow_succ', ← Nat.mul_assoc, ih]
    unfold ExtendedMantissa.shiftRightOne
    simp

/-- Rounding keeps a significand or takes the next one. -/
theorem roundedMantissa_bounds (m : ExtendedMantissa) :
    m.mantissa ≤ m.roundedMantissa ∧ m.roundedMantissa ≤ m.mantissa + 1 := by
  unfold ExtendedMantissa.roundedMantissa
  cases m.accuracy with
  | exact => exact ⟨Nat.le_refl _, Nat.le_succ _⟩
  | inexact half =>
    cases half with
    | lt => exact ⟨Nat.le_refl _, Nat.le_succ _⟩
    | eq =>
      have := Nat.mod_lt m.mantissa Nat.two_pos
      exact ⟨Nat.le_add_right _ _, Nat.add_le_add_left (by omega) _⟩
    | gt => exact ⟨Nat.le_succ _, Nat.le_refl _⟩

/-- The exponent that a significand is shifted to: it leaves 53 bits, or is the least one. -/
def targetExponent (m : Nat) (e : Int) : Int := max (m.log2 + e - 52) (-1074)

theorem targetExponent_eq (m : Nat) (e : Int) :
    Format.binary64.targetExponent (totalExponent m e) = targetExponent m e := by
  show max ((m.log2 : Int) + 1 + e - (1 + 52 : Nat)) (3 - 2 ^ 10 - (1 + 52 : Nat)) = _
  unfold targetExponent
  omega

theorem log2_mul_two_pow {m : Nat} (h : m ≠ 0) (n : Nat) : (m * 2 ^ n).log2 = m.log2 + n := by
  induction n with
  | zero => rw [Nat.pow_zero, Nat.mul_one, Nat.add_zero]
  | succ n ih =>
    have hne : m * 2 ^ n ≠ 0 := Nat.mul_ne_zero h (Nat.two_pow_pos n).ne'
    rw [Nat.pow_succ', Nat.mul_left_comm, Nat.log2_two_mul hne, ih, Nat.add_assoc]

/-- What is shifted to 53 bits has no more, and no less when it had as many before. -/
theorem div_two_pow_bounds {m k : Nat} (h : m.log2 ≤ 52 + k) :
    m / 2 ^ k < 2 ^ 53 ∧ (m.log2 = 52 + k → 2 ^ 52 ≤ m / 2 ^ k) := by
  refine ⟨?_, ?_⟩
  · rw [Nat.div_lt_iff_lt_mul (Nat.two_pow_pos k), ← Nat.pow_add]
    exact Nat.lt_of_lt_of_le Nat.lt_log2_self (Nat.pow_le_pow_right Nat.two_pos (by omega))
  · intro hlog
    rw [Nat.le_div_iff_mul_le (Nat.two_pow_pos k), ← Nat.pow_add, ← hlog]
    refine Nat.log2_self_le ?_
    rintro rfl
    rw [Nat.log2_zero] at hlog
    omega

namespace Dyadic

/-- A rounded significand: if it has become too long by one bit, it is halved. -/
def carried (negative : Bool) (m : Nat) (e : Int) : Dyadic :=
  if m = 2 ^ 53 then ⟨negative, 2 ^ 52, e + 1⟩ else ⟨negative, m, e⟩

theorem negative_carried (negative : Bool) (m : Nat) (e : Int) :
    (carried negative m e).negative = negative := by
  unfold carried
  split <;> rfl

theorem exponent_carried_le (negative : Bool) (m : Nat) (e : Int) :
    (carried negative m e).exponent ≤ e + 1 := by
  unfold carried
  split
  · exact Int.le_refl _
  · show e ≤ e + 1
    omega

theorem magnitude_carried (negative : Bool) (m : Nat) (e : Int) :
    (carried negative m e).magnitude = m * 2 ^ e := by
  unfold carried magnitude
  split
  next h =>
    rw [h, zpow_add₀ two_ne_zero]
    push_cast
    ring
  next => rfl

theorem canonical_carried (negative : Bool) {m : Nat} {e : Int} (hm : m ≤ 2 ^ 53) (he : -1074 ≤ e)
    (hnormal : 2 ^ 52 ≤ m ∨ e = -1074) : (carried negative m e).Canonical := by
  unfold carried
  split
  next => exact ⟨by show 2 ^ 52 < _; decide, by show _ ≤ e + 1; omega, .inl (Nat.le_refl _)⟩
  next h => exact ⟨by show m < _; omega, he, hnormal⟩

theorem shiftToTargetExponent_carried (negative : Bool) {m : Nat} {e : Int} (hm : m ≤ 2 ^ 53)
    (he : -1074 ≤ e) : shiftToTargetExponent Format.binary64 m e .exact =
      (⟨(carried negative m e).significand, false, false⟩, (carried negative m e).exponent) := by
  unfold shiftToTargetExponent
  rw [targetExponent_eq]
  unfold shiftToExponent carried targetExponent
  dsimp only
  by_cases h : m = 2 ^ 53
  · have hshift : (max ((m.log2 : Int) + e - 52) (-1074) - e).toNat = 1 := by
      rw [h, Nat.log2_two_pow]
      omega
    rw [hshift, if_pos h, h]
    rfl
  · have hlog : m.log2 ≤ 52 := by
      by_cases hzero : m = 0
      · rw [hzero, Nat.log2_zero]
        omega
      · exact Nat.le_of_lt_succ ((Nat.log2_lt hzero).mpr (by omega))
    have hshift : (max ((m.log2 : Int) + e - 52) (-1074) - e).toNat = 0 := by omega
    rw [hshift, if_neg h, Int.natCast_zero, Int.add_zero]
    rfl

/-- Rounding goes on from the first shift with the rounded significand. -/
theorem roundWithAccuracy_eq (negative : Bool) {m : Nat} {e : Int} {a : Accuracy}
    {shifted : ExtendedMantissa} {target : Int}
    (hshift : shiftToTargetExponent Format.binary64 m e a = (shifted, target))
    (hmantissa : shifted.roundedMantissa ≤ 2 ^ 53) (htarget : -1074 ≤ target) :
    roundWithAccuracy Format.binary64 (signOf negative) m e a =
      (carried negative shifted.roundedMantissa target).unpacked := by
  unfold roundWithAccuracy unpacked
  rw [hshift]
  dsimp only
  rw [shiftToTargetExponent_carried negative hmantissa htarget, negative_carried]

theorem shiftToTargetExponent_eq {m : Nat} {e : Int} (a : Accuracy) (h : e ≤ targetExponent m e) :
    shiftToTargetExponent Format.binary64 m e a =
      (ExtendedMantissa.ofMantissaAndAccuracy m a >>> (targetExponent m e - e).toNat,
        targetExponent m e) := by
  unfold shiftToTargetExponent
  rw [targetExponent_eq]
  refine Prod.ext rfl ?_
  show e + ((targetExponent m e - e).toNat : Int) = targetExponent m e
  omega

/-- A rounded significand is at most one above the one that was cut off. -/
theorem exists_carried {m : Nat} {e : Int} (a : Accuracy) (negative : Bool)
    (h : e ≤ targetExponent m e) :
    ∃ rounded, (carried negative rounded (targetExponent m e)).Canonical ∧
      roundWithAccuracy Format.binary64 (signOf negative) m e a =
        (carried negative rounded (targetExponent m e)).unpacked ∧
      m / 2 ^ (targetExponent m e - e).toNat ≤ rounded ∧
      rounded ≤ m / 2 ^ (targetExponent m e - e).toNat + 1 := by
  have hshift := shiftToTargetExponent_eq a h
  have htarget : targetExponent m e = max (m.log2 + e - 52) (-1074) := rfl
  generalize targetExponent m e = target at h htarget hshift ⊢
  have hbounds := roundedMantissa_bounds
    (ExtendedMantissa.ofMantissaAndAccuracy m a >>> (target - e).toNat)
  rw [mantissa_shiftRight, mantissa_ofMantissaAndAccuracy] at hbounds
  obtain ⟨hlt, hnormal⟩ := @div_two_pow_bounds m (target - e).toNat (by omega)
  refine ⟨_, canonical_carried negative (by omega) (by omega) ?_,
    roundWithAccuracy_eq negative hshift (by omega) (by omega), hbounds⟩
  by_cases hleast : target = -1074
  · exact .inr hleast
  · exact .inl (Nat.le_trans (hnormal (by omega)) hbounds.1)

/-- Canonical parts are rounded to themselves, also with zeros behind the significand. -/
theorem Canonical.roundWithAccuracy_eq {d : Dyadic} (h : d.Canonical) (n : Nat) :
    roundWithAccuracy Format.binary64 (signOf d.negative) (d.significand * 2 ^ n) (d.exponent - n)
      .exact = d.unpacked := by
  obtain ⟨negative, significand, exponent⟩ := d
  obtain ⟨hsignificand, hge, hnormal⟩ := h
  dsimp only at hsignificand hge hnormal ⊢
  have htarget : targetExponent (significand * 2 ^ n) (exponent - n) = exponent := by
    unfold targetExponent
    by_cases hzero : significand = 0
    · rw [hzero, Nat.zero_mul, Nat.log2_zero]
      omega
    · have hlt := (Nat.log2_lt hzero).mpr hsignificand
      rw [log2_mul_two_pow hzero]
      rcases hnormal with hnormal | hleast
      · have := (Nat.le_log2 hzero).mpr hnormal
        omega
      · omega
  have hshift := shiftToTargetExponent_eq .exact
    (show exponent - n ≤ targetExponent (significand * 2 ^ n) (exponent - n) by omega)
  rw [htarget, show (exponent - (exponent - (n : Int))).toNat = n by omega,
    shiftRight_exact] at hshift
  rw [Dyadic.roundWithAccuracy_eq negative hshift (Nat.le_of_lt hsignificand) hge]
  show (carried negative significand exponent).unpacked = _
  unfold carried
  rw [if_neg (Nat.ne_of_lt hsignificand)]

end Dyadic

/-! ## One rounding -/

/-- The distance of the least floats from each other. -/
def leastStep : ℚ := 2 ^ (-1074 : Int)

theorem leastStep_pos : 0 < leastStep := zpow_pos two_pos _

/-- Results up to this one are far from overflowing. -/
def ample : ℚ := 2 ^ (1000 : Int)

/-- `r` is `t` up to one unit in the last place. -/
def Rounds (t r : ℚ) : Prop := |r - t| ≤ |t| / 2 ^ 52 + leastStep

theorem Rounds.neg {t r : ℚ} (h : Rounds t r) : Rounds (-t) (-r) := by
  unfold Rounds at h ⊢
  rwa [neg_sub_neg, abs_sub_comm, abs_neg]

/-- The float is the number `t` after one rounding. It is finite when `t` is far from overflowing.
-/
structure Computes (x : Float) (t : ℚ) : Prop where
  rounds : ∀ r, Denotes x r → Rounds t r
  finite : |t| ≤ ample → ∃ r, Denotes x r

variable {m : Nat} {e : Int} {t : ℚ}

/-- The unit of the last place is small against the number, unless it is the least one. -/
theorem unit_le (h : e ≤ targetExponent m e) (hlow : m * 2 ^ e ≤ t) :
    (2 : ℚ) ^ targetExponent m e ≤ t / 2 ^ 52 + leastStep := by
  have hpower : ∀ n : Int, (0 : ℚ) < 2 ^ n := fun n => zpow_pos two_pos n
  have hnonneg : 0 ≤ t := le_trans (mul_nonneg (Nat.cast_nonneg m) (hpower e).le) hlow
  unfold targetExponent at h ⊢
  rcases max_choice ((m.log2 : Int) + e - 52) (-1074) with hmax | hmax
  · rw [hmax] at h ⊢
    have hm : m ≠ 0 := by
      rintro rfl
      rw [Nat.log2_zero] at h
      omega
    have hlead : (2 : ℚ) ^ ((m.log2 : Int) + e - 52) * 2 ^ 52 ≤ t := by
      calc (2 : ℚ) ^ ((m.log2 : Int) + e - 52) * 2 ^ 52
          = (2 ^ m.log2 : Nat) * 2 ^ e := by
            push_cast
            rw [← zpow_natCast, ← zpow_natCast, ← zpow_add₀ two_ne_zero, ← zpow_add₀ two_ne_zero,
              show (m.log2 : Int) + e - 52 + (52 : Nat) = m.log2 + e by omega]
        _ ≤ m * 2 ^ e := by
            refine mul_le_mul_of_nonneg_right ?_ (hpower e).le
            exact_mod_cast Nat.log2_self_le hm
        _ ≤ t := hlow
    exact le_add_of_le_of_nonneg ((le_div_iff₀ (by positivity)).mpr hlead) leastStep_pos.le
  · rw [hmax]
    exact le_add_of_nonneg_left (by positivity)

/-- The exponent of a number that is far from overflowing. -/
theorem targetExponent_le (h : e ≤ targetExponent m e) (hlow : m * 2 ^ e ≤ t) (ht : t ≤ ample) :
    targetExponent m e ≤ 970 := by
  unfold targetExponent at h ⊢
  by_contra hlarge
  have hm : m ≠ 0 := by
    rintro rfl
    rw [Nat.log2_zero] at h hlarge
    omega
  have hlead : ((2 ^ m.log2 : Nat) : ℚ) * 2 ^ e ≤ 2 ^ (1000 : Int) := by
    refine le_trans (mul_le_mul_of_nonneg_right ?_ (zpow_pos two_pos e).le) (le_trans hlow ht)
    exact_mod_cast Nat.log2_self_le hm
  rw [Nat.cast_pow, Nat.cast_ofNat, ← zpow_natCast, ← zpow_add₀ two_ne_zero,
    zpow_le_zpow_iff_right₀ one_lt_two] at hlead
  omega

/-- The number and its rounded significand lie in the same unit. -/
theorem carried_error (negative : Bool) {rounded : Nat} (h : e ≤ targetExponent m e)
    (hlow : m * 2 ^ e ≤ t) (hhigh : t ≤ (m + 1) * 2 ^ e)
    (hdown : m / 2 ^ (targetExponent m e - e).toNat ≤ rounded)
    (hup : rounded ≤ m / 2 ^ (targetExponent m e - e).toNat + 1) :
    |(Dyadic.carried negative rounded (targetExponent m e)).magnitude - t| ≤
      2 ^ targetExponent m e := by
  rw [Dyadic.magnitude_carried]
  generalize targetExponent m e = target at h hdown hup ⊢
  generalize hk : (target - e).toNat = k at hdown hup
  have hunit : (2 : ℚ) ^ target = 2 ^ k * 2 ^ e := by
    rw [← zpow_natCast, ← zpow_add₀ two_ne_zero, show (k : Int) + e = target by omega]
  have hpower : ∀ n : Int, (0 : ℚ) ≤ 2 ^ n := fun n => (zpow_pos two_pos n).le
  have hfloor : ((m / 2 ^ k : Nat) : ℚ) * 2 ^ target ≤ t := by
    refine le_trans ?_ hlow
    rw [hunit, ← mul_assoc]
    exact mul_le_mul_of_nonneg_right (by exact_mod_cast Nat.div_mul_le_self m (2 ^ k)) (hpower e)
  have hceil : t ≤ ((m / 2 ^ k : Nat) + 1) * 2 ^ target := by
    refine le_trans hhigh ?_
    have hrest : m + 1 ≤ (m / 2 ^ k + 1) * 2 ^ k := by
      rw [Nat.add_mul, Nat.one_mul]
      exact Nat.lt_div_mul_add (Nat.two_pow_pos k)
    rw [hunit, ← mul_assoc]
    exact mul_le_mul_of_nonneg_right (by exact_mod_cast hrest) (hpower e)
  have hdown : ((m / 2 ^ k : Nat) : ℚ) * 2 ^ target ≤ rounded * 2 ^ target :=
    mul_le_mul_of_nonneg_right (by exact_mod_cast hdown) (hpower target)
  have hup : (rounded : ℚ) * 2 ^ target ≤ ((m / 2 ^ k : Nat) + 1) * 2 ^ target :=
    mul_le_mul_of_nonneg_right (by exact_mod_cast hup) (hpower target)
  rw [abs_le]
  constructor
  · linarith only [hceil, hdown]
  · linarith only [hfloor, hup]

/-- A significand and an exponent, with a number in their unit, are rounded to that number. -/
theorem computes_rounded (a : Accuracy) (negative : Bool) (h : e ≤ targetExponent m e)
    (hlow : m * 2 ^ e ≤ t) (hhigh : t ≤ (m + 1) * 2 ^ e) :
    Computes (.ofModel (.pack (roundWithAccuracy Format.binary64 (Dyadic.signOf negative) m e a)))
      (if negative then -t else t) := by
  obtain ⟨rounded, hcanonical, hround, hdown, hup⟩ := Dyadic.exists_carried a negative h
  have hnonneg : 0 ≤ t :=
    le_trans (mul_nonneg (Nat.cast_nonneg m) (zpow_pos two_pos e).le) hlow
  have herror := le_trans (carried_error negative h hlow hhigh hdown hup) (unit_le h hlow)
  have hexponent := Dyadic.exponent_carried_le negative rounded (targetExponent m e)
  have hnegative := Dyadic.negative_carried negative rounded (targetExponent m e)
  have hbits := hcanonical.ofFloat?_pack
  rw [hround]
  have hmagnitude : Rounds t (Dyadic.carried negative rounded (targetExponent m e)).magnitude := by
    unfold Rounds
    rwa [abs_of_nonneg hnonneg]
  generalize Dyadic.carried negative rounded (targetExponent m e) = d at *
  have hvalue : Rounds (if negative then -t else t) d.value := by
    unfold Dyadic.value
    rw [hnegative]
    cases negative with
    | false => exact hmagnitude
    | true => exact hmagnitude.neg
  refine ⟨?_, ?_⟩
  · rintro r ⟨d', hd', rfl⟩
    rw [hbits] at hd'
    split at hd'
    next =>
      obtain rfl := Option.some.inj hd'
      exact hvalue
    next => cases hd'
  · intro hample
    have ht : |t| ≤ ample := by
      cases negative with
      | false => exact hample
      | true => rwa [if_pos rfl, abs_neg] at hample
    have := targetExponent_le h hlow (le_trans (le_abs_self t) ht)
    rw [if_pos (by omega)] at hbits
    exact ⟨_, d, hbits, rfl⟩

end DualRendition
