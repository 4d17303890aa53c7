import DualRendition.Proofs.Float.Operations
import DualRendition.Proofs.Fraction

/-!
# Fractions read back

A float that was read from a stored fraction is stored as the same fraction again, at the same
scale: `Fraction.ofFloat_toFloat`. So storing loses something once and never twice:
`Fraction.reread_reread`.

Structure: the numerator at a scale is the scaled value, rounded half up, with a small error
(`Ratio.exists_scaled?`, `Ratio.scaled?_bounds`). The value read back is so close to the fraction
that the numerator comes out again. No larger scale fits: what was too large there is, after
rounding at the next smaller scale, still too large when it is scaled up again.
-/

namespace DualRendition

namespace Ratio

variable {value : Float} {p : ℚ} {k : Nat} {x : Int}

/-! ## Numerators -/

theorem le_ample {t : ℚ} (h : t ≤ 2 ^ 200) : t ≤ ample := by
  refine le_trans h ?_
  unfold ample
  rw [← zpow_natCast]
  exact zpow_le_zpow_right₀ one_le_two (by decide)

theorem leastStep_le : leastStep ≤ 1 / 2 ^ 100 := by
  unfold leastStep
  rw [one_div, ← zpow_natCast, ← zpow_neg]
  exact zpow_le_zpow_right₀ one_le_two (by decide)

theorem denotes_half : Denotes 0.5 (1 / 2) := by
  refine ⟨⟨false, 2 ^ 52, -53⟩, rfl, ?_⟩
  unfold Dyadic.value Dyadic.magnitude
  norm_num

theorem denotes_scale (hk : k ≤ 6) : Denotes (10 ^ k : Nat).toFloat (10 ^ k) := by
  have hle : 10 ^ k ≤ 10 ^ 6 := Nat.pow_le_pow_right (by decide) hk
  exact_mod_cast @denotes_ofNat (10 ^ k) (by omega)

/-- How large a product is once the half is added, by how large it should be. -/
theorem abs_add_half_le (product t : ℚ) : |product + 1 / 2| ≤ |product - t| + |t| + 1 / 2 := by
  have htriangle := abs_add_three (product - t) t (1 / 2)
  rwa [sub_add_cancel, abs_of_pos (by norm_num : (0 : ℚ) < 1 / 2)] at htriangle

/-- A value that is not too large has a numerator at every scale. -/
theorem exists_scaled? (hvalue : Denotes value p) (hk : k ≤ 6) (hsmall : |p * 10 ^ k| ≤ 2 ^ 100) :
    ∃ y, scaled? value (10 ^ k) = some y := by
  have hproduct := hvalue.mul (denotes_scale hk)
  obtain ⟨product, hdenotes⟩ := hproduct.finite (le_ample (by linarith))
  have hrounds := hproduct.rounds product hdenotes
  unfold Rounds at hrounds
  have htriangle := abs_add_half_le product (p * 10 ^ k)
  have hlarge : |product + 1 / 2| ≤ 2 ^ 200 := by
    linarith [leastStep_le]
  obtain ⟨sum, hsum⟩ := (hdenotes.add denotes_half).finite (le_ample hlarge)
  exact ⟨_, hsum.floor⟩

/-- The numerator is the floor of a number close to the scaled value plus one half. -/
theorem scaled?_bounds (hvalue : Denotes value p) (hk : k ≤ 6)
    (hx : scaled? value (10 ^ k) = some x) :
    ∃ r : ℚ, x ≤ r ∧ r < x + 1 ∧
      |r - (p * 10 ^ k + 1 / 2)| ≤ |p * 10 ^ k| / 2 ^ 50 + 1 / 2 ^ 50 := by
  obtain ⟨r, hr, rfl⟩ := Denotes.of_floor hx
  obtain ⟨product, hdenotes⟩ := hr.of_add
  have hproduct := (hvalue.mul (denotes_scale hk)).rounds product hdenotes
  have hsum := (hdenotes.add denotes_half).rounds r hr
  unfold Rounds at hproduct hsum
  refine ⟨r, Int.floor_le r, Int.lt_floor_add_one r, ?_⟩
  have hsplit := abs_add_le (r - (product + 1 / 2)) (product - p * 10 ^ k)
  rw [show r - (product + 1 / 2) + (product - p * 10 ^ k) = r - (p * 10 ^ k + 1 / 2) by ring]
    at hsplit
  have htriangle := abs_add_half_le product (p * 10 ^ k)
  linarith [leastStep_le, abs_nonneg (p * 10 ^ k)]

theorem exists_denotes (hx : scaled? value (10 ^ k) = some x) : ∃ p, Denotes value p := by
  obtain ⟨sum, hsum, -⟩ := Denotes.of_floor hx
  obtain ⟨product, hproduct⟩ := hsum.of_add
  exact hproduct.of_mul

/-- A numerator of 32 bits is within a half of the scaled value, but for a small error. -/
theorem scaled?_near (hvalue : Denotes value p) (hk : k ≤ 6)
    (hx : scaled? value (10 ^ k) = some x) (hlow : -2 ^ 32 ≤ x) (hhigh : x ≤ 2 ^ 32) :
    |p * 10 ^ k - x| ≤ 501 / 1000 := by
  obtain ⟨r, hle, hlt, herror⟩ := scaled?_bounds hvalue hk hx
  have hlow : (-2 ^ 32 : ℚ) ≤ x := by exact_mod_cast hlow
  have hhigh : (x : ℚ) ≤ 2 ^ 32 := by exact_mod_cast hhigh
  rw [abs_le] at herror ⊢
  rcases abs_choice (p * 10 ^ k) with habs | habs
  · rw [habs] at herror
    constructor <;> linarith
  · rw [habs] at herror
    constructor <;> linarith

/-! ## The same scale again -/

/-- If the numerator does not fit at a scale, then the one at the next smaller scale is so large
that ten times it does not fit. -/
theorem large_of_not_fits (hvalue : Denotes value p) (hk : k + 1 ≤ 6)
    (hfits : Fits value (-2147483648) 2147483647 (10 ^ k) x)
    (hnext : ∀ y, ¬Fits value (-2147483648) 2147483647 (10 ^ (k + 1)) y) :
    214748365 ≤ x ∨ x ≤ -214748365 := by
  obtain ⟨hx, hlow, hhigh⟩ := hfits
  have hnear := abs_le.mp (scaled?_near hvalue (by omega) hx (by omega) (by omega))
  by_contra hsmall
  rw [not_or, Int.not_le, Int.not_le] at hsmall
  have hxlow : (-214748364 : ℚ) ≤ x := by exact_mod_cast Int.add_one_le_of_lt hsmall.2
  have hxhigh : (x : ℚ) ≤ 214748364 := by exact_mod_cast Int.le_of_lt_add_one hsmall.1
  -- the numerator at the larger scale is ten times this one, but for ten halves
  have hten : p * 10 ^ (k + 1) = p * 10 ^ k * 10 := by rw [pow_succ, mul_assoc]
  have hsize : |p * 10 ^ (k + 1)| ≤ 2147483646 := by
    rw [hten, abs_le]
    constructor <;> linarith
  obtain ⟨y, hy⟩ := exists_scaled? hvalue hk (le_trans hsize (by norm_num))
  obtain ⟨r, hle, hlt, herror⟩ := scaled?_bounds hvalue hk hy
  have herror := abs_le.mp (le_trans herror (show _ ≤ (1 / 1000 : ℚ) by linarith))
  have hsize := abs_le.mp hsize
  refine hnext y ⟨hy, ?_, ?_⟩
  · have : (-2147483648 : ℚ) ≤ y := by linarith
    exact_mod_cast this
  · have : (y : ℚ) ≤ 2147483647 := by linarith
    exact_mod_cast this

/-- The float that is read is close to the numerator at the scale of the fraction. -/
theorem scale_close {q : ℚ} (hk : k ≤ 6) (hlow : (-2147483648 : ℚ) ≤ x)
    (hhigh : (x : ℚ) ≤ 2147483647) (hrounds : Rounds (x / 10 ^ k) q) :
    |q * 10 ^ k - x| ≤ 1 / 1000 := by
  have hpow : (0 : ℚ) < 10 ^ k := by positivity
  have hle : (10 : ℚ) ^ k ≤ 10 ^ 6 := pow_le_pow_right₀ (by norm_num) hk
  have hsize : |(x : ℚ)| ≤ 2147483648 := by
    rw [abs_le]
    constructor <;> linarith
  have hsteps : leastStep * 10 ^ k ≤ 1 / 2 ^ 100 * 10 ^ 6 :=
    mul_le_mul leastStep_le hle hpow.le (by positivity)
  have hscaled : |q * 10 ^ k - x| = |q - x / 10 ^ k| * 10 ^ k := by
    rw [← abs_of_pos hpow, ← abs_mul, abs_of_pos hpow, sub_mul, div_mul_cancel₀ _ hpow.ne']
  have hunit : |(x : ℚ) / 10 ^ k| / 2 ^ 52 * 10 ^ k = |(x : ℚ)| / 2 ^ 52 := by
    rw [abs_div, abs_of_pos hpow, div_mul_eq_mul_div, div_mul_cancel₀ _ hpow.ne']
  unfold Rounds at hrounds
  have herror := mul_le_mul_of_nonneg_right hrounds hpow.le
  rw [add_mul, hunit, ← hscaled] at herror
  linarith

/-- A float close to the fraction that was stored is stored at the same scale, with the same
numerator. -/
theorem LargestScale.of_rounds {read : Float} {q : ℚ}
    (h : LargestScale value (-2147483648) 2147483647 6 k x) (hread : Denotes read q)
    (hrounds : Rounds (x / 10 ^ k) q) :
    LargestScale read (-2147483648) 2147483647 6 k x := by
  obtain ⟨p, hvalue⟩ := exists_denotes h.fits.numerator
  have hlow : (-2147483648 : ℚ) ≤ x := by exact_mod_cast h.fits.low_le
  have hhigh : (x : ℚ) ≤ 2147483647 := by exact_mod_cast h.fits.le_high
  have hclose := abs_le.mp (scale_close h.le_top hlow hhigh hrounds)
  have hsize : |q * 10 ^ k| ≤ 2 ^ 32 := by
    rw [abs_le]
    constructor <;> linarith
  refine ⟨h.le_top, ⟨?_, h.fits.low_le, h.fits.le_high⟩, ?_⟩
  · obtain ⟨y, hy⟩ := exists_scaled? hread h.le_top (le_trans hsize (by norm_num))
    obtain ⟨r, hle, hlt, herror⟩ := scaled?_bounds hread h.le_top hy
    have herror := abs_le.mp (le_trans herror (show _ ≤ (1 / 1000 : ℚ) by linarith))
    have hupper : (y : ℚ) < x + 1 := by linarith
    have hlower : (x : ℚ) < y + 1 := by linarith
    have hupper : y < x + 1 := by exact_mod_cast hupper
    have hlower : x < y + 1 := by exact_mod_cast hlower
    obtain rfl : y = x := by omega
    exact hy
  · intro j hj hlt y hfits
    have hlarge := large_of_not_fits hvalue (by omega) h.fits
      (h.largest (k + 1) (by omega) (by omega))
    have hylow : (-2147483648 : ℚ) ≤ y := by exact_mod_cast hfits.low_le
    have hyhigh : (y : ℚ) ≤ 2147483647 := by exact_mod_cast hfits.le_high
    have hnear := abs_le.mp (scaled?_near hread hj hfits.numerator
      (Int.le_trans (by decide) hfits.low_le) (Int.le_trans hfits.le_high (by decide)))
    -- what is read is at least ten times as large at the larger scale
    obtain ⟨n, rfl⟩ : ∃ n, j = k + (n + 1) := ⟨j - k - 1, by omega⟩
    have hscale : q * 10 ^ (k + (n + 1)) = q * 10 ^ k * 10 * 10 ^ n := by ring
    have hpow : (1 : ℚ) ≤ 10 ^ n := one_le_pow₀ (by norm_num)
    rw [hscale] at hnear
    rcases hlarge with hlarge | hlarge
    · have hlarge : (214748365 : ℚ) ≤ x := by exact_mod_cast hlarge
      have := le_mul_of_one_le_right (show 0 ≤ q * 10 ^ k * 10 by linarith) hpow
      linarith
    · have hlarge : (x : ℚ) ≤ -214748365 := by exact_mod_cast hlarge
      have := mul_le_of_one_le_right (show q * 10 ^ k * 10 ≤ 0 by linarith) hpow
      linarith

end Ratio

/-! ## Fractions -/

theorem Denotes.isFinite {value : Float} {q : ℚ} (h : Denotes value q) : value.isFinite = true := by
  obtain ⟨d, hd, -⟩ := h
  show value.toModel.unpack.isFinite = true
  rw [Dyadic.unpack_of_ofFloat? hd]
  unfold Dyadic.unpacked
  split
  · rfl
  · rfl

namespace Fraction

variable {value read : Float} {r : Fraction}

/-- A fraction is read as its quotient, rounded once. -/
theorem rounds_of_toFloat (h : r.toFloat = .ok read) :
    ∃ q, Denotes read q ∧ Rounds (r.numerator.toInt / r.denominator.toNat) q := by
  unfold toFloat Ratio.quotient at h
  split at h
  next hvalid =>
    obtain rfl := Except.ok.inj h
    have hpos : 0 < r.denominator.toNat := by
      refine Nat.pos_of_ne_zero fun hzero => ?_
      unfold Ratio.isValid at hvalid
      rw [UInt32.toNat_inj.mp (hzero.trans UInt32.toNat_zero.symm)] at hvalid
      cases hvalid
    have hlow := r.numerator.le_toInt
    have hhigh := r.numerator.toInt_lt
    have hquotient := (@denotes_ofInt r.numerator.toInt (by omega)).div
      (denotes_toFloat r.denominator) (by exact_mod_cast hpos.ne')
    have hsize : |(r.numerator.toInt : ℚ) / r.denominator.toNat| ≤ 2 ^ 200 := by
      have hone : (1 : ℚ) ≤ r.denominator.toNat := by exact_mod_cast hpos
      have hlow : (-2 ^ 31 : ℚ) ≤ r.numerator.toInt := by exact_mod_cast hlow
      have hhigh : (r.numerator.toInt : ℚ) ≤ 2 ^ 31 := by exact_mod_cast hhigh.le
      rw [abs_div, abs_of_pos (show (0 : ℚ) < r.denominator.toNat by linarith)]
      refine le_trans (div_le_self (abs_nonneg _) hone) (le_trans (abs_le.mpr ⟨hlow, hhigh⟩) ?_)
      norm_num
    obtain ⟨q, hq⟩ := hquotient.finite (Ratio.le_ample hsize)
    exact ⟨q, hq, hquotient.rounds q hq⟩
  next => cases h

/-- **A fraction that is read back is stored as it was.** A float that is stored becomes a fraction.
The float that this fraction is read as becomes the same fraction, so nothing is lost but once. -/
theorem ofFloat_toFloat (h : ofFloat value = .ok r) (hread : r.toFloat = .ok read) :
    ofFloat read = .ok r := by
  obtain ⟨-, k, x, hlargest, hlowest⟩ :=
    Ratio.approximate_eq_ok_iff.mp (Fraction.ofFloat_eq_ok_iff.mp h)
  obtain ⟨q, hq, hrounds⟩ := rounds_of_toFloat hread
  have hquotient := hlowest.quotient
  rw [Nat.cast_pow, Nat.cast_ofNat] at hquotient
  rw [hquotient] at hrounds
  exact Fraction.ofFloat_eq_ok_iff.mpr (Ratio.approximate_eq_ok_iff.mpr
    ⟨hq.isFinite, k, x, hlargest.of_rounds hq hrounds, hlowest⟩)

/-- What a float is read as after it was stored. -/
def reread (value : Float) : Outcome Float := ofFloat value >>= toFloat

theorem reread_eq_ok_iff :
    reread value = .ok read ↔ ∃ r, ofFloat value = .ok r ∧ r.toFloat = .ok read :=
  Outcome.bind_eq_ok

/-- What was read once is read again. -/
theorem reread_reread (h : reread value = .ok read) : reread read = .ok read := by
  obtain ⟨r, hr, hread⟩ := reread_eq_ok_iff.mp h
  exact reread_eq_ok_iff.mpr ⟨r, ofFloat_toFloat hr hread, hread⟩

end Fraction

end DualRendition
