import DualRendition.Color.Light
import DualRendition.GainMap.Gain
import DualRendition.Proofs.Float.Rounding

/-!
# Bounds in single precision

Codes and places are single precision floats that were cut to integers, after they were held between
0 and a greatest value. Rounding does not take them beyond it: a quantized code is never over the
largest one (`Code.quantize_le`), and a tap never behind the last sample of an axis of up to 2^24
samples (`Tap.centered_inside`).

Structure: `Within q` says of an unpacked float that it is a number from 0 to `q`. Storing a result
does not enlarge it (`within_stored`), and one rounding by less than 2^-8 if it is below 2^16
(`within_rounded`). No more than upper bounds is needed, so the float nearest to a result plays no
part.
-/

namespace DualRendition

open Float.Model
open Float.Model.UnpackedFloat (Accuracy ExtendedMantissa Sign packComponents roundWithAccuracy
  decreaseExponent shiftToTargetExponent shiftToExponent)

namespace Single

/-- A number from 0 to `q`. -/
def Within (q : ℚ) : UnpackedFloat → Prop
  | .zero _ => 0 ≤ q
  | .finite .positive m e _ => m * 2 ^ e ≤ q
  | .finite .negative _ _ _ | .infinity _ | .notANumber => False

variable {q : ℚ} {m : Nat} {e : Int}

theorem Within.nonneg {u : UnpackedFloat} (h : Within q u) : 0 ≤ q := by
  cases u with
  | zero sign => exact h
  | finite sign m e hpos =>
    cases sign with
    | negative => exact h.elim
    | positive => exact le_trans (by positivity) h
  | infinity sign => exact h.elim
  | notANumber => exact h.elim

/-! ## Storing -/

/-- What is read back of a float that was stored. -/
def stored (u : UnpackedFloat) : UnpackedFloat := (Float32.Model.pack u).unpack

theorem within_finite_iff {sign : Sign} {m' : Nat} {e' : Int} {hpos : 0 < m}
    (hsign : sign = .positive) (hm : m = m') (he : e = e') :
    Within q (.finite sign m e hpos) ↔ (m' : ℚ) * 2 ^ e' ≤ q := by
  subst hsign hm he
  rfl

section Fields

variable {biased : BitVec 8} {fraction : BitVec 23} {bits : BitVec 32}
  (hbits : bits = packComponents Format.binary32 .positive biased fraction)

include hbits

theorem fields_of_bits :
    @UnpackedFloat.unpackExponent Format.binary32 bits = biased ∧
    @UnpackedFloat.unpackMantissa Format.binary32 bits = fraction ∧
    Sign.ofBitVec (@UnpackedFloat.unpackSign Format.binary32 bits) = .positive := by
  rw [hbits]
  refine ⟨UnpackedFloat.unpackExponent_packComponents, UnpackedFloat.unpackMantissa_packComponents,
    ?_⟩
  rw [UnpackedFloat.unpackSign_packComponents]
  rfl

/-- The number in the fields of a normal float, ... -/
theorem within_normal_iff (hones : biased ≠ -1#8) (hzero : biased ≠ 0#8) :
    Within q (UnpackedFloat.unpack Format.binary32 bits) ↔
      ((2 ^ 23 + fraction.toNat : Nat) : ℚ) * 2 ^ ((biased.toNat : Int) - 150) ≤ q := by
  obtain ⟨hexponent, hfraction, hsign⟩ := fields_of_bits hbits
  have hlead : (1#1 ++ fraction).toNat = 2 ^ 23 + fraction.toNat := by
    rw [BitVec.toNat_append, ← Nat.shiftLeft_add_eq_or_of_lt fraction.isLt, Nat.shiftLeft_eq]
    rfl
  unfold UnpackedFloat.unpack
  dsimp only
  rw [if_neg (by rwa [hexponent]), if_neg (by rwa [hexponent])]
  refine within_finite_iff hsign ?_ ?_
  · rw [hfraction, hlead]
  · rw [hexponent]
    rfl

/-- ... and of a subnormal one. -/
theorem within_subnormal_iff (hzero : biased = 0#8) (hne : fraction ≠ 0#23) :
    Within q (UnpackedFloat.unpack Format.binary32 bits) ↔
      (fraction.toNat : ℚ) * 2 ^ (-149 : Int) ≤ q := by
  obtain ⟨hexponent, hfraction, hsign⟩ := fields_of_bits hbits
  rw [hzero] at hexponent
  unfold UnpackedFloat.unpack
  dsimp only
  rw [if_neg (by rw [hexponent]; decide), if_pos hexponent, dif_neg (by rwa [hfraction])]
  refine within_finite_iff hsign ?_ ?_
  · rw [hfraction]
  · rw [hexponent]
    rfl

end Fields

/-- The significand has up to 24 bits, and the exponent is not below the least one. -/
def Fits (u : UnpackedFloat) : Prop :=
  ∀ sign m e hpos, u = .finite sign m e hpos → m < 2 ^ 24 ∧ -149 ≤ e

/-- The bits of a positive number, unless it is too large for the format. -/
theorem pack_positive (hpos : 0 < m) (hsmall : e ≤ 100) :
    UnpackedFloat.pack Format.binary32 (.finite .positive m e hpos) =
      if m.log2 + 1 = 24 then
        packComponents Format.binary32 .positive (.ofNat 8 (e + 150).toNat) (.ofNat 23 m)
      else packComponents Format.binary32 .positive 0#8 (.ofNat 23 m) := by
  have hbias : e + (Format.binary32.exponentBias : Int) + (23 : Nat) = e + 150 := by
    show e + (127 : Nat) + (23 : Nat) = _
    omega
  have hpack : UnpackedFloat.pack Format.binary32 (.finite .positive m e hpos) =
      if 2 ^ 8 ≤ (e + 150).toNat + 1 then packComponents Format.binary32 .positive (-1#8) 0#23
      else if m.log2 + 1 = 24 then
        packComponents Format.binary32 .positive (.ofNat 8 (e + 150).toNat) (.ofNat 23 m)
      else packComponents Format.binary32 .positive 0#8 (.ofNat 23 m) := by
    unfold UnpackedFloat.pack
    dsimp only
    rw [hbias]
    rfl
  rw [hpack, if_neg (by omega)]

/-- Storing does not make a number larger. -/
theorem within_stored {u : UnpackedFloat} (h : Within q u) (hfits : Fits u)
    (hq : q ≤ 2 ^ (100 : Int)) : Within q (stored u) := by
  cases u with
  | zero sign => cases sign <;> exact h
  | infinity sign => exact h.elim
  | notANumber => exact h.elim
  | finite sign m e hpos =>
    cases sign with
    | negative => exact h.elim
    | positive =>
      obtain ⟨hlt, hge⟩ := hfits _ m e hpos rfl
      have hvalue : (m : ℚ) * 2 ^ e ≤ q := h
      have hsmall : e ≤ 100 := by
        have hone : (1 : ℚ) ≤ m := by exact_mod_cast hpos
        have hpower : (2 : ℚ) ^ e ≤ 2 ^ (100 : Int) := by
          refine le_trans ?_ (le_trans hvalue hq)
          exact le_mul_of_one_le_left (zpow_pos two_pos e).le hone
        exact (zpow_le_zpow_iff_right₀ one_lt_two).mp hpower
      show Within q (UnpackedFloat.unpack Format.binary32 (UnpackedFloat.pack Format.binary32 _))
      rw [pack_positive hpos hsmall]
      by_cases hlog : m.log2 + 1 = 24
      · have hlead : 2 ^ 23 ≤ m := by
          rw [← show m.log2 = 23 by omega]
          exact Nat.log2_self_le hpos.ne'
        have hbiased : (BitVec.ofNat 8 (e + 150).toNat).toNat = (e + 150).toNat :=
          Nat.mod_eq_of_lt (by omega)
        have hfraction : (BitVec.ofNat 23 m).toNat = m - 2 ^ 23 := by
          rw [BitVec.toNat_ofNat]
          omega
        rw [if_pos hlog, within_normal_iff rfl, hbiased, hfraction, Nat.add_sub_cancel' hlead,
          show ((e + 150).toNat : Int) - 150 = e by omega]
        · exact hvalue
        · intro hones
          have := congrArg BitVec.toNat hones
          rw [hbiased] at this
          change _ = 255 at this
          omega
        · intro hzero
          have := congrArg BitVec.toNat hzero
          rw [hbiased] at this
          change _ = 0 at this
          omega
      · have hshort : m < 2 ^ 23 := by
          refine (Nat.log2_lt hpos.ne').mp ?_
          have := (Nat.log2_lt hpos.ne').mpr hlt
          omega
        have hfraction : (BitVec.ofNat 23 m).toNat = m := Nat.mod_eq_of_lt hshort
        rw [if_neg hlog, within_subnormal_iff rfl rfl, hfraction]
        · -- a subnormal number has the least exponent
          refine le_trans (mul_le_mul_of_nonneg_left ?_ (Nat.cast_nonneg m)) hvalue
          exact zpow_le_zpow_right₀ one_le_two hge
        · intro hzero
          have := congrArg BitVec.toNat hzero
          rw [hfraction] at this
          exact hpos.ne' this

/-! ## Rounding -/

/-- The exponent that a significand is shifted to: it leaves 24 bits, or is the least one. -/
def target (m : Nat) (e : Int) : Int := max (m.log2 + e - 23) (-149)

theorem target_eq (m : Nat) (e : Int) :
    Format.binary32.targetExponent (totalExponent m e) = target m e := by
  show max ((m.log2 : Int) + 1 + e - (1 + 23 : Nat)) (3 - 2 ^ 7 - (1 + 23 : Nat)) = _
  unfold target
  omega

/-- Bits that are shifted out make a number smaller. -/
theorem shifted_le (m k : Nat) (e : Int) :
    ((m / 2 ^ k : Nat) : ℚ) * 2 ^ (e + k) ≤ m * 2 ^ e := by
  rw [zpow_add₀ two_ne_zero, zpow_natCast, mul_comm ((2 : ℚ) ^ e), ← mul_assoc]
  refine mul_le_mul_of_nonneg_right ?_ (zpow_pos two_pos e).le
  exact_mod_cast Nat.div_mul_le_self m (2 ^ k)

/-- At its target exponent a significand has at most 24 bits. -/
theorem shifted_lt {k : Nat} (h : target m e ≤ e + k) : m / 2 ^ k < 2 ^ 24 := by
  unfold target at h
  rw [Nat.div_lt_iff_lt_mul (Nat.two_pow_pos k), ← Nat.pow_add]
  exact Nat.lt_of_lt_of_le Nat.lt_log2_self (Nat.pow_le_pow_right Nat.two_pos (by omega))

theorem target_le_add (m : Nat) (e : Int) : target m e ≤ e + ((target m e - e).toNat : Int) := by
  omega

/-- The significand after one shift and rounding. -/
def roundedOnce (m : Nat) (e : Int) : Nat :=
  (ExtendedMantissa.ofMantissaAndAccuracy m .exact >>> (target m e - e).toNat).roundedMantissa

/-- Rounding adds at most one to the significand, and nothing where no bits are shifted out. -/
theorem roundedOnce_le (h : target m e ≤ e ∨ (m : ℚ) * 2 ^ e + 2 ^ target m e ≤ q)
    (hq : (m : ℚ) * 2 ^ e ≤ q) :
    (roundedOnce m e : ℚ) * 2 ^ (e + ((target m e - e).toNat : Int)) ≤ q := by
  by_cases hshift : target m e ≤ e
  · have hzero : (target m e - e).toNat = 0 := by omega
    unfold roundedOnce
    rw [hzero, Int.natCast_zero, Int.add_zero]
    exact hq
  · have hbound := (roundedMantissa_bounds
      (ExtendedMantissa.ofMantissaAndAccuracy m .exact >>> (target m e - e).toNat)).2
    rw [mantissa_shiftRight, mantissa_ofMantissaAndAccuracy] at hbound
    have hround : (roundedOnce m e : ℚ) ≤ (m / 2 ^ (target m e - e).toNat : Nat) + 1 := by
      exact_mod_cast hbound
    have hshifted := shifted_le m (target m e - e).toNat e
    have htarget : e + ((target m e - e).toNat : Int) = target m e := by omega
    rw [htarget] at hshifted ⊢
    have hone := mul_le_mul_of_nonneg_right hround (zpow_pos two_pos (target m e)).le
    rw [add_mul, one_mul] at hone
    have hlast := h.resolve_left hshift
    linarith only [hone, hshifted, hlast]

/-- A positive number is rounded and stored below every bound that leaves room for a last place, or
that it keeps to without losing bits. -/
theorem within_roundWithAccuracy (hq : (m : ℚ) * 2 ^ e ≤ q) (hample : q ≤ 2 ^ (100 : Int))
    (h : target m e ≤ e ∨ (m : ℚ) * 2 ^ e + 2 ^ target m e ≤ q) :
    Within q (stored (roundWithAccuracy Format.binary32 .positive m e .exact)) := by
  have hbound := roundedOnce_le h hq
  have hround : roundWithAccuracy Format.binary32 .positive m e .exact =
      if h : roundedOnce m e / 2 ^ (target (roundedOnce m e) (e + ((target m e - e).toNat : Int)) -
          (e + ((target m e - e).toNat : Int))).toNat = 0 then .zero .positive
      else .finite .positive _
        (e + ((target m e - e).toNat : Int) +
          ((target (roundedOnce m e) (e + ((target m e - e).toNat : Int)) -
            (e + ((target m e - e).toNat : Int))).toNat : Int)) (Nat.pos_of_ne_zero h) := by
    unfold roundWithAccuracy shiftToTargetExponent shiftToExponent
    simp only [target_eq, mantissa_shiftRight, mantissa_ofMantissaAndAccuracy]
    rfl
  rw [hround]
  generalize hstart : e + ((target m e - e).toNat : Int) = start at hbound ⊢
  generalize roundedOnce m e = r at hbound ⊢
  generalize hk : (target r start - start).toNat = k
  have htarget := target_le_add r start
  rw [hk] at htarget
  split
  next => exact le_trans (by positivity) hq
  next hne =>
    refine within_stored (le_trans (shifted_le r k start) hbound) ?_ hample
    intro sign m' e' hpos heq
    cases heq
    exact ⟨shifted_lt htarget, le_trans (le_max_right _ _) htarget⟩

/-- The last place of a number below 2^16. -/
theorem two_pow_target_le (hm : m ≠ 0) (h : (m : ℚ) * 2 ^ e < 2 ^ 16) :
    (2 : ℚ) ^ target m e ≤ 2 ^ (-8 : Int) := by
  have hlead : ((2 ^ m.log2 : Nat) : ℚ) * 2 ^ e < 2 ^ 16 := by
    refine lt_of_le_of_lt (mul_le_mul_of_nonneg_right ?_ (zpow_pos two_pos e).le) h
    exact_mod_cast Nat.log2_self_le hm
  rw [Nat.cast_pow, Nat.cast_ofNat, ← zpow_natCast, ← zpow_add₀ two_ne_zero,
    show (2 : ℚ) ^ 16 = 2 ^ (16 : Int) from rfl, zpow_lt_zpow_iff_right₀ one_lt_two] at hlead
  refine zpow_le_zpow_right₀ one_le_two ?_
  unfold target
  omega

/-- One rounding of a number below 2^16. -/
theorem within_rounded (hm : m ≠ 0) (hq : (m : ℚ) * 2 ^ e ≤ q) (hlt : q < 2 ^ 16) :
    Within (q + 1 / 256) (stored (roundWithAccuracy Format.binary32 .positive m e .exact)) := by
  have hlast := two_pow_target_le hm (lt_of_le_of_lt hq hlt)
  have hstep : (2 : ℚ) ^ (-8 : Int) = 1 / 256 := by norm_num
  rw [hstep] at hlast
  have hample : q + 1 / 256 ≤ 2 ^ (100 : Int) := by
    refine le_trans (add_le_add_left hlt.le _) ?_
    norm_num
  exact within_roundWithAccuracy (by linarith only [hq]) hample
    (.inr (by linarith only [hq, hlast]))

/-! ## Operations -/

/-- A smaller exponent and the zeros that come with it make the same number. -/
theorem decreaseExponent_value (m : Nat) (e t : Int) :
    ((decreaseExponent m e t).1 : ℚ) * 2 ^ (decreaseExponent m e t).2 = m * 2 ^ e := by
  show ((m <<< (e - t).toNat : Nat) : ℚ) * 2 ^ (e - ((e - t).toNat : Int)) = _
  rw [Nat.shiftLeft_eq, zpow_sub₀ two_ne_zero, zpow_natCast]
  push_cast
  field_simp

theorem decreaseExponent_ne_zero {t : Int} (hm : m ≠ 0) : (decreaseExponent m e t).1 ≠ 0 := by
  show m <<< (e - t).toNat ≠ 0
  rw [Nat.shiftLeft_eq]
  exact Nat.mul_ne_zero hm (Nat.two_pow_pos _).ne'

theorem within_round (hm : m ≠ 0) (hq : (m : ℚ) * 2 ^ e ≤ q) (hlt : q < 2 ^ 16) :
    Within (q + 1 / 256) (stored (UnpackedFloat.round Format.binary32 .positive m e)) := by
  rw [← decreaseExponent_value m e (target m e)] at hq
  unfold UnpackedFloat.round
  rw [target_eq]
  exact within_rounded (decreaseExponent_ne_zero hm) hq hlt

theorem within_stored_zero (sign : Sign) (h : 0 ≤ q) : Within q (stored (.zero sign)) := by
  cases sign <;> exact h

section Operations

variable {u w : UnpackedFloat} {p : ℚ}

theorem Within.mul (hu : Within p u) (hw : Within q w) (hlt : p * q < 2 ^ 16) :
    Within (p * q + 1 / 256) (stored (UnpackedFloat.mul Format.binary32 u w)) := by
  have hnonneg : 0 ≤ p * q + 1 / 256 := add_nonneg (mul_nonneg hu.nonneg hw.nonneg) (by norm_num)
  cases u with
  | infinity sign => exact hu.elim
  | notANumber => exact hu.elim
  | zero sign =>
    cases w with
    | infinity sign' => exact hw.elim
    | notANumber => exact hw.elim
    | zero sign' => exact within_stored_zero _ hnonneg
    | finite sign' m' e' hpos' => exact within_stored_zero _ hnonneg
  | finite sign m e hpos =>
    cases w with
    | infinity sign' => exact hw.elim
    | notANumber => exact hw.elim
    | zero sign' => exact within_stored_zero _ hnonneg
    | finite sign' m' e' hpos' =>
      cases sign with
      | negative => exact hu.elim
      | positive =>
        cases sign' with
        | negative => exact hw.elim
        | positive =>
          have hproduct : ((m * m' : Nat) : ℚ) * 2 ^ (e + e') = (m * 2 ^ e) * (m' * 2 ^ e') := by
            rw [zpow_add₀ two_ne_zero]
            push_cast
            ring
          refine within_rounded (Nat.mul_pos hpos hpos').ne' ?_ hlt
          rw [hproduct]
          exact mul_le_mul hu hw (by positivity) hu.nonneg

theorem Within.mono {q' : ℚ} (h : Within q u) (hle : q ≤ q') : Within q' u := by
  cases u with
  | infinity sign => exact h.elim
  | notANumber => exact h.elim
  | zero sign => exact le_trans h hle
  | finite sign m e hpos =>
    cases sign with
    | negative => exact h.elim
    | positive => exact le_trans h hle

/-- Two positive numbers are added at the smaller of their exponents. -/
theorem within_sum {m' : Nat} {e' : Int} {hpos : 0 < m} {hpos' : 0 < m'} (hu : (m : ℚ) * 2 ^ e ≤ p)
    (hw : (m' : ℚ) * 2 ^ e' ≤ q) (hlt : p + q < 2 ^ 16) :
    Within (p + q + 1 / 256) (stored (UnpackedFloat.add Format.binary32
      (.finite .positive m e hpos) (.finite .positive m' e' hpos'))) := by
  have hleft := decreaseExponent_value m e (min e e')
  have hright := decreaseExponent_value m' e' (min e e')
  have hexponent : (decreaseExponent m e (min e e')).2 = min e e' ∧
      (decreaseExponent m' e' (min e e')).2 = min e e' := by
    unfold decreaseExponent
    dsimp only
    omega
  have hne : (decreaseExponent m e (min e e')).1 ≠ 0 := decreaseExponent_ne_zero hpos.ne'
  rw [hexponent.1] at hleft
  rw [hexponent.2] at hright
  show Within _ (stored (UnpackedFloat.normalize Format.binary32
    (((decreaseExponent m e (min e e')).1 : Int) + ((decreaseExponent m' e' (min e e')).1 : Int))
      (min e e') .positive))
  generalize (decreaseExponent m e (min e e')).1 = k at hleft hne ⊢
  generalize (decreaseExponent m' e' (min e e')).1 = k' at hright ⊢
  unfold UnpackedFloat.normalize
  rw [Int.compare_eq_gt.mpr (by omega), show ((k : Int) + (k' : Int)).toNat = k + k' by omega]
  refine within_round (by omega) ?_ hlt
  rw [Nat.cast_add, add_mul, hleft, hright]
  exact add_le_add hu hw

theorem Within.add (hu : Within p u) (hw : Within q w) (hfits : Fits u) (hfits' : Fits w)
    (hlt : p + q < 2 ^ 16) :
    Within (p + q + 1 / 256) (stored (UnpackedFloat.add Format.binary32 u w)) := by
  have hp := hu.nonneg
  have hq := hw.nonneg
  have hample : p + q + 1 / 256 ≤ 2 ^ (100 : Int) := by
    refine le_trans (add_le_add_left hlt.le _) ?_
    norm_num
  cases u with
  | infinity sign => exact hu.elim
  | notANumber => exact hu.elim
  | zero sign =>
    cases w with
    | infinity sign' => exact hw.elim
    | notANumber => exact hw.elim
    | zero sign' =>
      unfold UnpackedFloat.add
      dsimp only
      split <;> exact within_stored_zero _ (by positivity)
    | finite sign' m' e' hpos' =>
      exact within_stored (hw.mono (by linarith only [hp])) hfits' hample
  | finite sign m e hpos =>
    cases w with
    | infinity sign' => exact hw.elim
    | notANumber => exact hw.elim
    | zero sign' => exact within_stored (hu.mono (by linarith only [hq])) hfits hample
    | finite sign' m' e' hpos' =>
      cases sign with
      | negative => exact hu.elim
      | positive =>
        cases sign' with
        | negative => exact hw.elim
        | positive => exact within_sum hu hw hlt

end Operations

/-! ## Single precision floats -/

/-- Parts in the form of the format. -/
def Canonical (u : UnpackedFloat) : Prop :=
  ∀ sign m e hpos, u = .finite sign m e hpos →
    m < 2 ^ 24 ∧ -149 ≤ e ∧ (2 ^ 23 ≤ m ∨ e = -149)

theorem Canonical.fits {u : UnpackedFloat} (h : Canonical u) : Fits u := by
  intro sign m e hpos hu
  obtain ⟨hlt, hge, -⟩ := h sign m e hpos hu
  exact ⟨hlt, hge⟩

theorem canonical_unpack (x : Float32) : Canonical x.toModel.unpack := by
  intro sign m e hpos h
  unfold Float32.Model.unpack UnpackedFloat.unpack at h
  generalize x.toModel.toBits.toBitVec = bits at h
  have hfraction : (@UnpackedFloat.unpackMantissa Format.binary32 bits).toNat < 2 ^ 23 :=
    (@UnpackedFloat.unpackMantissa Format.binary32 bits).isLt
  dsimp only at h
  split at h
  next =>
    split at h <;> cases h
  next =>
    split at h
    next hzero =>
      split at h
      next => cases h
      next =>
        obtain ⟨-, rfl, rfl⟩ := UnpackedFloat.finite.inj h
        rw [hzero]
        exact ⟨by omega, by decide, .inr rfl⟩
    next hne =>
      obtain ⟨-, rfl, rfl⟩ := UnpackedFloat.finite.inj h
      have hbiased : (@UnpackedFloat.unpackExponent Format.binary32 bits).toNat ≠ 0 :=
        fun h => hne (BitVec.eq_of_toNat_eq h)
      have hbias : (Format.binary32.exponentBias : Int) +
          (Format.binary32.mantissaBitsWithoutImplicit : Int) = 150 := rfl
      rw [BitVec.toNat_append, ← Nat.shiftLeft_add_eq_or_of_lt (BitVec.isLt _), Nat.shiftLeft_eq]
      show 1 * 2 ^ 23 + _ < 2 ^ 24 ∧ _ ∧ (2 ^ 23 ≤ 1 * 2 ^ 23 + _ ∨ _)
      rw [hbias]
      omega

/-- Between canonical floats, the order of exponents and then of significands is that of the
numbers. -/
theorem within_of_not_lt {u w : UnpackedFloat} (hu : Canonical u) (hw : Canonical w)
    (h : Within q w) (hlow : ¬UnpackedFloat.lt u (.zero .positive) = true)
    (hhigh : ¬UnpackedFloat.lt w u = true) : u = .notANumber ∨ Within q u := by
  cases u with
  | notANumber => exact .inl rfl
  | zero sign => exact .inr h.nonneg
  | infinity sign =>
    cases sign with
    | negative => exact absurd rfl hlow
    | positive =>
      cases w with
      | infinity sign' => exact h.elim
      | notANumber => exact h.elim
      | zero sign' => exact absurd rfl hhigh
      | finite sign' m' e' hpos' => cases sign' <;> exact absurd rfl hhigh
  | finite sign m e hpos =>
    cases sign with
    | negative => exact absurd rfl hlow
    | positive =>
      cases w with
      | infinity sign' => exact h.elim
      | notANumber => exact h.elim
      | zero sign' => exact absurd rfl hhigh
      | finite sign' m' e' hpos' =>
        cases sign' with
        | negative => exact h.elim
        | positive =>
          obtain ⟨hlt, hge, -⟩ := hu _ _ _ _ rfl
          obtain ⟨-, -, hnormal⟩ := hw _ _ _ _ rfl
          refine .inr (le_trans ?_ h)
          have hcompare : (compare e' e).then (compare m' m) ≠ .lt := by
            intro hthen
            refine hhigh ?_
            show (some ((compare e' e).then (compare m' m)) == some .lt) = true
            rw [hthen]
            rfl
          rcases Int.lt_trichotomy e e' with hless | rfl | hgreater
          · have hlead : 2 ^ 23 ≤ m' := by omega
            calc (m : ℚ) * 2 ^ e
                ≤ 2 ^ 24 * 2 ^ e := by
                  refine mul_le_mul_of_nonneg_right ?_ (zpow_pos two_pos e).le
                  exact_mod_cast hlt.le
              _ = 2 ^ 23 * 2 ^ (e + 1) := by
                  rw [zpow_add₀ two_ne_zero]
                  ring
              _ ≤ m' * 2 ^ e' := by
                  refine mul_le_mul (by exact_mod_cast hlead) ?_ (zpow_pos two_pos _).le
                    (Nat.cast_nonneg m')
                  exact zpow_le_zpow_right₀ one_le_two (by omega)
          · refine mul_le_mul_of_nonneg_right ?_ (zpow_pos two_pos e).le
            rw [Int.compare_eq_eq.mpr rfl] at hcompare
            exact_mod_cast Nat.not_lt.mp fun hless => hcompare (Nat.compare_eq_lt.mpr hless)
          · rw [Int.compare_eq_lt.mpr hgreater] at hcompare
            exact absurd rfl hcompare

/-- No number, or a number from 0 to `q`. -/
def UpTo (q : ℚ) (x : Float32) : Prop :=
  x.toModel.unpack = .notANumber ∨ Within q x.toModel.unpack

theorem lt_iff {x y : Float32} :
    x < y ↔ UnpackedFloat.lt x.toModel.unpack y.toModel.unpack = true :=
  decide_eq_true_iff

/-- What is held between 0 and a number is not over it. -/
theorem upTo_clamp (x : Float32) {high : Float32} (h : Within q high.toModel.unpack) :
    UpTo q (clamp x 0 high) := by
  unfold clamp
  split
  next => exact .inr h.nonneg
  next hlow =>
    split
    next => exact .inr h
    next hhigh =>
      refine within_of_not_lt (canonical_unpack x) (canonical_unpack high) h ?_ ?_
      · exact fun hless => hlow (lt_iff.mpr hless)
      · exact fun hless => hhigh (lt_iff.mpr hless)

theorem UpTo.mul {x y : Float32} {p : ℚ} (hx : UpTo p x) (hy : Within q y.toModel.unpack)
    (hlt : p * q < 2 ^ 16) : UpTo (p * q + 1 / 256) (x * y) := by
  show stored (UnpackedFloat.mul Format.binary32 x.toModel.unpack y.toModel.unpack) = _ ∨
    Within _ (stored (UnpackedFloat.mul Format.binary32 x.toModel.unpack y.toModel.unpack))
  rcases hx with hx | hx
  · rw [hx]
    refine .inl ?_
    show stored .notANumber = _
    rfl
  · exact .inr (hx.mul hy hlt)

theorem UpTo.add {x y : Float32} {p : ℚ} (hx : UpTo p x) (hy : Within q y.toModel.unpack)
    (hlt : p + q < 2 ^ 16) : UpTo (p + q + 1 / 256) (x + y) := by
  show stored (UnpackedFloat.add Format.binary32 x.toModel.unpack y.toModel.unpack) = _ ∨
    Within _ (stored (UnpackedFloat.add Format.binary32 x.toModel.unpack y.toModel.unpack))
  rcases hx with hx | hx
  · rw [hx]
    refine .inl ?_
    show stored .notANumber = _
    rfl
  · exact .inr (hx.add hy (canonical_unpack x).fits (canonical_unpack y).fits hlt)

/-! ## Integers -/

/-- Integers of 24 bits are not rounded. -/
theorem within_ofNat {n : Nat} (h : n < 2 ^ 24) :
    Within n (stored (UnpackedFloat.ofNat Format.binary32 n)) := by
  by_cases hzero : n = 0
  · rw [hzero]
    exact within_stored_zero .positive (Nat.cast_nonneg 0)
  · have hlog : n.log2 < 24 := (Nat.log2_lt hzero).mpr h
    have hvalue := decreaseExponent_value n 0 (target n 0)
    rw [zpow_zero, mul_one] at hvalue
    have hexact :
        target (decreaseExponent n 0 (target n 0)).1 (decreaseExponent n 0 (target n 0)).2 ≤
          (decreaseExponent n 0 (target n 0)).2 := by
      unfold decreaseExponent target
      dsimp only
      rw [Nat.shiftLeft_eq, log2_mul_two_pow hzero]
      omega
    have hample : (n : ℚ) ≤ 2 ^ (100 : Int) := by
      have hcast : (n : ℚ) ≤ ((2 ^ 24 : Nat) : ℚ) := by exact_mod_cast h.le
      refine le_trans hcast ?_
      norm_num
    show Within _ (stored (UnpackedFloat.normalize Format.binary32 (n : Int) 0 .positive))
    unfold UnpackedFloat.normalize UnpackedFloat.round
    rw [Int.compare_eq_gt.mpr (by omega)]
    dsimp only
    rw [Int.toNat_natCast, target_eq]
    exact within_roundWithAccuracy hvalue.le hample (.inl hexact)

/-- A number is cut off to an integer that is not over it. -/
theorem toNat_toInt_le {u : UnpackedFloat} {n : Nat} (h : u = .notANumber ∨ Within q u)
    (hq : q < n + 1) (negative positive : Int) : (u.toInt negative positive).toNat ≤ n := by
  rcases h with rfl | h
  · exact Nat.zero_le n
  · cases u with
    | infinity sign => exact h.elim
    | notANumber => exact h.elim
    | zero sign => exact Nat.zero_le n
    | finite sign m e hpos =>
      cases sign with
      | negative => exact h.elim
      | positive =>
        have hvalue := decreaseExponent_value m e 0
        have hcut := shifted_le (decreaseExponent m e 0).1 (0 - (decreaseExponent m e 0).2).toNat
          (decreaseExponent m e 0).2
        have hunits : (decreaseExponent m e 0).2 +
            ((0 - (decreaseExponent m e 0).2).toNat : Int) = 0 := by
          unfold decreaseExponent
          dsimp only
          omega
        rw [hunits, zpow_zero, mul_one, hvalue] at hcut
        show (ExtendedMantissa.ofMantissaAndAccuracy (decreaseExponent m e 0).1 .exact >>>
          (0 - (decreaseExponent m e 0).2).toNat).mantissa ≤ n
        rw [mantissa_shiftRight, mantissa_ofMantissaAndAccuracy]
        refine Nat.le_of_lt_succ ?_
        have hnumber : (m : ℚ) * 2 ^ e ≤ q := h
        have hless := lt_of_le_of_lt (le_trans hcut hnumber) hq
        exact_mod_cast hless

theorem UpTo.toUInt16_le {x : Float32} {n : Nat} (h : UpTo q x) (hq : q < n + 1) :
    x.toUInt16.toNat ≤ n := by
  have hcut := toNat_toInt_le h hq 0 (UInt16.size - 1)
  show (UInt16.ofNatClamp (x.toModel.unpack.toInt 0 (UInt16.size - 1)).toNat).toNat ≤ n
  generalize (x.toModel.unpack.toInt 0 (UInt16.size - 1)).toNat = k at hcut
  unfold UInt16.ofNatClamp
  split
  next hlt =>
    exact hcut
  next hge =>
    have hge : 65536 ≤ k := Nat.le_of_not_lt hge
    exact Nat.le_trans (Nat.le_of_lt_succ (by show 65535 < k + 1; omega)) hcut

theorem UpTo.toUInt32_le {x : Float32} {n : Nat} (h : UpTo q x) (hq : q < n + 1) :
    x.toUInt32.toNat ≤ n := by
  have hcut := toNat_toInt_le h hq 0 (UInt32.size - 1)
  show (UInt32.ofNatClamp (x.toModel.unpack.toInt 0 (UInt32.size - 1)).toNat).toNat ≤ n
  generalize (x.toModel.unpack.toInt 0 (UInt32.size - 1)).toNat = k at hcut
  unfold UInt32.ofNatClamp
  split
  next hlt =>
    exact hcut
  next hge =>
    have hge : 4294967296 ≤ k := Nat.le_of_not_lt hge
    exact Nat.le_trans (Nat.le_of_lt_succ (by show 4294967295 < k + 1; omega)) hcut

end Single

/-! ## Codes and taps -/

open Single (upTo_clamp within_ofNat)

/-- A quantized code is not over the largest one, whatever it is made of. -/
theorem Code.quantize_le (value : Float32) (max : UInt16) : Code.quantize value max ≤ max := by
  have hmax : max.toNat < 2 ^ 16 := max.toNat_lt
  have hscale : Single.Within max.toNat max.toFloat32.toModel.unpack :=
    within_ofNat (Nat.lt_trans hmax (by decide))
  have hhalf : Single.Within (1 / 2) (0.5 : Float32).toModel.unpack := by
    show ((2 ^ 23 : Nat) : ℚ) * 2 ^ (-24 : Int) ≤ 1 / 2
    norm_num
  have hone : Single.Within 1 (1 : Float32).toModel.unpack := by
    show ((2 ^ 23 : Nat) : ℚ) * 2 ^ (-23 : Int) ≤ 1
    norm_num
  have hbound : (max.toNat : ℚ) ≤ 65535 := by exact_mod_cast Nat.le_of_lt_succ hmax
  have hproduct := (upTo_clamp value hone).mul hscale (by linarith only [hbound])
  have hsum := hproduct.add hhalf (by linarith only [hbound])
  rw [UInt16.le_iff_toNat_le]
  exact hsum.toUInt16_le (by linarith only [hbound])

/-- The taps of an axis of up to 2^24 samples are samples of the axis. -/
theorem Tap.centered_inside {source : UInt32} (hpos : 0 < source.toNat)
    (h : source.toNat ≤ 2 ^ 24) (target : UInt32) (x : Nat) :
    (centered source target x).first < source.toNat ∧
    (centered source target x).second < source.toNat := by
  have hlast : (source - 1).toNat = source.toNat - 1 := by
    rw [UInt32.toNat_sub_of_le]
    · rfl
    · exact UInt32.le_iff_toNat_le.mpr hpos
  have hscale : Single.Within (source - 1).toNat (source - 1).toFloat32.toModel.unpack :=
    within_ofNat (by omega)
  have hsecond : (centered source target x).second ≤ (source - 1).toNat := by
    unfold centered
    dsimp only
    rw [UInt32.min_def]
    split
    next hle => exact UInt32.le_iff_toNat_le.mp hle
    next => exact Nat.le_refl _
  refine ⟨?_, by omega⟩
  refine Nat.lt_of_le_of_lt ((upTo_clamp _ hscale).toUInt32_le (lt_add_one _)) ?_
  omega

end DualRendition
