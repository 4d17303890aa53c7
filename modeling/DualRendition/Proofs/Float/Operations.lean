import DualRendition.Proofs.Float.Rounding

/-!
# Operations on floats

Product, sum and quotient of finite floats compute those of their numbers, integers of up to 53 bits
become floats without rounding, and a finite product or sum has finite operands.

Structure: the operations go by cases on their unpacked operands. Each case that is not special
leads to one rounding, and so to `computes_rounded`.
-/

namespace DualRendition

open Float.Model
open Float.Model.UnpackedFloat (Sign roundWithAccuracy decreaseExponent divCore)

variable {x y : Float} {p q : ℚ}

theorem Denotes.computes (h : Denotes x p) : Computes x p := by
  refine ⟨?_, fun _ => ⟨p, h⟩⟩
  intro r hr
  obtain rfl := h.unique hr
  unfold Rounds
  rw [sub_self, abs_zero]
  exact add_nonneg (by positivity) leastStep_pos.le

namespace Dyadic

/-! ## Cases of operands -/

/-- A finite float is a signed zero or has a positive significand. -/
inductive Shape (u : UnpackedFloat) (q : ℚ) : Prop
  | zero (sign : Sign) (hu : u = .zero sign) (hq : q = 0)
  | finite (d : Dyadic) (hcanonical : d.Canonical) (hpos : 0 < d.significand)
      (hu : u = .finite (signOf d.negative) d.significand d.exponent hpos) (hq : q = d.value)

theorem shape_of_denotes (h : Denotes x q) : Shape x.toModel.unpack q := by
  obtain ⟨d, hd, rfl⟩ := h
  obtain ⟨hcanonical, -⟩ := canonical_of_ofFloat? hd
  rw [unpack_of_ofFloat? hd]
  unfold unpacked
  by_cases hzero : d.significand = 0
  · rw [dif_pos hzero]
    refine .zero _ rfl ?_
    unfold value magnitude
    rw [hzero]
    simp
  · rw [dif_neg hzero]
    exact .finite d hcanonical (Nat.pos_of_ne_zero hzero) rfl rfl

theorem denotes_zero (sign : Sign) : Denotes (.ofModel (.pack (.zero sign))) 0 := by
  obtain ⟨negative, rfl⟩ := exists_signOf_eq sign
  have hcanonical : (Dyadic.mk negative 0 (-1074)).Canonical :=
    ⟨Nat.two_pow_pos 53, Int.le_refl _, .inr rfl⟩
  refine ⟨⟨negative, 0, -1074⟩, hcanonical.ofFloat?_pack, ?_⟩
  unfold value magnitude
  simp

/-- Packing what was unpacked changes nothing. -/
theorem denotes_pack_unpack (h : Denotes x q) : Denotes (.ofModel (.pack x.toModel.unpack)) q := by
  have hsame : Float.ofModel (.pack x.toModel.unpack) = x := by
    unfold Float.Model.pack
    congr
    exact UnpackedFloat.pack_unpack_of_valid x.toModel.valid
  rwa [hsame]

theorem signOf_mul (a b : Bool) : signOf a * signOf b = signOf (a ^^ b) := by
  cases a <;> cases b <;> rfl

theorem signOf_div (a b : Bool) : signOf a / signOf b = signOf (a ^^ b) := by
  cases a <;> cases b <;> rfl

theorem value_mul (d d' : Dyadic) :
    d.value * d'.value = if (d.negative ^^ d'.negative) then -(d.magnitude * d'.magnitude)
      else d.magnitude * d'.magnitude := by
  unfold value
  cases d.negative <;> cases d'.negative <;> simp

theorem value_div (d d' : Dyadic) :
    d.value / d'.value = if (d.negative ^^ d'.negative) then -(d.magnitude / d'.magnitude)
      else d.magnitude / d'.magnitude := by
  unfold value
  cases d.negative <;> cases d'.negative <;> simp [neg_div, div_neg]

/-- The significand of a product has its bits, unless both factors are subnormal. -/
theorem Canonical.le_targetExponent_mul {d d' : Dyadic} (h : d.Canonical) (h' : d'.Canonical)
    (hpos : 0 < d.significand) (hpos' : 0 < d'.significand) :
    d.exponent + d'.exponent ≤
      targetExponent (d.significand * d'.significand) (d.exponent + d'.exponent) := by
  have hne : d.significand * d'.significand ≠ 0 := (Nat.mul_pos hpos hpos').ne'
  unfold targetExponent
  by_cases hlong : 2 ^ 52 ≤ d.significand * d'.significand
  · have := (Nat.le_log2 hne).mpr hlong
    omega
  · have hleft := Nat.le_mul_of_pos_right d.significand hpos'
    have hright := Nat.le_mul_of_pos_left d'.significand hpos
    have := h.normal
    have := h'.normal
    omega

end Dyadic

open DualRendition.Dyadic

/-! ## Products -/

theorem Denotes.mul (hx : Denotes x p) (hy : Denotes y q) : Computes (x * y) (p * q) := by
  show Computes (.ofModel (.pack
    (UnpackedFloat.mul Format.binary64 x.toModel.unpack y.toModel.unpack))) _
  cases shape_of_denotes hx with
  | zero sign hu hp =>
    rw [hu, hp, zero_mul]
    cases shape_of_denotes hy with
    | zero sign' hu' hq =>
      rw [hu']
      exact (denotes_zero _).computes
    | finite d' hcanonical' hpos' hu' hq =>
      rw [hu']
      exact (denotes_zero _).computes
  | finite d hcanonical hpos hu hp =>
    cases shape_of_denotes hy with
    | zero sign' hu' hq =>
      rw [hu, hu', hq, mul_zero]
      exact (denotes_zero _).computes
    | finite d' hcanonical' hpos' hu' hq =>
      have hexact : ((d.significand * d'.significand : Nat) : ℚ) * 2 ^ (d.exponent + d'.exponent) =
          d.magnitude * d'.magnitude := by
        unfold magnitude
        rw [zpow_add₀ two_ne_zero]
        push_cast
        ring
      rw [hu, hu', hp, hq, value_mul]
      show Computes (.ofModel (.pack (roundWithAccuracy Format.binary64
        (signOf d.negative * signOf d'.negative) _ _ .exact))) _
      rw [signOf_mul]
      refine computes_rounded .exact _ (hcanonical.le_targetExponent_mul hcanonical' hpos hpos')
        hexact.le ?_
      rw [← hexact]
      exact mul_le_mul_of_nonneg_right (by linarith) (zpow_pos two_pos _).le

theorem special_mul {u : UnpackedFloat} (h : Special u) (u' : UnpackedFloat) :
    Special (UnpackedFloat.mul Format.binary64 u u') := by
  rcases h with rfl | ⟨sign, rfl⟩
  · cases u' <;> exact .inl rfl
  · cases u' with
    | infinity sign' => exact .inr ⟨_, rfl⟩
    | notANumber => exact .inl rfl
    | zero sign' => exact .inl rfl
    | finite sign' m e hm => exact .inr ⟨_, rfl⟩

/-- The factors of a finite product are finite. -/
theorem Denotes.of_mul {r : ℚ} (h : Denotes (x * y) r) : ∃ p, Denotes x p := by
  refine Denotes.exists_of_not_special ?_
  intro hx
  obtain ⟨d, hd, -⟩ := h
  cases hd.symm.trans (special_mul hx y.toModel.unpack).ofFloat?_pack

/-! ## Sums -/

/-- A significand and an exponent of any size are rounded to their number. -/
theorem computes_round (m : Nat) (e : Int) (negative : Bool) (hm : m ≠ 0) :
    Computes (.ofModel (.pack (UnpackedFloat.round Format.binary64 (signOf negative) m e)))
      (if negative then -(m * 2 ^ e : ℚ) else m * 2 ^ e) := by
  unfold UnpackedFloat.round decreaseExponent
  rw [targetExponent_eq]
  dsimp only
  generalize hn : (e - targetExponent m e).toNat = n
  have hexact : ((m <<< n : Nat) : ℚ) * 2 ^ (e - n) = m * 2 ^ e := by
    rw [Nat.shiftLeft_eq, zpow_sub₀ two_ne_zero, zpow_natCast]
    push_cast
    field_simp
  have htarget : e - n ≤ targetExponent (m <<< n) (e - n) := by
    rw [Nat.shiftLeft_eq]
    unfold targetExponent at hn ⊢
    rw [log2_mul_two_pow hm]
    omega
  rw [← hexact]
  refine computes_rounded .exact negative htarget le_rfl ?_
  exact mul_le_mul_of_nonneg_right (by linarith) (zpow_pos two_pos _).le

theorem computes_normalize (m e : Int) (zeroSign : Sign) :
    Computes (.ofModel (.pack (UnpackedFloat.normalize Format.binary64 m e zeroSign)))
      (m * 2 ^ e) := by
  unfold UnpackedFloat.normalize
  rcases Int.lt_trichotomy m 0 with hneg | hzero | hpos
  · have h := computes_round (-m).toNat e true (by omega)
    rw [if_pos rfl, ← Int.cast_natCast, Int.toNat_of_nonneg (by omega), Int.cast_neg, neg_mul,
      neg_neg] at h
    rw [Int.compare_eq_lt.mpr hneg]
    exact h
  · rw [hzero, Int.cast_zero, zero_mul]
    exact (denotes_zero _).computes
  · have h := computes_round m.toNat e false (by omega)
    rw [if_neg Bool.false_ne_true, ← Int.cast_natCast, Int.toNat_of_nonneg hpos.le] at h
    rw [Int.compare_eq_gt.mpr hpos]
    exact h

/-- The significand of a number at a smaller exponent. -/
theorem decreaseExponent_value (d : Dyadic) {e : Int} (h : e ≤ d.exponent) :
    (((signOf d.negative).apply (decreaseExponent d.significand d.exponent e).1 : Int) : ℚ) *
      2 ^ e = d.value := by
  obtain ⟨n, hn⟩ := Int.eq_ofNat_of_zero_le (show 0 ≤ d.exponent - e by omega)
  have hmagnitude : ((d.significand <<< n : Nat) : ℚ) * 2 ^ e = d.magnitude := by
    unfold magnitude
    rw [show d.exponent = n + e by omega, zpow_add₀ two_ne_zero, Nat.shiftLeft_eq, zpow_natCast]
    push_cast
    ring
  unfold decreaseExponent value
  rw [hn, Int.toNat_natCast]
  cases d.negative with
  | false => exact_mod_cast hmagnitude
  | true =>
    show ((-((d.significand <<< n : Nat) : Int) : Int) : ℚ) * 2 ^ e = -d.magnitude
    rw [Int.cast_neg, neg_mul, Int.cast_natCast, hmagnitude]

theorem Denotes.add (hx : Denotes x p) (hy : Denotes y q) : Computes (x + y) (p + q) := by
  have hleft := denotes_pack_unpack hx
  have hright := denotes_pack_unpack hy
  show Computes (.ofModel (.pack
    (UnpackedFloat.add Format.binary64 x.toModel.unpack y.toModel.unpack))) _
  cases shape_of_denotes hx with
  | zero sign hu hp =>
    rw [hu, hp, zero_add]
    cases shape_of_denotes hy with
    | zero sign' hu' hq =>
      rw [hu', hq]
      unfold UnpackedFloat.add
      dsimp only
      split
      · exact (denotes_zero _).computes
      · exact (denotes_zero _).computes
    | finite d' hcanonical' hpos' hu' hq =>
      rw [hu'] at hright ⊢
      exact hright.computes
  | finite d hcanonical hpos hu hp =>
    cases shape_of_denotes hy with
    | zero sign' hu' hq =>
      rw [hu] at hleft ⊢
      rw [hu', hq, add_zero]
      exact hleft.computes
    | finite d' hcanonical' hpos' hu' hq =>
      have hsum := computes_normalize
        ((signOf d.negative).apply (decreaseExponent d.significand d.exponent
          (min d.exponent d'.exponent)).1 +
          (signOf d'.negative).apply (decreaseExponent d'.significand d'.exponent
            (min d.exponent d'.exponent)).1)
        (min d.exponent d'.exponent) .positive
      rw [Int.cast_add, add_mul, decreaseExponent_value d (min_le_left _ _),
        decreaseExponent_value d' (min_le_right _ _)] at hsum
      rw [hu, hu', hp, hq]
      exact hsum

theorem special_add {u : UnpackedFloat} (h : Special u) (u' : UnpackedFloat) :
    Special (UnpackedFloat.add Format.binary64 u u') := by
  rcases h with rfl | ⟨sign, rfl⟩
  · cases u' <;> exact .inl rfl
  · cases u' with
    | infinity sign' =>
      unfold UnpackedFloat.add
      dsimp only
      split
      · exact .inr ⟨_, rfl⟩
      · exact .inl rfl
    | notANumber => exact .inl rfl
    | zero sign' => exact .inr ⟨_, rfl⟩
    | finite sign' m e hm => exact .inr ⟨_, rfl⟩

/-- The terms of a finite sum are finite. -/
theorem Denotes.of_add {r : ℚ} (h : Denotes (x + y) r) : ∃ p, Denotes x p := by
  refine Denotes.exists_of_not_special ?_
  intro hx
  obtain ⟨d, hd, -⟩ := h
  cases hd.symm.trans (special_add hx y.toModel.unpack).ofFloat?_pack

/-! ## Quotients -/

/-- The exponent at which a quotient is taken: low enough for all bits of its significand. -/
def quotientExponent (d d' : Dyadic) : Int :=
  min (d.exponent - d'.exponent)
    (max ((d.significand.log2 : Int) + d.exponent - (d'.significand.log2 + d'.exponent) - 53)
      (-1074))

/-- The significand of a quotient, rounded down. -/
def quotientSignificand (d d' : Dyadic) : Nat :=
  d.significand * 2 ^ (d.exponent - d'.exponent - quotientExponent d d').toNat / d'.significand

theorem divCore_eq (d d' : Dyadic) :
    ∃ a, divCore Format.binary64 d.significand d.exponent d'.significand d'.exponent =
      (quotientSignificand d d', quotientExponent d d', a) := by
  have htarget : Format.binary64.targetExponent
      (totalExponent d.significand d.exponent - totalExponent d'.significand d'.exponent) =
        max ((d.significand.log2 : Int) + d.exponent - (d'.significand.log2 + d'.exponent) - 53)
          (-1074) := by
    show max ((d.significand.log2 : Int) + 1 + d.exponent -
      ((d'.significand.log2 : Int) + 1 + d'.exponent) - (1 + 52 : Nat))
        (3 - 2 ^ 10 - (1 + 52 : Nat)) = _
    omega
  unfold divCore quotientSignificand quotientExponent
  rw [htarget]
  dsimp only
  rw [Nat.shiftLeft_eq]
  exact ⟨_, rfl⟩

theorem quotientExponent_le (d d' : Dyadic) (hpos : 0 < d.significand)
    (hpos' : 0 < d'.significand) :
    quotientExponent d d' ≤
      targetExponent (quotientSignificand d d') (quotientExponent d d') := by
  have hexponent : quotientExponent d d' = min (d.exponent - d'.exponent)
    (max ((d.significand.log2 : Int) + d.exponent - (d'.significand.log2 + d'.exponent) - 53)
      (-1074)) := rfl
  unfold quotientSignificand
  generalize quotientExponent d d' = target at hexponent ⊢
  generalize hn : (d.exponent - d'.exponent - target).toNat = n
  unfold targetExponent
  by_cases hleast : target ≤ -1074
  · omega
  · -- the dividend has 53 bits more than the divisor
    have hlong : 2 ^ 52 ≤ d.significand * 2 ^ n / d'.significand := by
      rw [Nat.le_div_iff_mul_le hpos']
      calc 2 ^ 52 * d'.significand
          ≤ 2 ^ 52 * 2 ^ (d'.significand.log2 + 1) :=
            Nat.mul_le_mul_left _ (Nat.le_of_lt Nat.lt_log2_self)
        _ = 2 ^ (52 + (d'.significand.log2 + 1)) := (Nat.pow_add ..).symm
        _ ≤ 2 ^ (d.significand.log2 + n) := Nat.pow_le_pow_right Nat.two_pos (by omega)
        _ = 2 ^ d.significand.log2 * 2 ^ n := Nat.pow_add ..
        _ ≤ d.significand * 2 ^ n := Nat.mul_le_mul_right _ (Nat.log2_self_le hpos.ne')
    have := (Nat.le_log2 (Nat.lt_of_lt_of_le (Nat.two_pow_pos 52) hlong).ne').mpr hlong
    omega

/-- The quotient lies in the unit of its significand. -/
theorem quotient_bounds (d d' : Dyadic) (hpos' : 0 < d'.significand) :
    (quotientSignificand d d' : ℚ) * 2 ^ quotientExponent d d' ≤ d.magnitude / d'.magnitude ∧
    d.magnitude / d'.magnitude ≤
      ((quotientSignificand d d' : ℚ) + 1) * 2 ^ quotientExponent d d' := by
  have hle : quotientExponent d d' ≤ d.exponent - d'.exponent := min_le_left _ _
  unfold quotientSignificand
  generalize quotientExponent d d' = target at hle ⊢
  generalize hn : (d.exponent - d'.exponent - target).toNat = n
  have hpower : (0 : ℚ) < 2 ^ target := zpow_pos two_pos _
  have hdivisor : (0 : ℚ) < d'.significand := by exact_mod_cast hpos'
  have hquotient : d.magnitude / d'.magnitude =
      (d.significand * 2 ^ n : Nat) / d'.significand * 2 ^ target := by
    unfold magnitude
    rw [show d.exponent = n + target + d'.exponent by omega, zpow_add₀ two_ne_zero,
      zpow_add₀ two_ne_zero, zpow_natCast]
    push_cast
    field_simp
  rw [hquotient]
  refine ⟨mul_le_mul_of_nonneg_right ?_ hpower.le, mul_le_mul_of_nonneg_right ?_ hpower.le⟩
  · rw [le_div_iff₀ hdivisor]
    exact_mod_cast Nat.div_mul_le_self _ _
  · rw [div_le_iff₀ hdivisor]
    have hrest := @Nat.lt_div_mul_add (d.significand * 2 ^ n) _ hpos'
    rw [← Nat.succ_mul] at hrest
    exact_mod_cast hrest.le

theorem Denotes.div (hx : Denotes x p) (hy : Denotes y q) (hq : q ≠ 0) :
    Computes (x / y) (p / q) := by
  show Computes (.ofModel (.pack
    (UnpackedFloat.div Format.binary64 x.toModel.unpack y.toModel.unpack))) _
  cases shape_of_denotes hy with
  | zero sign' hu' hq' => exact absurd hq' hq
  | finite d' hcanonical' hpos' hu' hq' =>
    cases shape_of_denotes hx with
    | zero sign hu hp =>
      rw [hu, hu', hp, zero_div]
      exact (denotes_zero _).computes
    | finite d hcanonical hpos hu hp =>
      obtain ⟨a, hcore⟩ := divCore_eq d d'
      obtain ⟨hlow, hhigh⟩ := quotient_bounds d d' hpos'
      rw [hu, hu', hp, hq', value_div]
      unfold UnpackedFloat.div
      dsimp only
      rw [hcore, signOf_div]
      exact computes_rounded a _ (quotientExponent_le d d' hpos hpos') hlow hhigh

/-! ## Integers -/

/-- A positive integer of up to 53 bits, with zeros behind its bits. -/
theorem canonical_ofNat {n : Nat} (hpos : 0 < n) (h : n < 2 ^ 53) :
    (Dyadic.mk false (n * 2 ^ (52 - n.log2)) (n.log2 - 52)).Canonical := by
  have hlog : n.log2 < 53 := (Nat.log2_lt hpos.ne').mpr h
  have hpow : ∀ k, 2 ^ k * 2 ^ (52 - n.log2) = 2 ^ (k + (52 - n.log2)) := fun k =>
    (Nat.pow_add ..).symm
  refine ⟨?_, by show -1074 ≤ (n.log2 : Int) - 52; omega, .inl ?_⟩
  · show n * 2 ^ (52 - n.log2) < 2 ^ 53
    refine Nat.lt_of_lt_of_le
      (Nat.mul_lt_mul_of_pos_right Nat.lt_log2_self (Nat.two_pow_pos _)) ?_
    rw [hpow]
    exact Nat.pow_le_pow_right Nat.two_pos (by omega)
  · show 2 ^ 52 ≤ n * 2 ^ (52 - n.log2)
    refine Nat.le_trans ?_ (Nat.mul_le_mul_right _ (Nat.log2_self_le hpos.ne'))
    rw [hpow]
    exact Nat.pow_le_pow_right Nat.two_pos (by omega)

theorem denotes_normalize {n : Nat} (h : n < 2 ^ 53) :
    Denotes (.ofModel (.pack (UnpackedFloat.normalize Format.binary64 (n : Int) 0 .positive)))
      n := by
  by_cases hzero : n = 0
  · rw [hzero, Nat.cast_zero]
    exact denotes_zero _
  · have hpos := Nat.pos_of_ne_zero hzero
    have hlog : n.log2 < 53 := (Nat.log2_lt hzero).mpr h
    have hcanonical := canonical_ofNat hpos h
    have htarget : targetExponent n 0 = n.log2 - 52 := by
      unfold targetExponent
      omega
    have hround := hcanonical.roundWithAccuracy_eq 0
    rw [Nat.pow_zero, Nat.mul_one, Int.natCast_zero, Int.sub_zero] at hround
    unfold UnpackedFloat.normalize UnpackedFloat.round decreaseExponent
    rw [Int.compare_eq_gt.mpr (by omega)]
    dsimp only
    rw [Int.toNat_natCast, targetExponent_eq, htarget, Nat.shiftLeft_eq,
      show (0 - ((n.log2 : Int) - 52)).toNat = 52 - n.log2 by omega,
      show (0 : Int) - ((52 - n.log2 : Nat) : Int) = n.log2 - 52 by omega]
    refine ⟨⟨false, n * 2 ^ (52 - n.log2), n.log2 - 52⟩, ?_, ?_⟩
    · show ofFloat? (.ofModel (.pack (roundWithAccuracy _ (signOf false) _ _ _))) = _
      rw [hround, hcanonical.ofFloat?_pack, if_pos (by show (n.log2 : Int) - 52 ≤ 971; omega)]
    · show ((n * 2 ^ (52 - n.log2) : Nat) : ℚ) * 2 ^ ((n.log2 : Int) - 52) = n
      rw [show (n.log2 : Int) - 52 = -((52 - n.log2 : Nat) : Int) by omega, zpow_neg, zpow_natCast]
      push_cast
      field_simp

theorem denotes_toFloat (n : UInt32) : Denotes n.toFloat n.toNat :=
  denotes_normalize (Nat.lt_trans n.toNat_lt (by decide))

/-- One, as the literals are scaled by it. -/
theorem Denotes.mul_one (h : Denotes x p) : Denotes (x * .ofBits 0x3FF0000000000000) p := by
  have hone : (Float.ofBits 0x3FF0000000000000).toModel.unpack =
      .finite .positive (2 ^ 52) (-52) (Nat.two_pow_pos 52) := rfl
  have hself := denotes_pack_unpack h
  show Denotes (.ofModel (.pack (UnpackedFloat.mul Format.binary64 x.toModel.unpack _))) _
  rw [hone]
  cases shape_of_denotes h with
  | zero sign hu hp =>
    rw [hu, hp]
    exact denotes_zero _
  | finite d hcanonical hpos hu hp =>
    have hunpacked : d.unpacked = x.toModel.unpack := by
      unfold unpacked
      rw [dif_neg hpos.ne', hu]
    have hround := hcanonical.roundWithAccuracy_eq 52
    rw [hunpacked] at hround
    rw [← hround] at hself
    rw [hu]
    show Denotes (.ofModel (.pack (roundWithAccuracy Format.binary64
      (signOf d.negative * signOf false) _ _ .exact))) _
    rw [signOf_mul, Bool.xor_false]
    exact hself

theorem denotes_ofNat {n : Nat} (h : n < 2 ^ 53) : Denotes (Float.ofNat n) n := by
  have hsmall : n.toUInt64.toNat = n := Nat.mod_eq_of_lt (Nat.lt_trans h (by decide))
  have hword : Denotes n.toUInt64.toFloat n := by
    show Denotes (.ofModel (.pack
      (UnpackedFloat.normalize Format.binary64 (n.toUInt64.toNat : Int) 0 .positive))) n
    rw [hsmall]
    exact denotes_normalize h
  show Denotes (Float.ofScientific n false 0) n
  unfold Float.ofScientific
  rw [dif_pos ⟨h, by decide⟩]
  exact hword.mul_one

theorem Denotes.neg (h : Denotes x p) : Denotes (-x) (-p) := by
  obtain ⟨d, hd, rfl⟩ := h
  obtain ⟨hcanonical, hexponent⟩ := canonical_of_ofFloat? hd
  have hneg : Canonical { d with negative := !d.negative } :=
    ⟨hcanonical.significand_lt, hcanonical.exponent_ge, hcanonical.normal⟩
  have hunpacked : d.unpacked.neg = unpacked { d with negative := !d.negative } := by
    unfold unpacked
    dsimp only
    split
    · cases d.negative <;> rfl
    · cases d.negative <;> rfl
  refine ⟨{ d with negative := !d.negative }, ?_, ?_⟩
  · show ofFloat? (.ofModel (.pack x.toModel.unpack.neg)) = _
    rw [unpack_of_ofFloat? hd, hunpacked, hneg.ofFloat?_pack, if_pos hexponent]
  · unfold value
    cases d.negative with
    | false => rfl
    | true => exact (neg_neg _).symm

theorem denotes_ofInt {n : Int} (h : n.natAbs < 2 ^ 53) : Denotes (Float.ofInt n) n := by
  cases n with
  | ofNat n => exact_mod_cast denotes_ofNat h
  | negSucc n =>
    have hnat := (@denotes_ofNat (n + 1) h).neg
    rw [Int.cast_negSucc]
    exact hnat

end DualRendition
