import Mathlib
import DualRendition.Dyadic

/-!
# The parts of a float

`Dyadic.ofFloat?` reads sign, significand and exponent off the bits of a float, and the operations
on floats are defined on these parts as well, after they have been unpacked. The two readings agree:
`Dyadic.unpack_of_ofFloat?`, and in the other direction `Dyadic.Canonical.ofFloat?_pack`, which also
says where packing overflows. So a float can be given by the number it is, `Denotes`, and what an
operation does to the parts can be read as arithmetic.
-/

namespace DualRendition

open Float.Model
open Float.Model.UnpackedFloat (Sign packComponents unpackSign unpackExponent unpackMantissa)

namespace Dyadic

/-! ## Numbers -/

/-- The number without its sign. -/
def magnitude (d : Dyadic) : ℚ := d.significand * 2 ^ d.exponent

/-- The number. -/
def value (d : Dyadic) : ℚ := if d.negative then -d.magnitude else d.magnitude

/-- The integer below a number, in integers and in rational numbers. -/
theorem floor_eq (d : Dyadic) : d.floor = ⌊d.value⌋ := by
  obtain ⟨negative, significand, exponent⟩ := d
  have hvalue : (Dyadic.mk negative significand exponent).value =
      ((if negative then -(significand : Int) else significand : Int) : ℚ) * 2 ^ exponent := by
    unfold value magnitude
    cases negative <;> simp
  rw [hvalue]
  unfold floor twoPow
  dsimp only
  generalize (if negative = true then -(significand : Int) else significand) = signed
  by_cases hexponent : 0 ≤ exponent
  · obtain ⟨n, rfl⟩ := Int.eq_ofNat_of_zero_le hexponent
    have hwhole : (signed : ℚ) * 2 ^ (n : Int) = ((signed * ((2 : Nat) ^ n : Nat) : Int) : ℚ) := by
      push_cast
      rw [zpow_natCast]
    rw [if_pos hexponent, Int.toNat_natCast, hwhole, Int.floor_intCast]
    rfl
  · obtain ⟨n, hn⟩ := Int.eq_ofNat_of_zero_le (show 0 ≤ -exponent by omega)
    obtain rfl : exponent = -(n : Int) := by omega
    have hquotient : (signed : ℚ) * 2 ^ (-(n : Int)) = (signed : ℚ) / ((2 ^ n : Nat) : ℚ) := by
      rw [zpow_neg, zpow_natCast, div_eq_mul_inv]
      push_cast
      rfl
    rw [if_neg hexponent, neg_neg, Int.toNat_natCast, hquotient, Rat.floor_intCast_div_natCast]
    rfl

/-! ## Fields -/

section Fields

variable (bits : BitVec 64)

theorem toNat_unpackMantissa :
    (@unpackMantissa Format.binary64 bits).toNat = bits.toNat % 2 ^ 52 := by
  rw [UnpackedFloat.unpackMantissa_def, BitVec.extractLsb'_toNat, Nat.shiftRight_zero]

theorem toNat_unpackExponent :
    (@unpackExponent Format.binary64 bits).toNat = bits.toNat / 2 ^ 52 % 2 ^ 11 := by
  rw [UnpackedFloat.unpackExponent_def, BitVec.extractLsb'_toNat, Nat.shiftRight_eq_div_pow]

theorem toNat_unpackSign : (@unpackSign Format.binary64 bits).toNat = bits.toNat / 2 ^ 63 := by
  have hbits : bits.toNat < 2 ^ 64 := bits.isLt
  rw [UnpackedFloat.unpackSign_def, BitVec.extractLsb'_toNat, Nat.shiftRight_eq_div_pow]
  show bits.toNat / 2 ^ 63 % 2 = _
  omega

end Fields

theorem toNat_append {m n : Nat} (a : BitVec m) (b : BitVec n) :
    (a ++ b).toNat = a.toNat * 2 ^ n + b.toNat := by
  rw [BitVec.toNat_append, ← Nat.shiftLeft_add_eq_or_of_lt b.isLt, Nat.shiftLeft_eq]

/-- The parts that the three fields of a float stand for. -/
def ofFields (sign : BitVec 1) (biased : BitVec 11) (fraction : BitVec 52) : Option Dyadic :=
  if biased.toNat = 2047 then none
  else some {
    negative := sign.toNat = 1
    significand := if biased.toNat = 0 then fraction.toNat else fraction.toNat + 2 ^ 52
    exponent := ((max biased.toNat 1 : Nat) : Int) - 1075 }

theorem ofFloat?_eq (x : Float) :
    ofFloat? x = ofFields (@unpackSign Format.binary64 x.toModel.toBits.toBitVec)
      (@unpackExponent Format.binary64 x.toModel.toBits.toBitVec)
      (@unpackMantissa Format.binary64 x.toModel.toBits.toBitVec) := by
  unfold ofFields
  rw [toNat_unpackSign, toNat_unpackExponent, toNat_unpackMantissa]
  rfl

/-- The sign of a number as floats have it. -/
def signOf (negative : Bool) : Sign := if negative then .negative else .positive

theorem ofBitVec_eq_signOf (sign : BitVec 1) : Sign.ofBitVec sign = signOf (sign.toNat = 1) := by
  rcases BitVec.eq_zero_or_eq_one sign with rfl | rfl <;> rfl

theorem exists_signOf_eq (sign : Sign) : ∃ negative, signOf negative = sign := by
  cases sign with
  | negative => exact ⟨true, rfl⟩
  | positive => exact ⟨false, rfl⟩

theorem ofFloat?_of_packComponents {x : Float} {negative : Bool} {biased : BitVec 11}
    {fraction : BitVec 52} (h : x.toModel.toBits.toBitVec =
      packComponents Format.binary64 (signOf negative) biased fraction) :
    ofFloat? x = ofFields (signOf negative).toBitVec biased fraction := by
  rw [ofFloat?_eq, h, UnpackedFloat.unpackSign_packComponents,
    UnpackedFloat.unpackExponent_packComponents, UnpackedFloat.unpackMantissa_packComponents]

/-! ## Unpacked floats -/

/-- The parts of a finite float as the operations have them. -/
def unpacked (d : Dyadic) : UnpackedFloat :=
  if h : d.significand = 0 then .zero (signOf d.negative)
  else .finite (signOf d.negative) d.significand d.exponent (Nat.pos_of_ne_zero h)

/-- Parts in the form of the format: 53 bits of significand, or the least exponent. -/
structure Canonical (d : Dyadic) : Prop where
  significand_lt : d.significand < 2 ^ 53
  exponent_ge : -1074 ≤ d.exponent
  normal : 2 ^ 52 ≤ d.significand ∨ d.exponent = -1074

theorem canonical_of_ofFields {sign : BitVec 1} {biased : BitVec 11} {fraction : BitVec 52}
    {d : Dyadic} (h : ofFields sign biased fraction = some d) :
    d.Canonical ∧ d.exponent ≤ 971 := by
  unfold ofFields at h
  have hbiased : biased.toNat < 2 ^ 11 := biased.isLt
  have hfraction : fraction.toNat < 2 ^ 52 := fraction.isLt
  split at h
  next => cases h
  next =>
    obtain rfl := Option.some.inj h
    refine ⟨?_, by show ((max biased.toNat 1 : Nat) : Int) - 1075 ≤ _; omega⟩
    by_cases hsubnormal : biased.toNat = 0
    · rw [hsubnormal, if_pos rfl]
      exact ⟨by show fraction.toNat < _; omega, Int.le_refl _, .inr rfl⟩
    · rw [if_neg hsubnormal]
      exact ⟨by show fraction.toNat + 2 ^ 52 < _; omega,
        by show _ ≤ ((max biased.toNat 1 : Nat) : Int) - 1075; omega,
        .inl (by show _ ≤ fraction.toNat + 2 ^ 52; omega)⟩

theorem finite_congr {s s' : Sign} {m m' : Nat} {e e' : Int} {h : 0 < m} {h' : 0 < m'} (hs : s = s')
    (hm : m = m') (he : e = e') : UnpackedFloat.finite s m e h = .finite s' m' e' h' := by
  subst hs hm he
  rfl

theorem canonical_of_ofFloat? {x : Float} {d : Dyadic} (h : ofFloat? x = some d) :
    d.Canonical ∧ d.exponent ≤ 971 := by
  rw [ofFloat?_eq] at h
  exact canonical_of_ofFields h

/-- Unpacking a finite float gives its parts, ... -/
theorem unpack_of_ofFloat? {x : Float} {d : Dyadic} (h : ofFloat? x = some d) :
    x.toModel.unpack = d.unpacked := by
  rw [ofFloat?_eq] at h
  unfold Float.Model.unpack UnpackedFloat.unpack
  generalize x.toModel.toBits.toBitVec = bits at h ⊢
  unfold ofFields at h
  split at h
  next => cases h
  next hfinite =>
    obtain rfl := Option.some.inj h
    have hones : ¬@unpackExponent Format.binary64 bits = -1#11 :=
      fun h => hfinite (congrArg BitVec.toNat h)
    have hbias : ((Format.binary64.exponentBias : Int) + (52 : Nat)) = 1075 := rfl
    dsimp only
    rw [if_neg hones]
    unfold unpacked
    by_cases hsubnormal : @unpackExponent Format.binary64 bits = 0#11
    · rw [if_pos hsubnormal, hsubnormal]
      dsimp only
      by_cases hzero : @unpackMantissa Format.binary64 bits = 0#52
      · rw [dif_pos hzero, dif_pos, ofBitVec_eq_signOf]
        rw [hzero]
        rfl
      · rw [dif_neg hzero, dif_neg]
        · exact finite_congr (ofBitVec_eq_signOf _) rfl rfl
        · exact fun h => hzero (BitVec.eq_of_toNat_eq h)
    · have hnormal : ¬(@unpackExponent Format.binary64 bits).toNat = 0 :=
        fun h => hsubnormal (BitVec.eq_of_toNat_eq h)
      rw [if_neg hsubnormal, dif_neg (by dsimp only; rw [if_neg hnormal]; omega)]
      refine finite_congr (ofBitVec_eq_signOf _) ?_ ?_
      · -- the leading bit is not stored
        rw [toNat_append, if_neg hnormal, Nat.add_comm]
        rfl
      · rw [hbias]
        show _ = ((max (@unpackExponent Format.binary64 bits).toNat 1 : Nat) : Int) - 1075
        omega

/-- An infinity or no number. -/
def Special (u : UnpackedFloat) : Prop := u = .notANumber ∨ ∃ sign, u = .infinity sign

/-- ... and what is not finite has none. -/
theorem special_of_ofFloat? {x : Float} (h : ofFloat? x = none) : Special x.toModel.unpack := by
  rw [ofFloat?_eq] at h
  unfold Float.Model.unpack UnpackedFloat.unpack
  generalize x.toModel.toBits.toBitVec = bits at h ⊢
  unfold ofFields at h
  split at h
  next hones =>
    have hones : @unpackExponent Format.binary64 bits = -1#11 := BitVec.eq_of_toNat_eq hones
    dsimp only
    rw [if_pos hones]
    split
    · exact .inr ⟨_, rfl⟩
    · exact .inl rfl
  next => cases h

theorem Special.ofFloat?_pack {u : UnpackedFloat} (h : Special u) :
    ofFloat? (.ofModel (.pack u)) = none := by
  rcases h with rfl | ⟨sign, rfl⟩
  · rfl
  · cases sign with
    | negative => rfl
    | positive => rfl

/-- Packing canonical parts gives a float with these parts, unless the exponent is too large for
one. -/
theorem Canonical.ofFloat?_pack {d : Dyadic} (h : d.Canonical) :
    ofFloat? (.ofModel (.pack d.unpacked)) = if d.exponent ≤ 971 then some d else none := by
  obtain ⟨negative, significand, exponent⟩ := d
  obtain ⟨hsignificand, hge, hnormal⟩ := h
  dsimp only at hsignificand hge hnormal ⊢
  have hfields : ∀ {biased fraction}, UnpackedFloat.pack Format.binary64
      (unpacked ⟨negative, significand, exponent⟩) =
        packComponents Format.binary64 (signOf negative) biased fraction →
      ofFloat? (.ofModel (.pack (unpacked ⟨negative, significand, exponent⟩))) =
        ofFields (signOf negative).toBitVec biased fraction :=
    fun h => ofFloat?_of_packComponents h
  have hsign : decide ((signOf negative).toBitVec.toNat = 1) = negative := by
    cases negative <;> rfl
  by_cases hzero : significand = 0
  · subst hzero
    obtain rfl : exponent = -1074 := by omega
    rw [@hfields 0#11 0#52 rfl]
    unfold ofFields
    rw [hsign]
    rfl
  have hbias : exponent + (Format.binary64.exponentBias : Int) + (52 : Nat) = exponent + 1075 := by
    show exponent + (1023 : Nat) + (52 : Nat) = _
    omega
  -- what packing does with a number that is not zero
  have hpack : UnpackedFloat.pack Format.binary64 (unpacked ⟨negative, significand, exponent⟩) =
      if 2 ^ 11 ≤ (exponent + 1075).toNat + 1 then
        packComponents Format.binary64 (signOf negative) (-1#11) 0#52
      else if significand.log2 + 1 = 53 then
        packComponents Format.binary64 (signOf negative) (.ofNat 11 (exponent + 1075).toNat)
          (.ofNat 52 significand)
      else packComponents Format.binary64 (signOf negative) 0#11 (.ofNat 52 significand) := by
    unfold unpacked
    rw [dif_neg hzero]
    unfold UnpackedFloat.pack
    dsimp only
    rw [hbias]
    rfl
  by_cases hlarge : 971 < exponent
  · rw [if_pos (by omega)] at hpack
    rw [if_neg (by omega), hfields hpack]
    rfl
  rw [if_neg (by omega)] at hpack
  rw [if_pos (by omega)]
  by_cases hsubnormal : significand < 2 ^ 52
  · have hlog : ¬significand.log2 + 1 = 53 := by
      have := (Nat.log2_lt hzero).mpr hsubnormal
      omega
    have hfraction : (BitVec.ofNat 52 significand).toNat = significand :=
      Nat.mod_eq_of_lt hsubnormal
    obtain rfl : exponent = -1074 := by omega
    rw [if_neg hlog] at hpack
    rw [hfields hpack]
    unfold ofFields
    rw [hsign, hfraction]
    rfl
  · have hlog : significand.log2 + 1 = 53 := by
      rw [(Nat.log2_eq_iff hzero).mpr ⟨Nat.not_lt.mp hsubnormal, hsignificand⟩]
    have hbiased : (BitVec.ofNat 11 (exponent + 1075).toNat).toNat = (exponent + 1075).toNat :=
      Nat.mod_eq_of_lt (by omega)
    have hfraction : (BitVec.ofNat 52 significand).toNat = significand - 2 ^ 52 := by
      rw [BitVec.toNat_ofNat]
      omega
    have hparts : significand - 2 ^ 52 + 2 ^ 52 = significand ∧
        ((max (exponent + 1075).toNat 1 : Nat) : Int) - 1075 = exponent := by omega
    rw [if_pos hlog] at hpack
    rw [hfields hpack]
    unfold ofFields
    rw [hsign, hbiased, hfraction, if_neg (by omega), if_neg (by omega), hparts.1, hparts.2]

end Dyadic

/-! ## Floats by their number -/

/-- The float is finite, and it is the number `q`. -/
def Denotes (x : Float) (q : ℚ) : Prop := ∃ d, Dyadic.ofFloat? x = some d ∧ d.value = q

namespace Denotes

variable {x : Float} {q : ℚ}

/-- The number determines the integer below it. -/
theorem floor (h : Denotes x q) : (Dyadic.ofFloat? x).map Dyadic.floor = some ⌊q⌋ := by
  obtain ⟨d, hd, rfl⟩ := h
  rw [hd, Option.map_some, Dyadic.floor_eq]

theorem of_floor {n : Int} (h : (Dyadic.ofFloat? x).map Dyadic.floor = some n) :
    ∃ q, Denotes x q ∧ ⌊q⌋ = n := by
  obtain ⟨d, hd, hfloor⟩ := Option.map_eq_some_iff.mp h
  exact ⟨d.value, ⟨d, hd, rfl⟩, by rw [← Dyadic.floor_eq, hfloor]⟩

theorem unique {q' : ℚ} (h : Denotes x q) (h' : Denotes x q') : q = q' := by
  obtain ⟨d, hd, rfl⟩ := h
  obtain ⟨d', hd', rfl⟩ := h'
  rw [Option.some.inj (hd.symm.trans hd')]

/-- Only an infinity and no number are not finite. -/
theorem exists_of_not_special (h : ¬Dyadic.Special x.toModel.unpack) : ∃ q, Denotes x q := by
  cases hx : Dyadic.ofFloat? x with
  | none => exact absurd (Dyadic.special_of_ofFloat? hx) h
  | some d => exact ⟨d.value, d, hx, rfl⟩

end Denotes

end DualRendition
