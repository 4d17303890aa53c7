import DualRendition.Metadata
import DualRendition.Proofs.Outcome

/-!
# Usable metadata

`Metadata.validate` succeeds exactly when `Metadata.fault?` finds nothing, which is to say when the
record is `Metadata.Usable`: no denominator and no gamma is zero. Then every field has a value
(`Metadata.values_ok`), and exchanging the two renditions leaves the record usable
(`Metadata.Usable.swap`).

Records are converted field by field (`GainParameters.convert_eq_ok_iff`). Fractions made of floats
are usable, and channels with the same floats get the same ones (`GainValues.fractions_eq_ok`).
Converting a record, in either direction, fails only for a value or field that is invalid
(`Metadata.values_failsAs`, `GainValues.fractions_failsAs`).
-/

namespace DualRendition

/-- A triple whose values are all the same is the triple of its first one. -/
theorem Rgb.eq_replicate_of_isUniform {α : Type} [DecidableEq α] {t : Rgb α}
    (h : t.isUniform = true) : t = .replicate t.red := by
  obtain ⟨red, green, blue⟩ := t
  obtain ⟨rfl, rfl⟩ : green = red ∧ blue = red := by simpa [Rgb.isUniform] using h
  rfl

theorem Rgb.isUniform_replicate {α : Type} [DecidableEq α] (a : α) :
    (Rgb.replicate a).isUniform = true := by
  simp [Rgb.isUniform, Rgb.replicate]

theorem Ratio.quotient_ok {ν : Type} {r : Ratio ν} (h : r.isValid = true) (integer : ν → Int) :
    ∃ value, r.quotient integer = .ok value := by
  unfold quotient
  rw [if_pos h]
  exact ⟨_, rfl⟩

/-! ## Conversions -/

section Conversion

variable {S U S' U' : Type} {signed : S → Outcome S'} {unsigned : U → Outcome U'}

/-- Every field of `c'` is what the field of `c` is converted to. -/
structure ChannelParameters.ConvertsTo (signed : S → Outcome S') (unsigned : U → Outcome U')
    (c : ChannelParameters S U) (c' : ChannelParameters S' U') : Prop where
  baseOffset : signed c.baseOffset = .ok c'.baseOffset
  alternateOffset : signed c.alternateOffset = .ok c'.alternateOffset
  gamma : unsigned c.gamma = .ok c'.gamma
  min : signed c.min = .ok c'.min
  max : signed c.max = .ok c'.max

theorem ChannelParameters.convert_eq_ok_iff {c : ChannelParameters S U}
    {c' : ChannelParameters S' U'} :
    c.convert signed unsigned = .ok c' ↔ c.ConvertsTo signed unsigned c' := by
  unfold convert
  constructor
  · intro h
    obtain ⟨baseOffset, hbase, h⟩ := Outcome.bind_eq_ok.mp h
    obtain ⟨alternateOffset, halternate, h⟩ := Outcome.bind_eq_ok.mp h
    obtain ⟨gamma, hgamma, h⟩ := Outcome.bind_eq_ok.mp h
    obtain ⟨min, hmin, h⟩ := Outcome.bind_eq_ok.mp h
    obtain ⟨max, hmax, h⟩ := Outcome.bind_eq_ok.mp h
    obtain rfl := Outcome.pure_eq_ok.mp h
    exact ⟨hbase, halternate, hgamma, hmin, hmax⟩
  · intro h
    rw [h.baseOffset, h.alternateOffset, h.gamma, h.min, h.max]
    rfl

/-- Every number of `p'` is what the number of `p` is converted to, and the flags are the same. -/
structure GainParameters.ConvertsTo (signed : S → Outcome S') (unsigned : U → Outcome U')
    (p : GainParameters S U) (p' : GainParameters S' U') : Prop where
  backward : p'.backward = p.backward
  useBaseColorSpace : p'.useBaseColorSpace = p.useBaseColorSpace
  baseHeadroom : unsigned p.baseHeadroom = .ok p'.baseHeadroom
  alternateHeadroom : unsigned p.alternateHeadroom = .ok p'.alternateHeadroom
  channels : ∀ i, (p.channels.get i).ConvertsTo signed unsigned (p'.channels.get i)

theorem GainParameters.convert_eq_ok_iff {p : GainParameters S U} {p' : GainParameters S' U'} :
    p.convert signed unsigned = .ok p' ↔ p.ConvertsTo signed unsigned p' := by
  unfold convert
  constructor
  · intro h
    obtain ⟨baseHeadroom, hbase, h⟩ := Outcome.bind_eq_ok.mp h
    obtain ⟨alternateHeadroom, halternate, h⟩ := Outcome.bind_eq_ok.mp h
    obtain ⟨red, hred, h⟩ := Outcome.bind_eq_ok.mp h
    obtain ⟨green, hgreen, h⟩ := Outcome.bind_eq_ok.mp h
    obtain ⟨blue, hblue, h⟩ := Outcome.bind_eq_ok.mp h
    obtain rfl := Outcome.pure_eq_ok.mp h
    refine ⟨rfl, rfl, hbase, halternate, fun i => ChannelParameters.convert_eq_ok_iff.mp ?_⟩
    match i with
    | 0 => exact hred
    | 1 => exact hgreen
    | 2 => exact hblue
  · intro h
    have hchannel := fun i => ChannelParameters.convert_eq_ok_iff.mpr (h.channels i)
    have hred : p.channels.red.convert signed unsigned = .ok p'.channels.red := hchannel 0
    have hgreen : p.channels.green.convert signed unsigned = .ok p'.channels.green := hchannel 1
    have hblue : p.channels.blue.convert signed unsigned = .ok p'.channels.blue := hchannel 2
    rw [h.baseHeadroom, h.alternateHeadroom, hred, hgreen, hblue, ← h.backward,
      ← h.useBaseColorSpace]
    rfl

end Conversion

/-! ## Channels -/

namespace ChannelParameters

/-- No denominator and no gamma is zero. -/
structure Usable (c : ChannelParameters Fraction UnsignedFraction) : Prop where
  baseOffset : c.baseOffset.isValid = true
  alternateOffset : c.alternateOffset.isValid = true
  gamma : c.gamma.isValid = true
  min : c.min.isValid = true
  max : c.max.isValid = true
  gamma_ne_zero : c.gamma.numerator ≠ 0

theorem fault?_eq_none_iff {c : ChannelParameters Fraction UnsignedFraction} {index : Nat} :
    c.fault? index = none ↔ c.Usable := by
  have hguard : ∀ {p : Prop} [Decidable p] {fault : MetadataFault} {rest : Option MetadataFault},
      (if p then some fault else rest) = none ↔ ¬p ∧ rest = none := by
    intro p _ fault rest
    by_cases hp : p <;> simp [hp]
  unfold fault?
  simp only [hguard, Bool.not_eq_true', Bool.not_eq_false, and_true]
  constructor
  · intro h
    obtain ⟨hbase, halternate, hgamma, hmin, hmax, hne⟩ := h
    exact ⟨hbase, halternate, hgamma, hmin, hmax, hne⟩
  · intro h
    exact ⟨h.baseOffset, h.alternateOffset, h.gamma, h.min, h.max, h.gamma_ne_zero⟩

theorem Usable.swap {c : ChannelParameters Fraction UnsignedFraction} (h : c.Usable) :
    c.swap.Usable :=
  ⟨h.alternateOffset, h.baseOffset, h.gamma, h.min, h.max, h.gamma_ne_zero⟩

theorem Usable.exists_convertsTo {c : ChannelParameters Fraction UnsignedFraction} (h : c.Usable) :
    ∃ v, c.ConvertsTo Fraction.toFloat UnsignedFraction.toFloat v := by
  obtain ⟨baseOffset, hbase⟩ := Ratio.quotient_ok h.baseOffset Int32.toInt
  obtain ⟨alternateOffset, halternate⟩ := Ratio.quotient_ok h.alternateOffset Int32.toInt
  obtain ⟨gamma, hgamma⟩ := Ratio.quotient_ok h.gamma fun n => (n.toNat : Int)
  obtain ⟨min, hmin⟩ := Ratio.quotient_ok h.min Int32.toInt
  obtain ⟨max, hmax⟩ := Ratio.quotient_ok h.max Int32.toInt
  exact ⟨⟨min, max, gamma, baseOffset, alternateOffset⟩, hbase, halternate, hgamma, hmin, hmax⟩

end ChannelParameters

/-! ## Records -/

namespace Metadata

theorem validate_eq_ok_iff {m : Metadata} : m.validate = .ok () ↔ m.fault? = none := by
  unfold validate
  cases m.fault? <;> simp

/-- Every field can be used. -/
structure Usable (m : Metadata) : Prop where
  baseHeadroom : m.baseHeadroom.isValid = true
  alternateHeadroom : m.alternateHeadroom.isValid = true
  red : m.channels.red.Usable
  green : m.channels.green.Usable
  blue : m.channels.blue.Usable

theorem validate_eq_ok_iff_usable {m : Metadata} : m.validate = .ok () ↔ Usable m := by
  have horElse : ∀ {a b : Option MetadataFault}, (a <|> b) = none ↔ a = none ∧ b = none := by
    intro a b
    cases a <;> simp
  rw [validate_eq_ok_iff]
  unfold fault?
  constructor
  · intro h
    split at h
    next => cases h
    next hheadrooms =>
      rw [Bool.or_eq_true, not_or, Bool.not_eq_true', Bool.not_eq_true', Bool.not_eq_false,
        Bool.not_eq_false] at hheadrooms
      rw [horElse, horElse, ChannelParameters.fault?_eq_none_iff,
        ChannelParameters.fault?_eq_none_iff, ChannelParameters.fault?_eq_none_iff] at h
      obtain ⟨hred, hgreen, hblue⟩ := h
      exact ⟨hheadrooms.1, hheadrooms.2, hred, hgreen, hblue⟩
  · intro h
    rw [h.baseHeadroom, h.alternateHeadroom, if_neg (by decide), horElse, horElse,
      ChannelParameters.fault?_eq_none_iff, ChannelParameters.fault?_eq_none_iff,
      ChannelParameters.fault?_eq_none_iff]
    exact ⟨h.red, h.green, h.blue⟩

theorem Usable.swap {m : Metadata} (h : Usable m) : Usable m.swap :=
  ⟨h.alternateHeadroom, h.baseHeadroom, h.red.swap, h.green.swap, h.blue.swap⟩

/-- Every field of a usable record has a value. -/
theorem values_ok {m : Metadata} (h : Usable m) : ∃ v, m.values = .ok v := by
  obtain ⟨baseHeadroom, hbase⟩ := Ratio.quotient_ok h.baseHeadroom fun n => (n.toNat : Int)
  obtain ⟨alternateHeadroom, halternate⟩ :=
    Ratio.quotient_ok h.alternateHeadroom fun n => (n.toNat : Int)
  obtain ⟨red, hred⟩ := h.red.exists_convertsTo
  obtain ⟨green, hgreen⟩ := h.green.exists_convertsTo
  obtain ⟨blue, hblue⟩ := h.blue.exists_convertsTo
  refine ⟨⟨m.backward, m.useBaseColorSpace, baseHeadroom, alternateHeadroom, red, green, blue⟩, ?_⟩
  unfold values
  rw [validate_eq_ok_iff_usable.mpr h, Outcome.ok_bind]
  refine GainParameters.convert_eq_ok_iff.mpr ⟨rfl, rfl, hbase, halternate, ?_⟩
  intro i
  match i with
  | 0 => exact hred
  | 1 => exact hgreen
  | 2 => exact hblue

/-- Exchanging the renditions treats the channels alike. -/
theorem isSingleChannel_swap {m : Metadata} (h : m.isSingleChannel = true) :
    m.swap.isSingleChannel = true := by
  have hchannels := Rgb.eq_replicate_of_isUniform h
  show (m.channels.map ChannelParameters.swap).isUniform = true
  rw [hchannels]
  exact Rgb.isUniform_replicate _

end Metadata

/-! ## Fractions of floats -/

/-- One number: the same float, or zeros of either sign. -/
def SameNumber (a b : Float) : Prop := a = b ∨ (a = 0.0 ∨ a = -0.0) ∧ (b = 0.0 ∨ b = -0.0)

theorem SameNumber.refl (a : Float) : SameNumber a a := .inl rfl

/-- What takes both zeros to one value takes every number to one value. -/
theorem SameNumber.congr {α : Type} {f : Float → α} {a b : Float} (h : SameNumber a b)
    (hzero : f (-0.0) = f 0.0) : f a = f b := by
  rcases h with rfl | ⟨rfl | rfl, rfl | rfl⟩
  · rfl
  · rfl
  · exact hzero.symm
  · exact hzero
  · rfl

namespace ChannelParameters

/-- Channels with the same numbers. -/
structure Alike (c c' : ChannelParameters Float Float) : Prop where
  min : SameNumber c.min c'.min
  max : SameNumber c.max c'.max
  gamma : SameNumber c.gamma c'.gamma
  baseOffset : SameNumber c.baseOffset c'.baseOffset
  alternateOffset : SameNumber c.alternateOffset c'.alternateOffset

theorem Alike.refl (c : ChannelParameters Float Float) : Alike c c :=
  ⟨.refl _, .refl _, .refl _, .refl _, .refl _⟩

/-- Channels with the same numbers are converted to the same fractions. -/
theorem Alike.convert {c c' : ChannelParameters Float Float} (h : Alike c c') :
    c.convert Fraction.ofFloat UnsignedFraction.ofFloat =
      c'.convert Fraction.ofFloat UnsignedFraction.ofFloat := by
  have hsigned : Fraction.ofFloat (-0.0) = Fraction.ofFloat 0.0 := by rfl
  have hunsigned : UnsignedFraction.ofFloat (-0.0) = UnsignedFraction.ofFloat 0.0 := by rfl
  unfold ChannelParameters.convert
  rw [h.baseOffset.congr hsigned, h.alternateOffset.congr hsigned, h.gamma.congr hunsigned,
    h.min.congr hsigned, h.max.congr hsigned]

end ChannelParameters

namespace GainValues

variable {v : GainValues} {m : Metadata}

/-- The fractions of all fields, once they have passed the check. -/
theorem convertsTo_of_fractions (h : v.fractions = .ok m) :
    m.validate = .ok () ∧ v.ConvertsTo Fraction.ofFloat UnsignedFraction.ofFloat m := by
  unfold fractions at h
  obtain ⟨-, h⟩ := Outcome.check_bind_eq_ok.mp h
  obtain ⟨-, h⟩ := Outcome.check_bind_eq_ok.mp h
  obtain ⟨-, h⟩ := Outcome.check_bind_eq_ok.mp h
  obtain ⟨converted, hconvert, h⟩ := Outcome.bind_eq_ok.mp h
  obtain ⟨hvalid, h⟩ := Outcome.check_bind_eq_ok.mp h
  obtain rfl := Outcome.pure_eq_ok.mp h
  exact ⟨hvalid, GainParameters.convert_eq_ok_iff.mp hconvert⟩

/-- The stored fractions are usable, name the same colour space, and are the same in all channels
when the values are. -/
theorem fractions_eq_ok (h : v.fractions = .ok m) :
    m.validate = .ok () ∧ m.useBaseColorSpace = v.useBaseColorSpace ∧
    (v.channels.green.Alike v.channels.red → v.channels.blue.Alike v.channels.red →
      m.isSingleChannel = true) := by
  obtain ⟨hvalid, hconverts⟩ := convertsTo_of_fractions h
  refine ⟨hvalid, hconverts.useBaseColorSpace, ?_⟩
  intro hgreenAlike hblueAlike
  have hchannel := fun i => ChannelParameters.convert_eq_ok_iff.mpr (hconverts.channels i)
  have hgreen : m.channels.red = m.channels.green :=
    Except.ok.inj ((hchannel 0).symm.trans (hgreenAlike.convert.symm.trans (hchannel 1)))
  have hblue : m.channels.red = m.channels.blue :=
    Except.ok.inj ((hchannel 0).symm.trans (hblueAlike.convert.symm.trans (hchannel 2)))
  show m.channels.isUniform = true
  simp [Rgb.isUniform, ← hgreen, ← hblue]

end GainValues

/-! ## Failed conversions -/

open Outcome (FailsAs)

theorem Ratio.quotient_failsAs {ν : Type} (integer : ν → Int) (r : Ratio ν) :
    FailsAs .invalidParameter (r.quotient integer) :=
  .ite (.ok _) (.error rfl)

theorem Ratio.approximate_failsAs (value : Float) (low high : Int) :
    FailsAs .invalidParameter (Ratio.approximate value low high) := by
  unfold approximate
  refine .ite ?_ (.error rfl)
  dsimp only
  split
  · exact .ok _
  · exact .error rfl

theorem Fraction.ofFloat_failsAs (value : Float) :
    FailsAs .invalidParameter (Fraction.ofFloat value) :=
  .bind (Ratio.approximate_failsAs _ _ _) fun _ => .ok _

theorem UnsignedFraction.ofFloat_failsAs (value : Float) :
    FailsAs .invalidParameter (UnsignedFraction.ofFloat value) := by
  unfold ofFloat
  dsimp only
  simp only [Outcome.throw_eq, Outcome.error_bind]
  exact .ite (.error rfl) (.bind (Ratio.approximate_failsAs _ _ _) fun _ => .ok _)

section Conversion

variable {S U S' U' : Type} {c : Category} {signed : S → Outcome S'} {unsigned : U → Outcome U'}

/-- Converting a channel fails where one of its fields does. -/
theorem ChannelParameters.convert_failsAs (hsigned : ∀ s, FailsAs c (signed s))
    (hunsigned : ∀ u, FailsAs c (unsigned u)) (p : ChannelParameters S U) :
    FailsAs c (p.convert signed unsigned) :=
  .bind (hsigned _) fun _ => .bind (hsigned _) fun _ => .bind (hunsigned _) fun _ =>
    .bind (hsigned _) fun _ => .bind (hsigned _) fun _ => .ok _

theorem GainParameters.convert_failsAs (hsigned : ∀ s, FailsAs c (signed s))
    (hunsigned : ∀ u, FailsAs c (unsigned u)) (p : GainParameters S U) :
    FailsAs c (p.convert signed unsigned) := by
  have hchannel := ChannelParameters.convert_failsAs hsigned hunsigned
  exact .bind (hunsigned _) fun _ => .bind (hunsigned _) fun _ => .bind (hchannel _) fun _ =>
    .bind (hchannel _) fun _ => .bind (hchannel _) fun _ => .ok _

end Conversion

namespace Metadata

theorem validate_failsAs (m : Metadata) : FailsAs .invalidParameter m.validate := by
  unfold validate
  split
  · exact .ok _
  · exact .error rfl

theorem values_failsAs (m : Metadata) : FailsAs .invalidParameter m.values := by
  have hsigned : ∀ r : Fraction, FailsAs .invalidParameter r.toFloat :=
    fun r => Ratio.quotient_failsAs _ r
  have hunsigned : ∀ r : UnsignedFraction, FailsAs .invalidParameter r.toFloat :=
    fun r => Ratio.quotient_failsAs _ r
  exact .bind m.validate_failsAs fun _ => GainParameters.convert_failsAs hsigned hunsigned m

end Metadata

namespace GainValues

theorem checkGamma_failsAs (gamma : Float) (index : Nat) :
    FailsAs .invalidParameter (checkGamma gamma index) :=
  .ite (.ok _) (.error rfl)

theorem fractions_failsAs (v : GainValues) : FailsAs .invalidParameter v.fractions := by
  have hconvert := GainParameters.convert_failsAs Fraction.ofFloat_failsAs
    UnsignedFraction.ofFloat_failsAs v
  exact .bind (checkGamma_failsAs _ 0) fun _ => .bind (checkGamma_failsAs _ 1) fun _ =>
    .bind (checkGamma_failsAs _ 2) fun _ => .bind hconvert fun m =>
      .bind (Metadata.validate_failsAs m) fun _ => .ok _

end GainValues

end DualRendition
