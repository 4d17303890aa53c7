import DualRendition.Fraction
import DualRendition.GainParameters

/-!
# Gain map metadata

`Metadata` is the exact form that is stored, `GainValues` the form that is computed with.
`Metadata.values` and `GainValues.fractions` lead from one to the other. A record is usable when no
denominator and no gamma is zero; `Metadata.fault?` finds the first field that breaks this, and the
record of zeros that stands for absent metadata is never usable.
-/

namespace DualRendition

/-- Gain parameters as they are stored. -/
abbrev Metadata := GainParameters Fraction UnsignedFraction

/-- Gain parameters as they are computed with. -/
abbrev GainValues := GainParameters Float Float

namespace ChannelParameters

/-- The first field of channel `index` that cannot be used. -/
def fault? (c : ChannelParameters Fraction UnsignedFraction) (index : Nat) :
    Option MetadataFault :=
  if !c.baseOffset.isValid then some (.channelDenominator .baseOffset index)
  else if !c.alternateOffset.isValid then some (.channelDenominator .alternateOffset index)
  else if !c.gamma.isValid then some (.channelDenominator .gamma index)
  else if !c.min.isValid then some (.channelDenominator .min index)
  else if !c.max.isValid then some (.channelDenominator .max index)
  else if c.gamma.numerator = 0 then some (.zeroGamma index)
  else none

end ChannelParameters

namespace Metadata

/-- The record of zeros, which stands for absent metadata. -/
def unset : Metadata where
  backward := false
  useBaseColorSpace := false
  baseHeadroom := ⟨0, 0⟩
  alternateHeadroom := ⟨0, 0⟩
  channels := .replicate ⟨⟨0, 0⟩, ⟨0, 0⟩, ⟨0, 0⟩, ⟨0, 0⟩, ⟨0, 0⟩⟩

def isUnset (m : Metadata) : Bool := m = unset

/-- The first field that cannot be used. -/
def fault? (m : Metadata) : Option MetadataFault :=
  if !m.baseHeadroom.isValid || !m.alternateHeadroom.isValid then some .headroomDenominator
  else m.channels.red.fault? 0 <|> m.channels.green.fault? 1 <|> m.channels.blue.fault? 2

/-- Succeeds when every field can be used. -/
def validate (m : Metadata) : Outcome Unit :=
  match m.fault? with
  | none => .ok ()
  | some fault => .error (.parameter (.metadata fault))

/-- The numbers of a usable record. -/
def values (m : Metadata) : Outcome GainValues := do
  m.validate
  m.convert Fraction.toFloat UnsignedFraction.toFloat

end Metadata

namespace GainValues

/-- Unit gamma, offsets of 1/64, no gain and no headroom. -/
def neutral : GainValues where
  backward := false
  useBaseColorSpace := true
  baseHeadroom := 0
  alternateHeadroom := 0
  channels := .replicate ⟨0, 0, 1, 1 / 64, 1 / 64⟩

/-- Zero in every field. -/
def zero : GainValues where
  backward := false
  useBaseColorSpace := false
  baseHeadroom := 0
  alternateHeadroom := 0
  channels := .replicate ⟨0, 0, 0, 0, 0⟩

/-- Fails unless the gamma of channel `index` is positive; a NaN is not. -/
def checkGamma (gamma : Float) (index : Nat) : Outcome Unit :=
  if 0 < gamma then .ok () else .error (.parameter (.gammaNotPositive index gamma))

/-- The fractions nearest to the values. A gamma too small for a fraction is refused as well, since
it would be stored as zero. -/
def fractions (v : GainValues) : Outcome Metadata := do
  checkGamma v.channels.red.gamma 0
  checkGamma v.channels.green.gamma 1
  checkGamma v.channels.blue.gamma 2
  let m : Metadata ← v.convert Fraction.ofFloat UnsignedFraction.ofFloat
  m.validate
  return m

end GainValues

end DualRendition
