import DualRendition.Rgb

/-!
# Gain parameters

What has to be known to use the samples of a gain map: the headrooms of the two renditions it
connects, and for every channel the range and gamma of the stored gains and the offsets of both
renditions. The record is the same for exact fractions and for floats, so it is written once over
the type `S` of signed and the type `U` of unsigned numbers.
-/

namespace DualRendition

/-- The parameters of one channel. -/
structure ChannelParameters (S U : Type) where
  /-- log2 gain at stored value 0. -/
  min : S
  /-- log2 gain at the largest stored value. -/
  max : S
  /-- Gamma of the stored values. -/
  gamma : U
  /-- Added to base samples. -/
  baseOffset : S
  /-- Added to alternate samples. -/
  alternateOffset : S
  deriving DecidableEq, Repr, Inhabited

/-- The parameters of a gain map. -/
structure GainParameters (S U : Type) where
  /-- The stored gains lead from the alternate to the base rendition. -/
  backward : Bool
  /-- Gains are taken in the base primaries, otherwise in the alternate's. -/
  useBaseColorSpace : Bool
  /-- log2 stops of the base rendition above SDR white. -/
  baseHeadroom : U
  /-- log2 stops of the alternate rendition above SDR white. -/
  alternateHeadroom : U
  channels : Rgb (ChannelParameters S U)
  deriving DecidableEq, Repr, Inhabited

namespace ChannelParameters

variable {S U S' U' : Type}

/-- Exchanges the offsets of the two renditions. -/
def swap (c : ChannelParameters S U) : ChannelParameters S U :=
  { c with baseOffset := c.alternateOffset, alternateOffset := c.baseOffset }

@[simp] theorem swap_swap (c : ChannelParameters S U) : c.swap.swap = c := rfl

/-- Converts the fields in the order base offset, alternate offset, gamma, minimum, maximum. -/
def convert {m : Type → Type} [Monad m] (signed : S → m S') (unsigned : U → m U')
    (c : ChannelParameters S U) : m (ChannelParameters S' U') := do
  let baseOffset ← signed c.baseOffset
  let alternateOffset ← signed c.alternateOffset
  let gamma ← unsigned c.gamma
  let min ← signed c.min
  let max ← signed c.max
  return { min, max, gamma, baseOffset, alternateOffset }

end ChannelParameters

namespace GainParameters

variable {S U S' U' : Type}

/-- Exchanges the roles of the two renditions. The stored gains stay, so their direction and the
side that names the colour space change. -/
def swap (p : GainParameters S U) : GainParameters S U where
  backward := !p.backward
  useBaseColorSpace := !p.useBaseColorSpace
  baseHeadroom := p.alternateHeadroom
  alternateHeadroom := p.baseHeadroom
  channels := p.channels.map ChannelParameters.swap

@[simp] theorem swap_swap (p : GainParameters S U) : p.swap.swap = p := by
  simp [swap, Rgb.map]

/-- Whether the three channels have the same parameters. -/
def isSingleChannel [DecidableEq S] [DecidableEq U] (p : GainParameters S U) : Bool :=
  p.channels.isUniform

/-- Converts the headrooms, base first, and then the channels in order. -/
def convert {m : Type → Type} [Monad m] (signed : S → m S') (unsigned : U → m U')
    (p : GainParameters S U) : m (GainParameters S' U') := do
  let baseHeadroom ← unsigned p.baseHeadroom
  let alternateHeadroom ← unsigned p.alternateHeadroom
  let red ← p.channels.red.convert signed unsigned
  let green ← p.channels.green.convert signed unsigned
  let blue ← p.channels.blue.convert signed unsigned
  return { backward := p.backward, useBaseColorSpace := p.useBaseColorSpace,
           baseHeadroom, alternateHeadroom, channels := ⟨red, green, blue⟩ }

end GainParameters

end DualRendition
