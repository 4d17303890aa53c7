/-!
# Renditions

How the samples of a picture are to be understood: bit depth, channel layout, primaries, transfer
function and content light level. A `Rendition` describes a picture that is there as well as one
that is only known from a gain map.
-/

namespace DualRendition

/-- Colour primaries. -/
inductive Gamut where
  | bt709
  | displayP3
  | bt2100
  | unspecified
  deriving DecidableEq, Repr

/-- Transfer functions. -/
inductive Transfer where
  | srgb
  | linear
  | pq
  | hlg
  | unspecified
  deriving DecidableEq, Repr

/-- The transfer functions of high dynamic range content. -/
def Transfer.isHdr : Transfer → Bool
  | pq | hlg => true
  | srgb | linear | unspecified => false

/-- Which samples make up a pixel. -/
inductive Layout where
  | gray
  | rgb
  | rgba
  deriving DecidableEq, Repr

namespace Layout

/-- Samples of a pixel. -/
def channels : Layout → Nat
  | gray => 1
  | rgb => 3
  | rgba => 4

def hasAlpha (l : Layout) : Bool := l = rgba

theorem channels_pos (l : Layout) : 0 < l.channels := by cases l <;> decide

end Layout

/-- Content light level in nits; zero means unknown. -/
structure LightLevel where
  /-- Light level of the brightest pixel. -/
  maxContent : UInt16
  /-- Largest average light level of a picture. -/
  maxAverage : UInt16
  deriving DecidableEq, Repr

namespace LightLevel

def unknown : LightLevel := ⟨0, 0⟩

/-- Whether one of the values is set. -/
def isKnown (l : LightLevel) : Bool := l.maxContent != 0 || l.maxAverage != 0

end LightLevel

/-- The largest code of a depth. -/
def maxCode (depth : UInt8) : UInt32 := (1 <<< depth.toUInt32) - 1

/-- How the samples of a picture are to be understood. -/
structure Rendition where
  /-- Bits of a sample; 0 when unknown. -/
  depth : UInt8
  layout : Layout
  primaries : Gamut
  transfer : Transfer
  lightLevel : LightLevel
  deriving DecidableEq, Repr

namespace Rendition

/-- A rendition of which nothing is known. -/
def unknown : Rendition := ⟨0, .rgb, .unspecified, .unspecified, .unknown⟩

/-- The largest sample at the rendition's depth. -/
def maxValue (r : Rendition) : UInt16 := (maxCode r.depth).toUInt16

end Rendition

end DualRendition
