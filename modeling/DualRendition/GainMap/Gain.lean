import DualRendition.Bound
import DualRendition.Metadata
import DualRendition.Raster

/-!
# Reading gains

A code of a gain map stands for a factor: its part of the largest code, raised to the channel's
gamma, picks a place in the channel's range of log2 gains, and the weight of the alternate rendition
scales it. A `GainTable` holds the factors of all codes at one weight. Between the samples of the
map, gains are interpolated: a `Tap` is a position on one axis of the map.
-/

namespace DualRendition

namespace GainValues

/-- The part of the way from the base to the alternate rendition that a display with `headroom`
stops goes. Renditions of equal headroom stay at the base. -/
def weight (v : GainValues) (headroom : Float) : Float :=
  if v.alternateHeadroom == v.baseHeadroom then 0
  else clamp ((headroom - v.baseHeadroom) / (v.alternateHeadroom - v.baseHeadroom)) 0 1

end GainValues

namespace ChannelParameters

/-- The factor that a code of a map with largest code `max` stands for. -/
def factor (c : ChannelParameters Float Float) (backward : Bool) (weight : Float)
    (max code : Nat) : Float32 :=
  let part := (code.toFloat / max.toFloat).pow c.gamma
  let gain := c.min + part * (c.max - c.min)
  ((if backward then -1 else 1) * gain * weight).exp2.toFloat32

end ChannelParameters

/-- The factors of all codes: those of the red channel, then of the green, then of the blue one. -/
structure GainTable where
  factors : Array Float32
  /-- Codes of a channel. -/
  entries : Nat

namespace GainTable

/-- The table for a map of the given depth at one weight. -/
def ofValues (v : GainValues) (weight : Float) (depth : UInt8) : GainTable :=
  let max := (maxCode depth).toNat
  let channel (c : ChannelParameters Float Float) : Array Float32 :=
    Array.ofFn fun code : Fin (max + 1) => c.factor v.backward weight max code
  { factors := v.channels.toList.toArray.flatMap channel, entries := max + 1 }

/-- The factor of a code in one channel. A code over the largest one is not checked for: it reads on
into the next channel, and behind the last one there is nothing. -/
def lookup (t : GainTable) (channel : Fin 3) (code : UInt16) : Outcome Float32 :=
  readAt t.factors (channel * t.entries + code.toNat)

/-- The factors of the codes of a pixel. -/
def factorsOf (t : GainTable) (codes : Rgb UInt16) : Outcome (Rgb Float32) := do
  let found : Rgb (Outcome Float32) := .ofFn fun channel => t.lookup channel (codes.get channel)
  return ⟨← found.red, ← found.green, ← found.blue⟩

end GainTable

/-- A position between two neighbouring samples of an axis. -/
structure Tap where
  first : Nat
  second : Nat
  /-- The part of the way from the first to the second. -/
  part : Float32

namespace Tap

/-- Where sample `x` of `target` samples lies among `source` samples, both axes centered. The
position is not negative, so its conversion to an integer rounds it down. -/
def centered (source target : UInt32) (x : Nat) : Tap :=
  let scale := source.toFloat32 / target.toFloat32
  let last := source - 1
  let position :=
    clamp (((UInt32.ofNat x).toFloat32 + 0.5) * scale - 0.5) 0 last.toFloat32
  let first := position.toUInt32
  { first := first.toNat, second := (min (first + 1) last).toNat,
    part := position - first.toFloat32 }

/-- The positions of all `target` samples. -/
def axis (source target : UInt32) : Array Tap :=
  (Array.range target.toNat).map (centered source target)

/-- The value between four others: along the rows first, then between them. -/
def bilinear (tx ty : Tap) (topLeft topRight bottomLeft bottomRight : Float32) : Float32 :=
  let top := topLeft * (1 - tx.part) + topRight * tx.part
  let bottom := bottomLeft * (1 - tx.part) + bottomRight * tx.part
  top * (1 - ty.part) + bottom * ty.part

end Tap

namespace Raster

/-- The sample of a gain map that belongs to a channel; a gray map has one sample for all. -/
def gainSample (r : Raster) (channel : Fin 3) (x y : Nat) : UInt16 :=
  r.sample x y (if r.layout = .gray then 0 else channel)

/-- The samples of the pixel of a gain map at `(x, y)`, one for each channel. A place behind the end
of a row is one of the next row, and behind the last row there is nothing. -/
def gainCodes (r : Raster) (x y : Nat) : Outcome (Rgb UInt16) :=
  if r.pixelStart x y + r.channels ≤ r.samples.size then
    .ok (.ofFn fun channel => r.gainSample channel x y)
  else .error .absentEntry

end Raster

/-- The gains between four pixels of a map. -/
def GainTable.between (t : GainTable) (map : Raster) (tx ty : Tap) : Outcome (Rgb Float32) := do
  let topLeft ← t.factorsOf (← map.gainCodes tx.first ty.first)
  let topRight ← t.factorsOf (← map.gainCodes tx.second ty.first)
  let bottomLeft ← t.factorsOf (← map.gainCodes tx.first ty.second)
  let bottomRight ← t.factorsOf (← map.gainCodes tx.second ty.second)
  return .ofFn fun c => tx.bilinear ty (topLeft.get c) (topRight.get c) (bottomLeft.get c)
    (bottomRight.get c)

end DualRendition
