import DualRendition.Color.Light
import DualRendition.Edit
import DualRendition.Resample

/-!
# Measuring gain maps

A gain map is measured from a base and an alternate rendition of one picture: both are decoded to
linear light in common primaries and resampled to the size of the map, and the log2 ratios of their
samples, with small offsets against black, become its codes. All input checks come first
(`GainMapOf.plan`), then three passes over rows that a `Stop` may end, and only a complete result is
stored.
-/

namespace DualRendition

/-- How a gain map is to be measured. -/
structure MeasureSettings where
  /-- Gamma of the stored gains. -/
  gamma : Float
  /-- Added to base samples before the ratio is taken. -/
  baseOffset : Float
  /-- Added to alternate samples before the ratio is taken. -/
  alternateOffset : Float
  /-- Headroom of the base, when it is not to be inferred. -/
  baseHeadroom : Option Float
  /-- Headroom of the alternate, when it is not to be inferred. -/
  alternateHeadroom : Option Float
  /-- Measure in the base primaries, otherwise in the alternate's. -/
  useBaseColorSpace : Bool

namespace MeasureSettings

/-- Unit gamma, offsets of 1/64, inferred headrooms and the base primaries. -/
def standard : MeasureSettings := ⟨1, 1 / 64, 1 / 64, none, none, true⟩

/-- The headroom that is configured, or else the one that the image implies. -/
def headroom (configured : Option Float) (r : Rendition) (role : String) : Outcome Float :=
  match configured with
  | some h =>
    if !h.isFinite || h < 0 then .error (.parameter (.configuredHeadroom role h)) else .ok h
  | none => .ok (r.transfer.headroom r.lightLevel)

end MeasureSettings

/-- The primaries in which ratios are taken. -/
def MeasureSettings.gamut (settings : MeasureSettings) (base alternate : Rendition) : Gamut :=
  if settings.useBaseColorSpace then base.primaries else alternate.primaries

/-- What is settled before the first sample is decoded. -/
structure MeasurePlan where
  target : Image
  baseHeadroom : Float
  alternateHeadroom : Float
  /-- The primaries in which the ratios are taken. -/
  gamut : Gamut
  baseTable : LightTable
  alternateTable : LightTable

namespace MeasurePlan

/-- Whether the gains lead from the alternate to the base: when the base has more headroom. -/
def backward (p : MeasurePlan) : Bool := p.alternateHeadroom < p.baseHeadroom

end MeasurePlan

/-- No term of a ratio is smaller than this. -/
def minRatioTerm : Float := 1e-7

/-! The binary logarithm is a parameter: what is proved of measuring holds for every function in its
place. -/

section Logarithm

variable (log2 : Float → Float)

namespace MeasureSettings

/-- The stored gain of a sample: log2 of the ratio of the two renditions. -/
def gain (settings : MeasureSettings) (backward : Bool) (base alternate : Float32) : Float :=
  let b := larger (widen base + settings.baseOffset) minRatioTerm
  let a := larger (widen alternate + settings.alternateOffset) minRatioTerm
  (if backward then -1 else 1) * log2 (a / b)

/-- The gains of a pixel; a gray map takes the gain of the luminances for all channels. -/
def pixelGain (settings : MeasureSettings) (plan : MeasurePlan) (luma : Rgb Float32)
    (base alternate : Rgb Float32) : Rgb Float :=
  let gain := settings.gain log2 plan.backward
  match plan.target.layout with
  | .gray => .replicate (gain (Matrix.dot luma base) (Matrix.dot luma alternate))
  | .rgb | .rgba => base.zipWith gain alternate

end MeasureSettings

end Logarithm

/-- The three samples of pixel `i` of an interleaved buffer. -/
def pixelOf (light : Array Float32) (i : Nat) : Rgb Float32 :=
  .ofFn fun c => light.getD (i * 3 + c) 0

/-- The least and the greatest gain of every channel. -/
def gainRange (gains : Array (Rgb Float)) : Rgb Float × Rgb Float :=
  (gains.foldl (fun least g => least.zipWith smaller g) (.replicate (1 / 0)),
   gains.foldl (fun greatest g => greatest.zipWith larger g) (.replicate (-1 / 0)))

/-- The code of a gain, by the range and gamma of its channel. An empty range has only code 0. -/
def gainCode (c : ChannelParameters Float Float) (max : UInt16) (gain : Float) : UInt16 :=
  let range := c.max - c.min
  let part := if 0 < range then clamp ((gain - c.min) / range) 0 1 else 0
  Code.quantize (part.pow (1 / c.gamma)).toFloat32 max

/-- The codes of a pixel's gains in the layout of the map. -/
def pixelCodes (layout : Layout) (channels : Rgb (ChannelParameters Float Float)) (max : UInt16)
    (gain : Rgb Float) : Array UInt16 :=
  let codes := channels.zipWith (gainCode · max) gain
  match layout with
  | .gray => #[codes.red]
  | .rgb | .rgba => codes.toList.toArray

namespace GainMapOf

/-- Checks the inputs and settles headrooms, primaries and tables. -/
def plan (g : GainMap) (base alternate : Image) (settings : MeasureSettings) :
    Outcome MeasurePlan := do
  if !base.hasPixels || !alternate.hasPixels then throw (.parameter .renditionsWithoutPixels)
  if base.width ≠ alternate.width ∨ base.height ≠ alternate.height then
    throw (.parameter
      (.renditionSizes base.width base.height alternate.width alternate.height))
  let some target := g.image | throw (.parameter .noTargetImage)
  if target.layout = .rgba then throw (.parameter .gainMapLayout)
  let baseHeadroom ← MeasureSettings.headroom settings.baseHeadroom base.toRendition "base"
  let alternateHeadroom ←
    MeasureSettings.headroom settings.alternateHeadroom alternate.toRendition "alternate"
  let gamut := settings.gamut base.toRendition alternate.toRendition
  let baseTable ← LightTable.ofRendition base.toRendition gamut "base"
  let alternateTable ← LightTable.ofRendition alternate.toRendition gamut "alternate"
  return { target, baseHeadroom, alternateHeadroom, gamut, baseTable, alternateTable }

/-- Linear light of base and alternate at the size of the map. The renditions are decoded one after
the other, with a check before every row. -/
def lights (plan : MeasurePlan) (base alternate : Image) (stop : Stop) :
    Outcome (Array Float32 × Array Float32) := do
  let height := base.height.toNat
  let baseLight ← plan.baseTable.rasterLight base.toRaster stop 0
  let alternateLight ← plan.alternateTable.rasterLight alternate.toRaster stop height
  let atMapSize (light : Array Float32) : Array Float32 :=
    resample light base.width.toNat height 3 plan.target.width.toNat plan.target.height.toNat
  return (atMapSize baseLight, atMapSize alternateLight)

/-- The gains of all pixels of the map. A check precedes every row, after those of the
renditions. -/
def gains (log2 : Float → Float) (plan : MeasurePlan) (base alternate : Image)
    (settings : MeasureSettings) (stop : Stop) : Outcome (Array (Rgb Float)) := do
  let (baseLight, alternateLight) ← lights plan base alternate stop
  let width := plan.target.width.toNat
  let luma := plan.gamut.luma
  stop.sweep (2 * base.height.toNat) plan.target.height.toNat fun y =>
    return (Array.range width).map fun x =>
      let i := y * width + x
      settings.pixelGain log2 plan luma (pixelOf baseLight i) (pixelOf alternateLight i)

/-- The metadata of measured gains, before it is turned into fractions. -/
def measuredValues (plan : MeasurePlan) (settings : MeasureSettings)
    (gains : Array (Rgb Float)) : GainValues :=
  let (least, greatest) := gainRange gains
  { backward := plan.backward, useBaseColorSpace := settings.useBaseColorSpace,
    baseHeadroom := plan.baseHeadroom, alternateHeadroom := plan.alternateHeadroom,
    channels := least.zipWith
      (fun min max =>
        { min, max, gamma := settings.gamma, baseOffset := settings.baseOffset,
          alternateOffset := settings.alternateOffset })
      greatest }

/-- The gain map with samples, metadata and alternate rendition as measured. The codes are taken
against the range and gamma that are stored, not against the exact ones. -/
def measured (log2 : Float → Float) (g : GainMap) (base alternate : Image)
    (settings : MeasureSettings) (stop : Stop) : Outcome GainMap := do
  let plan ← g.plan base alternate settings
  let gains ← gains log2 plan base alternate settings stop
  let metadata ← (measuredValues plan settings gains).fractions
  let stored ← metadata.values
  let target := plan.target
  let samples := gains.flatMap (pixelCodes target.layout stored.channels target.maxValue)
  return { image := some { target with samples }, metadata, alternate := alternate.toRendition }

/-- Measures a gain map in place. -/
def measure (log2 : Float → Float) (base alternate : Image) (settings : MeasureSettings)
    (stop : Stop) : Edit GainMap Unit := do
  let g ← get
  let result ← .ofOutcome (measured log2 g base alternate settings stop)
  set result

end GainMapOf

end DualRendition
