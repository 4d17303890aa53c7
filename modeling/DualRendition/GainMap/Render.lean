import DualRendition.Color.Light
import DualRendition.Edit
import DualRendition.GainMap.Gain

/-!
# Rendering with a gain map

A base image and its gain map give the rendition for a display of any headroom: linear light of the
base, plus the base offset, times the interpolated gain, minus the offset of the result, encoded as
the output asks. All input checks come first (`RenderPlan.make`), then one checked pass over the
rows, and only a complete picture is stored.
-/

namespace DualRendition

namespace LightLevel

/-- A light level between two known ones, blended in log space and rounded; unknown beside an
unknown one. -/
def blend (base alternate : LightLevel) (weight : Float) : LightLevel :=
  let mix (b a : UInt16) : UInt16 :=
    (clamp (b.toFloat.pow (1 - weight) * a.toFloat.pow weight).round 0 65535).toUInt16
  if base.isKnown && alternate.isKnown then
    ⟨mix base.maxContent alternate.maxContent, mix base.maxAverage alternate.maxAverage⟩
  else unknown

end LightLevel

/-- The primaries in which gains are applied: those of the rendition that the metadata names. -/
def GainMapOf.mathGamut (g : GainMap) (base : Rendition) : Gamut :=
  if g.metadata.useBaseColorSpace then base.primaries else g.alternate.primaries

/-- What is settled before the first pixel is rendered. -/
structure RenderPlan where
  base : Raster
  /-- The stored gains. -/
  map : Raster
  values : GainValues
  weight : Float
  table : LightTable
  writer : SignalWriter
  /-- Rows of the output have alpha samples. -/
  alpha : Bool
  /-- The largest code of the output. -/
  maxValue : UInt16

namespace RenderPlan

/-- The image of a gain map, if it has pixels. -/
def mapImage (g : GainMap) : Outcome Image :=
  match g.image with
  | some image => if image.hasPixels then .ok image else .error (.parameter .gainMapWithoutPixels)
  | none => .error (.parameter .gainMapWithoutPixels)

/-- Fails unless a map of this layout can be read with the metadata. -/
def checkLayout (layout : Layout) (metadata : Metadata) : Outcome Unit :=
  match layout with
  | .gray =>
    if metadata.isSingleChannel then .ok () else .error (.parameter .grayWithChannels)
  | .rgb => .ok ()
  | .rgba => .error (.parameter .gainMapLayout)

/-- Checks the inputs and settles weight, primaries and tables. -/
def make (base : Image) (g : GainMap) (headroom : Float) (output : Image) :
    Outcome RenderPlan := do
  if !headroom.isFinite || headroom < 0 then throw (.parameter (.displayHeadroom headroom))
  if !base.hasPixels then throw (.parameter .baseWithoutPixels)
  let map ← mapImage g
  let values ← g.metadata.values
  checkLayout map.layout g.metadata
  if output.width ≠ base.width ∨ output.height ≠ base.height then
    throw (.parameter (.outputSize output.width output.height base.width base.height))
  if output.layout = .gray then throw (.parameter .outputLayout)
  let gamut := g.mathGamut base.toRendition
  if gamut = .unspecified then throw (.parameter .unspecifiedMathPrimaries)
  let table ← LightTable.ofRendition base.toRendition gamut "base"
  let writer ← SignalWriter.ofRendition gamut output.toRendition
  return { base := base.toRaster, map := map.toRaster, values, weight := values.weight headroom,
           table, writer, alpha := output.layout.hasAlpha, maxValue := output.maxValue }

/-- The offset that is added to base samples of a channel. -/
def baseOffset (c : ChannelParameters Float Float) : Float32 := c.baseOffset.toFloat32

/-- The offset that is taken from the result: between those of the renditions. -/
def outputOffset (weight : Float) (c : ChannelParameters Float Float) : Float32 :=
  (c.baseOffset + (c.alternateOffset - c.baseOffset) * weight).toFloat32

/-- The alpha sample of the pixel at `(x, y)`: that of the base, or full when it has none. -/
def alphaSample (p : RenderPlan) (x y : Nat) : UInt16 :=
  if p.base.layout.hasAlpha then Code.rescale (p.base.sample x y 3) p.base.maxValue p.maxValue
  else p.maxValue

/-- The samples of a pixel with the given linear light before the gains. -/
def finishPixel (p : RenderPlan) (light gain : Rgb Float32) (x y : Nat) : Array UInt16 :=
  let channels := p.values.channels
  let lifted := light.zipWith (· + ·) (channels.map baseOffset)
  let mapped := (lifted.zipWith (· * ·) gain).zipWith (· - ·) (channels.map (outputOffset p.weight))
  let codes := (p.writer.codes mapped).toList.toArray
  if p.alpha then codes.push (p.alphaSample x y) else codes

/-- Renders the pixel at `(x, y)`, whose place in the map is given by taps. -/
def renderPixel (p : RenderPlan) (gains : GainTable) (tx ty : Tap) (x y : Nat) :
    Outcome (Array UInt16) := do
  let light ← p.table.pixelLight (p.base.sample x y)
  let gain ← gains.between p.map tx ty
  return p.finishPixel light gain x y

/-- Renders all rows, with a check before each. Gains come from a table, positions in the map from
the taps of the two axes. -/
def samples (p : RenderPlan) (stop : Stop) : Outcome (Array UInt16) :=
  let gains := GainTable.ofValues p.values p.weight p.map.depth
  let columns := Tap.axis p.map.width p.base.width
  let rows := Tap.axis p.map.height p.base.height
  stop.sweep 0 p.base.height.toNat fun y =>
    let ty := rows.getD y ⟨0, 0, 0⟩
    layOut p.base.width.toNat fun x =>
      let tx := columns.getD x ⟨0, 0, 0⟩
      p.renderPixel gains tx ty x y

end RenderPlan

namespace GainMapOf

/-- The samples and the light level of the rendition for a display of `headroom` stops. -/
def rendered (g : GainMap) (base : Image) (headroom : Float) (output : Image) (stop : Stop) :
    Outcome (Array UInt16 × LightLevel) := do
  let plan ← RenderPlan.make base g headroom output
  let samples ← plan.samples stop
  return (samples, base.lightLevel.blend g.alternate.lightLevel plan.weight)

/-- Renders into `output`, which gives size, depth, layout, primaries and transfer function and
takes samples and light level. -/
def render (g : GainMap) (base : Image) (headroom : Float) (stop : Stop) :
    Edit Image LightLevel := do
  let output ← get
  let (samples, lightLevel) ← .ofOutcome (g.rendered base headroom output stop)
  set { output with samples, lightLevel }
  return lightLevel

end GainMapOf

end DualRendition
