import DualRendition.Color.Curve
import DualRendition.Color.Primaries
import DualRendition.Image
import DualRendition.Stop

/-!
# Codes and light

Samples are codes of a given depth. A `LightTable` holds the linear light of every code of one
image and the matrix to the primaries in which light is wanted, so that a transfer curve is
evaluated once per code and not once per sample; a `SignalWriter` leads from light back to codes.
Both refuse images whose primaries or transfer function are unspecified. That samples keep to the
range of their depth is not checked: the table has nothing for others, and the program ends there.
-/

namespace DualRendition

namespace Code

/-- The code as a part of the largest one. -/
def normalize (code max : UInt16) : Float32 := code.toFloat32 / max.toFloat32

/-- The code nearest to a part of the largest one. -/
def quantize (value : Float32) (max : UInt16) : UInt16 :=
  (clamp value 0 1 * max.toFloat32 + 0.5).toUInt16

/-- The code at another depth, rounded to nearest. -/
def rescale (code fromMax toMax : UInt16) : UInt16 :=
  if fromMax = toMax then code
  else
    ((code.toUInt32 * toMax.toUInt32 + fromMax.toUInt32 / 2) / fromMax.toUInt32).toUInt16

end Code

/-- Fails unless it is known how to read the colours of an image. -/
def checkColorInfo (r : Rendition) (role : String) : Outcome Unit := do
  if r.transfer = .unspecified then throw (.parameter (.unspecifiedTransfer role))
  if r.primaries = .unspecified then throw (.parameter (.unspecifiedPrimaries role))

/-- Linear light of every code of an image, and the way to other primaries. -/
structure LightTable where
  light : Array Float32
  matrix : Matrix Float32
  layout : Layout

namespace LightTable

/-- The table of an image, for light in `target` primaries. -/
def ofRendition (r : Rendition) (target : Gamut) (role : String) : Outcome LightTable := do
  checkColorInfo r role
  let light := Array.ofFn fun code : Fin (r.maxValue.toNat + 1) =>
    r.transfer.toLinear (Code.normalize (.ofNat code) r.maxValue)
  return { light, matrix := r.primaries.conversion target, layout := r.layout }

/-- Linear light of a code, in the image's own primaries. -/
def lookup (t : LightTable) (code : UInt16) : Outcome Float32 := readAt t.light code.toNat

/-- Linear light of a pixel. A gray sample stands for all three channels; alpha is left out. -/
def pixelLight (t : LightTable) (sample : Nat → UInt16) : Outcome (Rgb Float32) :=
  match t.layout with
  | .gray => do
    let light ← t.lookup (sample 0)
    return t.matrix.transform (.replicate light)
  | .rgb | .rgba => do
    let red ← t.lookup (sample 0)
    let green ← t.lookup (sample 1)
    let blue ← t.lookup (sample 2)
    return t.matrix.transform ⟨red, green, blue⟩

/-- Linear light of row `y` of a raster. -/
def rowLight (t : LightTable) (r : Raster) (y : Nat) : Outcome (Array Float32) :=
  layOut r.width.toNat fun x => do
    let light ← t.pixelLight (r.sample x y)
    return light.toList.toArray

/-- Linear light of a raster, interleaved, with a check before every row. -/
def rasterLight (t : LightTable) (r : Raster) (stop : Stop) (asked : Nat) :
    Outcome (Array Float32) :=
  stop.sweep asked r.height.toNat (t.rowLight r)

end LightTable

/-- The way from linear light to the codes of an image. -/
structure SignalWriter where
  matrix : Matrix Float32
  transfer : Transfer
  max : UInt16

namespace SignalWriter

/-- The writer for light in `source` primaries. -/
def ofRendition (source : Gamut) (r : Rendition) : Outcome SignalWriter := do
  checkColorInfo r "output"
  return { matrix := source.conversion r.primaries, transfer := r.transfer, max := r.maxValue }

/-- The codes of linear light. -/
def codes (w : SignalWriter) (light : Rgb Float32) : Rgb UInt16 :=
  (w.matrix.transform light).map fun v => Code.quantize (w.transfer.fromLinear v) w.max

end SignalWriter

end DualRendition
