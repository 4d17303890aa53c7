import DualRendition.Failure
import DualRendition.Rendition

/-!
# Rasters

A `Raster` is a rendition with a size and a buffer of interleaved samples, rows packed from top to
bottom. The buffer is free: empty while only the header is known, and of any other length between
edits. Pixels count as present only when the buffer has exactly `width · height · channels`
samples (`Raster.hasPixels`), so that every row and pixel of a present raster lies inside it.
-/

namespace DualRendition

/-- A picture of integer samples. -/
structure Raster extends Rendition where
  width : UInt32
  height : UInt32
  /-- Interleaved samples; empty when only the header is known. -/
  samples : Array UInt16
  deriving DecidableEq, Repr

namespace Raster

/-- Samples of a pixel. -/
def channels (r : Raster) : Nat := r.layout.channels

/-- Samples of a row. -/
def rowLength (r : Raster) : Nat := r.width.toNat * r.channels

/-- Samples of a whole picture, unless the number does not fit in 64 bits. -/
def sampleCount (r : Raster) : Outcome Nat :=
  let count := r.width.toNat * r.height.toNat * r.channels
  if count < UInt64.size then .ok count else .error (.limit .samples)

/-- Whether the buffer holds a whole picture. -/
def hasPixels (r : Raster) : Bool :=
  !r.samples.isEmpty &&
    match r.sampleCount with
    | .ok count => count = r.samples.size
    | .error _ => false

/-- The samples of row `y`. -/
def row (r : Raster) (y : Nat) : Array UInt16 :=
  r.samples.extract (y * r.rowLength) (y * r.rowLength + r.rowLength)

/-- Where the samples of the pixel at `(x, y)` start. -/
def pixelStart (r : Raster) (x y : Nat) : Nat := (y * r.width.toNat + x) * r.channels

/-- The samples of the pixel at `(x, y)`. -/
def pixel (r : Raster) (x y : Nat) : Array UInt16 :=
  r.samples.extract (r.pixelStart x y) (r.pixelStart x y + r.channels)

/-- Sample `c` of the pixel at `(x, y)`. -/
def sample (r : Raster) (x y c : Nat) : UInt16 := r.samples.getD (r.pixelStart x y + c) 0

/-- The raster with `samples` written over the start of row `y`. -/
def setRow (r : Raster) (y : Nat) (samples : Array UInt16) : Raster :=
  let start := y * r.rowLength
  { r with
    samples := r.samples.extract 0 start ++ samples ++
      r.samples.extract (start + samples.size) r.samples.size }

/-- Whether both have the same size, depth and layout. -/
def sameShape (r s : Raster) : Bool :=
  r.width = s.width && r.height = s.height && r.depth = s.depth && r.layout = s.layout

/-- Fails unless the size is not empty and within the limits. -/
def checkSize (width height : UInt32) : Outcome Unit := do
  if width = 0 ∨ height = 0 then throw (.dimensions width height)
  if maxDimension < width ∨ maxDimension < height then
    throw (.limit (.dimension (max width height)))
  let pixels := width.toNat * height.toNat
  if maxPixels < pixels then throw (.limit (.pixels pixels))

/-- Fails unless samples of `depth` bits can be stored. -/
def checkDepth (depth : UInt8) : Outcome Unit :=
  if 1 ≤ depth ∧ depth ≤ 16 then .ok () else .error (.parameter (.depth depth))

/-- An sRGB raster with BT.709 primaries and no samples. -/
def header (width height : UInt32) (depth : UInt8) (layout : Layout) : Outcome Raster := do
  checkSize width height
  checkDepth depth
  return { depth, layout, primaries := .bt709, transfer := .srgb, lightLevel := .unknown,
           width, height, samples := #[] }

/-- Fills an empty buffer with zeros; any other buffer stays. -/
def allocate (r : Raster) : Outcome Raster := do
  if r.samples.isEmpty then
    let count ← r.sampleCount
    return { r with samples := Array.replicate count 0 }
  else
    return r

/-- A header with zeros for samples. -/
def zeros (width height : UInt32) (depth : UInt8) (layout : Layout) : Outcome Raster := do
  let r ← header width height depth layout
  r.allocate

/-- A header with the given samples, which have to be as many as the picture needs and within the
range of the depth. -/
def ofSamples (width height : UInt32) (depth : UInt8) (layout : Layout) (samples : Array UInt16) :
    Outcome Raster := do
  let r ← header width height depth layout
  let count ← r.sampleCount
  if samples.size ≠ count then throw (.parameter (.sampleCount count samples.size))
  match samples.find? (r.maxValue < ·) with
  | some sample => throw (.parameter (.sampleRange sample depth))
  | none => return { r with samples }

end Raster

end DualRendition
