import DualRendition.Rendition
import DualRendition.Rgb

/-!
# Primaries

Linear colours are carried from one set of primaries to another by a 3×3 matrix, computed from the
chromaticities of the primaries over the common white point D65 in double precision and rounded to
single precision at the end. Unspecified primaries are never converted.
-/

namespace DualRendition

/-- The rows of a 3×3 matrix. -/
abbrev Matrix (α : Type) := Rgb (Rgb α)

namespace Matrix

variable {α : Type}

/-- The scalar product, summed from the left. -/
def dot [Add α] [Mul α] (u v : Rgb α) : α := u.red * v.red + u.green * v.green + u.blue * v.blue

/-- The image of a colour. -/
def transform [Add α] [Mul α] (m : Matrix α) (v : Rgb α) : Rgb α := m.map (dot · v)

def transpose (m : Matrix α) : Matrix α :=
  .ofFn fun i => m.map (·.get i)

def mul [Add α] [Mul α] (a b : Matrix α) : Matrix α :=
  a.map fun row => b.transpose.map (dot row ·)

/-- The determinant of the columns `i` and `j` of two rows. -/
def minor (row row' : Rgb Float) (i j : Rgb Float → Float) : Float :=
  i row * j row' - j row * i row'

/-- The inverse by cofactors. -/
def inverse (m : Matrix Float) : Matrix Float :=
  let ⟨a, b, c⟩ := m
  let adjugate : Matrix Float :=
    ⟨⟨minor b c (·.green) (·.blue), -minor a c (·.green) (·.blue), minor a b (·.green) (·.blue)⟩,
     ⟨-minor b c (·.red) (·.blue), minor a c (·.red) (·.blue), -minor a b (·.red) (·.blue)⟩,
     ⟨minor b c (·.red) (·.green), -minor a c (·.red) (·.green), minor a b (·.red) (·.green)⟩⟩
  let determinant := dot a (adjugate.map (·.red))
  adjugate.map (·.map (· / determinant))

def identity : Matrix Float32 := ⟨⟨1, 0, 0⟩, ⟨0, 1, 0⟩, ⟨0, 0, 1⟩⟩

/-- Whether every entry compares equal to that of the identity. -/
def isIdentity (m : Matrix Float32) : Bool :=
  (m.zipWith (fun row one => (row.zipWith (· == ·) one).toList.all id) identity).toList.all id

end Matrix

/-- CIE xy chromaticity. -/
structure Chromaticity where
  x : Float
  y : Float

namespace Chromaticity

/-- White point of all gamuts. -/
def d65 : Chromaticity := ⟨0.3127, 0.3290⟩

/-- CIE XYZ with `Y = 1`, as a triple. -/
def xyz (c : Chromaticity) : Rgb Float := ⟨c.x / c.y, 1, (1 - c.x - c.y) / c.y⟩

end Chromaticity

namespace Gamut

/-- Chromaticities of the primaries; unspecified ones count as BT.709. -/
def primaries : Gamut → Rgb Chromaticity
  | bt709 | unspecified => ⟨⟨0.640, 0.330⟩, ⟨0.300, 0.600⟩, ⟨0.150, 0.060⟩⟩
  | displayP3 => ⟨⟨0.680, 0.320⟩, ⟨0.265, 0.690⟩, ⟨0.150, 0.060⟩⟩
  | bt2100 => ⟨⟨0.708, 0.292⟩, ⟨0.170, 0.797⟩, ⟨0.131, 0.046⟩⟩

/-- Linear RGB to CIE XYZ. Each primary is scaled so that equal parts give the white point. -/
def toXyz (g : Gamut) : Matrix Float :=
  let primaries : Matrix Float := g.primaries.map Chromaticity.xyz
  let columns : Matrix Float := primaries.transpose
  let scale := columns.inverse.transform Chromaticity.d65.xyz
  columns.map (·.zipWith (· * ·) scale)

/-- Luminance weights of the primaries. -/
def luma (g : Gamut) : Rgb Float32 := g.toXyz.green.map Float.toFloat32

/-- Relative luminance of linear RGB. -/
def luminance (g : Gamut) (rgb : Rgb Float32) : Float32 := Matrix.dot g.luma rgb

/-- Linear RGB in primaries `g` to primaries `target`. -/
def conversion (g target : Gamut) : Matrix Float32 :=
  if g = target ∨ g = .unspecified ∨ target = .unspecified then .identity
  else (target.toXyz.inverse.mul g.toXyz).map (·.map Float.toFloat32)

/-- Linear RGB carried to other primaries; nothing is computed between equal ones. -/
def convert (g target : Gamut) (rgb : Rgb Float32) : Rgb Float32 :=
  if g = target then rgb else (g.conversion target).transform rgb

end Gamut

end DualRendition
