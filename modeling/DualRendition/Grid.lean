import DualRendition.Image

/-!
# Grids of cells

A picture may be stored as a row-major grid of equally shaped cells, and so may its gain map, with
a grid of its own. `ImageGrid.layout` accepts exactly the grids whose cells have pixels, agree in
shape and stay within the limits of one image; `GainMapGrid.layout` asks in addition for one
metadata record in all cells. `ImageGrid.stitch` lays the rows of neighbouring cells side by side.
-/

namespace DualRendition

/-- Cells in row-major order. -/
structure Grid (α : Type) where
  columns : UInt32
  rows : UInt32
  cells : List α

/-- The shape of a valid grid. -/
structure GridLayout where
  columns : UInt32
  rows : UInt32
  cellWidth : UInt32
  cellHeight : UInt32
  cellDepth : UInt8
  cellLayout : Layout
  /-- The metadata of every cell of a gain map grid. -/
  metadata : Option Metadata
  deriving DecidableEq, Repr

namespace GridLayout

/-- Width of the stitched image. -/
def width (l : GridLayout) : UInt32 := l.columns * l.cellWidth

/-- Height of the stitched image. -/
def height (l : GridLayout) : UInt32 := l.rows * l.cellHeight

def cellCount (l : GridLayout) : Nat := l.columns.toNat * l.rows.toNat

end GridLayout

namespace Grid

variable {α β : Type}

/-- A grid of one cell. -/
def single (cell : α) : Grid α := ⟨1, 1, [cell]⟩

/-- Whether there is more than one cell. -/
def isTiled (g : Grid α) : Bool := 1 < g.cells.length

def map (f : α → β) (g : Grid α) : Grid β := ⟨g.columns, g.rows, g.cells.map f⟩

/-- Fails unless the cells fill a grid of at least one and at most `maxGridSide` cells per side. -/
def checkCounts (g : Grid α) : Outcome Unit := do
  if g.columns = 0 ∨ g.rows = 0 then throw (.grid (.noCells g.columns g.rows))
  if maxGridSide < g.columns ∨ maxGridSide < g.rows then
    throw (.grid (.tooManyPerSide g.columns g.rows))
  if g.cells.length ≠ g.columns.toNat * g.rows.toNat then
    throw (.grid (.cellCount g.cells.length g.columns g.rows))

end Grid

/-- A picture in cells. The cells are meant to own no gain maps. -/
abbrev ImageGrid := Grid Image

namespace ImageGrid

/-- The first cell of a grid with valid counts. -/
def firstCell (g : ImageGrid) : Outcome Image := do
  g.checkCounts
  match g.cells with
  | first :: _ => return first
  | [] => throw (.grid (.noCells g.columns g.rows))

/-- The shape of a valid grid. -/
def layout (g : ImageGrid) : Outcome GridLayout := do
  let first ← g.firstCell
  if g.cells.any fun cell => !cell.hasPixels then throw (.grid .cellWithoutPixels)
  if g.cells.any fun cell => !cell.sameShape first.toRaster then throw (.grid .cellShapes)
  let width := g.columns.toNat * first.width.toNat
  let height := g.rows.toNat * first.height.toNat
  if maxDimension.toNat < width ∨ maxDimension.toNat < height ∨ maxPixels < width * height then
    throw (.grid (.assembledSize width height))
  return { columns := g.columns, rows := g.rows, cellWidth := first.width,
           cellHeight := first.height, cellDepth := first.depth, cellLayout := first.layout,
           metadata := none }

/-- The stitched image without its samples, described as the first cell is. -/
def header (g : ImageGrid) : Outcome Image := do
  let layout ← g.layout
  let first ← g.firstCell
  let whole ← Raster.header layout.width layout.height layout.cellDepth layout.cellLayout
  return .ofRaster { whole with primaries := first.primaries, transfer := first.transfer,
                                lightLevel := first.lightLevel }

/-- The samples of the cells laid side by side: in every row of cells, row after row of pixels,
the pixel rows of the neighbouring cells follow each other. -/
def strips (columns rows cellHeight : Nat) (cells : Array Raster) : Array UInt16 :=
  (Array.range rows).flatMap fun r =>
    let band := cells.extract (r * columns) (r * columns + columns)
    (Array.range cellHeight).flatMap fun y => band.flatMap (·.row y)

/-- The whole image of a valid grid. -/
def stitch (g : ImageGrid) : Outcome Image := do
  let layout ← g.layout
  let whole ← g.header
  let samples := strips g.columns.toNat g.rows.toNat layout.cellHeight.toNat
    (g.cells.map Image.toRaster).toArray
  return { whole with samples }

/-- The whole image. Without several cells to stitch, the first one is handed out as it is, and
asked for without a look at whether there is one. -/
def assemble (g : ImageGrid) : Outcome Image :=
  match g.cells with
  | [] => .error .absentCell
  | [cell] => .ok cell
  | _ => g.stitch

end ImageGrid

/-- A gain map in cells. -/
abbrev GainMapGrid := Grid GainMap

namespace GainMapGrid

/-- The images of the cells, if every cell has one. -/
def images? (g : GainMapGrid) : Option ImageGrid := do
  let images ← g.cells.mapM GainMapOf.image
  return ⟨g.columns, g.rows, images⟩

/-- The first cell of a grid with valid counts. -/
def firstCell (g : GainMapGrid) : Outcome GainMap := do
  g.checkCounts
  match g.cells with
  | first :: _ => return first
  | [] => throw (.grid (.noCells g.columns g.rows))

/-- The images of a grid whose cells agree in metadata, and that metadata. -/
def uniform (g : GainMapGrid) : Outcome (ImageGrid × Metadata) := do
  let first ← g.firstCell
  match g.images? with
  | none => throw (.grid .cellWithoutImage)
  | some images =>
    if g.cells.any fun cell => cell.metadata ≠ first.metadata then throw (.grid .cellMetadata)
    return (images, first.metadata)

/-- The shape of a valid grid, with the metadata of its cells. -/
def layout (g : GainMapGrid) : Outcome GridLayout := do
  let (images, metadata) ← g.uniform
  let layout ← images.layout
  return { layout with metadata := some metadata }

/-- The whole gain map, its alternate rendition described as in the first cell. -/
def assemble (g : GainMapGrid) : Outcome GainMap := do
  let (images, metadata) ← g.uniform
  let image ← images.stitch
  let first ← g.firstCell
  return { image := some image, metadata, alternate := first.alternate }

end GainMapGrid

end DualRendition
