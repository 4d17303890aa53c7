import DualRendition.Proofs.Grid.Layout
import DualRendition.Proofs.Raster.Addressing

/-!
# Stitching legal grids

A legal grid whose cells have a legal depth always stitches, to a picture that can be written down:
`ImageGrid.whole`. From it follow the four facts that sessions rest on: the picture has all of its
pixels (`ImageGrid.Legal.whole_hasPixels`), handing out a single cell as it is and stitching it are
the same (`ImageGrid.assemble_eq`), gain maps in the cells make no difference
(`ImageGrid.whole_withoutGainMaps`), and a gain map grid stitches to its own whole
(`GainMapGrid.assemble_eq`).
-/

namespace DualRendition

namespace ImageGrid

/-- The picture that the cells of a legal grid make up, described as the first cell is. -/
def whole (g : ImageGrid) (first : Image) : Image :=
  .ofRaster
    { toRendition := first.toRendition
      width := g.columns * first.width
      height := g.rows * first.height
      samples := strips g.columns.toNat g.rows.toNat first.height.toNat
        (g.cells.map Image.toRaster).toArray }

variable {g : ImageGrid} {first : Image}

/-- No side of a legal grid wraps around. -/
theorem Legal.sides (h : g.Legal first) :
    (g.columns * first.width).toNat = g.columns.toNat * first.width.toNat ∧
    (g.rows * first.height).toNat = g.rows.toNat * first.height.toNat := by
  have hlimit : maxDimension.toNat < 2 ^ 32 := by decide
  rw [UInt32.toNat_mul, UInt32.toNat_mul]
  exact ⟨Nat.mod_eq_of_lt (Nat.lt_of_le_of_lt h.width_le hlimit),
    Nat.mod_eq_of_lt (Nat.lt_of_le_of_lt h.height_le hlimit)⟩

/-- The whole picture of a legal grid has a legal size. -/
theorem Legal.sizeLegal (h : g.Legal first) :
    Raster.SizeLegal (g.columns * first.width) (g.rows * first.height) := by
  obtain ⟨hwidth, hheight⟩ := h.sides
  obtain ⟨hw, hh⟩ := Raster.dimensions_pos (h.pixels first h.first_mem)
  refine ⟨?_, ?_, ?_, ?_, ?_⟩
  · rw [hwidth]
    exact Nat.mul_pos h.filled.columns_pos hw
  · rw [hheight]
    exact Nat.mul_pos h.filled.rows_pos hh
  · rw [hwidth]
    exact h.width_le
  · rw [hheight]
    exact h.height_le
  · rw [hwidth, hheight]
    exact h.area_le

/-! ## Strips -/

section Strips

variable {columns rows height length : Nat} {cells : Array Raster}

/-- The cells in row `r` of a grid. -/
def band (columns : Nat) (cells : Array Raster) (r : Nat) : Array Raster :=
  cells.extract (r * columns) (r * columns + columns)

/-- Row `y` of pixels of a band. -/
def bandRow (columns : Nat) (cells : Array Raster) (r y : Nat) : Array UInt16 :=
  (band columns cells r).flatMap (·.row y)

/-- Every row of cells is a band as wide as the grid. -/
theorem size_band (hcells : cells.size = columns * rows) {r : Nat} (hr : r < rows) :
    (band columns cells r).size = columns := by
  have hend : r * columns + columns ≤ cells.size := by
    rw [hcells, Nat.mul_comm columns]
    exact piece_le hr columns
  unfold band
  rw [Array.size_extract_of_le hend, Nat.add_sub_cancel_left]

theorem mem_of_mem_band {cell : Raster} {r : Nat} (h : cell ∈ band columns cells r) :
    cell ∈ cells := by
  obtain ⟨i, hi, rfl⟩ := Array.mem_extract_iff_getElem.mp h
  exact Array.getElem_mem _

theorem size_bandRow (hcells : cells.size = columns * rows)
    (hrow : ∀ cell ∈ cells, ∀ y < height, (cell.row y).size = length) {r y : Nat} (hr : r < rows)
    (hy : y < height) : (bandRow columns cells r y).size = columns * length := by
  unfold bandRow
  rw [size_flatMap_of_mem fun cell hcell => hrow cell (mem_of_mem_band hcell) y hy,
    size_band hcells hr]

/-- The rows of pixels of a band, one after the other. -/
theorem size_strip (hcells : cells.size = columns * rows)
    (hrow : ∀ cell ∈ cells, ∀ y < height, (cell.row y).size = length) {r : Nat} (hr : r < rows) :
    ((Array.range height).flatMap (bandRow columns cells r)).size =
      height * (columns * length) := by
  rw [size_flatMap_of_mem fun y hy => size_bandRow hcells hrow hr (Array.mem_range.mp hy),
    Array.size_range]

/-- Cells of one size, as many as the grid has places, give all samples of the whole picture. -/
theorem size_strips (hcells : cells.size = columns * rows)
    (hrow : ∀ cell ∈ cells, ∀ y < height, (cell.row y).size = length) :
    (strips columns rows height cells).size = rows * (height * (columns * length)) := by
  show ((Array.range rows).flatMap fun r =>
    (Array.range height).flatMap (bandRow columns cells r)).size = _
  rw [size_flatMap_of_mem fun r hr => size_strip hcells hrow (Array.mem_range.mp hr),
    Array.size_range]

end Strips

/-! ## The whole picture -/

/-- The cells of a legal grid agree in size, depth and layout with the first one. -/
theorem Legal.shape_of_mem (h : g.Legal first) {cell : Image} (hcell : cell ∈ g.cells) :
    cell.width = first.width ∧ cell.height = first.height ∧ cell.depth = first.depth ∧
      cell.layout = first.layout :=
  Raster.sameShape_iff.mp (h.shapes cell hcell)

/-- The cells of a legal grid are as many as it has places. -/
theorem Legal.size_rasters (h : g.Legal first) :
    (g.cells.map Image.toRaster).toArray.size = g.columns.toNat * g.rows.toNat := by
  rw [List.size_toArray, List.length_map]
  exact h.filled.length_cells

/-- The cells of a legal grid have complete rows, all of one length. -/
theorem Legal.size_row (h : g.Legal first) : ∀ cell ∈ (g.cells.map Image.toRaster).toArray,
    ∀ y < first.height.toNat, (cell.row y).size = first.rowLength := by
  intro cell hcell y hy
  obtain ⟨image, himage, rfl⟩ := List.mem_map.mp (List.mem_toArray.mp hcell)
  obtain ⟨hwidth, hheight, -, hlayout⟩ := h.shape_of_mem himage
  have hlength : image.rowLength = first.rowLength := by
    unfold Raster.rowLength Raster.channels
    rw [hwidth, hlayout]
  rw [← hlength]
  refine Raster.size_row (h.pixels image himage) ?_
  rw [hheight]
  exact hy

/-- The whole picture of a legal grid has its pixels. -/
theorem Legal.whole_hasPixels (h : g.Legal first) : (g.whole first).hasPixels = true := by
  obtain ⟨hwidth, hheight⟩ := h.sides
  refine Raster.hasPixels_of_size h.sizeLegal ?_
  show (strips _ _ _ _).size = (g.columns * first.width).toNat * (g.rows * first.height).toNat * _
  rw [size_strips h.size_rasters h.size_row, hwidth, hheight]
  show _ * (_ * (_ * (_ * first.channels))) = _ * _ * (_ * _) * first.channels
  simp only [Nat.mul_assoc, Nat.mul_left_comm]

/-- A raster of a legal size is a legal grid by itself. -/
theorem legal_single {cell : Image} (hsize : Raster.SizeLegal cell.width cell.height)
    (hpixels : cell.hasPixels = true) : ImageGrid.Legal (.single cell) cell where
  filled := Grid.filled_single cell
  head := rfl
  pixels := by
    intro other hother
    obtain rfl := List.mem_singleton.mp hother
    exact hpixels
  shapes := by
    intro other hother
    obtain rfl := List.mem_singleton.mp hother
    simp [Raster.sameShape]
  width_le := by
    show 1 * cell.width.toNat ≤ _
    rw [Nat.one_mul]
    exact hsize.width_le
  height_le := by
    show 1 * cell.height.toNat ≤ _
    rw [Nat.one_mul]
    exact hsize.height_le
  area_le := by
    show 1 * cell.width.toNat * (1 * cell.height.toNat) ≤ _
    rw [Nat.one_mul, Nat.one_mul]
    exact hsize.area_le

/-- The header of a legal grid is its whole picture without samples. -/
theorem header_eq (h : g.Legal first) (hdepth : Raster.DepthLegal first.depth) :
    g.header = .ok (g.whole first).withoutSamples := by
  have hlayout : g.layout = .ok (g.shape first) := layout_eq_ok_iff.mpr ⟨first, h, rfl⟩
  have hraster := (@Raster.header_eq_ok_iff _ _ _ first.layout _).mpr ⟨h.sizeLegal, hdepth, rfl⟩
  unfold header
  rw [hlayout, Outcome.ok_bind, h.firstCell, Outcome.ok_bind]
  show (Raster.header (g.columns * first.width) (g.rows * first.height) first.depth first.layout
    >>= _) = _
  rw [hraster]
  rfl

/-- Only legal grids with a legal depth have a header. -/
theorem header_eq_ok_iff {h : Image} : g.header = .ok h ↔
    ∃ first, g.Legal first ∧ Raster.DepthLegal first.depth ∧
      h = (g.whole first).withoutSamples := by
  constructor
  · intro hheader
    unfold header at hheader
    obtain ⟨l, hlayout, hheader⟩ := Outcome.bind_eq_ok.mp hheader
    obtain ⟨first, hlegal, rfl⟩ := layout_eq_ok_iff.mp hlayout
    rw [hlegal.firstCell, Outcome.ok_bind] at hheader
    obtain ⟨raster, hraster, hh⟩ := Outcome.bind_eq_ok.mp hheader
    obtain ⟨-, hdepth, rfl⟩ := Raster.header_eq_ok_iff.mp hraster
    exact ⟨first, hlegal, hdepth, (Outcome.pure_eq_ok.mp hh).symm⟩
  · intro hlegal
    obtain ⟨first, hlegal, hdepth, rfl⟩ := hlegal
    exact header_eq hlegal hdepth

theorem stitch_eq (h : g.Legal first) (hdepth : Raster.DepthLegal first.depth) :
    g.stitch = .ok (g.whole first) := by
  have hlayout : g.layout = .ok (g.shape first) := layout_eq_ok_iff.mpr ⟨first, h, rfl⟩
  unfold stitch
  rw [hlayout, Outcome.ok_bind, header_eq h hdepth]
  rfl

/-- Only legal grids with a legal depth are stitched. -/
theorem stitch_eq_ok_iff {picture : Image} : g.stitch = .ok picture ↔
    ∃ first, g.Legal first ∧ Raster.DepthLegal first.depth ∧ picture = g.whole first := by
  constructor
  · intro h
    have hstitch := h
    unfold stitch at h
    obtain ⟨l, -, h⟩ := Outcome.bind_eq_ok.mp h
    obtain ⟨header, hheader, -⟩ := Outcome.bind_eq_ok.mp h
    obtain ⟨first, hlegal, hdepth, -⟩ := header_eq_ok_iff.mp hheader
    rw [stitch_eq hlegal hdepth] at hstitch
    exact ⟨first, hlegal, hdepth, (Except.ok.inj hstitch).symm⟩
  · intro h
    obtain ⟨first, hlegal, hdepth, rfl⟩ := h
    exact stitch_eq hlegal hdepth

/-- One cell laid out alone gives its own samples. -/
theorem strips_singleton {r : Raster} (h : r.hasPixels = true) :
    strips 1 1 r.height.toNat #[r] = r.samples := by
  -- the one band has one cell, so a pixel row of the band is a row of that cell
  have hrow : ∀ y, Array.flatMap (fun r => r.row y) #[r] = r.row y := by
    intro y
    rw [Array.flatMap_singleton]
  unfold strips
  rw [show Array.range 1 = #[0] from rfl, Array.flatMap_singleton]
  show (Array.range r.height.toNat).flatMap (fun y => Array.flatMap (fun r => r.row y) #[r]) = _
  rw [funext hrow]
  exact Raster.rows_eq_samples h

/-- A grid of one cell makes up the picture of that cell. -/
theorem whole_singleton (h : g.Legal first) (hcells : g.cells = [first]) :
    g.whole first = first.withoutGainMap := by
  have hpixels : first.hasPixels = true := h.pixels first h.first_mem
  obtain ⟨hcolumns, hrows⟩ := h.filled.sides_of_singleton (by rw [hcells]; rfl)
  have hcolumns' : g.columns = 1 := UInt32.toNat_inj.mp hcolumns
  have hrows' : g.rows = 1 := UInt32.toNat_inj.mp hrows
  unfold whole
  rw [hcolumns, hrows, hcolumns', hrows', hcells, UInt32.one_mul, UInt32.one_mul]
  show Image.ofRaster { first.toRaster with samples := strips 1 1 _ #[first.toRaster] } = _
  rw [strips_singleton hpixels]
  rfl

/-- Taking the gain maps out of the cells leaves the whole picture. -/
theorem whole_withoutGainMaps (g : ImageGrid) (first : Image) :
    whole (g.map Image.withoutGainMap) first.withoutGainMap = g.whole first := by
  have hcells : ((g.map Image.withoutGainMap).cells.map Image.toRaster) =
      g.cells.map Image.toRaster := by
    show (g.cells.map Image.withoutGainMap).map Image.toRaster = _
    rw [List.map_map]
    rfl
  unfold whole
  rw [hcells]
  rfl

/-! ## Assembling -/

theorem isTiled_of_cells {second : Image} {rest : List Image}
    (h : g.cells = first :: second :: rest) : g.isTiled = true := by
  unfold Grid.isTiled
  rw [h]
  exact decide_eq_true (Nat.succ_lt_succ (Nat.succ_pos _))

theorem assemble_singleton {cell : Image} (hcells : g.cells = [cell]) : g.assemble = .ok cell := by
  unfold assemble
  rw [hcells]

/-- Several cells are stitched. -/
theorem assemble_tiled (h : g.isTiled = true) : g.assemble = g.stitch := by
  unfold Grid.isTiled at h
  unfold assemble
  split
  next hcells =>
    rw [hcells] at h
    cases h
  next cell hcells =>
    rw [hcells] at h
    cases h
  next => rfl

/-- Only a cell alone and stitched cells are assembled. -/
theorem assemble_eq_ok_iff {picture : Image} : g.assemble = .ok picture ↔
    g.cells = [picture] ∨ g.isTiled = true ∧ g.stitch = .ok picture := by
  constructor
  · intro h
    match hcells : g.cells with
    | [] =>
      unfold assemble at h
      rw [hcells] at h
      cases h
    | [cell] =>
      rw [assemble_singleton hcells] at h
      cases h
      exact .inl rfl
    | _ :: _ :: _ =>
      have htiled := isTiled_of_cells hcells
      rw [assemble_tiled htiled] at h
      exact .inr ⟨htiled, h⟩
  · intro h
    rcases h with hcells | ⟨htiled, hstitch⟩
    · exact assemble_singleton hcells
    · rw [assemble_tiled htiled]
      exact hstitch

/-- Cells without gain maps assemble to the whole picture, one cell alone no less than many. -/
theorem assemble_eq (h : g.Legal first) (hdepth : Raster.DepthLegal first.depth)
    (hbare : ∀ cell ∈ g.cells, cell.gainMap = none) : g.assemble = .ok (g.whole first) := by
  obtain ⟨rest, hcells⟩ := List.head?_eq_some_iff.mp h.head
  cases rest with
  | nil =>
    rw [assemble_singleton hcells, whole_singleton h hcells]
    have hnone := hbare first h.first_mem
    obtain ⟨raster, gainMap⟩ := first
    obtain rfl : gainMap = none := hnone
    rfl
  | cons second rest =>
    rw [assemble_tiled (isTiled_of_cells hcells)]
    exact stitch_eq h hdepth

/-- What a picture in one cell owns. A tiled picture owns nothing. -/
def owned (g : ImageGrid) : Option GainMap :=
  match g.cells with
  | [cell] => cell.gainMap
  | _ => none

theorem owned_of_bare (hbare : ∀ cell ∈ g.cells, cell.gainMap = none) : g.owned = none := by
  unfold owned
  split
  next cell hcells => exact hbare cell (by simp [hcells])
  next => rfl

theorem owned_of_tiled (h : g.isTiled = true) : g.owned = none := by
  unfold owned
  split
  next cell hcells =>
    unfold Grid.isTiled at h
    rw [hcells] at h
    cases h
  next => rfl

/-- A cell alone keeps what it owns when it is assembled, and stitching leaves it out. -/
theorem assemble_owned {picture : Image} (h : g.assemble = .ok picture) :
    picture.gainMap = g.owned := by
  rcases assemble_eq_ok_iff.mp h with hcells | ⟨htiled, hstitch⟩
  · unfold owned
    rw [hcells]
  · obtain ⟨first, -, -, rfl⟩ := stitch_eq_ok_iff.mp hstitch
    rw [owned_of_tiled htiled]
    rfl

/-- What is assembled owns a gain map only if a cell does. -/
theorem assemble_bare {picture : Image} (h : g.assemble = .ok picture)
    (hbare : ∀ cell ∈ g.cells, cell.gainMap = none) : picture.gainMap = none :=
  (assemble_owned h).trans (owned_of_bare hbare)

/-- The header describes the picture that the cells assemble to. -/
theorem header_assemble {header picture : Image} (hheader : g.header = .ok header)
    (hpicture : g.assemble = .ok picture) (hbare : ∀ cell ∈ g.cells, cell.gainMap = none) :
    header = picture.withoutSamples := by
  obtain ⟨first, hlegal, hdepth, rfl⟩ := header_eq_ok_iff.mp hheader
  have hwhole := assemble_eq hlegal hdepth hbare
  rw [hpicture] at hwhole
  cases hwhole
  rfl

end ImageGrid

namespace GainMapGrid

/-- A legal gain map grid assembles to the whole of its images, with the shared metadata and the
alternate rendition of the first cell. -/
theorem assemble_eq {g : GainMapGrid} {first : GainMap} {images : ImageGrid} {firstImage : Image}
    (h : g.Legal first images firstImage) (hdepth : Raster.DepthLegal firstImage.depth) :
    g.assemble = .ok ⟨some (images.whole firstImage), first.metadata, first.alternate⟩ := by
  have huniform : g.uniform = .ok (images, first.metadata) :=
    uniform_eq_ok_iff.mpr ⟨first, h.toUniform, rfl⟩
  have hfirst : g.firstCell = .ok first := firstCell_eq_ok_iff.mpr ⟨h.filled, h.head⟩
  unfold assemble
  rw [huniform, Outcome.ok_bind]
  dsimp only
  rw [ImageGrid.stitch_eq h.legal hdepth, Outcome.ok_bind, hfirst, Outcome.ok_bind]
  rfl

end GainMapGrid

end DualRendition
