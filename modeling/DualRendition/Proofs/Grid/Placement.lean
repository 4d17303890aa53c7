import DualRendition.Proofs.Grid.Stitch

/-!
# Where stitching puts the samples

`stitch_places_samples` says of the whole picture of a grid what stands at each of its pixels: the
pixel at `(x, y)` is one of the cell in column `x / cellWidth` and row `y / cellHeight` of the grid,
at the remainders. So the window of the picture at a cell's place holds the samples of that cell,
and cells of one shape are told apart by the picture they make up.

Structure: a strip is read row by row (`extract_strips`) and a row of pixels cell by cell, which
gives the pixel of a cell at its place in the grid (`Legal.pixel_whole`). Windows and remainders are
two readings of that place.
-/

namespace DualRendition

namespace ImageGrid

/-! ## Reading strips -/

section Strips

variable {columns rows height length : Nat} {cells : Array Raster}

/-- The rows of pixels of all bands, from top to bottom, follow each other. -/
theorem extract_strips (hcells : cells.size = columns * rows)
    (hrow : ∀ cell ∈ cells, ∀ y < height, (cell.row y).size = length) {r y : Nat} (hr : r < rows)
    (hy : y < height) :
    (strips columns rows height cells).extract ((r * height + y) * (columns * length))
        ((r * height + y) * (columns * length) + columns * length) =
      bandRow columns cells r y := by
  have hbandRow : ∀ y < height, (bandRow columns cells r y).size = columns * length :=
    fun y hy => size_bandRow hcells hrow hr hy
  have hstrip : ∀ r < rows, ((Array.range height).flatMap (bandRow columns cells r)).size =
      height * (columns * length) := fun r hr => size_strip hcells hrow hr
  have hend : y * (columns * length) + columns * length ≤ height * (columns * length) :=
    piece_le hy _
  rw [Nat.add_mul, Nat.mul_assoc, ← extract_extract_of_le _ _ hend]
  show (((Array.range rows).flatMap fun r =>
    (Array.range height).flatMap (bandRow columns cells r)).extract _ _).extract _ _ = _
  rw [extract_flatMap_range hstrip hr, extract_flatMap_range hbandRow hy]

/-- The rows of the cells in a band, from left to right, follow each other. -/
theorem extract_bandRow (hcells : cells.size = columns * rows)
    (hrow : ∀ cell ∈ cells, ∀ y < height, (cell.row y).size = length) {column r y : Nat}
    (hcolumn : column < columns) (hr : r < rows) (hy : y < height) {cell : Raster}
    (hcell : cells[r * columns + column]? = some cell) :
    (bandRow columns cells r y).extract (column * length) (column * length + length) =
      cell.row y := by
  have hplace : column < (band columns cells r).size := by
    rw [size_band hcells hr]
    exact hcolumn
  have hband : (band columns cells r)[column] = cell := by
    obtain ⟨_, hget⟩ := Array.getElem?_eq_some_iff.mp hcell
    exact (Array.getElem_extract hplace).trans hget
  unfold bandRow
  rw [extract_flatMap (fun cell hcell => hrow cell (mem_of_mem_band hcell) y hy) hplace, hband]

end Strips

/-! ## The whole picture -/

variable {g g' : ImageGrid} {first first' cell : Image} {column row x y : Nat}

theorem Legal.rowLength_whole (h : g.Legal first) :
    (g.whole first).rowLength = g.columns.toNat * first.rowLength := by
  obtain ⟨hwidth, -⟩ := h.sides
  show (g.columns * first.width).toNat * first.channels = _ * (_ * first.channels)
  rw [hwidth, Nat.mul_assoc]

/-- A row of pixels of the whole picture is one of a band. -/
theorem Legal.row_whole (h : g.Legal first) (hrow : row < g.rows.toNat)
    (hy : y < first.height.toNat) :
    (g.whole first).row (row * first.height.toNat + y) =
      bandRow g.columns.toNat (g.cells.map Image.toRaster).toArray row y := by
  unfold Raster.row
  rw [h.rowLength_whole]
  exact extract_strips h.size_rasters h.size_row hrow hy

/-- In it stands the row of each cell in the band. -/
theorem Legal.extract_row_whole (h : g.Legal first) (hcolumn : column < g.columns.toNat)
    (hrow : row < g.rows.toNat) (hcell : g.cells[row * g.columns.toNat + column]? = some cell)
    (hy : y < first.height.toNat) :
    ((g.whole first).row (row * first.height.toNat + y)).extract (column * first.rowLength)
        (column * first.rowLength + first.rowLength) = cell.row y := by
  have hraster : (g.cells.map Image.toRaster).toArray[row * g.columns.toNat + column]? =
      some cell.toRaster := by
    rw [List.getElem?_toArray, List.getElem?_map, hcell]
    rfl
  rw [h.row_whole hrow hy]
  exact extract_bandRow h.size_rasters h.size_row hcolumn hrow hy hraster

/-- The pixels of a cell stand in the whole picture at the place of the cell. -/
theorem Legal.pixel_whole (h : g.Legal first) (hcolumn : column < g.columns.toNat)
    (hrow : row < g.rows.toNat) (hcell : g.cells[row * g.columns.toNat + column]? = some cell)
    (hx : x < first.width.toNat) (hy : y < first.height.toNat) :
    (g.whole first).pixel (column * first.width.toNat + x) (row * first.height.toNat + y) =
      cell.pixel x y := by
  obtain ⟨hwidth, -⟩ := h.sides
  obtain ⟨hsameWidth, -, -, hsameLayout⟩ := h.shape_of_mem (List.mem_of_getElem? hcell)
  have hchannels : cell.channels = first.channels := by
    unfold Raster.channels
    rw [hsameLayout]
  have hinside : column * first.width.toNat + x < (g.whole first).width.toNat := by
    show _ < (g.columns * first.width).toNat
    rw [hwidth]
    exact place_lt hx hcolumn
  have hend : x * first.channels + first.channels ≤ first.rowLength :=
    piece_le hx first.channels
  have hstart : (column * first.width.toNat + x) * first.channels =
      column * first.rowLength + x * first.channels := by
    unfold Raster.rowLength
    rw [Nat.add_mul, Nat.mul_assoc]
  rw [Raster.pixel_eq_extract_row hinside]
  show Array.extract _ (_ * first.channels) (_ * first.channels + first.channels) = _
  rw [hstart, ← extract_extract_of_le _ _ hend, h.extract_row_whole hcolumn hrow hcell hy,
    ← hchannels, Raster.pixel_eq_extract_row (hsameWidth ▸ hx)]

/-- Every place of a legal grid has a cell. -/
theorem Legal.exists_cell (h : g.Legal first) (hcolumn : column < g.columns.toNat)
    (hrow : row < g.rows.toNat) :
    ∃ cell, g.cells[row * g.columns.toNat + column]? = some cell := by
  have hplace : row * g.columns.toNat + column < g.cells.length := by
    rw [h.filled.length_cells, Nat.mul_comm g.columns.toNat]
    exact place_lt hcolumn hrow
  exact ⟨_, List.getElem?_eq_getElem hplace⟩

/-- Every pixel of the whole picture is one of a cell: quotients tell the cell, and remainders the
pixel. -/
theorem Legal.pixel_whole_eq (h : g.Legal first) (hx : x < (g.whole first).width.toNat)
    (hy : y < (g.whole first).height.toNat) :
    ∃ cell, g.cells[y / first.height.toNat * g.columns.toNat + x / first.width.toNat]? =
        some cell ∧
      (g.whole first).pixel x y = cell.pixel (x % first.width.toNat) (y % first.height.toNat) := by
  obtain ⟨hwidth, hheight⟩ := h.sides
  obtain ⟨hw, hh⟩ := Raster.dimensions_pos (h.pixels first h.first_mem)
  have hcolumn : x / first.width.toNat < g.columns.toNat :=
    Nat.div_lt_of_lt_mul (by rw [Nat.mul_comm, ← hwidth]; exact hx)
  have hrow : y / first.height.toNat < g.rows.toNat :=
    Nat.div_lt_of_lt_mul (by rw [Nat.mul_comm, ← hheight]; exact hy)
  obtain ⟨cell, hcell⟩ := h.exists_cell hcolumn hrow
  have hpixel := h.pixel_whole hcolumn hrow hcell (Nat.mod_lt x hw) (Nat.mod_lt y hh)
  rw [Nat.div_add_mod', Nat.div_add_mod'] at hpixel
  exact ⟨cell, hcell, hpixel⟩

/-- The window of the whole picture at the place of a cell holds the samples of the cell. -/
theorem Legal.window_whole (h : g.Legal first) {i : Nat} (hcell : g.cells[i]? = some cell) :
    (g.whole first).window (i % g.columns.toNat * first.width.toNat)
        (i / g.columns.toNat * first.height.toNat) first.width.toNat first.height.toNat =
      cell.samples := by
  obtain ⟨hwidth, hheight, -, -⟩ := h.shape_of_mem (List.mem_of_getElem? hcell)
  have hcolumn : i % g.columns.toNat < g.columns.toNat := Nat.mod_lt _ h.filled.columns_pos
  have hrow : i / g.columns.toNat < g.rows.toNat := by
    obtain ⟨hlt, -⟩ := List.getElem?_eq_some_iff.mp hcell
    rw [h.filled.length_cells] at hlt
    exact Nat.div_lt_of_lt_mul hlt
  have hplace : g.cells[i / g.columns.toNat * g.columns.toNat + i % g.columns.toNat]? =
      some cell := by
    rw [Nat.div_add_mod']
    exact hcell
  have hwindow : (g.whole first).window (i % g.columns.toNat * first.width.toNat)
      (i / g.columns.toNat * first.height.toNat) first.width.toNat first.height.toNat =
      cell.window 0 0 first.width.toNat first.height.toNat := by
    refine Raster.window_congr fun x hx y hy => ?_
    rw [Nat.zero_add, Nat.zero_add]
    exact h.pixel_whole hcolumn hrow hplace hx hy
  rw [hwindow, ← hwidth, ← hheight]
  exact Raster.window_eq_samples (h.pixels cell (List.mem_of_getElem? hcell))

/-- Cells of one shape have the samples that the whole picture shows at their places. -/
theorem Legal.samples_eq (h : g.Legal first) (h' : g'.Legal first')
    (hshape : g'.shape first' = g.shape first)
    (hsamples : (g'.whole first').samples = (g.whole first).samples) :
    g'.cells.map (·.samples) = g.cells.map (·.samples) := by
  injection hshape with hcolumns hrows hwidth hheight hdepth hlayout
  have hlength : g'.cells.length = g.cells.length := by
    rw [h.filled.length_cells, h'.filled.length_cells, hcolumns, hrows]
  have hwindow := Raster.window_eq_of_samples (r := (g'.whole first').toRaster)
    (s := (g.whole first).toRaster) (congrArg₂ (· * ·) hcolumns hwidth) hlayout hsamples
  refine List.ext_getElem (by rw [List.length_map, List.length_map, hlength]) ?_
  intro i hi' hi
  rw [List.length_map] at hi' hi
  rw [List.getElem_map, List.getElem_map,
    ← h'.window_whole (List.getElem?_eq_getElem hi'),
    ← h.window_whole (List.getElem?_eq_getElem hi), hwindow, hcolumns, hwidth, hheight]

/-- **Stitching puts every sample in its place.** The cells of a grid with a layout share their
size, depth and channels, and if the depth is legal they are stitched to a picture with all its
pixels, as large as the grid of cells, described as the first cell is and without a gain map. The
pixel at `(x, y)` is that of the cell in whose place it lies, at the position inside that cell.
Hence the picture, cut out at the place of a cell, gives the samples of the cell back, and two grids
of one shape are stitched to the same samples only if their cells have the same samples. -/
theorem stitch_places_samples {l : GridLayout} (hlayout : g.layout = .ok l)
    (hdepth : Raster.DepthLegal l.cellDepth) :
    (∀ cell ∈ g.cells, cell.width = l.cellWidth ∧ cell.height = l.cellHeight ∧
      cell.depth = l.cellDepth ∧ cell.layout = l.cellLayout) ∧
    ∃ first picture, g.cells.head? = some first ∧ g.stitch = .ok picture ∧
      picture.width.toNat = g.columns.toNat * l.cellWidth.toNat ∧
      picture.height.toNat = g.rows.toNat * l.cellHeight.toNat ∧
      picture.toRendition = first.toRendition ∧ picture.gainMap = none ∧
      picture.hasPixels = true ∧
      (∀ x < picture.width.toNat, ∀ y < picture.height.toNat, ∃ cell,
        g.cells[y / l.cellHeight.toNat * g.columns.toNat + x / l.cellWidth.toNat]? = some cell ∧
        picture.pixel x y = cell.pixel (x % l.cellWidth.toNat) (y % l.cellHeight.toNat)) ∧
      (∀ i cell, g.cells[i]? = some cell →
        picture.window (i % g.columns.toNat * l.cellWidth.toNat)
          (i / g.columns.toNat * l.cellHeight.toNat) l.cellWidth.toNat l.cellHeight.toNat =
        cell.samples) ∧
      ∀ g' picture', layout g' = .ok l → stitch g' = .ok picture' →
        picture'.samples = picture.samples →
        g'.cells.map (·.samples) = g.cells.map (·.samples) := by
  obtain ⟨first, hlegal, rfl⟩ := layout_eq_ok_iff.mp hlayout
  obtain ⟨hwidth, hheight⟩ := hlegal.sides
  refine ⟨fun cell hcell => hlegal.shape_of_mem hcell, first, g.whole first, hlegal.head,
    stitch_eq hlegal hdepth, hwidth, hheight, rfl, rfl, hlegal.whole_hasPixels,
    fun x hx y hy => hlegal.pixel_whole_eq hx hy, fun i cell => hlegal.window_whole, ?_⟩
  intro g' picture' hlayout' hstitch' hsamples
  obtain ⟨first', hlegal', hshape⟩ := layout_eq_ok_iff.mp hlayout'
  obtain ⟨first'', hlegal'', -, rfl⟩ := stitch_eq_ok_iff.mp hstitch'
  obtain rfl : first'' = first' := Option.some.inj (hlegal''.head.symm.trans hlegal'.head)
  exact hlegal.samples_eq hlegal' hshape.symm hsamples

/-- Two cells of one pixel over another, side by side. -/
def columnPair : ImageGrid :=
  ⟨2, 1, [.ofRaster ⟨⟨8, .gray, .bt709, .srgb, .unknown⟩, 1, 2, #[1, 2]⟩,
    .ofRaster ⟨⟨8, .gray, .displayP3, .linear, .unknown⟩, 1, 2, #[3, 4]⟩]⟩

/-- The rows of the two cells alternate, and another picture comes of other cells. -/
theorem columnPair_places :
    columnPair.layout = .ok ⟨2, 1, 1, 2, 8, .gray, none⟩ ∧ Raster.DepthLegal 8 ∧
    ∃ picture, columnPair.stitch = .ok picture ∧ picture.samples = #[1, 3, 2, 4] ∧
      picture.primaries = .bt709 ∧ picture.pixel 1 1 = #[4] ∧
      picture.window 1 0 1 2 = #[3, 4] ∧
      ∀ picture', stitch ⟨2, 1, columnPair.cells.reverse⟩ = .ok picture' →
        picture'.samples ≠ picture.samples := by
  have hlayout : columnPair.layout = .ok ⟨2, 1, 1, 2, 8, .gray, none⟩ := rfl
  have hdepth : Raster.DepthLegal 8 := ⟨by decide, by decide⟩
  obtain ⟨-, _, picture, -, hstitch, hwidth, hheight, -, -, -, hpixel, hwindow, htold⟩ :=
    stitch_places_samples hlayout hdepth
  obtain ⟨whole, hwhole, hsamples, hprimaries⟩ : ∃ whole, columnPair.stitch = .ok whole ∧
      whole.samples = #[1, 3, 2, 4] ∧ whole.primaries = .bt709 := ⟨_, rfl, rfl, rfl⟩
  obtain rfl := Except.ok.inj (hwhole.symm.trans hstitch)
  obtain ⟨cell, hcell, hplaced⟩ := hpixel 1 (by rw [hwidth]; decide) 1 (by rw [hheight]; decide)
  obtain rfl := Option.some.inj hcell
  refine ⟨hlayout, hdepth, whole, hstitch, hsamples, hprimaries, hplaced, hwindow 1 _ rfl, ?_⟩
  intro picture' hstitch' hsame
  exact absurd (htold _ picture' rfl hstitch' hsame) (by decide)

end ImageGrid

end DualRendition
