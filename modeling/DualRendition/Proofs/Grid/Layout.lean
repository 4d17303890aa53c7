import DualRendition.Grid
import DualRendition.Proofs.Raster.Addressing

/-!
# Legal grids

What the grid checks accept, said without the order in which they are made: `ImageGrid.Legal` is the
condition on cells, and a grid has a layout exactly when it is legal
(`ImageGrid.layout_eq_ok_iff`). A gain map grid has one exactly when it is `GainMapGrid.Legal`: its
cells share their metadata and their images form a legal grid.

Structure: counts first, then images, then gain maps. Taking the gain maps out of the cells changes
nothing (`ImageGrid.Legal.withoutGainMaps`, `ImageGrid.Legal.of_withoutGainMaps`).
-/

namespace DualRendition

open Outcome (FailsAs)

/-! ## Counts -/

namespace Grid

variable {α β : Type}

/-- The cells fill a grid with sides of at least one and at most `maxGridSide` cells. -/
structure Filled (g : Grid α) : Prop where
  columns_pos : 0 < g.columns.toNat
  rows_pos : 0 < g.rows.toNat
  columns_le : g.columns.toNat ≤ maxGridSide.toNat
  rows_le : g.rows.toNat ≤ maxGridSide.toNat
  length_cells : g.cells.length = g.columns.toNat * g.rows.toNat

theorem checkCounts_eq_ok_iff {g : Grid α} : g.checkCounts = .ok () ↔ g.Filled := by
  unfold checkCounts
  dsimp only
  simp only [Outcome.throw_eq, Outcome.error_bind, Outcome.pure_eq, Outcome.guard_eq_ok, and_true,
    sides_ne_zero_iff, sides_le_iff, ne_eq, Decidable.not_not]
  refine ⟨?_, fun h => ⟨⟨h.columns_pos, h.rows_pos⟩, ⟨h.columns_le, h.rows_le⟩, h.length_cells⟩⟩
  intro h
  obtain ⟨⟨hcolumns, hrows⟩, ⟨hcolumns', hrows'⟩, hlength⟩ := h
  exact ⟨hcolumns, hrows, hcolumns', hrows', hlength⟩

/-- A grid of one cell has one column and one row. -/
theorem Filled.sides_of_singleton {g : Grid α} (h : g.Filled) (hone : g.cells.length = 1) :
    g.columns.toNat = 1 ∧ g.rows.toNat = 1 := by
  have hproduct : g.columns.toNat * g.rows.toNat = 1 := h.length_cells.symm.trans hone
  exact ⟨Nat.eq_one_of_mul_eq_one_right hproduct, Nat.eq_one_of_mul_eq_one_left hproduct⟩

theorem filled_map {f : α → β} {g : Grid α} : (g.map f).Filled ↔ g.Filled := by
  refine ⟨?_, ?_⟩
  · intro h
    exact ⟨h.columns_pos, h.rows_pos, h.columns_le, h.rows_le,
      (List.length_map f).symm.trans h.length_cells⟩
  · intro h
    exact ⟨h.columns_pos, h.rows_pos, h.columns_le, h.rows_le,
      (List.length_map f).trans h.length_cells⟩

theorem filled_single (cell : α) : (single cell).Filled where
  columns_pos := Nat.zero_lt_one
  rows_pos := Nat.zero_lt_one
  columns_le := show 1 ≤ 256 by decide
  rows_le := show 1 ≤ 256 by decide
  length_cells := rfl

theorem checkCounts_failsAs (g : Grid α) : FailsAs .invalidImageGrid g.checkCounts := by
  unfold checkCounts
  simp only [Outcome.throw_eq, Outcome.error_bind]
  exact .ite (.error rfl) (.ite (.error rfl) (.ite (.error rfl) (.ok _)))

/-- The first cell of a grid with valid counts, whatever the cells are. -/
def first (g : Grid α) : Outcome α := do
  g.checkCounts
  match g.cells.head? with
  | some cell => return cell
  | none => throw (.grid (.noCells g.columns g.rows))

theorem first_eq_ok_iff {g : Grid α} {cell : α} :
    g.first = .ok cell ↔ g.Filled ∧ g.cells.head? = some cell := by
  unfold first
  rw [Outcome.check_bind_eq_ok, checkCounts_eq_ok_iff]
  refine and_congr_right fun _ => ⟨?_, ?_⟩
  · intro hfirst
    split at hfirst
    next hhead =>
      obtain rfl := Outcome.pure_eq_ok.mp hfirst
      exact hhead
    next => cases hfirst
  · intro hhead
    rw [hhead]
    rfl

theorem first_failsAs (g : Grid α) : FailsAs .invalidImageGrid g.first := by
  refine .bind g.checkCounts_failsAs fun _ => ?_
  split
  · exact .ok _
  · exact .error rfl

end Grid

/-! ## Images -/

namespace ImageGrid

/-- The cells have pixels and the shape of the first one, and the whole picture is within the limits
of an image. -/
structure Legal (g : ImageGrid) (first : Image) : Prop where
  filled : g.Filled
  head : g.cells.head? = some first
  pixels : ∀ cell ∈ g.cells, cell.hasPixels = true
  shapes : ∀ cell ∈ g.cells, cell.sameShape first.toRaster = true
  width_le : g.columns.toNat * first.width.toNat ≤ maxDimension.toNat
  height_le : g.rows.toNat * first.height.toNat ≤ maxDimension.toNat
  area_le : g.columns.toNat * first.width.toNat * (g.rows.toNat * first.height.toNat) ≤ maxPixels

/-- The layout of a legal grid with the given first cell. -/
def shape (g : ImageGrid) (first : Image) : GridLayout where
  columns := g.columns
  rows := g.rows
  cellWidth := first.width
  cellHeight := first.height
  cellDepth := first.depth
  cellLayout := first.layout
  metadata := none

theorem firstCell_eq_first (g : ImageGrid) : g.firstCell = g.first := by
  obtain ⟨columns, rows, cells⟩ := g
  cases cells <;> rfl

theorem firstCell_eq_ok_iff {g : ImageGrid} {first : Image} :
    g.firstCell = .ok first ↔ g.Filled ∧ g.cells.head? = some first := by
  rw [firstCell_eq_first, Grid.first_eq_ok_iff]

theorem firstCell_failsAs (g : ImageGrid) : FailsAs .invalidImageGrid g.firstCell := by
  rw [firstCell_eq_first]
  exact g.first_failsAs

theorem Legal.firstCell {g : ImageGrid} {first : Image} (h : g.Legal first) :
    g.firstCell = .ok first :=
  firstCell_eq_ok_iff.mpr ⟨h.filled, h.head⟩

theorem Legal.first_mem {g : ImageGrid} {first : Image} (h : g.Legal first) : first ∈ g.cells :=
  List.mem_of_mem_head? h.head

/-- The only cell is the first one. -/
theorem Legal.first_eq {g : ImageGrid} {first cell : Image} (h : g.Legal first)
    (hcells : g.cells = [cell]) : cell = first := by
  have hhead := h.head
  rw [hcells] at hhead
  exact Option.some.inj hhead

/-- A grid has a layout exactly when it is legal. -/
theorem layout_eq_ok_iff {g : ImageGrid} {l : GridLayout} :
    g.layout = .ok l ↔ ∃ first, g.Legal first ∧ l = g.shape first := by
  unfold layout
  rw [Outcome.bind_eq_ok]
  refine exists_congr fun first => ?_
  rw [firstCell_eq_ok_iff]
  dsimp only
  simp only [Outcome.throw_eq, Outcome.error_bind, Outcome.guard_eq_ok, Outcome.pure_eq_ok]
  refine ⟨?_, ?_⟩
  · intro h
    obtain ⟨⟨hfilled, hhead⟩, hpixels, hshapes, hsize, rfl⟩ := h
    rw [not_or, not_or] at hsize
    simp only [List.any_eq_true, Bool.not_eq_true', not_exists, not_and, Bool.not_eq_false]
      at hpixels hshapes
    exact ⟨⟨hfilled, hhead, hpixels, hshapes, Nat.le_of_not_lt hsize.1,
      Nat.le_of_not_lt hsize.2.1, Nat.le_of_not_lt hsize.2.2⟩, rfl⟩
  · intro h
    obtain ⟨h, rfl⟩ := h
    refine ⟨⟨h.filled, h.head⟩, ?_, ?_, ?_, rfl⟩
    · simpa using h.pixels
    · simpa using h.shapes
    · intro hsize
      rcases hsize with hlt | hlt | hlt
      · exact Nat.not_lt.mpr h.width_le hlt
      · exact Nat.not_lt.mpr h.height_le hlt
      · exact Nat.not_lt.mpr h.area_le hlt

/-- A grid without a layout is refused as a grid. -/
theorem layout_failsAs (g : ImageGrid) : FailsAs .invalidImageGrid g.layout := by
  refine .bind g.firstCell_failsAs fun first => ?_
  simp only [Outcome.throw_eq, Outcome.error_bind]
  exact .ite (.error rfl) (.ite (.error rfl) (.ite (.error rfl) (.ok _)))

/-- Whether cells own gain maps is no part of the shape. -/
theorem Legal.withoutGainMaps {g : ImageGrid} {first : Image} (h : g.Legal first) :
    ImageGrid.Legal (g.map Image.withoutGainMap) first.withoutGainMap where
  filled := Grid.filled_map.mpr h.filled
  head := by
    show (g.cells.map Image.withoutGainMap).head? = _
    rw [List.head?_map, h.head]
    rfl
  pixels := by
    intro stripped hstripped
    obtain ⟨cell, hcell, rfl⟩ := List.mem_map.mp hstripped
    exact h.pixels cell hcell
  shapes := by
    intro stripped hstripped
    obtain ⟨cell, hcell, rfl⟩ := List.mem_map.mp hstripped
    exact h.shapes cell hcell
  width_le := h.width_le
  height_le := h.height_le
  area_le := h.area_le

/-- A grid that is legal without its gain maps is legal with them. -/
theorem Legal.of_withoutGainMaps {g : ImageGrid} {stripped : Image}
    (h : ImageGrid.Legal (g.map Image.withoutGainMap) stripped) :
    ∃ first, g.Legal first ∧ stripped = first.withoutGainMap := by
  obtain ⟨first, hhead, rfl⟩ : ∃ first, g.cells.head? = some first ∧
      first.withoutGainMap = stripped := by
    have hhead : (g.cells.map Image.withoutGainMap).head? = some stripped := h.head
    rwa [List.head?_map, Option.map_eq_some_iff] at hhead
  -- pixels, shape and size are those of the raster, which is the same in both cells
  refine ⟨first, ?_, rfl⟩
  exact {
    filled := Grid.filled_map.mp h.filled
    head := hhead
    pixels := fun cell hcell => h.pixels cell.withoutGainMap (List.mem_map_of_mem hcell)
    shapes := fun cell hcell => h.shapes cell.withoutGainMap (List.mem_map_of_mem hcell)
    width_le := h.width_le
    height_le := h.height_le
    area_le := h.area_le }

end ImageGrid

/-! ## Gain maps -/

namespace GainMapGrid

/-- Looking into every cell of a list finds something in each exactly when the finds, one after the
other, are the result. -/
theorem mapM_eq_some_iff {α β : Type} {f : α → Option β} :
    ∀ {cells : List α} {found : List β},
      cells.mapM f = some found ↔ cells.map f = found.map some := by
  intro cells
  -- on the cells: a cell without a find leaves both sides without a result
  induction cells with
  | nil => intro found; cases found <;> simp
  | cons cell cells ih =>
    intro found
    rw [List.mapM_cons, List.map_cons]
    cases hcell : f cell with
    | none => cases found <;> simp
    | some b =>
      cases found with
      | nil =>
        cases cells.mapM f <;> simp
      | cons b' found =>
        rw [List.map_cons, List.cons.injEq, ← ih]
        cases cells.mapM f <;> simp

/-- Where there is something in each cell, picking picks all of it. -/
theorem filterMap_eq_of_map_eq {α β : Type} {f : α → Option β} {cells : List α} {found : List β}
    (h : cells.map f = found.map some) : cells.filterMap f = found := by
  have hpicked := congrArg (List.filterMap id) h
  rw [List.filterMap_map, List.filterMap_map] at hpicked
  exact hpicked.trans List.filterMap_some

/-- The images of the cells are there when every cell has one. -/
theorem images?_eq_some_iff {g : GainMapGrid} {images : ImageGrid} :
    g.images? = some images ↔
      images.columns = g.columns ∧ images.rows = g.rows ∧
      g.cells.map (·.image) = images.cells.map some := by
  obtain ⟨columns, rows, cells⟩ := images
  unfold images?
  rw [Option.bind_eq_bind, Option.bind_eq_some_iff]
  refine ⟨?_, ?_⟩
  · intro h
    obtain ⟨found, hfound, himages⟩ := h
    cases himages
    exact ⟨rfl, rfl, mapM_eq_some_iff.mp hfound⟩
  · intro h
    obtain ⟨rfl, rfl, hcells⟩ := h
    exact ⟨cells, mapM_eq_some_iff.mpr hcells, rfl⟩

/-- They are the images of the cells and no others. -/
theorem mem_images_iff {g : GainMapGrid} {images : ImageGrid} (h : g.images? = some images)
    {image : Image} : image ∈ images.cells ↔ ∃ cell ∈ g.cells, cell.image = some image := by
  obtain ⟨-, -, hcells⟩ := images?_eq_some_iff.mp h
  have hmap : some image ∈ g.cells.map (·.image) ↔ some image ∈ images.cells.map some := by
    rw [hcells]
  simpa using hmap.symm

/-- Picking the images out of the cells leaves none out when every cell has one. -/
theorem pick_images {g : GainMapGrid} {images : ImageGrid} (h : g.images? = some images) :
    ⟨g.columns, g.rows, g.cells.filterMap (·.image)⟩ = images := by
  obtain ⟨hcolumns, hrows, hcells⟩ := images?_eq_some_iff.mp h
  rw [filterMap_eq_of_map_eq hcells, ← hcolumns, ← hrows]

/-- The cells share the metadata of the first one, and all have images. -/
structure Uniform (g : GainMapGrid) (first : GainMap) (images : ImageGrid) : Prop where
  filled : g.Filled
  head : g.cells.head? = some first
  cellImages : g.images? = some images
  metadata : ∀ cell ∈ g.cells, cell.metadata = first.metadata

/-- The cells share their metadata, and their images form a legal grid. -/
structure Legal (g : GainMapGrid) (first : GainMap) (images : ImageGrid) (firstImage : Image) :
    Prop extends g.Uniform first images where
  legal : images.Legal firstImage

theorem firstCell_eq_first (g : GainMapGrid) : g.firstCell = g.first := by
  obtain ⟨columns, rows, cells⟩ := g
  cases cells <;> rfl

theorem firstCell_eq_ok_iff {g : GainMapGrid} {first : GainMap} :
    g.firstCell = .ok first ↔ g.Filled ∧ g.cells.head? = some first := by
  rw [firstCell_eq_first, Grid.first_eq_ok_iff]

theorem uniform_eq_ok_iff {g : GainMapGrid} {images : ImageGrid} {metadata : Metadata} :
    g.uniform = .ok (images, metadata) ↔
      ∃ first, g.Uniform first images ∧ metadata = first.metadata := by
  unfold uniform
  rw [Outcome.bind_eq_ok]
  refine exists_congr fun first => ?_
  rw [firstCell_eq_ok_iff]
  refine ⟨?_, ?_⟩
  · intro h
    obtain ⟨⟨hfilled, hhead⟩, hrest⟩ := h
    split at hrest
    next => cases hrest
    next images' himages =>
      dsimp only at hrest
      simp only [Outcome.throw_eq, Outcome.error_bind, Outcome.guard_eq_ok, Outcome.pure_eq_ok]
        at hrest
      obtain ⟨hmetadata, hresult⟩ := hrest
      cases hresult
      refine ⟨⟨hfilled, hhead, himages, ?_⟩, rfl⟩
      simpa using hmetadata
  · intro h
    obtain ⟨h, rfl⟩ := h
    refine ⟨⟨h.filled, h.head⟩, ?_⟩
    rw [h.cellImages]
    dsimp only
    rw [if_neg (by simpa using h.metadata)]
    rfl

theorem uniform_failsAs (g : GainMapGrid) : FailsAs .invalidImageGrid g.uniform := by
  unfold uniform
  rw [firstCell_eq_first]
  refine .bind g.first_failsAs fun _ => ?_
  split
  · exact .error rfl
  · simp only [Outcome.throw_eq, Outcome.error_bind]
    exact .ite (.error rfl) (.ok _)

/-- A gain map grid has a layout exactly when it is legal. -/
theorem layout_eq_ok_iff {g : GainMapGrid} {l : GridLayout} :
    g.layout = .ok l ↔
      ∃ first images firstImage, g.Legal first images firstImage ∧
        l = { images.shape firstImage with metadata := some first.metadata } := by
  unfold layout
  rw [Outcome.bind_eq_ok]
  refine ⟨?_, ?_⟩
  · intro h
    obtain ⟨⟨images, metadata⟩, huniform, hrest⟩ := h
    obtain ⟨first, hcells, rfl⟩ := uniform_eq_ok_iff.mp huniform
    obtain ⟨shape, hshape, hl⟩ := Outcome.bind_eq_ok.mp hrest
    obtain ⟨firstImage, hlegal, rfl⟩ := ImageGrid.layout_eq_ok_iff.mp hshape
    exact ⟨first, images, firstImage, ⟨hcells, hlegal⟩, (Outcome.pure_eq_ok.mp hl).symm⟩
  · intro h
    obtain ⟨first, images, firstImage, h, rfl⟩ := h
    refine ⟨(images, first.metadata), uniform_eq_ok_iff.mpr ⟨first, h.toUniform, rfl⟩, ?_⟩
    show (images.layout >>= _) = _
    rw [ImageGrid.layout_eq_ok_iff.mpr ⟨firstImage, h.legal, rfl⟩]
    rfl

/-- A grid of gain maps without a layout is refused as a grid as well. -/
theorem layout_failsAs (g : GainMapGrid) : FailsAs .invalidImageGrid g.layout :=
  .bind g.uniform_failsAs fun found => .bind found.1.layout_failsAs fun _ => .ok _

end GainMapGrid

end DualRendition
