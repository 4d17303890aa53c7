import DualRendition.Proofs.Grid.Stitch

/-!
# What the check of a grid decides

The check of a grid makes one decision for everything that follows: a grid of images or of gain maps
has a layout exactly when it is legal, and is then put together without fail as long as the depth of
its cells is legal; a refused grid is not put together either, for the same reason
(`layout_decides`).

The checks compute sizes from whatever counts and sides they are given, and the layout offers sides
of 32 bits. Two facts make that safe. The sides of a legal grid do not wrap around
(`Foretells.sides`). And the checks themselves can be made in words of 64 bits, because of the order
they come in: a `Wordwise` computation has no outcome once a product is too large, and
`layoutWordwise_gives` shows that theirs always is the outcome of `layout`.
-/

namespace DualRendition

/-! ## Computing in words -/

/-- A computation in words of 64 bits. It has no outcome at all once a product is no such word. -/
abbrev Wordwise (α : Type) := ExceptT Failure Option α

namespace Wordwise

variable {α β : Type}

/-- The product of two words. -/
def product (a b : UInt64) : Wordwise UInt64 :=
  ExceptT.lift (if a.toNat * b.toNat < UInt64.size then some (a * b) else none)

/-- A part that takes no products. -/
def ofOutcome (o : Outcome α) : Wordwise α := ExceptT.mk (some o)

/-- The computation has an outcome, and the given one. -/
def Gives (x : Wordwise α) (o : Outcome α) : Prop := x.run = some o

theorem Gives.ofOutcome (o : Outcome α) : Gives (ofOutcome o) o := rfl

theorem Gives.pure (a : α) : Gives (Pure.pure a) (.ok a) := rfl

theorem Gives.throw (failure : Failure) : Gives (throw failure : Wordwise α) (.error failure) := rfl

theorem Gives.bind {x : Wordwise α} {o : Outcome α} {f : α → Wordwise β} {f' : α → Outcome β}
    (hx : Gives x o) (hf : ∀ a, o = .ok a → Gives (f a) (f' a)) : Gives (x >>= f) (o >>= f') := by
  unfold Gives at hx ⊢
  rw [ExceptT.run_bind, hx]
  cases o with
  | ok a => exact hf a rfl
  | error failure => rfl

theorem Gives.ite {p : Prop} [Decidable p] {x y : Wordwise α} {o o' : Outcome α}
    (hx : p → Gives x o) (hy : ¬p → Gives y o') :
    Gives (if p then x else y) (if p then o else o') := by
  by_cases hp : p
  · rw [if_pos hp, if_pos hp]
    exact hx hp
  · rw [if_neg hp, if_neg hp]
    exact hy hp

/-- A product that is small enough for a word, and what is done with it. -/
theorem Gives.product_bind {a b : UInt64} {f : UInt64 → Wordwise α} {o : Outcome α}
    (hlt : a.toNat * b.toNat < UInt64.size)
    (hf : ∀ c : UInt64, c.toNat = a.toNat * b.toNat → Gives (f c) o) :
    Gives (product a b >>= f) o := by
  have hproduct : product a b = Pure.pure (a * b) := by
    unfold product
    rw [if_pos hlt]
    rfl
  rw [hproduct, pure_bind]
  refine hf _ ?_
  rw [UInt64.toNat_mul]
  exact Nat.mod_eq_of_lt hlt

end Wordwise

open Wordwise (Gives product ofOutcome)

namespace Grid

variable {α : Type}

/-- `checkCounts` with its product taken of words. -/
def checkCountsWordwise (g : Grid α) : Wordwise Unit := do
  if g.columns = 0 ∨ g.rows = 0 then throw (.grid (.noCells g.columns g.rows))
  if maxGridSide < g.columns ∨ maxGridSide < g.rows then
    throw (.grid (.tooManyPerSide g.columns g.rows))
  let places ← product g.columns.toUInt64 g.rows.toUInt64
  if g.cells.length ≠ places.toNat then
    throw (.grid (.cellCount g.cells.length g.columns g.rows))

/-- The first cell, without a look at the counts. -/
def front (g : Grid α) : Outcome α :=
  match g.cells with
  | first :: _ => .ok first
  | [] => .error (.grid (.noCells g.columns g.rows))

theorem checkCountsWordwise_gives (g : Grid α) : Gives g.checkCountsWordwise g.checkCounts := by
  unfold checkCountsWordwise checkCounts
  refine .ite (fun _ => .throw _) fun _ => .ite (fun _ => .throw _) fun hsides => ?_
  obtain ⟨hcolumns, hrows⟩ := sides_le_iff.mp hsides
  have hlimit : maxGridSide.toNat * maxGridSide.toNat < UInt64.size := by decide
  refine .product_bind ?_ fun places hplaces => ?_
  · rw [UInt32.toNat_toUInt64, UInt32.toNat_toUInt64]
    exact Nat.lt_of_le_of_lt (Nat.mul_le_mul hcolumns hrows) hlimit
  · rw [UInt32.toNat_toUInt64, UInt32.toNat_toUInt64] at hplaces
    rw [hplaces]
    exact .ite (fun _ => .throw _) fun _ => .pure _

end Grid

/-! ## What follows from a check -/

/-- The check of a grid foretells what comes of putting it together. -/
structure Foretells {α : Type} (layout : Outcome GridLayout) (whole : Outcome α) : Prop where
  /-- The sides of a layout do not wrap around. -/
  sides : ∀ l, layout = .ok l → l.width.toNat = l.columns.toNat * l.cellWidth.toNat ∧
    l.height.toNat = l.rows.toNat * l.cellHeight.toNat
  accepted : ∀ l, layout = .ok l → Raster.DepthLegal l.cellDepth → ∃ picture, whole = .ok picture
  refused : ∀ failure, layout = .error failure →
    failure.category = .invalidImageGrid ∧ whole = .error failure

namespace ImageGrid

/-- `layout` with all products taken of words. The sides come first, and their product is taken only
within the limits. -/
def layoutWordwise (g : ImageGrid) : Wordwise GridLayout := do
  g.checkCountsWordwise
  let first ← ofOutcome g.front
  if g.cells.any fun cell => !cell.hasPixels then throw (.grid .cellWithoutPixels)
  if g.cells.any fun cell => !cell.sameShape first.toRaster then throw (.grid .cellShapes)
  let width ← product g.columns.toUInt64 first.width.toUInt64
  let height ← product g.rows.toUInt64 first.height.toUInt64
  if maxDimension.toNat < width.toNat ∨ maxDimension.toNat < height.toNat then
    throw (.grid (.assembledSize width.toNat height.toNat))
  let area ← product width height
  if maxPixels < area.toNat then throw (.grid (.assembledSize width.toNat height.toNat))
  return g.shape first

theorem firstCell_eq (g : ImageGrid) : g.firstCell = g.checkCounts >>= fun _ => g.front := by
  obtain ⟨columns, rows, cells⟩ := g
  cases cells <;> rfl

/-- A side of the whole picture is a word, whatever the size of the cells. -/
theorem side_lt_size {count side : UInt32} (hcount : count.toNat ≤ maxGridSide.toNat) :
    count.toUInt64.toNat * side.toUInt64.toNat < UInt64.size := by
  have hlimit : maxGridSide.toNat * 2 ^ 32 < UInt64.size := by decide
  rw [UInt32.toNat_toUInt64, UInt32.toNat_toUInt64]
  exact Nat.lt_of_le_of_lt (Nat.mul_le_mul hcount (Nat.le_of_lt side.toNat_lt)) hlimit

theorem layoutWordwise_gives (g : ImageGrid) : Gives g.layoutWordwise g.layout := by
  unfold layout
  rw [firstCell_eq, bind_assoc]
  refine g.checkCountsWordwise_gives.bind fun _ hcounts => ?_
  have hfilled := Grid.checkCounts_eq_ok_iff.mp hcounts
  refine (Gives.ofOutcome _).bind fun first _ => ?_
  refine .ite (fun _ => .throw _) fun _ => .ite (fun _ => .throw _) fun _ => ?_
  refine .product_bind (side_lt_size hfilled.columns_le) fun width hwidth => ?_
  refine .product_bind (side_lt_size hfilled.rows_le) fun height hheight => ?_
  rw [UInt32.toNat_toUInt64, UInt32.toNat_toUInt64] at hwidth hheight
  rw [← hwidth, ← hheight]
  -- `layout` looks at sides and area at once; the product is taken behind the look at the sides
  by_cases hsides : maxDimension.toNat < width.toNat ∨ maxDimension.toNat < height.toNat
  · rw [if_pos hsides, if_pos (or_assoc.mp (.inl hsides))]
    exact .throw _
  simp only [← or_assoc, hsides, false_or, if_false]
  rw [not_or, Nat.not_lt, Nat.not_lt] at hsides
  have hlimit : maxDimension.toNat * maxDimension.toNat < UInt64.size := by decide
  refine .product_bind ?_ fun area harea => ?_
  · exact Nat.lt_of_le_of_lt (Nat.mul_le_mul hsides.1 hsides.2) hlimit
  · rw [harea]
    exact .ite (fun _ => .throw _) fun _ => .pure _

/-- A refused grid is not stitched. -/
theorem stitch_of_layout_error {g : ImageGrid} {failure : Failure} (h : g.layout = .error failure) :
    g.stitch = .error failure := by
  unfold stitch
  rw [h]
  rfl

theorem layout_foretells (g : ImageGrid) : Foretells g.layout g.stitch where
  sides := by
    intro l hlayout
    obtain ⟨first, hlegal, rfl⟩ := layout_eq_ok_iff.mp hlayout
    exact hlegal.sides
  accepted := by
    intro l hlayout hdepth
    obtain ⟨first, hlegal, rfl⟩ := layout_eq_ok_iff.mp hlayout
    exact ⟨g.whole first, stitch_eq hlegal hdepth⟩
  refused := fun failure h => ⟨g.layout_failsAs failure h, stitch_of_layout_error h⟩

end ImageGrid

/-! ## Gain maps -/

namespace GainMapGrid

variable {g : GainMapGrid}

/-- The images that the cells have, in the grid of the cells. -/
def pictures (g : GainMapGrid) : ImageGrid := ⟨g.columns, g.rows, g.cells.filterMap (·.image)⟩

/-- `layout` with all products taken of words. The counts are looked at in words before `uniform`
looks at them. -/
def layoutWordwise (g : GainMapGrid) : Wordwise GridLayout := do
  g.checkCountsWordwise
  let (images, metadata) ← ofOutcome g.uniform
  let layout ← images.layoutWordwise
  return { layout with metadata := some metadata }

/-- Looking at the counts beforehand changes nothing. -/
theorem checkCounts_bind_layout (g : GainMapGrid) :
    (g.checkCounts >>= fun _ => g.layout) = g.layout := by
  unfold layout uniform firstCell
  cases g.checkCounts <;> rfl

theorem layoutWordwise_gives (g : GainMapGrid) : Gives g.layoutWordwise g.layout := by
  rw [← checkCounts_bind_layout]
  refine g.checkCountsWordwise_gives.bind fun _ _ => ?_
  refine (Gives.ofOutcome _).bind fun found _ => ?_
  exact found.1.layoutWordwise_gives.bind fun _ _ => .pure _

/-- The images are those that the cells have, provided that every cell has one. -/
theorem images?_eq_pictures (h : ∀ cell ∈ g.cells, ∃ image, cell.image = some image) :
    g.images? = some g.pictures := by
  refine images?_eq_some_iff.mpr ⟨rfl, rfl, ?_⟩
  show g.cells.map (·.image) = (g.cells.filterMap (·.image)).map some
  rw [List.map_filterMap_some_eq_filter_map_isSome]
  refine (List.filter_eq_self.mpr fun found hfound => ?_).symm
  obtain ⟨cell, hcell, rfl⟩ := List.mem_map.mp hfound
  obtain ⟨image, himage⟩ := h cell hcell
  simp [himage]

/-- A gain map grid has a layout exactly when every cell has an image, all cells have the same
metadata and the images form a legal grid. -/
theorem layout_eq_ok_iff_pictures {l : GridLayout} :
    g.layout = .ok l ↔
      (∀ cell ∈ g.cells, ∃ image, cell.image = some image) ∧
      ∃ metadata first, (∀ cell ∈ g.cells, cell.metadata = metadata) ∧ g.pictures.Legal first ∧
        l = { g.pictures.shape first with metadata := some metadata } := by
  rw [layout_eq_ok_iff]
  constructor
  · intro h
    obtain ⟨first, images, firstImage, hlegal, rfl⟩ := h
    obtain ⟨-, -, hcells⟩ := images?_eq_some_iff.mp hlegal.cellImages
    have hpictures : g.pictures = images := pick_images hlegal.cellImages
    refine ⟨?_, first.metadata, firstImage, hlegal.metadata, hpictures ▸ hlegal.legal,
      by rw [hpictures]⟩
    intro cell hcell
    have himage : cell.image ∈ images.cells.map some := hcells ▸ List.mem_map_of_mem hcell
    obtain ⟨image, -, hsome⟩ := List.mem_map.mp himage
    exact ⟨image, hsome.symm⟩
  · intro h
    obtain ⟨himages, metadata, firstImage, hmetadata, hlegal, rfl⟩ := h
    have himages : g.images? = some g.pictures := images?_eq_pictures himages
    -- the counts are those of the images, and so there is a first cell
    have hlength : g.pictures.cells.length = g.cells.length := by
      obtain ⟨-, -, hcells⟩ := images?_eq_some_iff.mp himages
      simpa using (congrArg List.length hcells).symm
    have hfilled : g.Filled :=
      { hlegal.filled with length_cells := hlength.symm.trans hlegal.filled.length_cells }
    have hsome : 0 < g.cells.length := hlength ▸ List.length_pos_of_mem hlegal.first_mem
    obtain ⟨first, rest, hcells⟩ := List.exists_cons_of_length_pos hsome
    have hfirst : first.metadata = metadata := hmetadata first (by simp [hcells])
    refine ⟨first, g.pictures, firstImage, ⟨⟨hfilled, by simp [hcells], himages, ?_⟩, hlegal⟩,
      by rw [hfirst]⟩
    intro cell hcell
    rw [hmetadata cell hcell, hfirst]

/-- A refused grid is not assembled. -/
theorem assemble_of_layout_error {failure : Failure} (h : g.layout = .error failure) :
    g.assemble = .error failure := by
  unfold assemble
  rcases Outcome.bind_eq_error.mp h with huniform | ⟨⟨images, metadata⟩, huniform, hrest⟩
  · rw [huniform]
    rfl
  · have hlayout : images.layout = .error failure := by
      rcases Outcome.bind_eq_error.mp hrest with hlayout | ⟨l, -, hl⟩
      · exact hlayout
      · cases hl
    rw [huniform, Outcome.ok_bind]
    dsimp only
    rw [ImageGrid.stitch_of_layout_error hlayout]
    rfl

theorem layout_foretells (g : GainMapGrid) : Foretells g.layout g.assemble where
  sides := by
    intro l hlayout
    obtain ⟨_, _, firstImage, hlegal, rfl⟩ := layout_eq_ok_iff.mp hlayout
    exact hlegal.legal.sides
  accepted := by
    intro l hlayout hdepth
    obtain ⟨_, _, firstImage, hlegal, rfl⟩ := layout_eq_ok_iff.mp hlayout
    exact ⟨_, assemble_eq hlegal hdepth⟩
  refused := fun failure h => ⟨g.layout_failsAs failure h, assemble_of_layout_error h⟩

end GainMapGrid

namespace Grid

/-- **The check of a grid accepts the legal grids and no others.** A grid of images has a layout
exactly when it is legal. A grid of gain maps has one exactly when every cell has an image, all
cells have the same metadata, which is that of the layout, and the images are legal. Every other
grid is refused as a grid. The checks of both come to their outcome in words of 64 bits, whatever
the counts and sides are. What has a layout with a legal depth is put together, with the sides that
the layout gives, and what is refused fails to be put together for the same reason. -/
theorem layout_decides :
    (∀ g : ImageGrid,
      (∀ l, g.layout = .ok l ↔ ∃ first, g.Legal first ∧ l = g.shape first) ∧
      Foretells g.layout g.stitch ∧ g.layoutWordwise.run = some g.layout) ∧
    ∀ g : GainMapGrid,
      (∀ l, g.layout = .ok l ↔
        (∀ cell ∈ g.cells, ∃ image, cell.image = some image) ∧
        ∃ metadata first, (∀ cell ∈ g.cells, cell.metadata = metadata) ∧ g.pictures.Legal first ∧
          l = { g.pictures.shape first with metadata := some metadata }) ∧
      Foretells g.layout g.assemble ∧ g.layoutWordwise.run = some g.layout :=
  ⟨fun g => ⟨fun _ => ImageGrid.layout_eq_ok_iff, g.layout_foretells, g.layoutWordwise_gives⟩,
    fun g => ⟨fun _ => GainMapGrid.layout_eq_ok_iff_pictures, g.layout_foretells,
      g.layoutWordwise_gives⟩⟩

/-- Two cells with one gain each, side by side, to be read with the given records. -/
def gainPair (left right : Metadata) : GainMapGrid :=
  let gain : Image := .ofRaster ⟨⟨8, .gray, .bt709, .srgb, .unknown⟩, 1, 1, #[7]⟩
  ⟨2, 1, [⟨some gain, left, .unknown⟩, ⟨some gain, right, .unknown⟩]⟩

/-- Cells that share their metadata are accepted and put together. Cells that differ in it are
refused, and so is a grid with the largest counts there are. -/
theorem gainPair_decided :
    (∃ l, (gainPair Metadata.unset Metadata.unset).layout = .ok l ∧
      l.metadata = some Metadata.unset ∧ l.width.toNat = 2 ∧
      ∃ map, (gainPair Metadata.unset Metadata.unset).assemble = .ok map) ∧
    (∀ l, (gainPair Metadata.unset Metadata.unset.swap).layout ≠ .ok l) ∧
    (gainPair Metadata.unset Metadata.unset.swap).assemble = .error (.grid .cellMetadata) ∧
    ImageGrid.stitch ⟨4294967295, 4294967295, []⟩ =
      .error (.grid (.tooManyPerSide 4294967295 4294967295)) ∧
    (ImageGrid.layoutWordwise ⟨4294967295, 4294967295, []⟩).run =
      some (.error (.grid (.tooManyPerSide 4294967295 4294967295))) := by
  obtain ⟨himages, hgains⟩ := layout_decides
  obtain ⟨-, hshared, -⟩ := hgains (gainPair Metadata.unset Metadata.unset)
  obtain ⟨hlegal, hdiffer, -⟩ := hgains (gainPair Metadata.unset Metadata.unset.swap)
  obtain ⟨-, hlarge, hwords⟩ := himages ⟨4294967295, 4294967295, []⟩
  have hlayout : (gainPair Metadata.unset Metadata.unset).layout =
      .ok ⟨2, 1, 1, 1, 8, .gray, some Metadata.unset⟩ := rfl
  have hdepth : Raster.DepthLegal 8 := ⟨by decide, by decide⟩
  refine ⟨⟨_, hlayout, rfl, (hshared.sides _ hlayout).1, hshared.accepted _ hlayout hdepth⟩, ?_,
    (hdiffer.refused _ rfl).2, (hlarge.refused _ rfl).2, hwords⟩
  intro l hl
  obtain ⟨-, metadata, first, hmetadata, -⟩ := (hlegal l).mp hl
  have hsame := (hmetadata _ (.head _)).trans (hmetadata _ (.tail _ (.head _))).symm
  exact absurd hsame (by decide)

end Grid

end DualRendition
