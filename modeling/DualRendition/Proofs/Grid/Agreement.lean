import DualRendition.Proofs.Grid.Placement
import DualRendition.Proofs.Raster.Patch

/-!
# Header, shortcut and copying agree

A picture in cells is described in three ways: by its header, by the first cell if there is no
other, and by the whole picture. `descriptions_agree` says that they are one description: the header
is the picture without its samples, and a cell handed out as it is equals what stitching would make
of it.

The whole picture itself can be had in two ways. `stitch` lays rows of cells side by side; `copied`
starts from a blank picture and writes the rows of each cell over it, one cell after the other.
`copied_eq_stitch` rests on two facts: every write puts samples where the stitched picture has the
same ones (`fitsInto_strips`), so that the order of the writes does not matter, and together the
writes reach every sample (`exists_patch`).
-/

namespace DualRendition

/-! ## Writing the samples of a target -/

namespace Patch

/-- The run is what the target has at its place. -/
structure FitsInto (p : Patch) (target : Array UInt16) : Prop where
  inside : p.stop ≤ target.size
  same : target.extract p.start p.stop = p.samples

variable {p : Patch} {target buffer : Array UInt16}

/-- What stands in a buffer as far as it was written over: the samples of the target. -/
structure Shows (target buffer : Array UInt16) (done : Nat → Prop) : Prop where
  size : buffer.size = target.size
  samples : ∀ k, done k → buffer[k]? = target[k]?

/-- One write shows the target where it reaches, and hides it nowhere. -/
theorem FitsInto.shows (hp : p.FitsInto target) {done : Nat → Prop}
    (h : Shows target buffer done) :
    Shows target (write buffer p) fun k => done k ∨ p.start ≤ k ∧ k < p.stop := by
  have hinside : p.stop ≤ buffer.size := by
    rw [h.size]
    exact hp.inside
  refine ⟨(size_write hinside).trans h.size, ?_⟩
  intro k hk
  by_cases hrun : p.start ≤ k ∧ k < p.stop
  · obtain ⟨hlow, hhigh⟩ := hrun
    have hplace : p.start + (k - p.start) = k := by omega
    have hin : p.stop ≤ target.size := hp.inside
    rw [getElem?_write_inside hinside hlow hhigh, ← hp.same, Array.getElem?_extract,
      if_pos (by omega), hplace]
  · rw [getElem?_write_outside hinside hrun]
    exact h.samples k (hk.resolve_right hrun)

/-- Writes that fit show the target wherever one of them reaches. -/
theorem shows_foldl_write : ∀ {patches : List Patch} {buffer : Array UInt16} {done : Nat → Prop},
    (∀ p ∈ patches, p.FitsInto target) → Shows target buffer done →
    Shows target (patches.foldl write buffer) fun k =>
      done k ∨ ∃ p ∈ patches, p.start ≤ k ∧ k < p.stop := by
  intro patches
  -- on the writes: after each, it shows in one more place
  induction patches with
  | nil =>
    intro buffer done _ h
    exact ⟨h.size, fun k hk => h.samples k (by simpa using hk)⟩
  | cons p patches ih =>
    intro buffer done hfits h
    have hrest := ih (fun p' hp' => hfits p' (.tail _ hp')) ((hfits p (.head _)).shows h)
    refine ⟨hrest.size, fun k hk => hrest.samples k ?_⟩
    rcases hk with hdone | ⟨p', hp', hrun⟩
    · exact .inl (.inl hdone)
    · rcases List.mem_cons.mp hp' with rfl | hp'
      · exact .inl (.inr hrun)
      · exact .inr ⟨p', hp', hrun⟩

/-- Writes that fit and reach every sample give the target, whatever was there before. -/
theorem foldl_write_eq {patches : List Patch} (hsize : buffer.size = target.size)
    (hfits : ∀ p ∈ patches, p.FitsInto target)
    (hreached : ∀ k < target.size, ∃ p ∈ patches, p.start ≤ k ∧ k < p.stop) :
    patches.foldl write buffer = target := by
  have hblank : Shows target buffer fun _ => False := ⟨hsize, fun _ h => h.elim⟩
  have hshows := shows_foldl_write hfits hblank
  refine Array.ext_getElem? fun k => ?_
  by_cases hk : k < target.size
  · exact hshows.samples k (.inr (hreached k hk))
  · have hend : (patches.foldl write buffer).size = target.size := hshows.size
    rw [Array.getElem?_eq_none (by omega), Array.getElem?_eq_none (by omega)]

end Patch

namespace ImageGrid

/-! ## Copying cells -/

/-- Where row `y` of the cell at place `i` of a grid is written. -/
def rowStart (columns height length i y : Nat) : Nat :=
  (i / columns * height + y) * (columns * length) + i % columns * length

/-- The writes that copy all cells, in the order of the cells and then of their rows. -/
def patches (columns height length : Nat) (cells : Array Raster) : List Patch :=
  cells.toList.zipIdx.flatMap fun (cell, i) =>
    (List.range height).map fun y => ⟨rowStart columns height length i y, cell.row y⟩

/-- The whole image of a valid grid, made by copying the cells into a blank one. -/
def copied (g : ImageGrid) : Outcome Image := do
  let layout ← g.layout
  let first ← g.firstCell
  let blank ← Raster.zeros layout.width layout.height layout.cellDepth layout.cellLayout
  let samples := (patches g.columns.toNat layout.cellHeight.toNat first.rowLength
    (g.cells.map Image.toRaster).toArray).foldl Patch.write blank.samples
  return .ofRaster { blank with samples, primaries := first.primaries, transfer := first.transfer,
                                lightLevel := first.lightLevel }

section Strips

variable {columns rows height length : Nat} {cells : Array Raster}

theorem mem_patches_iff {p : Patch} :
    p ∈ patches columns height length cells ↔
      ∃ i cell, cells[i]? = some cell ∧ ∃ y < height,
        p = ⟨rowStart columns height length i y, cell.row y⟩ := by
  unfold patches
  rw [List.mem_flatMap]
  constructor
  · intro h
    obtain ⟨⟨cell, i⟩, hcell, hp⟩ := h
    obtain ⟨y, hy, rfl⟩ := List.mem_map.mp hp
    rw [List.mem_zipIdx_iff_getElem?] at hcell
    exact ⟨i, cell, by simpa using hcell, y, List.mem_range.mp hy, rfl⟩
  · intro h
    obtain ⟨i, cell, hcell, y, hy, rfl⟩ := h
    refine ⟨(cell, i), ?_, List.mem_map.mpr ⟨y, List.mem_range.mpr hy, rfl⟩⟩
    rw [List.mem_zipIdx_iff_getElem?]
    simpa using hcell

/-- Every row is copied to where the strips have it. -/
theorem fitsInto_strips (hcells : cells.size = columns * rows)
    (hrow : ∀ cell ∈ cells, ∀ y < height, (cell.row y).size = length) {p : Patch}
    (hp : p ∈ patches columns height length cells) :
    p.FitsInto (strips columns rows height cells) := by
  obtain ⟨i, cell, hcell, y, hy, rfl⟩ := mem_patches_iff.mp hp
  obtain ⟨hi, hget⟩ := Array.getElem?_eq_some_iff.mp hcell
  rw [hcells] at hi
  have hcolumns : 0 < columns := Nat.pos_of_mul_pos_right (Nat.zero_lt_of_lt hi)
  have hcolumn : i % columns < columns := Nat.mod_lt i hcolumns
  have hr : i / columns < rows := Nat.div_lt_of_lt_mul hi
  have hsize : (cell.row y).size = length := hrow cell (hget ▸ Array.getElem_mem _) y hy
  have hplace : cells[i / columns * columns + i % columns]? = some cell := by
    rw [Nat.div_add_mod']
    exact hcell
  have hend : i % columns * length + length ≤ columns * length := piece_le hcolumn length
  have hstop : (Patch.mk (rowStart columns height length i y) (cell.row y)).stop =
      rowStart columns height length i y + length := congrArg _ hsize
  constructor
  · rw [hstop, size_strips hcells hrow]
    calc rowStart columns height length i y + length
        ≤ (i / columns * height + y) * (columns * length) + columns * length := by
          unfold rowStart
          omega
      _ ≤ rows * height * (columns * length) := piece_le (place_lt hy hr) _
      _ = rows * (height * (columns * length)) := Nat.mul_assoc ..
  · rw [hstop]
    unfold rowStart
    rw [← extract_extract_of_le _ _ hend, extract_strips hcells hrow hr hy,
      extract_bandRow hcells hrow hcolumn hr hy hplace]

/-- The row of a cell with a given column and row in the grid. -/
theorem rowStart_place {column r y : Nat} (hcolumn : column < columns) :
    rowStart columns height length (r * columns + column) y =
      (r * height + y) * (columns * length) + column * length := by
  obtain ⟨hdiv, hmod⟩ : (r * columns + column) / columns = r ∧
      (r * columns + column) % columns = column :=
    (Nat.div_mod_unique (Nat.zero_lt_of_lt hcolumn)).mpr
      ⟨by rw [Nat.mul_comm columns, Nat.add_comm], hcolumn⟩
  unfold rowStart
  rw [hdiv, hmod]

/-- Every sample of the whole picture lies in a row of a cell. -/
theorem exists_rowStart_le {k : Nat} (hk : k < rows * height * (columns * length)) :
    ∃ i < rows * columns, ∃ y < height, rowStart columns height length i y ≤ k ∧
      k < rowStart columns height length i y + length := by
  -- `k` is sample `x` of row `y` of the cell in column `column` and row `r`
  have hY : k / (columns * length) < height * rows := by
    rw [Nat.mul_comm height]
    exact Nat.div_lt_of_lt_mul (Nat.mul_comm _ (columns * length) ▸ hk)
  have hpos : 0 < columns * length := Nat.pos_of_mul_pos_left (Nat.zero_lt_of_lt hk)
  have hX : k % (columns * length) < length * columns := by
    rw [Nat.mul_comm length]
    exact Nat.mod_lt k hpos
  have hcolumn := Nat.div_lt_of_lt_mul hX
  have hr := Nat.div_lt_of_lt_mul hY
  have hy := Nat.mod_lt (k / (columns * length)) (Nat.pos_of_mul_pos_right (Nat.zero_lt_of_lt hY))
  have hx := Nat.mod_lt (k % (columns * length)) (Nat.pos_of_mul_pos_left hpos)
  refine ⟨_, place_lt hcolumn hr, _, hy, ?_⟩
  rw [rowStart_place hcolumn, Nat.div_add_mod']
  have hrow := Nat.div_add_mod' k (columns * length)
  have hcell := Nat.div_add_mod' (k % (columns * length)) length
  omega

/-- Every sample of the strips is reached by a row that is copied. -/
theorem exists_patch (hcells : cells.size = columns * rows)
    (hrow : ∀ cell ∈ cells, ∀ y < height, (cell.row y).size = length) {k : Nat}
    (hk : k < (strips columns rows height cells).size) :
    ∃ p ∈ patches columns height length cells, p.start ≤ k ∧ k < p.stop := by
  rw [size_strips hcells hrow, ← Nat.mul_assoc] at hk
  obtain ⟨i, hi, y, hy, hlow, hhigh⟩ := exists_rowStart_le hk
  rw [Nat.mul_comm, ← hcells] at hi
  have hsize : (cells[i].row y).size = length := hrow _ (Array.getElem_mem hi) y hy
  refine ⟨_, mem_patches_iff.mpr ⟨i, cells[i], Array.getElem?_eq_getElem hi, y, hy, rfl⟩, hlow, ?_⟩
  unfold Patch.stop
  rw [hsize]
  exact hhigh

/-- Copying the cells over any buffer of the right size gives the strips. -/
theorem copy_eq_strips (hcells : cells.size = columns * rows)
    (hrow : ∀ cell ∈ cells, ∀ y < height, (cell.row y).size = length) {blank : Array UInt16}
    (hblank : blank.size = (strips columns rows height cells).size) :
    (patches columns height length cells).foldl Patch.write blank =
      strips columns rows height cells :=
  Patch.foldl_write_eq hblank (fun _ => fitsInto_strips hcells hrow)
    fun _ => exists_patch hcells hrow

end Strips

/-! ## The copied picture -/

variable {g : ImageGrid} {first : Image}

/-- A legal grid is copied to the picture that it is stitched to. -/
theorem copied_eq (h : g.Legal first) (hdepth : Raster.DepthLegal first.depth) :
    g.copied = .ok (g.whole first) := by
  have hlayout : g.layout = .ok (g.shape first) := layout_eq_ok_iff.mpr ⟨first, h, rfl⟩
  have hheader := (@Raster.header_eq_ok_iff _ _ _ first.layout _).mpr ⟨h.sizeLegal, hdepth, rfl⟩
  obtain ⟨-, hsize, -⟩ := Raster.hasPixels_iff.mp h.whole_hasPixels
  have hcopy := copy_eq_strips h.size_rasters h.size_row
    ((Array.size_replicate (v := (0 : UInt16))).trans hsize.symm)
  unfold copied
  rw [hlayout, Outcome.ok_bind, h.firstCell, Outcome.ok_bind]
  show (Raster.zeros (g.columns * first.width) (g.rows * first.height) first.depth first.layout
    >>= _) = _
  rw [Raster.zeros_eq hheader, Outcome.ok_bind]
  unfold whole
  rw [← hcopy]
  rfl

/-- Copying and stitching come to the same, also where they fail. -/
theorem copied_eq_stitch (g : ImageGrid) : g.copied = g.stitch := by
  cases hlayout : g.layout with
  | error failure =>
    unfold copied stitch
    rw [hlayout]
    rfl
  | ok l =>
    obtain ⟨first, hlegal, rfl⟩ := layout_eq_ok_iff.mp hlayout
    cases hheader : Raster.header (g.columns * first.width) (g.rows * first.height) first.depth
        first.layout with
    | ok blank =>
      obtain ⟨-, hdepth, -⟩ := Raster.header_eq_ok_iff.mp hheader
      rw [copied_eq hlegal hdepth, stitch_eq hlegal hdepth]
    | error failure =>
      have hwhole : Raster.header (g.shape first).width (g.shape first).height
        (g.shape first).cellDepth (g.shape first).cellLayout = .error failure := hheader
      unfold copied stitch header Raster.zeros
      rw [hlayout, Outcome.ok_bind, Outcome.ok_bind, hlegal.firstCell, Outcome.ok_bind,
        Outcome.ok_bind, Outcome.ok_bind, hwhole]
      rfl

/-! ## One description -/

/-- **Header, shortcut, stitching and copying describe one picture.** If a grid has a layout and its
cells have legal depths and no gain maps, its cells are stitched to a picture. Copying them into a
blank picture gives the same, and so does assembling them, which hands a single cell out as it is;
the header is that picture without its samples. If there is no layout, there is no header, for the
same reason. -/
theorem descriptions_agree (g : ImageGrid) :
    (∀ l, g.layout = .ok l →
      (∀ cell ∈ g.cells, Raster.DepthLegal cell.depth ∧ cell.gainMap = none) →
      ∃ picture, g.stitch = .ok picture ∧ g.copied = .ok picture ∧ g.assemble = .ok picture ∧
        g.header = .ok picture.withoutSamples) ∧
    ∀ failure, g.layout = .error failure → g.header = .error failure := by
  constructor
  · intro l hlayout hcells
    obtain ⟨first, hlegal, rfl⟩ := layout_eq_ok_iff.mp hlayout
    obtain ⟨hdepth, -⟩ := hcells first hlegal.first_mem
    exact ⟨g.whole first, stitch_eq hlegal hdepth, copied_eq hlegal hdepth,
      assemble_eq hlegal hdepth fun cell hcell => (hcells cell hcell).2, header_eq hlegal hdepth⟩
  · intro failure hlayout
    unfold header
    rw [hlayout]
    rfl

/-- The first of the two cells in `columnPair`. -/
def column : Image := .ofRaster ⟨⟨8, .gray, .bt709, .srgb, .unknown⟩, 1, 2, #[1, 2]⟩

/-- Two cells side by side, and one of them alone. In a grid for two, that one has no header, and
yet it is handed out. -/
theorem columnPair_agrees :
    (∃ picture, columnPair.stitch = .ok picture ∧ columnPair.copied = .ok picture ∧
      columnPair.assemble = .ok picture ∧ columnPair.header = .ok picture.withoutSamples ∧
      picture.samples = #[1, 3, 2, 4]) ∧
    stitch (.single column) = .ok column ∧ header (.single column) = .ok column.withoutSamples ∧
    header ⟨2, 1, [column]⟩ = .error (.grid (.cellCount 1 2 1)) ∧
    assemble ⟨2, 1, [column]⟩ = .ok column := by
  have hdepth : Raster.DepthLegal 8 := ⟨by decide, by decide⟩
  obtain ⟨hpair, -⟩ := descriptions_agree columnPair
  obtain ⟨hsingle, -⟩ := descriptions_agree (.single column)
  obtain ⟨-, hrefused⟩ := descriptions_agree ⟨2, 1, [column]⟩
  refine ⟨?_, ?_⟩
  · obtain ⟨picture, hstitch, hcopied, hassemble, hheader⟩ := hpair _ rfl (by
      intro cell hcell
      rcases List.mem_cons.mp hcell with rfl | hcell
      · exact ⟨hdepth, rfl⟩
      · obtain rfl := List.mem_singleton.mp hcell
        exact ⟨hdepth, rfl⟩)
    obtain ⟨whole, hwhole, hsamples⟩ : ∃ whole, columnPair.stitch = .ok whole ∧
        whole.samples = #[1, 3, 2, 4] := ⟨_, rfl, rfl⟩
    obtain rfl := Except.ok.inj (hwhole.symm.trans hstitch)
    exact ⟨whole, hstitch, hcopied, hassemble, hheader, hsamples⟩
  · obtain ⟨picture, hstitch, -, hassemble, hheader⟩ := hsingle _ rfl (by
      intro cell hcell
      obtain rfl := List.mem_singleton.mp hcell
      exact ⟨hdepth, rfl⟩)
    obtain rfl : column = picture := Except.ok.inj hassemble
    exact ⟨hstitch, hheader, hrefused _ rfl, rfl⟩

end ImageGrid

end DualRendition
