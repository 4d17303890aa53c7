import DualRendition.Proofs.Color.Rescale
import DualRendition.Proofs.GainMap.Closure
import DualRendition.Proofs.GainMap.Pointwise

/-!
# Samples within the range of their depth

Tables are indexed by samples and check none of them, so every image that is made has to keep to the
range of its depth. `Image.Bounded` says so of an image and of all images that it owns through gain
maps. It is carried here through each way of making an image: empty ones, given samples, stitching,
measuring, rendering. What it is good for is `LightTable.Covers` and `GainTable.Covers`: no code of
such an image reads beside the part of a table that is meant for it.

Structure: rasters, grids, measuring and rendering. Of codes two facts are used, `Code.quantize_le`
and `Code.rescale_le`, and the first is the only one about floats.
-/

namespace DualRendition

/-! ## Images -/

/-- No sample of the image is over the largest code of its depth, nor is one of an image that it
owns through gain maps. -/
inductive Image.Bounded : Image → Prop
  | intro {i : Image} (range : i.InRange)
      (owned : ∀ g map, i.gainMap = some g → g.image = some map → Image.Bounded map) :
      Image.Bounded i

/-- The image of the gain map is bounded, if there is one. -/
def GainMapOf.Bounded (g : GainMap) : Prop := ∀ map, g.image = some map → map.Bounded

namespace Image

theorem Bounded.range {i : Image} (h : i.Bounded) : i.InRange := by
  cases h with
  | intro range owned => exact range

theorem Bounded.owned {i : Image} (h : i.Bounded) {g : GainMap} (hg : i.gainMap = some g) :
    g.Bounded := by
  cases h with
  | intro range owned => exact fun map => owned g map hg

/-- The image with other samples and another gain map. -/
theorem bounded_mk {r : Raster} {gainMap : Option GainMap} (hrange : r.InRange)
    (hgainMap : ∀ g, gainMap = some g → g.Bounded) : Bounded ⟨r, gainMap⟩ :=
  .intro hrange fun g map hg => hgainMap g hg map

theorem bounded_ofRaster {r : Raster} (h : r.InRange) : (ofRaster r).Bounded :=
  bounded_mk h fun _ hg => nomatch hg

theorem Bounded.withoutGainMap {i : Image} (h : i.Bounded) : i.withoutGainMap.Bounded :=
  bounded_ofRaster h.range

end Image

/-! ### Made from nothing and from samples -/

namespace Raster

variable {r r' : Raster} {width height : UInt32} {depth : UInt8} {layout : Layout}

theorem inRange_of_empty (h : r.samples = #[]) : r.InRange := by
  intro sample hsample
  rw [h] at hsample
  exact absurd hsample (Array.not_mem_empty sample)

theorem header_inRange (h : header width height depth layout = .ok r) : r.InRange := by
  obtain ⟨-, -, rfl⟩ := header_eq_ok_iff.mp h
  exact inRange_of_empty rfl

/-- Filling a buffer with zeros exceeds no depth. -/
theorem InRange.allocate (hr : r.InRange) (h : r.allocate = .ok r') : r'.InRange := by
  unfold Raster.allocate at h
  split at h
  next =>
    obtain ⟨count, -, h⟩ := Outcome.bind_eq_ok.mp h
    obtain rfl := Outcome.pure_eq_ok.mp h
    intro sample hsample
    rw [Array.eq_of_mem_replicate hsample]
    exact UInt16.zero_le
  next =>
    obtain rfl := Outcome.pure_eq_ok.mp h
    exact hr

theorem zeros_inRange (h : zeros width height depth layout = .ok r) : r.InRange := by
  obtain ⟨header, hheader, h⟩ := Outcome.bind_eq_ok.mp h
  exact (header_inRange hheader).allocate h

/-- Samples over the range are refused. -/
theorem ofSamples_inRange {samples : Array UInt16}
    (h : ofSamples width height depth layout samples = .ok r) : r.InRange := by
  obtain ⟨header, -, h⟩ := Outcome.bind_eq_ok.mp h
  obtain ⟨count, -, h⟩ := Outcome.bind_eq_ok.mp h
  simp only [Outcome.throw_eq, Outcome.error_bind, Outcome.guard_eq_ok] at h
  obtain ⟨-, h⟩ := h
  split at h
  next => cases h
  next hfind =>
    obtain rfl := Outcome.pure_eq_ok.mp h
    intro sample hsample
    have hle := Array.find?_eq_none.mp hfind sample hsample
    exact UInt16.not_lt.mp (by simpa using hle)

end Raster

/-! ### Stitched from cells -/

namespace ImageGrid

variable {g : ImageGrid} {picture : Image}

/-- Every sample of the strips is one of a cell. -/
theorem mem_strips {columns rows height : Nat} {cells : Array Raster} {sample : UInt16}
    (h : sample ∈ strips columns rows height cells) : ∃ cell ∈ cells, sample ∈ cell.samples := by
  unfold strips at h
  obtain ⟨r, -, h⟩ := Array.mem_flatMap.mp h
  obtain ⟨y, -, h⟩ := Array.mem_flatMap.mp h
  obtain ⟨cell, hcell, h⟩ := Array.mem_flatMap.mp h
  obtain ⟨i, hi, rfl⟩ := Array.mem_extract_iff_getElem.mp hcell
  obtain ⟨j, hj, rfl⟩ := Array.mem_extract_iff_getElem.mp h
  exact ⟨_, Array.getElem_mem _, Array.getElem_mem _⟩

/-- The cells of a legal grid have one depth, and their samples make up the whole picture. -/
theorem Legal.whole_inRange {first : Image} (h : g.Legal first)
    (hcells : ∀ cell ∈ g.cells, cell.InRange) : (g.whole first).InRange := by
  intro sample hsample
  obtain ⟨raster, hraster, hsample⟩ := mem_strips hsample
  obtain ⟨cell, hcell, rfl⟩ := List.mem_map.mp (List.mem_toArray.mp hraster)
  obtain ⟨-, -, hdepth, -⟩ := h.shape_of_mem hcell
  have hle := hcells cell hcell sample hsample
  unfold Rendition.maxValue at hle
  rw [hdepth] at hle
  exact hle

theorem stitch_bounded (hcells : ∀ cell ∈ g.cells, cell.Bounded) (h : g.stitch = .ok picture) :
    picture.Bounded := by
  obtain ⟨first, hlegal, -, rfl⟩ := stitch_eq_ok_iff.mp h
  exact Image.bounded_ofRaster (hlegal.whole_inRange fun cell hcell => (hcells cell hcell).range)

theorem assemble_bounded (hcells : ∀ cell ∈ g.cells, cell.Bounded)
    (h : g.assemble = .ok picture) : picture.Bounded := by
  rcases assemble_eq_ok_iff.mp h with hone | ⟨-, hstitch⟩
  · exact hcells picture (by simp [hone])
  · exact stitch_bounded hcells hstitch

theorem header_bounded (h : g.header = .ok picture) : picture.Bounded := by
  obtain ⟨first, -, -, rfl⟩ := header_eq_ok_iff.mp h
  exact Image.bounded_ofRaster (Raster.inRange_of_empty rfl)

end ImageGrid

/-- Gain maps of bounded images are assembled to one. -/
theorem GainMapGrid.assemble_bounded {g : GainMapGrid} {result : GainMap}
    (hcells : ∀ cell ∈ g.cells, cell.Bounded) (h : g.assemble = .ok result) : result.Bounded := by
  obtain ⟨⟨images, metadata⟩, huniform, h⟩ := Outcome.bind_eq_ok.mp h
  obtain ⟨image, hstitch, h⟩ := Outcome.bind_eq_ok.mp h
  obtain ⟨first, -, h⟩ := Outcome.bind_eq_ok.mp h
  obtain rfl := Outcome.pure_eq_ok.mp h
  obtain ⟨first, hfirst, -⟩ := uniform_eq_ok_iff.mp huniform
  intro map hmap
  obtain rfl := Option.some.inj hmap
  refine ImageGrid.stitch_bounded ?_ hstitch
  intro cell hcell
  obtain ⟨owner, howner, hcell⟩ := (mem_images_iff hfirst.cellImages).mp hcell
  exact hcells owner howner cell hcell

/-! ### Measured and rendered -/

namespace GainMapOf

variable {log2 : Float → Float} {g result : GainMap} {base alternate : Image}
  {settings : MeasureSettings} {stop : Stop}

/-- A measured gain map has a bounded image, which owns what the target owned. -/
theorem measured_bounded (hg : g.Bounded)
    (h : g.measured log2 base alternate settings stop = .ok result) : result.Bounded := by
  have hmeasured := measured_eq_ok h
  obtain ⟨plan, hplanned⟩ := hmeasured.planned
  obtain ⟨-, samples, himage, -, hrange⟩ := hmeasured.image plan.target hplanned.target
  intro map hmap
  obtain rfl := Option.some.inj (himage.symm.trans hmap)
  exact Image.bounded_mk hrange fun owned howned =>
    (hg plan.target hplanned.target).owned howned

/-- Whether measuring succeeds or fails, the image of the gain map stays bounded. -/
theorem measure_bounded {answer : Outcome Unit} (hg : g.Bounded)
    (h : (measure log2 base alternate settings stop).apply g = (answer, result)) :
    result.Bounded := by
  cases answer with
  | ok => exact measured_bounded hg (measure_eq_ok h)
  | error failure =>
    rw [measure_apply_eq, Edit.commit_eq_error_iff] at h
    obtain ⟨-, rfl⟩ := h
    exact hg

end GainMapOf

namespace RenderPlan

variable {g : GainMap} {base output : Image} {headroom : Float} {plan : RenderPlan}

/-- Colours are quantized; alpha comes from a base that is in range, or is full. -/
theorem Settled.le_of_mem_finishPixel (h : Settled g base headroom output plan)
    (hbase : base.InRange) {light gain : Rgb Float32} {x y : Nat} {sample : UInt16}
    (hsample : sample ∈ plan.finishPixel light gain x y) : sample ≤ output.maxValue := by
  have hcodes : ∀ (light : Rgb Float32) code,
      code ∈ (plan.writer.codes light).toList.toArray → code ≤ output.maxValue := by
    intro light code hcode
    rw [h.writer] at hcode
    unfold SignalWriter.codes Rgb.map Rgb.toList at hcode
    simp only [List.mem_toArray, List.mem_cons, List.not_mem_nil, or_false] at hcode
    rcases hcode with rfl | rfl | rfl <;> exact Code.quantize_le _ _
  have halpha : plan.alphaSample x y ≤ output.maxValue := by
    unfold alphaSample
    rw [h.maxValue, h.baseRaster]
    split
    · exact Code.rescale_le (hbase.sample_le x y 3)
    · exact UInt16.le_refl _
  unfold finishPixel at hsample
  dsimp only at hsample
  split at hsample
  next =>
    rcases Array.mem_push.mp hsample with hcode | rfl
    · exact hcodes _ _ hcode
    · exact halpha
  next => exact hcodes _ _ hsample

theorem Settled.le_of_mem_picture (h : Settled g base headroom output plan)
    (hbase : base.InRange) {samples : Array UInt16} (hpicture : plan.picture = .ok samples)
    {sample : UInt16} (hsample : sample ∈ samples) : sample ≤ output.maxValue := by
  obtain ⟨piece, hpiece, rfl⟩ := layOut_rows_eq_ok_iff.mp hpicture
  obtain ⟨y, hy, hsample⟩ := Array.mem_flatMap.mp hsample
  obtain ⟨x, hx, hsample⟩ := Array.mem_flatMap.mp hsample
  have hx := Array.mem_range.mp hx
  have hy := Array.mem_range.mp hy
  obtain ⟨light, gain, -, -, hfinished⟩ := (pixel_eq_ok_iff hx hy).mp (hpiece y hy x hx)
  rw [← hfinished] at hsample
  exact h.le_of_mem_finishPixel hbase hsample

end RenderPlan

/-- Whether rendering succeeds or fails, the output stays bounded. -/
theorem GainMapOf.render_bounded {g : GainMap} {base output after : Image} {headroom : Float}
    {stop : Stop} {answer : Outcome LightLevel} (hbase : base.Bounded) (houtput : output.Bounded)
    (h : (g.render base headroom stop).apply output = (answer, after)) : after.Bounded := by
  cases answer with
  | ok lightLevel =>
    obtain ⟨plan, samples, hplan, -, -, hpicture, rfl⟩ := render_eq_ok_iff.mp h
    refine Image.bounded_mk ?_ fun owned howned => houtput.owned howned
    intro sample hsample
    exact (RenderPlan.make_eq_ok hplan).le_of_mem_picture hbase.range hpicture hsample
  | error failure =>
    rw [render_apply_eq, Edit.commit_eq_error_iff] at h
    obtain ⟨-, rfl⟩ := h
    exact houtput

/-! ## Tables -/

/-- Every code of the raster has an entry in the table. -/
def LightTable.Covers (t : LightTable) (r : Raster) : Prop :=
  ∀ x y c, (r.sample x y c).toNat < t.light.size

/-- Every code of the map is read from the part of its own channel, and the part is there. -/
def GainTable.Covers (t : GainTable) (map : Raster) : Prop :=
  ∀ (c : Fin 3) x y,
    c * t.entries + (map.gainSample c x y).toNat < (c + 1) * t.entries ∧
    (c + 1) * t.entries ≤ t.factors.size

/-- The table of a rendition has an entry for every code of its depth. -/
theorem LightTable.size_light {r : Rendition} {target : Gamut} {role : String} {table : LightTable}
    (h : ofRendition r target role = .ok table) : table.light.size = r.maxValue.toNat + 1 := by
  unfold ofRendition at h
  obtain ⟨-, h⟩ := Outcome.check_bind_eq_ok.mp h
  obtain rfl := Outcome.pure_eq_ok.mp h
  exact Array.size_ofFn

theorem LightTable.covers {r : Raster} {target : Gamut} {role : String} {table : LightTable}
    (h : ofRendition r.toRendition target role = .ok table) (hrange : r.InRange) :
    table.Covers r := by
  intro x y c
  rw [size_light h]
  exact Nat.lt_succ_of_le (UInt16.le_iff_toNat_le.mp (hrange.sample_le x y c))

/-- The tables of a measurement are made for the two renditions. -/
theorem GainMapOf.tables_of_plan {g : GainMap} {base alternate : Image} {settings : MeasureSettings}
    {plan : MeasurePlan} (h : g.plan base alternate settings = .ok plan) :
    LightTable.ofRendition base.toRendition plan.gamut "base" = .ok plan.baseTable ∧
    LightTable.ofRendition alternate.toRendition plan.gamut "alternate" =
      .ok plan.alternateTable := by
  have hplanned := plan_eq_ok_iff.mp h
  exact ⟨hplanned.baseTable, hplanned.alternateTable⟩

theorem GainTable.covers {map : Raster} (hrange : map.InRange) (v : GainValues) (weight : Float) :
    (ofValues v weight map.depth).Covers map := by
  intro c x y
  have hcode : (map.gainSample c x y).toNat < (ofValues v weight map.depth).entries :=
    toNat_lt_entries (hrange.sample_le x y _)
  rw [size_factors]
  refine ⟨?_, Nat.mul_le_mul_right _ c.isLt⟩
  rw [Nat.succ_mul]
  exact Nat.add_lt_add_left hcode _

end DualRendition
