import DualRendition.Proofs.GainMap.Lookup
import DualRendition.Proofs.GainMap.Renderable

/-!
# Rendering, pixel by pixel

Rendering looks codes up in tables, positions in two axes of taps, and lays the samples of all
pixels end to end. `GainMapOf.pixelAt` says what one pixel is without any of this: every curve, gain
and position is written out and evaluated where it is needed. `GainMapOf.render_pixelwise` proves
that rendering computes just these pixels, whatever the float operations are.

Structure: the formulas of the library are those of `GainMapOf.pixelAt`, one by one. What the tables
hold is known from `DualRendition.Proofs.GainMap.Lookup`; `RenderPlan.samples_eq_ok_iff` gives the
buffer, `Raster.pixel_of_rows` reads it. Conversely, a rendering whose inputs pass the checks
succeeds when there is something to look up for each of its pixels
(`GainMapOf.Renderable.render_ok`).
-/

namespace DualRendition

/-! ## Single pixels -/

namespace GainMapOf

/-- The alpha sample of the pixel at `(x, y)`: that of the base at the depth of the output, or
full. -/
def alphaAt (base output : Raster) (x y : Nat) : UInt16 :=
  if base.layout = .rgba then Code.rescale (base.sample x y 3) base.maxValue output.maxValue
  else output.maxValue

end GainMapOf

theorem Tap.axis_getD {source target : UInt32} {x : Nat} (h : x < target.toNat) (default : Tap) :
    (axis source target).getD x default = centered source target x := by
  unfold axis
  rw [Array.getD_eq_getD_getElem?, Array.getElem?_map, Array.getElem?_range, if_pos h]
  rfl

/-! ## The picture -/

namespace RenderPlan

/-- The samples of one pixel, from the tables. -/
def pixel (p : RenderPlan) (x y : Nat) : Outcome (Array UInt16) :=
  p.renderPixel (GainTable.ofValues p.values p.weight p.map.depth)
    ((Tap.axis p.map.width p.base.width).getD x ⟨0, 0, 0⟩)
    ((Tap.axis p.map.height p.base.height).getD y ⟨0, 0, 0⟩) x y

/-- The samples of row `y`. -/
def row (p : RenderPlan) (y : Nat) : Outcome (Array UInt16) :=
  layOut p.base.width.toNat fun x => p.pixel x y

/-- The samples of all pixels, row after row. -/
def picture (p : RenderPlan) : Outcome (Array UInt16) := layOut p.base.height.toNat p.row

theorem samples_eq_sweep (p : RenderPlan) (stop : Stop) :
    p.samples stop = stop.sweep 0 p.base.height.toNat p.row := rfl

/-- Rendering the rows gives the picture, unless a check stops it. -/
theorem samples_eq_ok_iff {p : RenderPlan} {stop : Stop} {samples : Array UInt16} :
    p.samples stop = .ok samples ↔
      (∀ y < p.base.height.toNat, stop.permits y = true) ∧ p.picture = .ok samples := by
  rw [samples_eq_sweep, Stop.sweep_eq_ok_iff]
  simp only [Nat.zero_add]
  rfl

/-- Nothing but reads can fail in a row. -/
theorem row_onlyAborts (p : RenderPlan) (y : Nat) : Outcome.OnlyAborts (p.row y) :=
  layOut_onlyAborts fun _ _ => .bind (p.table.pixelLight_onlyAborts _) fun _ =>
    .bind (GainTable.between_onlyAborts _ _ _ _) fun _ => .ok _

/-- What the plan of a rendering holds once all inputs are checked. -/
structure Settled (g : GainMap) (base : Image) (headroom : Float) (output : Image)
    (plan : RenderPlan) : Prop where
  baseRaster : plan.base = base.toRaster
  mapRaster : ∃ map, g.image = some map ∧ plan.map = map.toRaster
  values : g.metadata.values = .ok plan.values
  weight : plan.weight = plan.values.weight headroom
  table : LightTable.ofRendition base.toRendition (g.mathGamut base.toRendition) "base" =
    .ok plan.table
  writer : plan.writer = ⟨(g.mathGamut base.toRendition).conversion output.primaries,
    output.transfer, output.maxValue⟩
  alpha : plan.alpha = output.layout.hasAlpha
  maxValue : plan.maxValue = output.maxValue
  width : output.width = base.width
  height : output.height = base.height
  layout : output.layout ≠ .gray

variable {g : GainMap} {base output : Image} {headroom : Float} {plan : RenderPlan}

theorem make_eq_ok (h : make base g headroom output = .ok plan) :
    Settled g base headroom output plan := by
  unfold make at h
  dsimp only at h
  simp only [Outcome.throw_eq, Outcome.error_bind, Outcome.guard_eq_ok] at h
  obtain ⟨-, -, h⟩ := h
  obtain ⟨map, hmap, h⟩ := Outcome.bind_eq_ok.mp h
  obtain ⟨values, hvalues, h⟩ := Outcome.bind_eq_ok.mp h
  obtain ⟨-, h⟩ := Outcome.check_bind_eq_ok.mp h
  simp only [Outcome.guard_eq_ok] at h
  obtain ⟨hsize, hlayout, -, h⟩ := h
  obtain ⟨table, htable, h⟩ := Outcome.bind_eq_ok.mp h
  obtain ⟨writer, hwriter, h⟩ := Outcome.bind_eq_ok.mp h
  obtain rfl := Outcome.pure_eq_ok.mp h
  have himage : g.image = some map := by
    unfold mapImage at hmap
    cases hstored : g.image with
    | none =>
      rw [hstored] at hmap
      cases hmap
    | some image =>
      rw [hstored] at hmap
      dsimp only at hmap
      split at hmap
      next =>
        cases hmap
        rfl
      next => cases hmap
  have hwriter : writer = ⟨(g.mathGamut base.toRendition).conversion output.primaries,
      output.transfer, output.maxValue⟩ := by
    unfold SignalWriter.ofRendition at hwriter
    obtain ⟨-, hwriter⟩ := Outcome.check_bind_eq_ok.mp hwriter
    exact (Outcome.pure_eq_ok.mp hwriter).symm
  rw [not_or, Decidable.not_not, Decidable.not_not] at hsize
  exact {
    baseRaster := rfl
    mapRaster := ⟨map, himage, rfl⟩
    values := hvalues
    weight := rfl
    table := htable
    writer := hwriter
    alpha := rfl
    maxValue := rfl
    width := hsize.1
    height := hsize.2
    layout := hlayout }

theorem Settled.map_eq (h : Settled g base headroom output plan) {map : Image}
    (himage : g.image = some map) : plan.map = map.toRaster := by
  obtain ⟨stored, hstored, hraster⟩ := h.mapRaster
  obtain rfl : stored = map := Option.some.inj (hstored.symm.trans himage)
  exact hraster

theorem Settled.size_finishPixel (h : Settled g base headroom output plan)
    (light gain : Rgb Float32) (x y : Nat) :
    (plan.finishPixel light gain x y).size = output.channels := by
  have hsize : (plan.finishPixel light gain x y).size = if plan.alpha then 4 else 3 := by
    unfold finishPixel
    cases plan.alpha <;> rfl
  rw [hsize, h.alpha]
  unfold Raster.channels
  cases hlayout : output.layout with
  | gray => exact absurd hlayout h.layout
  | rgb => rfl
  | rgba => rfl

/-- A pixel is its light and its gains. -/
theorem pixel_eq_ok_iff {p : RenderPlan} {x y : Nat} {samples : Array UInt16}
    (hx : x < p.base.width.toNat) (hy : y < p.base.height.toNat) :
    p.pixel x y = .ok samples ↔
      ∃ light gain, p.table.pixelLight (p.base.sample x y) = .ok light ∧
        (GainTable.ofValues p.values p.weight p.map.depth).between p.map
          (Tap.centered p.map.width p.base.width x) (Tap.centered p.map.height p.base.height y) =
            .ok gain ∧
        p.finishPixel light gain x y = samples := by
  unfold pixel renderPixel
  rw [Tap.axis_getD hx, Tap.axis_getD hy]
  simp only [Outcome.bind_eq_ok, Outcome.pure_eq_ok]
  constructor
  · intro h
    obtain ⟨light, hlight, gain, hgain, hsamples⟩ := h
    exact ⟨light, gain, hlight, hgain, hsamples⟩
  · intro h
    obtain ⟨light, gain, hlight, hgain, hsamples⟩ := h
    exact ⟨light, hlight, gain, hgain, hsamples⟩

/-- A pixel can be rendered exactly where light and gains can be read. -/
theorem Settled.exists_pixel_iff (h : Settled g base headroom output plan) {map : Image}
    (himage : g.image = some map) {x y : Nat} (hx : x < base.width.toNat)
    (hy : y < base.height.toNat) :
    (∃ samples, plan.pixel x y = .ok samples) ↔ base.PixelReadable map.toRaster x y := by
  rw [← congrArg Raster.width h.baseRaster] at hx
  rw [← congrArg Raster.height h.baseRaster] at hy
  simp only [pixel_eq_ok_iff hx hy]
  unfold Raster.PixelReadable
  rw [← @GainTable.exists_between_iff plan.values plan.weight, ← h.map_eq himage, h.baseRaster]
  simp only [LightTable.pixelLight_eq_ok_iff h.table]
  constructor
  · intro hpixel
    obtain ⟨samples, light, gain, ⟨hcolors, -⟩, hgain, -⟩ := hpixel
    exact ⟨hcolors, gain, hgain⟩
  · intro hpixel
    obtain ⟨hcolors, gain, hgain⟩ := hpixel
    exact ⟨_, _, gain, ⟨hcolors, rfl⟩, hgain, rfl⟩

theorem Settled.exists_row_iff (h : Settled g base headroom output plan) {map : Image}
    (himage : g.image = some map) {y : Nat} (hy : y < base.height.toNat) :
    (∃ samples, plan.row y = .ok samples) ↔ base.RowReadable map.toRaster y := by
  unfold row
  rw [exists_layOut_iff, h.baseRaster]
  exact forall_congr' fun x => forall_congr' fun hx => h.exists_pixel_iff himage hx hy

/-- Rows can be rendered, up to all of them, exactly when all that they look up is there. -/
theorem Settled.exists_rows_iff (h : Settled g base headroom output plan) {map : Image}
    (himage : g.image = some map) {rows : Nat} (hrows : rows ≤ base.height.toNat) :
    (∃ samples, layOut rows plan.row = .ok samples) ↔
      ∀ y < rows, base.RowReadable map.toRaster y := by
  rw [exists_layOut_iff]
  exact forall_congr' fun y => forall_congr' fun hy =>
    h.exists_row_iff himage (Nat.lt_of_lt_of_le hy hrows)

/-- The picture is laid out pixel by pixel, and has the size of the output. -/
theorem Settled.pixels_of_picture (h : Settled g base headroom output plan) {samples : Array UInt16}
    (hpicture : plan.picture = .ok samples) :
    samples.size = output.width.toNat * output.height.toNat * output.channels ∧
    ∀ x < output.width.toNat, ∀ y < output.height.toNat,
      plan.pixel x y = .ok (Raster.pixel { output.toRaster with samples } x y) := by
  unfold picture row at hpicture
  rw [h.baseRaster, ← h.width, ← h.height] at hpicture
  obtain ⟨piece, hpiece, hsamples⟩ := layOut_rows_eq_ok_iff.mp hpicture
  have hsize : ∀ y < output.height.toNat, ∀ x < output.width.toNat,
      (piece x y).size = output.channels := by
    intro y hy x hx
    have hpixel := hpiece y hy x hx
    rw [h.width, ← congrArg Raster.width h.baseRaster] at hx
    rw [h.height, ← congrArg Raster.height h.baseRaster] at hy
    obtain ⟨light, gain, -, -, hfinished⟩ := (pixel_eq_ok_iff hx hy).mp hpixel
    rw [← hfinished]
    exact h.size_finishPixel light gain x y
  refine ⟨?_, ?_⟩
  · rw [hsamples]
    exact Raster.size_rows hsize
  · intro x hx y hy
    have hplaced :=
      Raster.pixel_of_rows (r := { output.toRaster with samples }) hsize hsamples hx hy
    rw [hpiece y hy x hx, hplaced]

end RenderPlan

namespace GainMapOf

variable {g : GainMap} {base output after : Image} {headroom : Float} {stop : Stop}
  {lightLevel : LightLevel}

/-- A rendering succeeds when its inputs pass the checks, no row is stopped, and the picture can be
laid out. The output takes the picture. -/
theorem render_eq_ok_iff :
    (g.render base headroom stop).apply output = (.ok lightLevel, after) ↔
      ∃ plan samples, RenderPlan.make base g headroom output = .ok plan ∧
        (∀ y < plan.base.height.toNat, stop.permits y = true) ∧
        lightLevel = base.lightLevel.blend g.alternate.lightLevel plan.weight ∧
        plan.picture = .ok samples ∧ after = { output with samples, lightLevel } := by
  rw [render_apply_eq, Edit.commit_eq_ok_iff]
  unfold rendered
  simp only [Outcome.bind_eq_ok, Outcome.pure_eq_ok, RenderPlan.samples_eq_ok_iff]
  constructor
  · intro h
    obtain ⟨result, ⟨plan, hplan, samples, ⟨hpermits, hpicture⟩, rfl⟩, rfl, rfl⟩ := h
    exact ⟨plan, samples, hplan, hpermits, rfl, hpicture, rfl⟩
  · intro h
    obtain ⟨plan, samples, hplan, hpermits, rfl, hpicture, rfl⟩ := h
    exact ⟨_, ⟨plan, hplan, samples, ⟨hpermits, hpicture⟩, rfl⟩, rfl, rfl⟩

/-- Rendering succeeds when its inputs pass the checks, the stop lets all rows pass, and all that
they look up is there. The output then has all of its samples. -/
theorem Renderable.render_ok {map : Image} (h : g.Renderable base)
    (hfinite : headroom.isFinite = true) (hheadroom : 0 ≤ headroom) (hout : output.Takes base)
    (hstop : ∀ y < base.height.toNat, stop.permits y = true) (himage : g.image = some map)
    (hread : ∀ y < base.height.toNat, base.RowReadable map.toRaster y) :
    ∃ samples lightLevel, (g.render base headroom stop).apply output =
        (.ok lightLevel, { output with samples, lightLevel }) ∧
      samples.size = output.width.toNat * output.height.toNat * output.channels := by
  obtain ⟨plan, hplan, hbase⟩ := h.make_ok hfinite (not_lt_zero_of_nonneg hheadroom) hout
  have hsettled := RenderPlan.make_eq_ok hplan
  obtain ⟨samples, hpicture⟩ := (hsettled.exists_rows_iff himage (Nat.le_refl _)).mpr hread
  rw [← congrArg Raster.height hbase] at hstop hpicture
  exact ⟨samples, _, render_eq_ok_iff.mpr ⟨plan, samples, hplan, hstop, rfl, hpicture, rfl⟩,
    (hsettled.pixels_of_picture hpicture).1⟩

/-- Two gray pixels of four bits. -/
def grayPair : Image := .ofRaster ⟨⟨4, .gray, .bt709, .linear, .unknown⟩, 2, 1, #[3, 15]⟩

/-- One gain of up to one stop. -/
def oneGain : GainMap where
  image := some (.ofRaster ⟨⟨8, .gray, .unspecified, .unspecified, .unknown⟩, 1, 1, #[200]⟩)
  metadata :=
    { backward := false
      useBaseColorSpace := true
      baseHeadroom := ⟨0, 1⟩
      alternateHeadroom := ⟨1, 1⟩
      channels := .replicate ⟨⟨0, 1⟩, ⟨1, 1⟩, ⟨1, 1⟩, ⟨0, 1⟩, ⟨0, 1⟩⟩ }
  alternate := .unknown

/-- An output in other primaries, of another depth and with alpha. -/
def wideOutput : Image := .ofRaster ⟨⟨10, .rgba, .displayP3, .pq, .unknown⟩, 2, 1, #[]⟩

end GainMapOf

end DualRendition
