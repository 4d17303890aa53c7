import DualRendition.Proofs.GainMap.Closure
import DualRendition.Proofs.GainMap.Inputs
import DualRendition.Proofs.GainMap.Pointwise
import DualRendition.Proofs.Raster.Colors

/-!
# Layout and alpha stay out of the colours

Rendering and measuring read the colours of a picture and nothing else of its pixels. Pictures with
`Raster.SameColors` give the same renditions, except for alpha, and the same gain maps, except for
the layout that is recorded: `GainMapOf.colors_without_layout`. The alpha of a rendition is that of
the base at the depth of the output, or full.

Structure: the light of a pixel comes from its colour samples (`LightTable.pixelLight_eq_colors`),
so pictures with the same colours have the same light (`LightTable.rasterLight_eq_of_sameColors`).
Measuring sees only this light. In rendering, a pixel splits into colours and alpha
(`RenderPlan.finishPixel_eq_append`), and two plans for the same colours agree in the first part
(`RenderPlan.Settled.pixel_of_sameColors`).
-/

namespace DualRendition

/-! ## Light -/

namespace LightTable

variable {r s : Raster} {t : LightTable}

/-- A picture in another layout has the same table, but for the layout. -/
theorem ofRendition_layout {r : Rendition} {target : Gamut} {role : String}
    (h : ofRendition r target role = .ok t) (layout : Layout) :
    ofRendition { r with layout } target role = .ok { t with layout } := by
  unfold ofRendition at h ⊢
  obtain ⟨hcheck, h⟩ := Outcome.check_bind_eq_ok.mp h
  obtain rfl := Outcome.pure_eq_ok.mp h
  exact Outcome.check_bind_eq_ok.mpr ⟨hcheck, rfl⟩

variable (ht : t.layout = r.layout) (h : r.SameColors s)

include ht h

/-- The same colours have the same light. -/
theorem pixelLight_eq_of_sameColors {x y : Nat} (hx : x < r.width.toNat) (hy : y < r.height.toNat) :
    pixelLight { t with layout := s.layout } (s.sample x y) = t.pixelLight (r.sample x y) := by
  rw [pixelLight_eq_colors rfl, pixelLight_eq_colors ht]
  simp only [h.sample x hx y hy]
  rfl

theorem rasterLight_eq_of_sameColors (stop : Stop) (asked : Nat) :
    rasterLight { t with layout := s.layout } s stop asked = t.rasterLight r stop asked := by
  have hrow : ∀ y < r.height.toNat,
      rowLight { t with layout := s.layout } s y = t.rowLight r y := by
    intro y hy
    unfold rowLight
    rw [h.width]
    refine layOut_congr fun x hx => ?_
    rw [pixelLight_eq_of_sameColors ht h hx hy]
  unfold rasterLight
  rw [h.height, Stop.sweep_congr hrow]

end LightTable

/-! ## Measuring -/

/-- The plan for renditions in other layouts. -/
def MeasurePlan.inLayouts (p : MeasurePlan) (base alternate : Layout) : MeasurePlan :=
  { p with
    baseTable := { p.baseTable with layout := base }
    alternateTable := { p.alternateTable with layout := alternate } }

namespace GainMapOf

section Measuring

variable {log2 : Float → Float} {g result : GainMap} {base alternate base' alternate' : Image}
  {settings : MeasureSettings} {stop : Stop} {plan : MeasurePlan}

variable (hbase : base.SameColors base'.toRaster)
  (halternate : alternate.SameColors alternate'.toRaster)

include hbase halternate

/-- The checks pass for the same colours as well. -/
theorem plan_of_sameColors (hplan : g.plan base alternate settings = .ok plan)
    (hbasePixels : base'.hasPixels = true) (halternatePixels : alternate'.hasPixels = true) :
    g.plan base' alternate' settings = .ok (plan.inLayouts base'.layout alternate'.layout) := by
  have h := plan_eq_ok_iff.mp hplan
  refine plan_eq_ok_iff.mpr {
    basePixels := hbasePixels
    alternatePixels := halternatePixels
    width := ?_
    height := ?_
    target := h.target
    layout := h.layout
    baseColors := ?_
    alternateColors := ?_
    baseHeadroom := ?_
    alternateHeadroom := ?_
    gamut := ?_
    baseTable := ?_
    alternateTable := ?_ }
  · rw [halternate.width, h.width, hbase.width]
  · rw [halternate.height, h.height, hbase.height]
  · rw [hbase.rendition]
    exact h.baseColors
  · rw [halternate.rendition]
    exact h.alternateColors
  · rw [hbase.rendition]
    exact h.baseHeadroom
  · rw [halternate.rendition]
    exact h.alternateHeadroom
  · rw [hbase.rendition, halternate.rendition]
    exact h.gamut
  · rw [hbase.rendition]
    exact LightTable.ofRendition_layout h.baseTable _
  · rw [halternate.rendition]
    exact LightTable.ofRendition_layout h.alternateTable _

/-- The gains are taken from the light of the colours. -/
theorem gains_of_sameColors (hplan : g.plan base alternate settings = .ok plan) :
    gains log2 (plan.inLayouts base'.layout alternate'.layout) base' alternate' settings stop =
      gains log2 plan base alternate settings stop := by
  have h := plan_eq_ok_iff.mp hplan
  have hbaseLight := LightTable.rasterLight_eq_of_sameColors
    (LightTable.ofRendition_eq_ok h.baseTable).2 hbase stop 0
  have halternateLight := LightTable.rasterLight_eq_of_sameColors
    (LightTable.ofRendition_eq_ok h.alternateTable).2 halternate stop base.height.toNat
  have hlights : lights (plan.inLayouts base'.layout alternate'.layout) base' alternate' stop =
      lights plan base alternate stop := by
    unfold lights MeasurePlan.inLayouts
    dsimp only
    rw [hbase.width, hbase.height, hbaseLight, halternateLight]
  unfold gains
  rw [hlights, hbase.height]
  rfl

/-- The same colours give the same gain map. Only the recorded layout is that of the other
picture. -/
theorem measure_of_sameColors
    (h : (measure log2 base alternate settings stop).apply g = (.ok (), result))
    (hbasePixels : base'.hasPixels = true) (halternatePixels : alternate'.hasPixels = true) :
    (measure log2 base' alternate' settings stop).apply g =
      (.ok (),
        { result with alternate := { result.alternate with layout := alternate'.layout } }) := by
  obtain ⟨plan, found, metadata, stored, hplan, hgains, hmetadata, hstored, rfl⟩ :=
    measured_eq_ok_iff.mp (measure_eq_ok h)
  have hplan' := plan_of_sameColors hbase halternate hplan hbasePixels halternatePixels
  rw [← gains_of_sameColors hbase halternate hplan] at hgains
  rw [measure_apply_eq]
  refine Edit.commit_eq_ok_iff.mpr ⟨_, measured_eq_ok_iff.mpr ?_, rfl, rfl⟩
  refine ⟨_, found, metadata, stored, hplan', hgains, hmetadata, hstored, ?_⟩
  rw [halternate.rendition]
  rfl

end Measuring

end GainMapOf

/-! ## Rendering -/

namespace RenderPlan

/-- The colour codes of a pixel with the given linear light before the gains. -/
def colorCodes (p : RenderPlan) (light gain : Rgb Float32) : Rgb UInt16 :=
  let channels := p.values.channels
  let lifted := light.zipWith (· + ·) (channels.map baseOffset)
  p.writer.codes
    ((lifted.zipWith (· * ·) gain).zipWith (· - ·) (channels.map (outputOffset p.weight)))

/-- A pixel is its colours, and an alpha sample behind them if the output has one. -/
theorem finishPixel_eq_append (p : RenderPlan) (light gain : Rgb Float32) (x y : Nat) :
    p.finishPixel light gain x y = (p.colorCodes light gain).toList.toArray ++
      if p.alpha then #[p.alphaSample x y] else #[] := by
  unfold finishPixel
  cases p.alpha with
  | false => rfl
  | true => rfl

theorem getD_finishPixel (p : RenderPlan) (light gain : Rgb Float32) (x y : Nat) (c : Fin 3) :
    (p.finishPixel light gain x y).getD c 0 = (p.colorCodes light gain).get c := by
  rw [finishPixel_eq_append]
  cases p.alpha with
  | false =>
    match c with
    | 0 | 1 | 2 => rfl
  | true =>
    match c with
    | 0 | 1 | 2 => rfl

namespace Settled

variable {g : GainMap} {base base' output : Image} {headroom : Float} {plan plan' : RenderPlan}
  {layout : Layout} {before samples samples' : Array UInt16} {x y : Nat}

/-- The alpha samples of a picture come from the base. -/
theorem alpha_picture (h : Settled g base headroom output plan)
    (hpicture : plan.picture = .ok samples) (halpha : output.layout = .rgba)
    (hx : x < output.width.toNat) (hy : y < output.height.toNat) :
    Raster.sample { output.toRaster with samples } x y 3 =
      GainMapOf.alphaAt base.toRaster output.toRaster x y := by
  have hfour : 3 < Raster.channels { output.toRaster with samples } := by
    unfold Raster.channels
    rw [halpha]
    decide
  have hplan : plan.alpha = true := by
    rw [h.alpha, halpha]
    rfl
  have hpixel := (h.pixels_of_picture hpicture).2 x hx y hy
  rw [h.width, ← congrArg Raster.width h.baseRaster] at hx
  rw [h.height, ← congrArg Raster.height h.baseRaster] at hy
  obtain ⟨light, gain, -, -, hfinished⟩ := (pixel_eq_ok_iff hx hy).mp hpixel
  -- the alpha sample is pushed behind the three colours
  rw [Raster.sample_eq_getD_pixel _ x y hfour, ← hfinished, finishPixel_eq_append, hplan]
  show plan.alphaSample x y = _
  unfold alphaSample GainMapOf.alphaAt
  rw [h.baseRaster, h.maxValue]
  simp only [Layout.hasAlpha, decide_eq_true_eq]

/-- What a plan takes from the gain map and the headroom is the same for every base and output. -/
theorem sameGains {output' : Image} (h : Settled g base headroom output plan)
    (h' : Settled g base' headroom output' plan') :
    plan'.map = plan.map ∧ plan'.values = plan.values ∧ plan'.weight = plan.weight := by
  obtain ⟨map, himage, hraster⟩ := h.mapRaster
  have hvalues : plan'.values = plan.values := Except.ok.inj (h'.values.symm.trans h.values)
  refine ⟨(h'.map_eq himage).trans hraster.symm, hvalues, ?_⟩
  rw [h'.weight, h.weight, hvalues]

variable (h : Settled g base headroom output plan)
  (h' : Settled g base' headroom { output with layout, samples := before } plan')
  (hbase : base.SameColors base'.toRaster)

include h h' hbase

/-- Two plans for the same colours render the same colours, whatever the layout of the output. -/
theorem pixel_of_sameColors (hx : x < base.width.toNat) (hy : y < base.height.toNat)
    {pixel : Array UInt16} (hpixel : plan.pixel x y = .ok pixel) :
    ∃ pixel', plan'.pixel x y = .ok pixel' ∧ ∀ c : Fin 3, pixel'.getD c 0 = pixel.getD c 0 := by
  obtain ⟨hmap, hvalues, hweight⟩ := h.sameGains h'
  have hgamut : g.mathGamut base'.toRendition = g.mathGamut base.toRendition := by
    rw [hbase.rendition]
    rfl
  have hwriter : plan'.writer = plan.writer := by
    rw [h'.writer, h.writer, hgamut]
    rfl
  have htable : plan'.table = { plan.table with layout := base'.layout } := by
    have hsame := h'.table
    rw [hgamut, hbase.rendition, LightTable.ofRendition_layout h.table] at hsame
    exact (Except.ok.inj hsame).symm
  have hlight := LightTable.pixelLight_eq_of_sameColors
    (LightTable.ofRendition_eq_ok h.table).2 hbase hx hy
  have hx' : x < plan'.base.width.toNat := by rwa [h'.baseRaster, hbase.width]
  have hy' : y < plan'.base.height.toNat := by rwa [h'.baseRaster, hbase.height]
  rw [← congrArg Raster.width h.baseRaster] at hx
  rw [← congrArg Raster.height h.baseRaster] at hy
  obtain ⟨light, gain, hfound, hgain, rfl⟩ := (pixel_eq_ok_iff hx hy).mp hpixel
  refine ⟨plan'.finishPixel light gain x y,
    (pixel_eq_ok_iff hx' hy').mpr ⟨light, gain, ?_, ?_, rfl⟩, fun c => ?_⟩
  · rw [htable, h'.baseRaster, hlight, ← h.baseRaster]
    exact hfound
  · rw [hmap, hvalues, hweight, h'.baseRaster, hbase.width, hbase.height, ← h.baseRaster]
    exact hgain
  · rw [getD_finishPixel, getD_finishPixel]
    unfold colorCodes
    rw [hvalues, hweight, hwriter]

/-- And so one has a picture when the other has, ... -/
theorem exists_picture_of_sameColors (hpicture : plan.picture = .ok samples) :
    ∃ samples', plan'.picture = .ok samples' := by
  unfold picture row at hpicture ⊢
  rw [h.baseRaster] at hpicture
  rw [exists_layOut_iff, h'.baseRaster, hbase.height]
  intro y hy
  obtain ⟨row, hrow⟩ := exists_piece_of_layOut hpicture y hy
  rw [exists_layOut_iff, hbase.width]
  intro x hx
  obtain ⟨pixel, hpixel⟩ := exists_piece_of_layOut hrow x hx
  obtain ⟨pixel', hpixel', -⟩ := h.pixel_of_sameColors h' hbase hx hy hpixel
  exact ⟨pixel', hpixel'⟩

/-- ... and the pictures have the same colours. -/
theorem colorSample_of_sameColors (hpicture : plan.picture = .ok samples)
    (hpicture' : plan'.picture = .ok samples') (hx : x < output.width.toNat)
    (hy : y < output.height.toNat) (c : Fin 3) :
    Raster.colorSample { output.toRaster with layout, samples := samples' } c x y =
      Raster.colorSample { output.toRaster with samples } c x y := by
  have hpixel := (h.pixels_of_picture hpicture).2 x hx y hy
  have hpixel' := (h'.pixels_of_picture hpicture').2 x hx y hy
  rw [h.width] at hx
  rw [h.height] at hy
  obtain ⟨pixel', hsame, hcolors⟩ := h.pixel_of_sameColors h' hbase hx hy hpixel
  obtain rfl := Except.ok.inj (hpixel'.symm.trans hsame)
  have hcolor := Raster.colorSample_eq_getD_pixel (r := { output.toRaster with samples }) h.layout
    c x y
  have hcolor' := Raster.colorSample_eq_getD_pixel
    (r := { output.toRaster with layout, samples := samples' }) h'.layout c x y
  exact hcolor'.trans ((hcolors c).trans hcolor.symm)

end Settled

/-- What can be rendered from a base can be rendered from the same colours, in either layout. -/
theorem Possible.of_sameColors {g : GainMap} {base base' output : Image} {headroom : Float}
    {layout : Layout} {samples : Array UInt16} (h : Possible g base headroom output)
    (hbase : base.SameColors base'.toRaster) (hpixels : base'.hasPixels = true)
    (hlayout : layout ≠ .gray) : Possible g base' headroom { output with layout, samples } := by
  refine ⟨h.headroom, ⟨hpixels, ?_, ?_, h.renderable.map, h.renderable.metadata, ?_⟩,
    ⟨?_, ?_, hlayout, h.takes.transfer, h.takes.primaries⟩⟩
  · rw [hbase.rendition]
    exact h.renderable.baseTransfer
  · rw [hbase.rendition]
    exact h.renderable.basePrimaries
  · rw [hbase.rendition]
    exact h.renderable.gamut
  · exact h.takes.width.trans hbase.width.symm
  · exact h.takes.height.trans hbase.height.symm

end RenderPlan

namespace GainMapOf

/-- The same colours are rendered to the same colours, whatever the layout of the output. -/
theorem render_of_sameColors {g : GainMap} {base base' output after : Image} {headroom : Float}
    {stop : Stop} {lightLevel : LightLevel} {layout : Layout}
    (h : (g.render base headroom stop).apply output = (.ok lightLevel, after))
    (hbase : base.SameColors base'.toRaster) (hpixels : base'.hasPixels = true)
    (hlayout : layout ≠ .gray) (samples : Array UInt16) :
    ∃ after' : Image,
      (g.render base' headroom stop).apply { output with layout, samples } =
        (.ok lightLevel, after') ∧
      after.SameColors after'.toRaster ∧
      after'.samples.size = output.width.toNat * output.height.toNat * layout.channels := by
  obtain ⟨plan, _, hplan, hpermits, rfl, hpicture, rfl⟩ := render_eq_ok_iff.mp h
  have hpossible := RenderPlan.exists_make_iff.mp ⟨plan, hplan⟩
  obtain ⟨plan', hplan'⟩ :=
    RenderPlan.exists_make_iff.mpr (hpossible.of_sameColors hbase hpixels hlayout)
  -- both plans take the same gains and the same light to the same writer
  have hsettled := RenderPlan.make_eq_ok hplan
  have hsettled' := RenderPlan.make_eq_ok hplan'
  obtain ⟨samples', hpicture'⟩ := hsettled.exists_picture_of_sameColors hsettled' hbase hpicture
  obtain ⟨-, -, hweight⟩ := hsettled.sameGains hsettled'
  have hlevel : base'.lightLevel.blend g.alternate.lightLevel plan'.weight =
      base.lightLevel.blend g.alternate.lightLevel plan.weight := by
    rw [hbase.rendition, hweight]
  have hpermits' : ∀ y < plan'.base.height.toNat, stop.permits y = true := by
    rwa [hsettled'.baseRaster, hbase.height, ← congrArg Raster.height hsettled.baseRaster]
  refine ⟨_, render_eq_ok_iff.mpr ⟨plan', samples', hplan', hpermits', hlevel.symm, hpicture', rfl⟩,
    ⟨rfl, rfl, rfl, ?_⟩, (hsettled'.pixels_of_picture hpicture').1⟩
  intro x hx y hy c
  exact hsettled.colorSample_of_sameColors hsettled' hbase hpicture hpicture' hx hy c

/-- The alpha of a rendition is that of the base, or full. -/
theorem alpha_of_render {g : GainMap} {base output after : Image} {headroom : Float} {stop : Stop}
    {lightLevel : LightLevel}
    (h : (g.render base headroom stop).apply output = (.ok lightLevel, after))
    (halpha : output.layout = .rgba) {x y : Nat} (hx : x < output.width.toNat)
    (hy : y < output.height.toNat) :
    after.sample x y 3 = alphaAt base.toRaster output.toRaster x y := by
  obtain ⟨plan, samples, hplan, -, -, hpicture, rfl⟩ := render_eq_ok_iff.mp h
  exact (RenderPlan.make_eq_ok hplan).alpha_picture hpicture halpha hx hy

/-- **Layout and alpha stay out of the colours.** Whenever a base can be rendered, the same colours
in another layout, rendered into an output of either layout with colours, give the same light level
and the same colours. The alpha of the rendition is that of the base at the depth of the output, or
full, whatever the colours, the gain map and the headroom are.

Whenever a gain map can be measured, it is also measured between the same colours in other layouts,
and the two results differ in the recorded layout of the alternate rendition only.

For every complete picture in memory there are the same colours in three channels, without alpha. -/
theorem colors_without_layout :
    (∀ (g : GainMap) (base output after : Image) (headroom : Float) (stop : Stop)
        (lightLevel : LightLevel),
      (g.render base headroom stop).apply output = (.ok lightLevel, after) →
      (∀ (base' : Image) (layout : Layout) (samples : Array UInt16),
        base.SameColors base'.toRaster → base'.hasPixels = true → layout ≠ .gray →
        ∃ after' : Image,
          (g.render base' headroom stop).apply { output with layout, samples } =
            (.ok lightLevel, after') ∧
          after.SameColors after'.toRaster ∧
          after'.samples.size = output.width.toNat * output.height.toNat * layout.channels) ∧
      (output.layout = .rgba → ∀ x < output.width.toNat, ∀ y < output.height.toNat,
        after.sample x y 3 =
          if base.layout = .rgba then
            Code.rescale (base.sample x y 3) base.maxValue output.maxValue
          else output.maxValue)) ∧
    (∀ (log2 : Float → Float) (g result : GainMap) (base alternate base' alternate' : Image)
        (settings : MeasureSettings) (stop : Stop),
      (measure log2 base alternate settings stop).apply g = (.ok (), result) →
      base.SameColors base'.toRaster → alternate.SameColors alternate'.toRaster →
      base'.hasPixels = true → alternate'.hasPixels = true →
      (measure log2 base' alternate' settings stop).apply g =
        (.ok (),
          { result with alternate := { result.alternate with layout := alternate'.layout } })) ∧
    ∀ r : Raster, r.hasPixels = true → r.FitsMemory →
      r.SameColors r.asRgb ∧ r.asRgb.hasPixels = true := by
  refine ⟨?_, ?_, ?_⟩
  · intro g base output after headroom stop lightLevel h
    refine ⟨?_, ?_⟩
    · intro base' layout samples hbase hpixels hlayout
      exact render_of_sameColors h hbase hpixels hlayout samples
    · intro halpha x hx y hy
      exact alpha_of_render h halpha hx hy
  · intro log2 g result base alternate base' alternate' settings stop h hbase halternate hbasePixels
      halternatePixels
    exact measure_of_sameColors hbase halternate h hbasePixels halternatePixels
  · intro r hpixels hmemory
    exact ⟨Raster.asRgb_sameColors hpixels, Raster.asRgb_hasPixels hpixels hmemory⟩

/-- The two pixels of `grayPair` with colours and alpha. -/
def alphaPair : Image :=
  .ofRaster ⟨⟨4, .rgba, .bt709, .linear, .unknown⟩, 2, 1, #[3, 3, 3, 7, 15, 15, 15, 0]⟩

/-- The pixel of `linearPixel` with alpha. -/
def alphaPixel : Image :=
  .ofRaster ⟨⟨1, .rgba, .bt709, .linear, .unknown⟩, 1, 1, #[0, 1, 0, 1]⟩

theorem alphaPair_opaque :
    (∃ lightLevel after after',
      (oneGain.render alphaPair 0 .never).apply wideOutput = (.ok lightLevel, after) ∧
      (oneGain.render (.ofRaster alphaPair.asRgb) 0 .never).apply
        { wideOutput with layout := .rgb } = (.ok lightLevel, after') ∧
      after.SameColors after'.toRaster ∧ after'.samples.size = 6 ∧
      after.sample 0 0 3 = 477 ∧ after.sample 1 0 3 = 0) ∧
    ∃ result,
      (measure knownLog2 alphaPixel alphaPixel .standard .never).apply
        ⟨some emptyTarget, .unset, .unknown⟩ = (.ok (), result) ∧
      (measure knownLog2 alphaPixel (.ofRaster alphaPixel.asRgb) .standard .never).apply
        ⟨some emptyTarget, .unset, .unknown⟩ =
          (.ok (), { result with alternate := { result.alternate with layout := .rgb } }) := by
  obtain ⟨hrendering, hmeasuring, hasRgb⟩ := colors_without_layout
  refine ⟨?_, ?_⟩
  · obtain ⟨hsame, hpixels⟩ := hasRgb alphaPair.toRaster (by decide) (by decide)
    have hrenderable : oneGain.Renderable alphaPair := by
      refine ⟨rfl, by decide, by decide, ⟨_, rfl, rfl, by decide, fun _ => rfl⟩, rfl, by decide⟩
    have htakes : wideOutput.Takes alphaPair := ⟨rfl, rfl, by decide, by decide, by decide⟩
    obtain ⟨samples, lightLevel, hrender, -⟩ := @Renderable.render_ok _ _ wideOutput 0 .never _
      hrenderable (by decide +kernel) (by decide +kernel) htakes (fun _ _ => rfl) rfl
      (by decide +kernel)
    obtain ⟨hcolors, halpha⟩ := hrendering _ _ _ _ _ _ _ hrender
    obtain ⟨after', hrender', hafter, hsize⟩ :=
      hcolors (.ofRaster alphaPair.asRgb) .rgb #[] hsame hpixels (by decide)
    have hfirst := halpha rfl 0 (by decide) 0 (by decide)
    have hsecond := halpha rfl 1 (by decide) 0 (by decide)
    exact ⟨lightLevel, _, after', hrender, hrender', hafter, hsize, hfirst.trans (by decide),
      hsecond.trans (by decide)⟩
  · obtain ⟨hsame, hpixels⟩ := hasRgb alphaPixel.toRaster (by decide) (by decide)
    obtain ⟨⟨⟩, result, hmeasure⟩ := @Edit.exists_apply_of_isOk _ _
      (measure knownLog2 alphaPixel alphaPixel .standard .never)
      ⟨some emptyTarget, .unset, .unknown⟩ (by decide +kernel)
    exact ⟨result, hmeasure,
      hmeasuring _ _ _ _ _ alphaPixel (.ofRaster alphaPixel.asRgb) _ _ hmeasure (.refl _) hsame rfl
        hpixels⟩

end GainMapOf

end DualRendition
