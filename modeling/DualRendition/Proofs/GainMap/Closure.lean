import DualRendition.Proofs.Decoder.Step
import DualRendition.Proofs.Encoder.Step
import DualRendition.Proofs.GainMap.Measured
import DualRendition.Proofs.GainMap.Pointwise
import DualRendition.Proofs.Payload.RoundTrip

/-!
# The pipeline is closed

What measuring produces, every later operation takes: the gain map renders over its base, after a
swap it renders over the alternate rendition, and attached to its base it is stored and read back
unchanged. `measured_pipeline` states this for all inputs of a legal size and depth.

Structure: `Measured` carries the facts about the result. Each operation has its own condition,
`Renderable` for rendering and the hypotheses of `encode_still` and `read_still` for storing, and
the lemmas here lead from the facts to the conditions.
-/

namespace DualRendition

namespace GainMapOf

variable {log2 : Float → Float} {g result : GainMap} {base alternate : Image}
  {settings : MeasureSettings} {stop : Stop}

theorem measure_eq_ok
    (h : (measure log2 base alternate settings stop).apply g = (.ok (), result)) :
    g.measured log2 base alternate settings stop = .ok result := by
  rw [measure_apply_eq] at h
  obtain ⟨measured, hmeasured, -, rfl⟩ := Edit.commit_eq_ok_iff.mp h
  exact hmeasured

/-! ## Rendering -/

/-- The image of a measured gain map, with what later operations ask of it. -/
theorem Measured.image_complete (h : Measured g base alternate settings result)
    (htarget : ∀ target, g.image = some target → target.HasHeader) :
    ∃ map, result.image = some map ∧ map.hasPixels = true ∧
      Raster.SizeLegal map.width map.height ∧ map.InRange ∧ map.layout ≠ .rgba ∧
      (map.layout = .gray → result.metadata.isSingleChannel = true) := by
  obtain ⟨plan, hplanned⟩ := h.planned
  obtain ⟨hsize, -⟩ := Raster.hasHeader_iff.mp (htarget plan.target hplanned.target)
  obtain ⟨hlayout, samples, hresult, hcount, hrange⟩ := h.image plan.target hplanned.target
  refine ⟨_, hresult, ?_, hsize, hrange, hlayout, h.single plan.target hplanned.target⟩
  exact Raster.hasPixels_of_size hsize hcount

/-- A picture whose colours keep to its depth can be rendered with a complete map of a legal size.
-/
theorem rowReadable_of_legal {picture map : Image}
    (hcolors : picture.RowsInRange picture.height.toNat) (hpixels : map.hasPixels = true)
    (hsize : Raster.SizeLegal map.width map.height) (hrange : map.InRange) :
    ∀ y < picture.height.toNat, picture.RowReadable map.toRaster y := by
  have hlimit : maxDimension.toNat ≤ 2 ^ 24 := by decide
  intro y hy
  exact Raster.rowReadable_of_inRange (hcolors y hy hy) hpixels hrange
    (Nat.le_trans hsize.width_le hlimit) (Nat.le_trans hsize.height_le hlimit)

/-- A measured gain map renders over its base. -/
theorem Measured.renderable (h : Measured g base alternate settings result)
    (htarget : ∀ target, g.image = some target → target.HasHeader) : result.Renderable base := by
  obtain ⟨plan, hplanned⟩ := h.planned
  obtain ⟨map, himage, hpixels, -, -, hlayout, hsingle⟩ := h.image_complete htarget
  refine ⟨hplanned.basePixels, hplanned.baseColors.1, hplanned.baseColors.2,
    ⟨map, himage, hpixels, hlayout, hsingle⟩, h.metadata, ?_⟩
  unfold mathGamut
  split
  next => exact hplanned.baseColors.2
  next =>
    rw [h.alternate]
    exact hplanned.alternateColors.2

/-- Swapped, it renders over the alternate rendition. The primaries in which gains are applied stay
what they were. -/
theorem Measured.swap_renderable (h : Measured g base alternate settings result)
    (htarget : ∀ target, g.image = some target → target.HasHeader) :
    (result.swap base).Renderable alternate := by
  obtain ⟨plan, hplanned⟩ := h.planned
  obtain ⟨map, himage, hpixels, -, -, hlayout, hsingle⟩ := h.image_complete htarget
  have hvalid : Metadata.validate result.metadata.swap = .ok () :=
    Metadata.validate_eq_ok_iff_usable.mpr
      (Metadata.validate_eq_ok_iff_usable.mp h.metadata).swap
  refine ⟨hplanned.alternatePixels, hplanned.alternateColors.1, hplanned.alternateColors.2,
    ⟨map, himage, hpixels, hlayout, fun hgray => Metadata.isSingleChannel_swap (hsingle hgray)⟩,
    hvalid, ?_⟩
  unfold mathGamut
  split
  next => exact hplanned.alternateColors.2
  next => exact hplanned.baseColors.2

/-- Rendering looks at the raster of the base only. -/
theorem render_congr {base base' : Image} (h : base.toRaster = base'.toRaster) (g : GainMap)
    (headroom : Float) (stop : Stop) :
    g.render base headroom stop = g.render base' headroom stop := by
  obtain ⟨raster, gainMap⟩ := base
  obtain ⟨raster', gainMap'⟩ := base'
  obtain rfl : raster = raster' := h
  rfl

/-! ## Storing -/

variable {image map : Image}

/-- A gain map with one legal image and usable metadata can be stored and becomes an item. -/
theorem single_storable (hmap : g.image = some map)
    (hmapPixels : map.hasPixels = true) (hmapSize : Raster.SizeLegal map.width map.height)
    (hlayout : map.layout ≠ .rgba) (hvalid : g.metadata.validate = .ok ()) :
    Encoder.Storable (.single g) ∧ Encoder.gainMapItem (.single g) =
      .ok ⟨.single map, Payload.encode g.metadata, g.alternate⟩ := by
  have hg : GainMapGrid.Legal (.single g) g (.single map) map := by
    refine ⟨⟨Grid.filled_single g, rfl, ?_, ?_⟩, ImageGrid.legal_single hmapSize hmapPixels⟩
    · refine GainMapGrid.images?_eq_some_iff.mpr ⟨rfl, rfl, ?_⟩
      show [g.image] = [some map]
      rw [hmap]
    · intro cell hcell
      rw [List.mem_singleton.mp hcell]
  refine ⟨⟨?_, _, GainMapGrid.layout_eq_ok_iff.mpr ⟨g, _, map, hg, rfl⟩, hlayout⟩, ?_⟩
  · intro cell hcell
    rw [List.mem_singleton.mp hcell, hmap]
    rfl
  · exact Encoder.gainMapItem_eq_ok_iff.mpr
      ⟨g, map, hg, Payload.write_eq_ok_iff.mpr ⟨hvalid, rfl⟩, rfl⟩

/-- What is stored for a still image with a gain map. -/
def still (image map : Image) (g : GainMap) : StoredImage :=
  ⟨[⟨.single image.withoutGainMap, 1⟩], some ⟨.single map, Payload.encode g.metadata, g.alternate⟩⟩

/-- A still image with a storable gain map is encoded. -/
theorem encode_still (hsize : Raster.SizeLegal image.width image.height)
    (hpixels : image.hasPixels = true) (hstorable : Encoder.Storable (.single g))
    (hitem : Encoder.gainMapItem (.single g) =
      .ok ⟨.single map, Payload.encode g.metadata, g.alternate⟩) :
    Encoder.encode { image with gainMap := some g } = .ok (still image map g) := by
  have hcolor : ImageGrid.Legal (.single image.withoutGainMap) image.withoutGainMap :=
    ImageGrid.legal_single hsize hpixels
  have hsubmission : (Encoder.Request.image { image with gainMap := some g } 1
      .singleImage).submission =
        .ok ⟨.single image.withoutGainMap, some (.single g), 1, .singleImage⟩ := if_pos hpixels
  have haccepts : Encoder.start.Accepts
      ⟨.single image.withoutGainMap, some (.single g), 1, .singleImage⟩ := by
    refine ⟨rfl, fun hframes => absurd rfl hframes, ?_, ?_⟩
    · exact ⟨_, ImageGrid.layout_eq_ok_iff.mpr ⟨_, hcolor, rfl⟩, fun _ hfirst => nomatch hfirst⟩
    · intro g' hg'
      obtain rfl := Option.some.inj hg'
      exact hstorable
  rw [Encoder.encode_eq_finish (Encoder.perform_ok hsubmission haccepts)]
  exact Encoder.finish_ok (List.cons_ne_nil _ _) (Outcome.mapM_some hitem)

/-- What was stored for a still image is read as that image. The one cell of the map comes back as
it is, with whatever it owns. -/
theorem read_still (hheader : image.HasHeader) (hpixels : image.hasPixels = true)
    (hmap : g.image = some map) (hmapPixels : map.hasPixels = true)
    (hmapSize : Raster.SizeLegal map.width map.height) (hvalid : g.metadata.validate = .ok ()) :
    Decoder.read (still image map g) .everything = .ok { image with gainMap := some g } := by
  obtain ⟨hsize, hdepth⟩ := Raster.hasHeader_iff.mp hheader
  have hcolor : ImageGrid.Legal (.single image.withoutGainMap) image.withoutGainMap :=
    ImageGrid.legal_single hsize hpixels
  have hread : Payload.read (Payload.encode g.metadata) = .ok g.metadata :=
    Payload.read_of_write (Payload.write_eq_ok_iff.mpr ⟨hvalid, rfl⟩)
  have hgainMapHeader : Decoder.gainMapHeader .everything
      ⟨.single map, Payload.encode g.metadata, g.alternate⟩ =
        .ok ⟨none, g.metadata, g.alternate⟩ :=
    Decoder.gainMapHeader_eq (ImageGrid.legal_single hmapSize hmapPixels) hread
  have hgainMap : Decoder.gainMapOf .everything true
      ⟨.single map, Payload.encode g.metadata, g.alternate⟩ = .ok g := by
    unfold Decoder.gainMapOf
    rw [hgainMapHeader, Outcome.ok_bind, if_pos rfl]
    show Except.ok (⟨some map, g.metadata, g.alternate⟩ : GainMap) = _
    rw [← hmap]
  have hdelivers : Decoder.Delivers (still image map g)
      [{ image.withoutGainMap with gainMap := some g }] :=
    Decoder.delivers_still (ImageGrid.header_eq hcolor hdepth) rfl hgainMapHeader hgainMap
  exact Decoder.read_eq hdelivers

/-! ## The pipeline -/

/-- **The pipeline is closed.** Let a gain map be measured, with a base and a target image of legal
sizes and depths. Then it has all of its samples, usable metadata, and the same metadata for all
channels when it is gray. It renders over its base at every headroom, and after a swap over the
alternate rendition, into every output of that size that is not gray and has specified colours, and
fills the whole output. Attached to the base it is stored, and reading gives the base with the same
gain map, which renders as before. -/
theorem measured_pipeline
    (hmeasure : (measure log2 base alternate settings stop).apply g = (.ok (), result))
    (hbase : base.HasHeader) (htarget : ∀ target, g.image = some target → target.HasHeader) :
    (∃ map, result.image = some map ∧ map.hasPixels = true ∧
      map.samples.size = map.width.toNat * map.height.toNat * map.channels ∧
      (map.layout = .gray → result.metadata.isSingleChannel = true)) ∧
    result.metadata.validate = .ok () ∧
    (∀ headroom : Float, headroom.isFinite = true → 0 ≤ headroom →
      ∀ output : Image, output.Takes base →
        ∀ watch : Stop, (∀ y < base.height.toNat, watch.permits y = true) →
          (∃ samples lightLevel, (result.render base headroom watch).apply output =
              (.ok lightLevel, { output with samples, lightLevel }) ∧
            samples.size = output.width.toNat * output.height.toNat * output.channels) ∧
          ∃ samples lightLevel, ((result.swap base).render alternate headroom watch).apply output =
              (.ok lightLevel, { output with samples, lightLevel }) ∧
            samples.size = output.width.toNat * output.height.toNat * output.channels) ∧
    ∃ stored, Encoder.encode { base with gainMap := some result } = .ok stored ∧
      Decoder.read stored .everything = .ok { base with gainMap := some result } ∧
      ∀ headroom watch, result.render { base with gainMap := some result } headroom watch =
        result.render base headroom watch := by
  have h := measured_eq_ok (measure_eq_ok hmeasure)
  obtain ⟨plan, hplanned⟩ := h.planned
  obtain ⟨map, hmap, hpixels, hsize, hrange, hlayout, hsingle⟩ := h.image_complete htarget
  refine ⟨⟨map, hmap, hpixels, (Raster.hasPixels_iff.mp hpixels).2.1, hsingle⟩, h.metadata, ?_, ?_⟩
  · intro headroom hfinite hheadroom output hout watch hwatch
    refine ⟨(h.renderable htarget).render_ok hfinite hheadroom hout hwatch hmap
      (rowReadable_of_legal h.colors.1 hpixels hsize hrange), ?_⟩
    -- both renditions have the size of the output, so the roles may change
    have hout' : output.Takes alternate :=
      ⟨hout.width.trans hplanned.width.symm, hout.height.trans hplanned.height.symm, hout.layout,
        hout.transfer, hout.primaries⟩
    rw [← hplanned.height] at hwatch
    exact (h.swap_renderable htarget).render_ok hfinite hheadroom hout' hwatch hmap
      (rowReadable_of_legal h.colors.2 hpixels hsize hrange)
  · obtain ⟨hstorable, hitem⟩ := single_storable hmap hpixels hsize hlayout h.metadata
    obtain ⟨hbaseSize, -⟩ := Raster.hasHeader_iff.mp hbase
    refine ⟨still base map result, ?_, ?_, ?_⟩
    · exact encode_still hbaseSize hplanned.basePixels hstorable hitem
    · exact read_still hbase hplanned.basePixels hmap hpixels hsize h.metadata
    · intro headroom watch
      exact render_congr rfl result headroom watch

/-- A pixel in linear light, of one bit. -/
def linearPixel : Image :=
  .ofRaster ⟨⟨1, .rgb, .bt709, .linear, .unknown⟩, 1, 1, #[0, 1, 0]⟩

/-- A target of one pixel without samples. -/
def emptyTarget : Image :=
  .ofRaster ⟨⟨8, .rgb, .unspecified, .unspecified, .unknown⟩, 1, 1, #[]⟩

/-- A binary logarithm that is evaluated only where it is not known to be zero. -/
def knownLog2 (x : Float) : Float := if x == 1 then 0 else x.log2

theorem linearPixel_pipeline :
    ∃ result, (measure knownLog2 linearPixel linearPixel .standard .never).apply
        ⟨some emptyTarget, .unset, .unknown⟩ = (.ok (), result) ∧
      result.metadata.validate = .ok () ∧
      (∃ samples lightLevel, (result.render linearPixel 0 .never).apply linearPixel =
        (.ok lightLevel, { linearPixel with samples, lightLevel }) ∧ samples.size = 3) ∧
      ∃ stored, Encoder.encode { linearPixel with gainMap := some result } = .ok stored ∧
        Decoder.read stored .everything = .ok { linearPixel with gainMap := some result } := by
  have hok : ((measure knownLog2 linearPixel linearPixel .standard .never).apply
      ⟨some emptyTarget, .unset, .unknown⟩).1.isOk = true := by decide +kernel
  cases hmeasure : (measure knownLog2 linearPixel linearPixel .standard .never).apply
      ⟨some emptyTarget, .unset, .unknown⟩ with
  | mk answer result =>
    rw [hmeasure] at hok
    cases answer with
    | error failure => cases hok
    | ok =>
      obtain ⟨-, hvalid, hrender, stored, hencode, hread, -⟩ :=
        measured_pipeline hmeasure ⟨_, rfl⟩ (by
          intro target htarget
          obtain rfl := Option.some.inj htarget
          exact ⟨_, rfl⟩)
      obtain ⟨hrendered, -⟩ := hrender 0 (by decide +kernel) (by decide +kernel) linearPixel
        ⟨rfl, rfl, by decide, by decide, by decide⟩ .never (fun _ _ => rfl)
      exact ⟨result, rfl, hvalid, hrendered, stored, hencode, hread⟩

end GainMapOf

end DualRendition
