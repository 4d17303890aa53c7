import DualRendition.Proofs.GainMap.Pointwise
import DualRendition.Proofs.GainMap.Inputs
import DualRendition.Proofs.Raster.Colors

/-!
# Gray gain maps

A gray gain map has one gain for all channels. With the same metadata in all of them it means the
same as the map that repeats each of its samples three times: `GainMapOf.render_tripled` proves that
rendering with one or the other gives the same result, be it a picture or a failure.

Structure: the two maps have the same codes at every place, so their plans differ in the map only
(`RenderPlan.make_tripled`) and render the same rows (`RenderPlan.samples_tripled`).
-/

namespace DualRendition

namespace Raster

/-- A picture in three channels that repeats each sample of a gray one, at its size and depth. -/
structure Triples (r gray : Raster) : Prop where
  layout : r.layout = .rgb
  grayLayout : gray.layout = .gray
  width : r.width = gray.width
  height : r.height = gray.height
  depth : r.depth = gray.depth
  samples : r.samples = gray.samples.flatMap fun sample => #[sample, sample, sample]

variable {r gray : Raster}

/-- The same codes are read from both. -/
theorem Triples.gainSample (h : r.Triples gray) (c : Fin 3) (x y : Nat) :
    r.gainSample c x y = gray.gainSample c x y := by
  unfold Raster.gainSample Raster.sample pixelStart channels
  rw [h.layout, h.grayLayout, h.width, h.samples, if_neg (by decide), if_pos rfl]
  show _ = gray.samples.getD ((y * gray.width.toNat + x) * 1 + 0) 0
  rw [Nat.mul_one, Nat.add_zero]
  exact getD_tripled gray.samples (y * gray.width.toNat + x) c

/-- And the places that do not exist are the same in both. -/
theorem Triples.gainCodes (h : r.Triples gray) (x y : Nat) :
    r.gainCodes x y = gray.gainCodes x y := by
  have hinside : r.pixelStart x y + r.channels ≤ r.samples.size ↔
      gray.pixelStart x y + gray.channels ≤ gray.samples.size := by
    unfold pixelStart channels
    rw [h.layout, h.grayLayout, h.width, h.samples, size_tripled]
    show (y * gray.width.toNat + x) * 3 + 3 ≤ _ ↔ (y * gray.width.toNat + x) * 1 + 1 ≤ _
    omega
  unfold Raster.gainCodes
  simp only [hinside, h.gainSample]

/-- One of them is complete when the other is. -/
theorem Triples.hasPixels_eq (h : r.Triples gray) (hmemory : gray.FitsMemory) :
    r.hasPixels = gray.hasPixels := by
  have hsize : r.samples.size = gray.samples.size * 3 := by
    rw [h.samples, size_tripled]
  have hchannels : r.channels = 3 ∧ gray.channels = 1 := by
    unfold channels
    rw [h.layout, h.grayLayout]
    exact ⟨rfl, rfl⟩
  have hlimit : 2 * gray.samples.size < 2 ^ 63 := hmemory
  rw [Bool.eq_iff_iff, hasPixels_iff, hasPixels_iff, h.width, h.height, hchannels.1, hchannels.2,
    hsize]
  show _ ∧ _ ∧ _ < 2 ^ 64 ↔ _ ∧ _ ∧ _ < 2 ^ 64
  omega

end Raster

namespace RenderPlan

variable {g : GainMap} {base output : Image} {headroom : Float}

/-- The checks have the same result with both maps, and their plans differ in nothing else. -/
theorem make_tripled {gray wide : Image} (himage : g.image = some gray)
    (h : wide.Triples gray.toRaster) (hmemory : gray.FitsMemory)
    (hsingle : g.metadata.isSingleChannel = true) :
    make base { g with image := some wide } headroom output =
      make base g headroom output >>= fun plan => pure { plan with map := wide.toRaster } := by
  have hpixels := h.hasPixels_eq hmemory
  have hgray : checkLayout gray.layout g.metadata = .ok () :=
    checkLayout_eq_ok_iff.mpr ⟨by rw [h.grayLayout]; decide, fun _ => hsingle⟩
  have hwide : checkLayout wide.layout g.metadata = .ok () :=
    checkLayout_eq_ok_iff.mpr ⟨by rw [h.layout]; decide, fun _ => hsingle⟩
  have hgamut : GainMapOf.mathGamut { g with image := some wide } base.toRendition =
      g.mathGamut base.toRendition := rfl
  unfold make mapImage
  dsimp only
  rw [himage]
  dsimp only
  rw [hpixels]
  simp only [Outcome.throw_eq, Outcome.error_bind, Outcome.ite_bind, Outcome.ok_bind, hgray, hwide,
    hgamut, bind_assoc, pure_bind]

/-- The same rows are rendered with both maps. -/
theorem samples_tripled {p : RenderPlan} {wide : Raster} (h : wide.Triples p.map) (stop : Stop) :
    ({ p with map := wide } : RenderPlan).samples stop = p.samples stop := by
  unfold RenderPlan.samples renderPixel GainTable.between
  dsimp only
  simp only [h.width, h.height, h.depth, h.gainCodes]
  rfl

end RenderPlan

namespace GainMapOf

/-- **A gray gain map means the same in three channels.** Let a gain map have a gray image and the
same metadata in all channels, and replace the image by one of its size and depth that repeats every
sample three times. Then rendering, with whatever base, headroom, stop and output, has the same
result and leaves the same output. -/
theorem render_tripled {g : GainMap} {gray wide : Image} (himage : g.image = some gray)
    (hwide : wide.Triples gray.toRaster) (hmemory : gray.FitsMemory)
    (hsingle : g.metadata.isSingleChannel = true) (base : Image) (headroom : Float) (stop : Stop)
    (output : Image) :
    (render { g with image := some wide } base headroom stop).apply output =
      (g.render base headroom stop).apply output := by
  have hrendered : rendered { g with image := some wide } base headroom output stop =
      g.rendered base headroom output stop := by
    unfold rendered
    rw [RenderPlan.make_tripled himage hwide hmemory hsingle]
    cases hplan : RenderPlan.make base g headroom output with
    | error failure => rfl
    | ok plan =>
      obtain ⟨map, hmap, hraster⟩ := (RenderPlan.make_eq_ok hplan).mapRaster
      obtain rfl : gray = map := Option.some.inj (himage.symm.trans hmap)
      rw [← hraster] at hwide
      simp only [Outcome.ok_bind, pure_bind, RenderPlan.samples_tripled hwide]
  rw [render_apply_eq, render_apply_eq, hrendered]

/-- The two gray samples of `grayPair`, each of them three times. -/
def tripledPair : Image :=
  .ofRaster ⟨⟨4, .rgb, .unspecified, .unspecified, .unknown⟩, 2, 1, #[3, 3, 3, 15, 15, 15]⟩

theorem grayPair_tripled :
    tripledPair.Triples grayPair.toRaster ∧ oneGain.metadata.isSingleChannel = true ∧
    ∃ lightLevel after,
      (render { oneGain with image := some grayPair } grayPair 1 .never).apply wideOutput =
        (.ok lightLevel, after) ∧
      (render { oneGain with image := some tripledPair } grayPair 1 .never).apply wideOutput =
        (.ok lightLevel, after) := by
  have htriples : tripledPair.Triples grayPair.toRaster :=
    ⟨rfl, rfl, rfl, rfl, rfl, by decide⟩
  have hrenderable : Renderable { oneGain with image := some grayPair } grayPair := by
    refine ⟨rfl, by decide, by decide, ⟨_, rfl, rfl, by decide, fun _ => rfl⟩, rfl, by decide⟩
  have htakes : wideOutput.Takes grayPair := ⟨rfl, rfl, by decide, by decide, by decide⟩
  obtain ⟨samples, lightLevel, hrender, -⟩ := @Renderable.render_ok _ _ wideOutput 1 .never _
    hrenderable (by decide +kernel) (by decide +kernel) htakes (fun _ _ => rfl) rfl
    (by decide +kernel)
  have hsame := render_tripled (g := { oneGain with image := some grayPair }) rfl htriples
    (by decide) rfl grayPair 1 .never wideOutput
  exact ⟨htriples, rfl, lightLevel, _, hrender, hsame.trans hrender⟩

end GainMapOf

end DualRendition
