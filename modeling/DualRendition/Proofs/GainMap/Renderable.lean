import DualRendition.GainMap.Render
import DualRendition.Proofs.Metadata

/-!
# The checks of a rendering

Rendering checks its inputs before it touches the output, and what it checks splits into two parts
that do not know of each other: `GainMapOf.Renderable` is about the gain map and its base,
`Image.Takes` about the output. With both and a headroom that is finite and not negative, all checks
pass: `GainMapOf.Renderable.make_ok`.
-/

namespace DualRendition

/-- A float that is not below zero in one direction of the comparison is not below zero in the
other. -/
theorem not_lt_zero_of_nonneg {x : Float} (h : 0 ≤ x) : ¬x < 0 := by
  have hzero : (0 : Float).toModel.unpack = .zero .positive := by rfl
  have hle : Float.Model.UnpackedFloat.le (0 : Float).toModel.unpack x.toModel.unpack = true :=
    of_decide_eq_true h
  intro hx
  have hlt : Float.Model.UnpackedFloat.lt x.toModel.unpack (0 : Float).toModel.unpack = true :=
    of_decide_eq_true hx
  rw [hzero] at hle hlt
  -- beside a zero only the kind and the sign of the other number count
  generalize x.toModel.unpack = u at hle hlt
  cases u with
  | notANumber => cases hle
  | infinity sign =>
    cases sign with
    | negative => cases hle
    | positive => cases hlt
  | zero sign => cases sign <;> cases hlt
  | finite sign mantissa exponent hpos =>
    cases sign with
    | negative => cases hle
    | positive => cases hlt

theorem checkColorInfo_eq_ok_iff {r : Rendition} {role : String} :
    checkColorInfo r role = .ok () ↔ r.transfer ≠ .unspecified ∧ r.primaries ≠ .unspecified := by
  unfold checkColorInfo
  dsimp only
  simp only [Outcome.throw_eq, Outcome.error_bind, Outcome.pure_eq, Outcome.guard_eq_ok, and_true,
    ne_eq]

theorem LightTable.ofRendition_ok {r : Rendition} {role : String} (target : Gamut)
    (htransfer : r.transfer ≠ .unspecified) (hprimaries : r.primaries ≠ .unspecified) :
    ∃ table, ofRendition r target role = .ok table := by
  unfold ofRendition
  rw [checkColorInfo_eq_ok_iff.mpr ⟨htransfer, hprimaries⟩]
  exact ⟨_, rfl⟩

theorem SignalWriter.ofRendition_ok {r : Rendition} (source : Gamut)
    (htransfer : r.transfer ≠ .unspecified) (hprimaries : r.primaries ≠ .unspecified) :
    ∃ writer, ofRendition source r = .ok writer := by
  unfold ofRendition
  rw [checkColorInfo_eq_ok_iff.mpr ⟨htransfer, hprimaries⟩]
  exact ⟨_, rfl⟩

/-- An output that can take the rendition of a base: as large, not gray, and with specified
colours. -/
structure Image.Takes (output base : Image) : Prop where
  width : output.width = base.width
  height : output.height = base.height
  layout : output.layout ≠ .gray
  transfer : output.transfer ≠ .unspecified
  primaries : output.primaries ≠ .unspecified

namespace GainMapOf

/-- A gain map that the base can be rendered with. -/
structure Renderable (g : GainMap) (base : Image) : Prop where
  basePixels : base.hasPixels = true
  baseTransfer : base.transfer ≠ .unspecified
  basePrimaries : base.primaries ≠ .unspecified
  /-- The stored gains are there, and the metadata fits their layout. -/
  map : ∃ map, g.image = some map ∧ map.hasPixels = true ∧ map.layout ≠ .rgba ∧
    (map.layout = .gray → g.metadata.isSingleChannel = true)
  metadata : g.metadata.validate = .ok ()
  gamut : g.mathGamut base.toRendition ≠ .unspecified

variable {g : GainMap} {base output : Image} {headroom : Float}

/-- All checks of the inputs pass. -/
theorem Renderable.make_ok (h : g.Renderable base) (hfinite : headroom.isFinite = true)
    (hheadroom : ¬headroom < 0) (hout : output.Takes base) :
    ∃ plan, RenderPlan.make base g headroom output = .ok plan ∧ plan.base = base.toRaster := by
  obtain ⟨map, himage, hmap, hlayout, hsingle⟩ := h.map
  obtain ⟨values, hvalues⟩ := Metadata.values_ok (Metadata.validate_eq_ok_iff_usable.mp h.metadata)
  obtain ⟨table, htable⟩ := @LightTable.ofRendition_ok _ "base" (g.mathGamut base.toRendition)
    h.baseTransfer h.basePrimaries
  obtain ⟨writer, hwriter⟩ := SignalWriter.ofRendition_ok (g.mathGamut base.toRendition)
    hout.transfer hout.primaries
  have hmapImage : RenderPlan.mapImage g = .ok map := by
    unfold RenderPlan.mapImage
    rw [himage]
    exact if_pos hmap
  have hcheckLayout : RenderPlan.checkLayout map.layout g.metadata = .ok () := by
    unfold RenderPlan.checkLayout
    cases hkind : map.layout with
    | gray => exact if_pos (hsingle hkind)
    | rgb => rfl
    | rgba => exact absurd hkind hlayout
  have hnotNegative : ¬(!headroom.isFinite || decide (headroom < 0)) = true := by
    rw [hfinite, decide_eq_false hheadroom]
    exact Bool.false_ne_true
  have hpixels : ¬(!base.hasPixels) = true := by
    rw [h.basePixels]
    exact Bool.false_ne_true
  have hsize : ¬(output.width ≠ base.width ∨ output.height ≠ base.height) := by
    rw [hout.width, hout.height]
    simp
  -- the checks, in the order in which they are made
  unfold RenderPlan.make
  dsimp only
  rw [if_neg hnotNegative, if_neg hpixels, hmapImage, Outcome.ok_bind, hvalues, Outcome.ok_bind,
    hcheckLayout, Outcome.ok_bind, if_neg hsize, if_neg hout.layout, if_neg h.gamut, htable,
    Outcome.ok_bind, hwriter]
  exact ⟨_, rfl, rfl⟩

/-- Only a complete rendition is stored, and a failure leaves the output as it was. -/
theorem render_apply_eq (g : GainMap) (base : Image) (headroom : Float) (stop : Stop)
    (output : Image) :
    (g.render base headroom stop).apply output =
      Edit.commit (g.rendered base headroom output stop) (·.2)
        (fun result => { output with samples := result.1, lightLevel := result.2 }) output := by
  unfold render
  rw [Edit.apply_bind, Edit.apply_get]
  dsimp only
  rw [Edit.apply_bind, Edit.apply_ofOutcome]
  cases g.rendered base headroom output stop <;> rfl

end GainMapOf

end DualRendition
