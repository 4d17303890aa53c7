import DualRendition.Proofs.GainMap.Measured

/-!
# The checks before the first row

Measuring and rendering look at all of their inputs before the first row, and what they ask is said
here without the order in which they ask it: `GainMapOf.Measurable` for measuring, and for rendering
`RenderPlan.Possible`, which is about headroom, gain map and output. The checks pass exactly then
(`GainMapOf.exists_plan_iff`, `RenderPlan.exists_make_iff`), and otherwise they blame a parameter.
-/

namespace DualRendition

open Outcome (FailsAs)

theorem checkColorInfo_failsAs (r : Rendition) (role : String) :
    FailsAs .invalidParameter (checkColorInfo r role) := by
  unfold checkColorInfo
  dsimp only
  simp only [Outcome.throw_eq, Outcome.error_bind]
  exact .ite (.error rfl) (.ite (.error rfl) (.ok _))

theorem LightTable.ofRendition_failsAs (r : Rendition) (target : Gamut) (role : String) :
    FailsAs .invalidParameter (LightTable.ofRendition r target role) :=
  .bind (checkColorInfo_failsAs r role) fun _ => .ok _

theorem SignalWriter.ofRendition_failsAs (source : Gamut) (r : Rendition) :
    FailsAs .invalidParameter (SignalWriter.ofRendition source r) :=
  .bind (checkColorInfo_failsAs r "output") fun _ => .ok _

/-- A writer for an image is made only when its colours are specified. -/
theorem SignalWriter.specified_of_eq_ok {source : Gamut} {r : Rendition} {writer : SignalWriter}
    (h : ofRendition source r = .ok writer) :
    r.transfer ≠ .unspecified ∧ r.primaries ≠ .unspecified := by
  unfold ofRendition at h
  obtain ⟨hcheck, -⟩ := Outcome.check_bind_eq_ok.mp h
  exact checkColorInfo_eq_ok_iff.mp hcheck

/-! ## Measuring -/

namespace MeasureSettings

/-- A headroom that is configured is finite and not negative. -/
def HeadroomLegal (configured : Option Float) : Prop :=
  ∀ h, configured = some h → h.isFinite = true ∧ ¬h < 0

theorem exists_headroom_iff {configured : Option Float} (r : Rendition) (role : String) :
    (∃ h, headroom configured r role = .ok h) ↔ HeadroomLegal configured := by
  unfold headroom HeadroomLegal
  cases configured with
  | none => exact ⟨fun _ h hnone => (nomatch hnone), fun _ => ⟨_, rfl⟩⟩
  | some h =>
    dsimp only
    simp only [Outcome.guard_eq_ok, Bool.or_eq_true, not_or, Bool.not_eq_true', Bool.not_eq_false,
      decide_eq_true_eq]
    constructor
    · intro hok h' hh'
      obtain rfl := Option.some.inj hh'
      obtain ⟨-, hlegal, -⟩ := hok
      exact hlegal
    · intro hlegal
      exact ⟨h, hlegal h rfl, rfl⟩

theorem headroom_failsAs (configured : Option Float) (r : Rendition) (role : String) :
    FailsAs .invalidParameter (headroom configured r role) := by
  unfold headroom
  split
  · exact .ite (.error rfl) (.ok _)
  · exact .ok _

end MeasureSettings

namespace GainMapOf

open MeasureSettings (HeadroomLegal)

/-- A gain map can be measured from these renditions. -/
structure Measurable (g : GainMap) (base alternate : Image) (settings : MeasureSettings) :
    Prop where
  basePixels : base.hasPixels = true
  alternatePixels : alternate.hasPixels = true
  width : base.width = alternate.width
  height : base.height = alternate.height
  /-- There is an image to write, and it has no alpha. -/
  target : ∃ target, g.image = some target ∧ target.layout ≠ .rgba
  baseHeadroom : HeadroomLegal settings.baseHeadroom
  alternateHeadroom : HeadroomLegal settings.alternateHeadroom
  baseColors : base.transfer ≠ .unspecified ∧ base.primaries ≠ .unspecified
  alternateColors : alternate.transfer ≠ .unspecified ∧ alternate.primaries ≠ .unspecified

variable {g : GainMap} {base alternate : Image} {settings : MeasureSettings}

theorem plan_failsAs (g : GainMap) (base alternate : Image) (settings : MeasureSettings) :
    FailsAs .invalidParameter (g.plan base alternate settings) := by
  unfold GainMapOf.plan
  dsimp only
  simp only [Outcome.throw_eq, Outcome.error_bind]
  refine .ite (.error rfl) (.ite (.error rfl) ?_)
  split
  next target _ =>
    refine .ite (.error rfl) ?_
    exact .bind (MeasureSettings.headroom_failsAs _ _ _) fun _ =>
      .bind (MeasureSettings.headroom_failsAs _ _ _) fun _ =>
        .bind (LightTable.ofRendition_failsAs _ _ _) fun _ =>
          .bind (LightTable.ofRendition_failsAs _ _ _) fun _ => .ok _
  next => exact .error rfl

/-- The checks of a measurement pass exactly when the gain map can be measured. -/
theorem exists_plan_iff :
    (∃ plan, g.plan base alternate settings = .ok plan) ↔
      Measurable g base alternate settings := by
  constructor
  · intro h
    obtain ⟨plan, hplan⟩ := h
    have hplanned := plan_eq_ok_iff.mp hplan
    exact {
      basePixels := hplanned.basePixels
      alternatePixels := hplanned.alternatePixels
      width := hplanned.width.symm
      height := hplanned.height.symm
      target := ⟨plan.target, hplanned.target, hplanned.layout⟩
      baseHeadroom := (MeasureSettings.exists_headroom_iff _ _).mp ⟨_, hplanned.baseHeadroom⟩
      alternateHeadroom :=
        (MeasureSettings.exists_headroom_iff _ _).mp ⟨_, hplanned.alternateHeadroom⟩
      baseColors := hplanned.baseColors
      alternateColors := hplanned.alternateColors }
  · intro h
    obtain ⟨target, htarget, hlayout⟩ := h.target
    obtain ⟨baseHeadroom, hbase⟩ :=
      (MeasureSettings.exists_headroom_iff base.toRendition "base").mpr h.baseHeadroom
    obtain ⟨alternateHeadroom, halternate⟩ :=
      (MeasureSettings.exists_headroom_iff alternate.toRendition "alternate").mpr
        h.alternateHeadroom
    let gamut := settings.gamut base.toRendition alternate.toRendition
    obtain ⟨baseTable, hbaseTable⟩ := @LightTable.ofRendition_ok _ "base" gamut h.baseColors.1
      h.baseColors.2
    obtain ⟨alternateTable, halternateTable⟩ := @LightTable.ofRendition_ok _ "alternate" gamut
      h.alternateColors.1 h.alternateColors.2
    refine ⟨⟨target, baseHeadroom, alternateHeadroom, gamut, baseTable, alternateTable⟩, ?_⟩
    exact plan_eq_ok_iff.mpr {
      basePixels := h.basePixels
      alternatePixels := h.alternatePixels
      width := h.width.symm
      height := h.height.symm
      target := htarget
      layout := hlayout
      baseColors := h.baseColors
      alternateColors := h.alternateColors
      baseHeadroom := hbase
      alternateHeadroom := halternate
      gamut := rfl
      baseTable := hbaseTable
      alternateTable := halternateTable }

end GainMapOf

/-! ## Rendering -/

namespace RenderPlan

/-- The base can be rendered into the output with the gain map, for a display of this headroom. -/
structure Possible (g : GainMap) (base : Image) (headroom : Float) (output : Image) : Prop where
  headroom : headroom.isFinite = true ∧ ¬headroom < 0
  renderable : g.Renderable base
  takes : output.Takes base

variable {g : GainMap} {base output : Image} {headroom : Float}

theorem mapImage_failsAs (g : GainMap) : FailsAs .invalidParameter (mapImage g) := by
  unfold mapImage
  split
  · exact .ite (.ok _) (.error rfl)
  · exact .error rfl

theorem checkLayout_failsAs (layout : Layout) (metadata : Metadata) :
    FailsAs .invalidParameter (checkLayout layout metadata) := by
  unfold checkLayout
  split
  · exact .ite (.ok _) (.error rfl)
  · exact .ok _
  · exact .error rfl

theorem make_failsAs (base : Image) (g : GainMap) (headroom : Float) (output : Image) :
    FailsAs .invalidParameter (make base g headroom output) := by
  unfold make
  dsimp only
  simp only [Outcome.throw_eq, Outcome.error_bind]
  refine .ite (.error rfl) (.ite (.error rfl) ?_)
  refine .bind (mapImage_failsAs g) fun map => .bind g.metadata.values_failsAs fun _ =>
    .bind (checkLayout_failsAs map.layout g.metadata) fun _ => ?_
  refine .ite (.error rfl) (.ite (.error rfl) (.ite (.error rfl) ?_))
  exact .bind (LightTable.ofRendition_failsAs _ _ _) fun _ =>
    .bind (SignalWriter.ofRendition_failsAs _ _) fun _ => .ok _

theorem mapImage_eq_ok_iff {map : Image} :
    mapImage g = .ok map ↔ g.image = some map ∧ map.hasPixels = true := by
  unfold mapImage
  cases g.image with
  | none => exact ⟨fun h => (nomatch h), fun h => (nomatch h.1)⟩
  | some image =>
    dsimp only
    constructor
    · intro h
      split at h
      next hpixels =>
        cases h
        exact ⟨rfl, hpixels⟩
      next => cases h
    · intro h
      obtain ⟨rfl, hpixels⟩ : image = map ∧ map.hasPixels = true := ⟨Option.some.inj h.1, h.2⟩
      exact if_pos hpixels

theorem checkLayout_eq_ok_iff {layout : Layout} {metadata : Metadata} :
    checkLayout layout metadata = .ok () ↔
      layout ≠ .rgba ∧ (layout = .gray → metadata.isSingleChannel = true) := by
  unfold checkLayout
  cases layout with
  | gray => cases metadata.isSingleChannel <;> simp
  | rgb => simp
  | rgba => simp

/-- The checks of a rendering pass exactly when it is possible. -/
theorem exists_make_iff :
    (∃ plan, make base g headroom output = .ok plan) ↔ Possible g base headroom output := by
  constructor
  · intro h
    obtain ⟨plan, h⟩ := h
    unfold make at h
    dsimp only at h
    simp only [Outcome.throw_eq, Outcome.error_bind, Outcome.guard_eq_ok] at h
    obtain ⟨hheadroom, hpixels, h⟩ := h
    obtain ⟨map, hmap, h⟩ := Outcome.bind_eq_ok.mp h
    obtain ⟨values, hvalues, h⟩ := Outcome.bind_eq_ok.mp h
    obtain ⟨hcheckLayout, h⟩ := Outcome.check_bind_eq_ok.mp h
    simp only [Outcome.guard_eq_ok] at h
    obtain ⟨hsize, hlayout, hgamut, h⟩ := h
    obtain ⟨table, htable, h⟩ := Outcome.bind_eq_ok.mp h
    obtain ⟨writer, hwriter, -⟩ := Outcome.bind_eq_ok.mp h
    rw [Bool.or_eq_true, not_or, Bool.not_eq_true', Bool.not_eq_false, decide_eq_true_eq]
      at hheadroom
    rw [Bool.not_eq_true', Bool.not_eq_false] at hpixels
    rw [not_or, Decidable.not_not, Decidable.not_not] at hsize
    obtain ⟨hvalid, -⟩ := Outcome.check_bind_eq_ok.mp hvalues
    obtain ⟨himage, hmapPixels⟩ := mapImage_eq_ok_iff.mp hmap
    obtain ⟨hmapLayout, hsingle⟩ := checkLayout_eq_ok_iff.mp hcheckLayout
    obtain ⟨hbaseTransfer, hbasePrimaries⟩ := GainMapOf.specified_of_lightTable htable
    obtain ⟨htransfer, hprimaries⟩ := SignalWriter.specified_of_eq_ok hwriter
    exact ⟨hheadroom, ⟨hpixels, hbaseTransfer, hbasePrimaries,
      ⟨map, himage, hmapPixels, hmapLayout, hsingle⟩, hvalid, hgamut⟩,
      ⟨hsize.1, hsize.2, hlayout, htransfer, hprimaries⟩⟩
  · intro h
    obtain ⟨plan, hplan, -⟩ := h.renderable.make_ok h.headroom.1 h.headroom.2 h.takes
    exact ⟨plan, hplan⟩

end RenderPlan

end DualRendition
