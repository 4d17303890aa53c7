import DualRendition.Proofs.GainMap.Closure
import DualRendition.Proofs.GainMap.Pointwise
import DualRendition.Proofs.GainMap.Validity

/-!
# The two directions of a gain map

A gain map leads from its base to its alternate rendition, and once it is swapped it leads back. Its
samples stay, so they have to be read in the same primaries as before, which are now those of the
other side: `GainMapOf.swap_keeps_gamut`, which says besides that swapping back gives the old gain
map.

A gain map for the way back can also be measured. With everything in the settings that belongs to
one rendition moved to the other (`MeasureSettings.mirror`), the result is described as the swapped
gain map is: `GainMapOf.mirror_describes_swap`. Only the gains and their range are new.

Structure: the plan of the mirrored measurement is the mirrored plan (`GainMapOf.plan_mirror`), so
its light is the same with the roles exchanged (`GainMapOf.lights_mirror`). Records that agree but
for the range still do after they are swapped or turned into fractions.
-/

namespace DualRendition

/-! ## Roles -/

namespace MeasureSettings

/-- The settings for the other direction: what belongs to one rendition now belongs to the other. -/
def mirror (s : MeasureSettings) : MeasureSettings :=
  { s with
    baseOffset := s.alternateOffset
    alternateOffset := s.baseOffset
    baseHeadroom := s.alternateHeadroom
    alternateHeadroom := s.baseHeadroom
    useBaseColorSpace := !s.useBaseColorSpace }

theorem gamut_mirror (s : MeasureSettings) (base alternate : Rendition) :
    s.mirror.gamut alternate base = s.gamut base alternate := by
  unfold gamut mirror
  cases s.useBaseColorSpace with
  | false => rfl
  | true => rfl

/-- The role of a rendition is named in failures only. -/
theorem headroom_of_role {configured : Option Float} {r : Rendition} {role : String} {h : Float}
    (hok : headroom configured r role = .ok h) (role' : String) :
    headroom configured r role' = .ok h := by
  unfold headroom at hok ⊢
  cases configured with
  | none => exact hok
  | some value =>
    obtain ⟨hlegal, hvalue⟩ := Outcome.guard_eq_ok.mp hok
    exact Outcome.guard_eq_ok.mpr ⟨hlegal, hvalue⟩

end MeasureSettings

namespace LightTable

theorem ofRendition_of_role {r : Rendition} {target : Gamut} {role : String} {t : LightTable}
    (h : ofRendition r target role = .ok t) (role' : String) :
    ofRendition r target role' = .ok t := by
  unfold ofRendition at h ⊢
  obtain ⟨hcheck, htable⟩ := Outcome.check_bind_eq_ok.mp h
  exact Outcome.check_bind_eq_ok.mpr
    ⟨checkColorInfo_eq_ok_iff.mpr (checkColorInfo_eq_ok_iff.mp hcheck), htable⟩

/-- The light of a raster is the same after every stop that lets it pass. -/
theorem rasterLight_unique {t : LightTable} {r : Raster} {stop stop' : Stop} {asked asked' : Nat}
    {light light' : Array Float32} (h : t.rasterLight r stop asked = .ok light)
    (h' : t.rasterLight r stop' asked' = .ok light') : light = light' := by
  obtain ⟨-, hrows⟩ := Stop.sweep_eq_ok_iff.mp h
  obtain ⟨-, hrows'⟩ := Stop.sweep_eq_ok_iff.mp h'
  exact Except.ok.inj (hrows.symm.trans hrows')

end LightTable

/-- The plan with the renditions exchanged. -/
def MeasurePlan.mirror (p : MeasurePlan) : MeasurePlan :=
  { p with
    baseHeadroom := p.alternateHeadroom
    alternateHeadroom := p.baseHeadroom
    baseTable := p.alternateTable
    alternateTable := p.baseTable }

/-- The primaries in which a plan takes the gains: both renditions are decoded to them. -/
structure MeasurePlan.WorksIn (p : MeasurePlan) (base alternate : Rendition) (gamut : Gamut) :
    Prop where
  planned : p.gamut = gamut
  baseTable : LightTable.ofRendition base gamut "base" = .ok p.baseTable
  alternateTable : LightTable.ofRendition alternate gamut "alternate" = .ok p.alternateTable

/-- The primaries in which a plan applies the gains: the base is decoded to them, and the output
encoded from them. -/
structure RenderPlan.WorksIn (p : RenderPlan) (base output : Rendition) (gamut : Gamut) : Prop where
  table : LightTable.ofRendition base gamut "base" = .ok p.table
  matrix : p.writer.matrix = gamut.conversion output.primaries

theorem RenderPlan.Settled.worksIn {g : GainMap} {base output : Image} {headroom : Float}
    {plan : RenderPlan} (h : Settled g base headroom output plan) :
    plan.WorksIn base.toRendition output.toRendition (g.mathGamut base.toRendition) := by
  refine ⟨h.table, ?_⟩
  rw [h.writer]

/-! ## Swapping -/

namespace GainMapOf

variable {log2 : Float → Float} {g g' forward mirrored : GainMap} {base alternate : Image}
  {settings : MeasureSettings} {stop stop' : Stop} {plan : MeasurePlan}

theorem PlannedWith.worksIn (h : PlannedWith g base alternate settings plan) :
    plan.WorksIn base.toRendition alternate.toRendition
      (settings.gamut base.toRendition alternate.toRendition) := by
  rw [← h.gamut]
  exact ⟨rfl, h.baseTable, h.alternateTable⟩

/-- A measured gain map is applied in the primaries in which it was measured. -/
theorem Measured.mathGamut_eq (h : Measured g base alternate settings forward) :
    forward.mathGamut base.toRendition =
      settings.gamut base.toRendition alternate.toRendition := by
  unfold mathGamut MeasureSettings.gamut
  rw [h.colorSpace, h.alternate]

/-- The side that names the primaries changes together with the sides. -/
theorem mathGamut_swap (g : GainMap) (base : Image) (alternate : Rendition) :
    (g.swap base).mathGamut alternate =
      if g.metadata.useBaseColorSpace then base.primaries else alternate.primaries := by
  show (if (!g.metadata.useBaseColorSpace) = true then _ else _) = _
  cases g.metadata.useBaseColorSpace with
  | false => rfl
  | true => rfl

theorem swap_swap (h : g.alternate = alternate.toRendition) (base : Image) :
    (g.swap base).swap alternate = g := by
  unfold swap
  rw [GainParameters.swap_swap, ← h]

/-- **Swapping keeps the primaries of the gains and can be undone.** Let a gain map lead to the
rendition of an image. Swapped, it is applied to that image in the primaries in which it was applied
to the base, and in which it was measured if it was. It is valid, and has a single channel, exactly
when it was and had before. Its samples stay, and swapping it once more restores it. -/
theorem swap_keeps_gamut (halternate : g.alternate = alternate.toRendition) (base : Image) :
    (g.swap base).mathGamut alternate.toRendition = g.mathGamut base.toRendition ∧
    (∀ headroom output plan, RenderPlan.make base g headroom output = .ok plan →
      plan.WorksIn base.toRendition output.toRendition (g.mathGamut base.toRendition)) ∧
    (∀ headroom output plan, RenderPlan.make alternate (g.swap base) headroom output = .ok plan →
      plan.WorksIn alternate.toRendition output.toRendition (g.mathGamut base.toRendition)) ∧
    (∀ log2 target settings stop,
      (measure log2 base alternate settings stop).apply target = (.ok (), g) →
      ∃ plan, target.plan base alternate settings = .ok plan ∧
        plan.WorksIn base.toRendition alternate.toRendition (g.mathGamut base.toRendition)) ∧
    ((g.swap base).metadata.validate = .ok () ↔ g.metadata.validate = .ok ()) ∧
    (g.swap base).metadata.isSingleChannel = g.metadata.isSingleChannel ∧
    (g.swap base).image = g.image ∧
    (g.swap base).swap alternate = g := by
  have hgamut : (g.swap base).mathGamut alternate.toRendition = g.mathGamut base.toRendition := by
    rw [mathGamut_swap]
    unfold mathGamut
    rw [halternate]
  refine ⟨hgamut, ?_, ?_, ?_, Metadata.validate_swap_iff, g.metadata.isSingleChannel_swap_eq, rfl,
    swap_swap halternate base⟩
  · intro headroom output plan hplan
    exact (RenderPlan.make_eq_ok hplan).worksIn
  · intro headroom output plan hplan
    rw [← hgamut]
    exact (RenderPlan.make_eq_ok hplan).worksIn
  · intro log2 target settings stop h
    have hmeasured := measure_eq_ok h
    obtain ⟨plan, -, -, -, hplan, -⟩ := measured_eq_ok_iff.mp hmeasured
    refine ⟨plan, hplan, ?_⟩
    rw [(measured_eq_ok hmeasured).mathGamut_eq]
    exact (plan_eq_ok_iff.mp hplan).worksIn

/-- Two pixels in other primaries. -/
def widePair : Image :=
  .ofRaster ⟨⟨8, .rgb, .displayP3, .pq, .unknown⟩, 2, 1, #[0, 0, 0, 255, 255, 255]⟩

/-- The gain of `oneGain`, leading to other primaries. -/
def wideGain : GainMap := { oneGain with alternate := widePair.toRendition }

theorem wideGain_swap :
    (wideGain.swap grayPair).mathGamut widePair.toRendition = .bt709 ∧
    (∃ plan, RenderPlan.make widePair (wideGain.swap grayPair) 0 wideOutput = .ok plan ∧
      plan.WorksIn widePair.toRendition wideOutput.toRendition .bt709) ∧
    (wideGain.swap grayPair).metadata.validate = .ok () ∧
    (wideGain.swap grayPair).swap widePair = wideGain ∧
    ∃ g plan, (measure knownLog2 linearPixel linearPixel .standard .never).apply
        ⟨some emptyTarget, .unset, .unknown⟩ = (.ok (), g) ∧
      GainMapOf.plan ⟨some emptyTarget, .unset, .unknown⟩ linearPixel linearPixel .standard =
        .ok plan ∧
      plan.WorksIn linearPixel.toRendition linearPixel.toRendition .bt709 := by
  have hwide : wideGain.alternate = widePair.toRendition := rfl
  obtain ⟨hgamut, -, hrender, -, hvalid, -, -, hback⟩ := swap_keeps_gamut hwide grayPair
  have hrenderable : (wideGain.swap grayPair).Renderable widePair :=
    ⟨by decide, by decide, by decide, ⟨_, rfl, by decide, by decide, fun _ => rfl⟩, rfl, by decide⟩
  obtain ⟨plan, hplan, -⟩ := @Renderable.make_ok _ _ wideOutput 0 hrenderable (by decide +kernel)
    (by decide +kernel) ⟨rfl, rfl, by decide, by decide, by decide⟩
  refine ⟨hgamut, ⟨plan, hplan, hrender _ _ _ hplan⟩, hvalid.mpr rfl, hback, ?_⟩
  obtain ⟨⟨⟩, g, hmeasure⟩ := @Edit.exists_apply_of_isOk _ _
    (measure knownLog2 linearPixel linearPixel .standard .never)
    ⟨some emptyTarget, .unset, .unknown⟩ (by decide +kernel)
  have hmeasured := measured_eq_ok (measure_eq_ok hmeasure)
  obtain ⟨-, -, -, hmeasuring, -⟩ := swap_keeps_gamut hmeasured.alternate linearPixel
  obtain ⟨measurePlan, hmeasurePlan, hworks⟩ := hmeasuring _ _ _ _ hmeasure
  rw [hmeasured.mathGamut_eq] at hworks
  exact ⟨g, measurePlan, hmeasure, hmeasurePlan, hworks⟩

end GainMapOf

/-! ## Records that agree but for the range -/

section Records

variable {S U S' U' : Type} {signed : S → Outcome S'} {unsigned : U → Outcome U'}

/-- The channels agree, but for the range of the gains. -/
structure ChannelParameters.SameButRange (c c' : ChannelParameters S U) : Prop where
  gamma : c'.gamma = c.gamma
  baseOffset : c'.baseOffset = c.baseOffset
  alternateOffset : c'.alternateOffset = c.alternateOffset

/-- The records agree, but for the ranges of the gains. -/
structure GainParameters.SameButRange (p p' : GainParameters S U) : Prop where
  backward : p'.backward = p.backward
  useBaseColorSpace : p'.useBaseColorSpace = p.useBaseColorSpace
  baseHeadroom : p'.baseHeadroom = p.baseHeadroom
  alternateHeadroom : p'.alternateHeadroom = p.alternateHeadroom
  channels : ∀ i, (p.channels.get i).SameButRange (p'.channels.get i)

/-- What swapped records are converted to is swapped as well. -/
theorem GainParameters.ConvertsTo.swap {p : GainParameters S U} {q : GainParameters S' U'}
    (h : p.ConvertsTo signed unsigned q) : p.swap.ConvertsTo signed unsigned q.swap := by
  refine ⟨congrArg not h.backward, congrArg not h.useBaseColorSpace, h.alternateHeadroom,
    h.baseHeadroom, ?_⟩
  intro i
  have hchannel := h.channels i
  unfold GainParameters.swap
  rw [Rgb.get_map, Rgb.get_map]
  exact ⟨hchannel.alternateOffset, hchannel.baseOffset, hchannel.gamma, hchannel.min,
    hchannel.max⟩

/-- Equal fields are converted to equal fields. -/
theorem GainParameters.SameButRange.convert {p p' : GainParameters S U}
    {q q' : GainParameters S' U'} (h : p.SameButRange p') (hp : p.ConvertsTo signed unsigned q)
    (hp' : p'.ConvertsTo signed unsigned q') : q.SameButRange q' := by
  -- a conversion that succeeds has one result
  have hsame : ∀ {α β : Type} {f : α → Outcome β} {a a' : α} {b b' : β},
      a' = a → f a = .ok b → f a' = .ok b' → b' = b := by
    intro α β f a a' b b' heq hb hb'
    rw [heq] at hb'
    exact Except.ok.inj (hb'.symm.trans hb)
  refine ⟨?_, ?_, hsame h.baseHeadroom hp.baseHeadroom hp'.baseHeadroom,
    hsame h.alternateHeadroom hp.alternateHeadroom hp'.alternateHeadroom, ?_⟩
  · rw [hp'.backward, h.backward, hp.backward]
  · rw [hp'.useBaseColorSpace, h.useBaseColorSpace, hp.useBaseColorSpace]
  · intro i
    have hchannel := h.channels i
    exact ⟨hsame hchannel.gamma (hp.channels i).gamma (hp'.channels i).gamma,
      hsame hchannel.baseOffset (hp.channels i).baseOffset (hp'.channels i).baseOffset,
      hsame hchannel.alternateOffset (hp.channels i).alternateOffset
        (hp'.channels i).alternateOffset⟩

end Records

/-! ## Measuring in the other direction -/

namespace GainMapOf

variable {log2 : Float → Float} {g g' forward mirrored : GainMap} {base alternate : Image}
  {settings : MeasureSettings} {stop stop' : Stop} {plan : MeasurePlan}

/-- Measuring in the other direction is planned with the renditions exchanged. -/
theorem plan_mirror (himage : g'.image = g.image)
    (hplan : g.plan base alternate settings = .ok plan) :
    g'.plan alternate base settings.mirror = .ok plan.mirror := by
  have h := plan_eq_ok_iff.mp hplan
  exact plan_eq_ok_iff.mpr {
    basePixels := h.alternatePixels
    alternatePixels := h.basePixels
    width := h.width.symm
    height := h.height.symm
    target := himage.trans h.target
    layout := h.layout
    baseColors := h.alternateColors
    alternateColors := h.baseColors
    baseHeadroom := MeasureSettings.headroom_of_role h.alternateHeadroom _
    alternateHeadroom := MeasureSettings.headroom_of_role h.baseHeadroom _
    gamut := h.gamut.trans (settings.gamut_mirror _ _).symm
    baseTable := LightTable.ofRendition_of_role h.alternateTable _
    alternateTable := LightTable.ofRendition_of_role h.baseTable _ }

/-- Both directions see the same light, with the roles exchanged. -/
theorem lights_mirror {baseLight alternateLight : Array Float32}
    {light : Array Float32 × Array Float32} (hplanned : Planned g base alternate plan)
    (h : lights plan base alternate stop = .ok (baseLight, alternateLight))
    (h' : lights plan.mirror alternate base stop' = .ok light) :
    light = (alternateLight, baseLight) := by
  obtain ⟨base₁, hbase, h⟩ := Outcome.bind_eq_ok.mp h
  obtain ⟨alternate₁, halternate, h⟩ := Outcome.bind_eq_ok.mp h
  obtain ⟨alternate₂, halternate', h'⟩ := Outcome.bind_eq_ok.mp h'
  obtain ⟨base₂, hbase', h'⟩ := Outcome.bind_eq_ok.mp h'
  -- each rendition is decoded in both runs, once as base and once as alternate
  obtain rfl := LightTable.rasterLight_unique hbase hbase'
  obtain rfl := LightTable.rasterLight_unique halternate halternate'
  obtain ⟨rfl, rfl⟩ := Prod.mk.inj (Outcome.pure_eq_ok.mp h)
  obtain rfl := Outcome.pure_eq_ok.mp h'
  rw [hplanned.width, hplanned.height]
  rfl

theorem exists_lights_of_gains {gains : Array (Rgb Float)}
    (h : GainMapOf.gains log2 plan base alternate settings stop = .ok gains) :
    ∃ light, lights plan base alternate stop = .ok light := by
  obtain ⟨light, hlights, -⟩ := Outcome.bind_eq_ok.mp h
  exact ⟨light, hlights⟩

/-- The directions of the two measurements are opposite when the headrooms differ. -/
theorem backward_mirror
    (h : plan.baseHeadroom < plan.alternateHeadroom ∧ ¬plan.alternateHeadroom < plan.baseHeadroom ∨
      plan.alternateHeadroom < plan.baseHeadroom ∧ ¬plan.baseHeadroom < plan.alternateHeadroom) :
    plan.mirror.backward = !plan.backward := by
  show decide (plan.baseHeadroom < plan.alternateHeadroom) =
    !decide (plan.alternateHeadroom < plan.baseHeadroom)
  rcases h with ⟨hless, hnot⟩ | ⟨hless, hnot⟩
  · rw [decide_eq_true hless, decide_eq_false hnot]
    rfl
  · rw [decide_eq_false hnot, decide_eq_true hless]
    rfl

/-- The values of the mirrored measurement are the swapped ones, but for the range. -/
theorem measuredValues_mirror (hbackward : plan.mirror.backward = !plan.backward)
    (settings : MeasureSettings) (gains gains' : Array (Rgb Float)) :
    (measuredValues plan settings gains).swap.SameButRange
      (measuredValues plan.mirror settings.mirror gains') := by
  refine ⟨hbackward, rfl, rfl, rfl, ?_⟩
  intro i
  unfold GainParameters.swap
  rw [Rgb.get_map, get_measuredValues, get_measuredValues]
  exact ⟨rfl, rfl, rfl⟩

/-- The gain maps agree in everything but the gains: samples and ranges. -/
structure SameDescription (g g' : GainMap) : Prop where
  metadata : g.metadata.SameButRange g'.metadata
  alternate : g'.alternate = g.alternate
  image : ∃ image samples, g.image = some image ∧ g'.image = some { image with samples }

/-- **Measuring in the mirrored direction gives the swapped description.** Let two measurements of
one target succeed, one from a base to an alternate rendition and one back, with the settings
mirrored. When exactly one of the two headrooms is greater than the other, then the first result,
swapped, and the second agree in everything but the gains. Both work in the same primaries and on
the same light, with the roles exchanged. -/
theorem mirror_describes_swap {baseHeadroom alternateHeadroom : Float}
    (himage : g'.image = g.image)
    (hforward : (measure log2 base alternate settings stop).apply g = (.ok (), forward))
    (hmirrored : (measure log2 alternate base settings.mirror stop').apply g' = (.ok (), mirrored))
    (hbase : MeasureSettings.headroom settings.baseHeadroom base.toRendition "base" =
      .ok baseHeadroom)
    (halternate : MeasureSettings.headroom settings.alternateHeadroom alternate.toRendition
      "alternate" = .ok alternateHeadroom)
    (hone : baseHeadroom < alternateHeadroom ∧ ¬alternateHeadroom < baseHeadroom ∨
      alternateHeadroom < baseHeadroom ∧ ¬baseHeadroom < alternateHeadroom) :
    (forward.swap base).SameDescription mirrored ∧
    ∃ plan gamut baseLight alternateLight,
      g.plan base alternate settings = .ok plan ∧
      g'.plan alternate base settings.mirror = .ok plan.mirror ∧
      plan.WorksIn base.toRendition alternate.toRendition gamut ∧
      plan.mirror.WorksIn alternate.toRendition base.toRendition gamut ∧
      lights plan base alternate stop = .ok (baseLight, alternateLight) ∧
      lights plan.mirror alternate base stop' = .ok (alternateLight, baseLight) := by
  obtain ⟨plan, gains, metadata, -, hplan, hgains, hmetadata, -, rfl⟩ :=
    measured_eq_ok_iff.mp (measure_eq_ok hforward)
  obtain ⟨plan', gains', metadata', -, hplan', hgains', hmetadata', -, rfl⟩ :=
    measured_eq_ok_iff.mp (measure_eq_ok hmirrored)
  -- the second run has no plan but the mirrored one
  obtain rfl : plan' = plan.mirror :=
    Except.ok.inj (hplan'.symm.trans (plan_mirror himage hplan))
  have hplanned := plan_eq_ok_iff.mp hplan
  have hworks := (plan_eq_ok_iff.mp hplan').worksIn
  rw [MeasureSettings.gamut_mirror] at hworks
  obtain rfl : baseHeadroom = plan.baseHeadroom :=
    Except.ok.inj (hbase.symm.trans hplanned.baseHeadroom)
  obtain rfl : alternateHeadroom = plan.alternateHeadroom :=
    Except.ok.inj (halternate.symm.trans hplanned.alternateHeadroom)
  obtain ⟨-, hconverts⟩ := GainValues.convertsTo_of_fractions hmetadata
  obtain ⟨-, hconverts'⟩ := GainValues.convertsTo_of_fractions hmetadata'
  have hvalues := measuredValues_mirror (backward_mirror hone) settings gains gains'
  obtain ⟨⟨baseLight, alternateLight⟩, hlights⟩ := exists_lights_of_gains hgains
  obtain ⟨light, hlights'⟩ := exists_lights_of_gains hgains'
  obtain rfl := lights_mirror hplanned.toPlanned hlights hlights'
  refine ⟨⟨hvalues.convert hconverts.swap hconverts', rfl, ⟨_, _, rfl, rfl⟩⟩, ?_⟩
  exact ⟨plan, _, baseLight, alternateLight, hplan, hplan', hplanned.worksIn, hworks, hlights,
    hlights'⟩

/-- The pixel of `linearPixel` at two bits. -/
def deepPixel : Image :=
  .ofRaster ⟨⟨2, .rgb, .bt709, .linear, .unknown⟩, 1, 1, #[0, 3, 0]⟩

/-- Settings for an alternate rendition with one stop more than the base. -/
def oneStop : MeasureSettings :=
  { MeasureSettings.standard with baseHeadroom := some 0, alternateHeadroom := some 1 }

theorem linearPixel_mirror :
    ∃ forward mirrored,
      (measure knownLog2 linearPixel deepPixel oneStop .never).apply
        ⟨some emptyTarget, .unset, .unknown⟩ = (.ok (), forward) ∧
      (measure knownLog2 deepPixel linearPixel oneStop.mirror .never).apply
        ⟨some emptyTarget, .unset, .unknown⟩ = (.ok (), mirrored) ∧
      (forward.swap linearPixel).SameDescription mirrored := by
  obtain ⟨⟨⟩, forward, hforward⟩ := @Edit.exists_apply_of_isOk _ _
    (measure knownLog2 linearPixel deepPixel oneStop .never) ⟨some emptyTarget, .unset, .unknown⟩
    (by decide +kernel)
  obtain ⟨⟨⟩, mirrored, hmirrored⟩ := @Edit.exists_apply_of_isOk _ _
    (measure knownLog2 deepPixel linearPixel oneStop.mirror .never)
    ⟨some emptyTarget, .unset, .unknown⟩ (by decide +kernel)
  have hlegal : ∀ h : Float, (!h.isFinite || h < 0) = false →
      ∀ r role, MeasureSettings.headroom (some h) r role = .ok h := by
    intro h hfinite r role
    unfold MeasureSettings.headroom
    dsimp only
    rw [hfinite]
    rfl
  obtain ⟨hsame, -⟩ := mirror_describes_swap rfl hforward hmirrored
    (hlegal 0 (by decide +kernel) _ _) (hlegal 1 (by decide +kernel) _ _)
    (.inl ⟨by decide +kernel, by decide +kernel⟩)
  exact ⟨forward, mirrored, hforward, hmirrored, hsame⟩

end GainMapOf

end DualRendition
