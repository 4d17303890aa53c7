import DualRendition.Proofs.Fraction.ReadBack
import DualRendition.Proofs.GainMap.Closure
import DualRendition.Proofs.GainMap.Pointwise

/-!
# Offsets of measured gains

Before the ratio of two samples is taken, each is lifted by an offset. The offsets are stored as
fractions, and rendering lifts by what these are read as, while measuring lifts by the configured
floats. Where a fraction does not hold such a float, the gains belong to other offsets than the
metadata reports: an offset below half a millionth is stored as zero (`faintOffset_lost`).

`GainMapOf.GainsReported` says of a gain map that it was measured with the offsets that it reports.
`GainMapOf.measured_reported_iff` proves this exactly for the offsets that are read back as the
numbers they were. Any offset that was read from metadata is one of them.

Structure: ratios depend on the offsets as numbers, so the two zeros are one offset
(`liftedRatio_congr`), and everything that is measured does (`GainMapOf.measured_withOffsets`). What
is stored follows from the two conversions (`GainMapOf.reread_offsets`).
-/

namespace DualRendition

/-! ## Ratios -/

section Ratios

open Float.Model

/-- A zero as the second term of a sum makes a difference to the sign of zero only. -/
theorem sameNumber_add_zero (x : Float) : SameNumber (x + 0.0) (x + -0.0) := by
  show SameNumber
    (.ofModel (.pack (UnpackedFloat.add Format.binary64 x.toModel.unpack (.zero .positive))))
    (.ofModel (.pack (UnpackedFloat.add Format.binary64 x.toModel.unpack (.zero .negative))))
  cases x.toModel.unpack with
  | zero sign =>
    refine .inr ?_
    cases sign <;> decide +kernel
  | infinity sign => exact .refl _
  | notANumber => exact .refl _
  | finite sign significand exponent h => exact .refl _

end Ratios

theorem SameNumber.symm {a b : Float} (h : SameNumber a b) : SameNumber b a :=
  h.imp Eq.symm And.symm

/-- Terms that are one number give sums that are. -/
theorem SameNumber.add {offset offset' : Float} (h : SameNumber offset offset') (x : Float) :
    SameNumber (x + offset) (x + offset') := by
  rcases h with rfl | ⟨rfl | rfl, rfl | rfl⟩
  · exact .refl _
  · exact .refl _
  · exact sameNumber_add_zero x
  · exact (sameNumber_add_zero x).symm
  · exact .refl _

/-- The ratio of two samples that are lifted by offsets. -/
def liftedRatio (baseOffset alternateOffset : Float) (base alternate : Float32) : Float :=
  larger (widen alternate + alternateOffset) minRatioTerm /
    larger (widen base + baseOffset) minRatioTerm

/-- Offsets that are one number give one ratio. -/
theorem liftedRatio_congr {baseOffset baseOffset' alternateOffset alternateOffset' : Float}
    (hbase : SameNumber baseOffset baseOffset')
    (halternate : SameNumber alternateOffset alternateOffset') (base alternate : Float32) :
    liftedRatio baseOffset alternateOffset base alternate =
      liftedRatio baseOffset' alternateOffset' base alternate := by
  -- both zeros are below the least term
  have hterm : ∀ {sum sum' : Float}, SameNumber sum sum' →
      larger sum minRatioTerm = larger sum' minRatioTerm := by
    intro sum sum' h
    exact @SameNumber.congr _ (larger · minRatioTerm) _ _ h (by decide +kernel)
  unfold liftedRatio
  rw [hterm (hbase.add _), hterm (halternate.add _)]

section Gains

variable (log2 : Float → Float)

/-- The gain of a sample, by the offsets of a channel. -/
def ChannelParameters.gain (c : ChannelParameters Float Float) (backward : Bool)
    (base alternate : Float32) : Float :=
  (if backward then -1 else 1) * log2 (liftedRatio c.baseOffset c.alternateOffset base alternate)

/-- The gains of a pixel, by the offsets of every channel. Those of a gray map are gains of the
luminances. -/
def GainValues.pixelGain (v : GainValues) (layout : Layout) (luma base alternate : Rgb Float32) :
    Rgb Float :=
  .ofFn fun c =>
    match layout with
    | .gray =>
      (v.channels.get c).gain log2 v.backward (Matrix.dot luma base) (Matrix.dot luma alternate)
    | .rgb | .rgba => (v.channels.get c).gain log2 v.backward (base.get c) (alternate.get c)

end Gains

/-! ## Settings with other offsets -/

namespace MeasureSettings

/-- The settings with other offsets. -/
def withOffsets (s : MeasureSettings) (baseOffset alternateOffset : Float) : MeasureSettings :=
  { s with baseOffset, alternateOffset }

variable {log2 : Float → Float} {s : MeasureSettings} {baseOffset alternateOffset : Float}

/-- A gain is the logarithm of the ratio that the configured offsets give. -/
theorem gain_eq (s : MeasureSettings) (backward : Bool) (base alternate : Float32) :
    s.gain log2 backward base alternate = (if backward then -1 else 1) *
      log2 (liftedRatio s.baseOffset s.alternateOffset base alternate) := rfl

theorem gain_withOffsets (hbase : SameNumber s.baseOffset baseOffset)
    (halternate : SameNumber s.alternateOffset alternateOffset) (backward : Bool) :
    (s.withOffsets baseOffset alternateOffset).gain log2 backward = s.gain log2 backward := by
  funext base alternate
  rw [gain_eq, gain_eq, liftedRatio_congr hbase halternate]
  rfl

theorem pixelGain_withOffsets (hbase : SameNumber s.baseOffset baseOffset)
    (halternate : SameNumber s.alternateOffset alternateOffset) (plan : MeasurePlan) :
    (s.withOffsets baseOffset alternateOffset).pixelGain log2 plan = s.pixelGain log2 plan := by
  funext luma base alternate
  unfold pixelGain
  rw [gain_withOffsets hbase halternate]

/-- The configured offsets give the gains that metadata with the same offsets describes. -/
theorem pixelGain_eq {plan : MeasurePlan} {v : GainValues} (hbackward : v.backward = plan.backward)
    (hoffsets : ∀ c, SameNumber s.baseOffset (v.channels.get c).baseOffset ∧
      SameNumber s.alternateOffset (v.channels.get c).alternateOffset)
    (luma base alternate : Rgb Float32) :
    s.pixelGain log2 plan luma base alternate =
      v.pixelGain log2 plan.target.layout luma base alternate := by
  have hgain : ∀ c, (v.channels.get c).gain log2 v.backward = s.gain log2 plan.backward := by
    intro c
    obtain ⟨hbase, halternate⟩ := hoffsets c
    rw [hbackward, ← gain_withOffsets hbase halternate]
    rfl
  unfold GainValues.pixelGain pixelGain
  simp only [hgain]
  cases plan.target.layout with
  | gray => rfl
  | rgb => rfl
  | rgba => rfl

end MeasureSettings

/-- The offsets are stored as numbers, so the zeros are stored alike. -/
theorem GainValues.fractions_congr {v v' : GainValues} (hbackward : v'.backward = v.backward)
    (hcolorSpace : v'.useBaseColorSpace = v.useBaseColorSpace)
    (hbase : v'.baseHeadroom = v.baseHeadroom)
    (halternate : v'.alternateHeadroom = v.alternateHeadroom)
    (hgamma : ∀ c, (v'.channels.get c).gamma = (v.channels.get c).gamma)
    (hchannels : ∀ c, (v'.channels.get c).Alike (v.channels.get c)) :
    v'.fractions = v.fractions := by
  have hred : v'.channels.red.gamma = v.channels.red.gamma := hgamma 0
  have hgreen : v'.channels.green.gamma = v.channels.green.gamma := hgamma 1
  have hblue : v'.channels.blue.gamma = v.channels.blue.gamma := hgamma 2
  have hredAlike : v'.channels.red.Alike v.channels.red := hchannels 0
  have hgreenAlike : v'.channels.green.Alike v.channels.green := hchannels 1
  have hblueAlike : v'.channels.blue.Alike v.channels.blue := hchannels 2
  unfold fractions GainParameters.convert
  rw [hbackward, hcolorSpace, hbase, halternate, hred, hgreen, hblue, hredAlike.convert,
    hgreenAlike.convert, hblueAlike.convert]

/-! ## Measuring -/

namespace GainMapOf

variable {log2 : Float → Float} {g result : GainMap} {base alternate : Image}
  {settings : MeasureSettings} {stop : Stop} {plan : MeasurePlan} {found : Array (Rgb Float)}
  {metadata : Metadata} {stored : GainValues} {baseOffset alternateOffset : Float}

/-- What is measured depends on the offsets as numbers. -/
theorem measured_withOffsets (hbase : SameNumber settings.baseOffset baseOffset)
    (halternate : SameNumber settings.alternateOffset alternateOffset) :
    g.measured log2 base alternate (settings.withOffsets baseOffset alternateOffset) stop =
      g.measured log2 base alternate settings stop := by
  have hplan : g.plan base alternate (settings.withOffsets baseOffset alternateOffset) =
      g.plan base alternate settings := rfl
  have hgains : ∀ plan,
      gains log2 plan base alternate (settings.withOffsets baseOffset alternateOffset) stop =
        gains log2 plan base alternate settings stop := by
    intro plan
    unfold gains
    rw [MeasureSettings.pixelGain_withOffsets hbase halternate]
  have hfractions : ∀ plan found,
      (measuredValues plan (settings.withOffsets baseOffset alternateOffset) found).fractions =
        (measuredValues plan settings found).fractions := by
    intro plan found
    refine GainValues.fractions_congr rfl rfl rfl rfl ?_ ?_
    · intro c
      rw [get_measuredValues, get_measuredValues]
      rfl
    · intro c
      rw [get_measuredValues, get_measuredValues]
      exact ⟨.refl _, .refl _, .refl _, hbase.symm, halternate.symm⟩
  unfold measured
  simp only [hplan, hgains, hfractions]

/-- Every channel reports the offsets that the configured ones are read back as. -/
theorem reread_offsets (hmetadata : (measuredValues plan settings found).fractions = .ok metadata)
    (hstored : metadata.values = .ok stored) :
    stored.backward = plan.backward ∧
    ∀ c, Fraction.reread settings.baseOffset = .ok (stored.channels.get c).baseOffset ∧
      Fraction.reread settings.alternateOffset = .ok (stored.channels.get c).alternateOffset := by
  obtain ⟨-, hwritten⟩ := GainValues.convertsTo_of_fractions hmetadata
  obtain ⟨-, hconvert⟩ := Outcome.check_bind_eq_ok.mp hstored
  have hread := GainParameters.convert_eq_ok_iff.mp hconvert
  refine ⟨hread.backward.trans hwritten.backward, fun c => ?_⟩
  have hchannel := hwritten.channels c
  rw [get_measuredValues] at hchannel
  exact ⟨Fraction.reread_eq_ok_iff.mpr ⟨_, hchannel.baseOffset, (hread.channels c).baseOffset⟩,
    Fraction.reread_eq_ok_iff.mpr
      ⟨_, hchannel.alternateOffset, (hread.channels c).alternateOffset⟩⟩

/-- What is stored is read, with the offsets that the configured ones are read back as. -/
theorem exists_stored
    (hmeasure : (measure log2 base alternate settings stop).apply g = (.ok (), result)) :
    ∃ stored, result.metadata.values = .ok stored ∧
      ∀ c, Fraction.reread settings.baseOffset = .ok (stored.channels.get c).baseOffset ∧
        Fraction.reread settings.alternateOffset = .ok (stored.channels.get c).alternateOffset := by
  obtain ⟨plan, found, metadata, stored, -, -, hmetadata, hstored, rfl⟩ :=
    measured_eq_ok_iff.mp (measure_eq_ok hmeasure)
  exact ⟨stored, hstored, (reread_offsets hmetadata hstored).2⟩

/-- The gain map was measured with the offsets that its metadata is read as. -/
structure GainsReported (log2 : Float → Float) (g : GainMap) (base alternate : Image)
    (settings : MeasureSettings) (stop : Stop) (result : GainMap) (stored : GainValues) :
    Prop where
  values : result.metadata.values = .ok stored
  /-- The samples are lifted by the offsets of every channel. -/
  offsets : ∀ c, SameNumber settings.baseOffset (stored.channels.get c).baseOffset ∧
    SameNumber settings.alternateOffset (stored.channels.get c).alternateOffset
  /-- The gains are those that the metadata describes, and metadata and samples are made of them. -/
  gains : ∃ plan baseLight alternateLight gains,
    g.plan base alternate settings = .ok plan ∧
    lights plan base alternate stop = .ok (baseLight, alternateLight) ∧
    gains = (Array.range (plan.target.height.toNat * plan.target.width.toNat)).map (fun i =>
      stored.pixelGain log2 plan.target.layout plan.gamut.luma (pixelOf baseLight i)
        (pixelOf alternateLight i)) ∧
    (measuredValues plan settings gains).fractions = .ok result.metadata ∧
    result.image = some { plan.target with
      samples := gains.flatMap
        (pixelCodes plan.target.layout stored.channels plan.target.maxValue) }
  /-- Every picture is rendered with the same offsets. -/
  rendered : ∀ picture headroom output plan,
    RenderPlan.make picture result headroom output = .ok plan → plan.values = stored
  /-- Measuring with the offsets of any channel gives the same samples and metadata. -/
  again : ∀ c, (measure log2 base alternate (settings.withOffsets (stored.channels.get c).baseOffset
    (stored.channels.get c).alternateOffset) stop).apply g = (.ok (), result)

/-- Rendering reads the metadata of the gain map. -/
theorem render_values (hstored : result.metadata.values = .ok stored) {picture output : Image}
    {headroom : Float} {plan : RenderPlan}
    (h : RenderPlan.make picture result headroom output = .ok plan) : plan.values = stored :=
  Except.ok.inj ((RenderPlan.make_eq_ok h).values.symm.trans hstored)

/-- Where the offsets are stored without a loss, they are reported. -/
theorem GainsReported.of_offsets
    (hmeasure : (measure log2 base alternate settings stop).apply g = (.ok (), result))
    (hstored : result.metadata.values = .ok stored)
    (hoffsets : ∀ c, SameNumber settings.baseOffset (stored.channels.get c).baseOffset ∧
      SameNumber settings.alternateOffset (stored.channels.get c).alternateOffset) :
    GainsReported log2 g base alternate settings stop result stored := by
  obtain ⟨plan, found, metadata, stored', hplan, hgains, hmetadata, hstored', rfl⟩ :=
    measured_eq_ok_iff.mp (measure_eq_ok hmeasure)
  obtain rfl : stored' = stored := Except.ok.inj (hstored'.symm.trans hstored)
  obtain ⟨hbackward, -⟩ := reread_offsets hmetadata hstored
  obtain ⟨baseLight, alternateLight, hlights, hfound⟩ := gains_eq_map hgains
  refine ⟨hstored, hoffsets, ?_, fun _ _ _ _ hplan => render_values hstored hplan, fun c => ?_⟩
  · refine ⟨plan, baseLight, alternateLight, found, hplan, hlights, ?_, hmetadata, rfl⟩
    simp only [hfound, MeasureSettings.pixelGain_eq hbackward hoffsets]
  · rw [measure_apply_eq] at hmeasure ⊢
    rw [measured_withOffsets (hoffsets c).1 (hoffsets c).2]
    exact hmeasure

/-- **Gains are measured with the offsets that are reported exactly when storing keeps the
offsets.** Let a gain map be measured. Its metadata reports the same offsets in all channels, those
that the configured ones are read back as, and rendering uses them. They are the offsets of the
gains exactly when they are the configured ones as numbers. That is always so when the gain map is
measured with offsets that some metadata reports: every measurement with the reported ones is
reported. -/
theorem measured_reported_iff
    (hmeasure : (measure log2 base alternate settings stop).apply g = (.ok (), result)) :
    ∃ stored baseOffset alternateOffset, result.metadata.values = .ok stored ∧
      Fraction.reread settings.baseOffset = .ok baseOffset ∧
      Fraction.reread settings.alternateOffset = .ok alternateOffset ∧
      (∀ c, (stored.channels.get c).baseOffset = baseOffset ∧
        (stored.channels.get c).alternateOffset = alternateOffset) ∧
      (∀ picture headroom output plan,
        RenderPlan.make picture result headroom output = .ok plan → plan.values = stored) ∧
      (GainsReported log2 g base alternate settings stop result stored ↔
        SameNumber settings.baseOffset baseOffset ∧
          SameNumber settings.alternateOffset alternateOffset) ∧
      ∀ g' stop' result',
        (measure log2 base alternate (settings.withOffsets baseOffset alternateOffset)
          stop').apply g' = (.ok (), result') →
        ∃ stored', GainsReported log2 g' base alternate
          (settings.withOffsets baseOffset alternateOffset) stop' result' stored' := by
  obtain ⟨stored, hstored, hreread⟩ := exists_stored hmeasure
  obtain ⟨hbase, halternate⟩ := hreread 0
  -- a value is read back as one number, so the channels agree
  have hchannels : ∀ c, (stored.channels.get c).baseOffset = (stored.channels.get 0).baseOffset ∧
      (stored.channels.get c).alternateOffset = (stored.channels.get 0).alternateOffset := by
    intro c
    exact ⟨Except.ok.inj ((hreread c).1.symm.trans hbase),
      Except.ok.inj ((hreread c).2.symm.trans halternate)⟩
  refine ⟨stored, _, _, hstored, hbase, halternate, hchannels,
    fun _ _ _ _ hplan => render_values hstored hplan, ⟨fun h => h.offsets 0, fun h => ?_⟩, ?_⟩
  · refine .of_offsets hmeasure hstored fun c => ?_
    rw [(hchannels c).1, (hchannels c).2]
    exact h
  · intro g' stop' result' hmeasure'
    obtain ⟨stored', hstored', hreread'⟩ := exists_stored hmeasure'
    refine ⟨stored', .of_offsets hmeasure' hstored' fun c => ?_⟩
    -- what was read back once is read back again
    have hbase' := Except.ok.inj ((Fraction.reread_reread hbase).symm.trans (hreread' c).1)
    have halternate' :=
      Except.ok.inj ((Fraction.reread_reread halternate).symm.trans (hreread' c).2)
    exact ⟨.inl hbase', .inl halternate'⟩

theorem linearPixel_reported :
    ∃ result stored, (measure knownLog2 linearPixel linearPixel .standard .never).apply
        ⟨some emptyTarget, .unset, .unknown⟩ = (.ok (), result) ∧
      GainsReported knownLog2 ⟨some emptyTarget, .unset, .unknown⟩ linearPixel linearPixel
        .standard .never result stored := by
  obtain ⟨⟨⟩, result, hmeasure⟩ := @Edit.exists_apply_of_isOk _ _
    (measure knownLog2 linearPixel linearPixel .standard .never)
    ⟨some emptyTarget, .unset, .unknown⟩ (by decide +kernel)
  obtain ⟨stored, baseOffset, alternateOffset, -, hbase, halternate, -, -, hreported, -⟩ :=
    measured_reported_iff hmeasure
  -- 1/64 is read back as it is
  have hread : Fraction.reread (1 / 64) = .ok (1 / 64) := rfl
  have hsame := Except.ok.inj (hread.symm.trans hbase)
  have hsame' := Except.ok.inj (hread.symm.trans halternate)
  exact ⟨result, stored, hmeasure, hreported.mpr ⟨.inl hsame, .inl hsame'⟩⟩

/-- A gray pixel in linear light, of two bits. -/
def dimPixel (code : UInt16) : Image :=
  .ofRaster ⟨⟨2, .gray, .bt709, .linear, .unknown⟩, 1, 1, #[code]⟩

/-- A base offset of about a third of a millionth, which is what is left of the light of
`dimPixel 1` with the alternate offset. -/
def faintOffset : MeasureSettings :=
  MeasureSettings.standard.withOffsets 3.4326744080548366e-7 (-0.333333)

/-- The base offset is stored as zero. The one pixel is measured with the ratio 1, but with the
offsets that its metadata reports the ratio is more than 3. -/
theorem faintOffset_lost :
    ∃ result stored plan baseLight alternateLight,
      (measure knownLog2 (dimPixel 0) (dimPixel 1) faintOffset .never).apply
        ⟨some emptyTarget, .unset, .unknown⟩ = (.ok (), result) ∧
      result.metadata.values = .ok stored ∧
      GainMapOf.plan ⟨some emptyTarget, .unset, .unknown⟩ (dimPixel 0) (dimPixel 1) faintOffset =
        .ok plan ∧
      lights plan (dimPixel 0) (dimPixel 1) .never = .ok (baseLight, alternateLight) ∧
      (∀ c, (stored.channels.get c).baseOffset = 0 ∧
        liftedRatio faintOffset.baseOffset faintOffset.alternateOffset
          ((pixelOf baseLight 0).get c) ((pixelOf alternateLight 0).get c) = 1 ∧
        3 < liftedRatio (stored.channels.get c).baseOffset (stored.channels.get c).alternateOffset
          ((pixelOf baseLight 0).get c) ((pixelOf alternateLight 0).get c)) ∧
      ¬GainsReported knownLog2 ⟨some emptyTarget, .unset, .unknown⟩ (dimPixel 0) (dimPixel 1)
        faintOffset .never result stored := by
  obtain ⟨⟨⟩, result, hmeasure⟩ := @Edit.exists_apply_of_isOk _ _
    (measure knownLog2 (dimPixel 0) (dimPixel 1) faintOffset .never)
    ⟨some emptyTarget, .unset, .unknown⟩ (by decide +kernel)
  obtain ⟨stored, hstored, hreread⟩ := exists_stored hmeasure
  have hread : Fraction.reread faintOffset.baseOffset = .ok 0 := rfl
  have hread' : Fraction.reread faintOffset.alternateOffset = .ok (-0.333333) := rfl
  have hoffsets : ∀ c, (stored.channels.get c).baseOffset = 0 ∧
      (stored.channels.get c).alternateOffset = -0.333333 := by
    intro c
    exact ⟨Except.ok.inj ((hreread c).1.symm.trans hread),
      Except.ok.inj ((hreread c).2.symm.trans hread')⟩
  have hlight : (do
      let plan ← GainMapOf.plan ⟨some emptyTarget, .unset, .unknown⟩ (dimPixel 0) (dimPixel 1)
        faintOffset
      let light ← lights plan (dimPixel 0) (dimPixel 1) .never
      return (pixelOf light.1 0, pixelOf light.2 0)) =
        .ok (.replicate 0, .replicate (1 / 3)) := by
    decide +kernel
  obtain ⟨plan, hplan, hlight⟩ := Outcome.bind_eq_ok.mp hlight
  obtain ⟨⟨baseLight, alternateLight⟩, hlights, hlight⟩ := Outcome.bind_eq_ok.mp hlight
  obtain ⟨hbase, halternate⟩ := Prod.mk.inj (Outcome.pure_eq_ok.mp hlight)
  refine ⟨result, stored, plan, baseLight, alternateLight, hmeasure, hstored, hplan, hlights, ?_,
    ?_⟩
  · intro c
    rw [hbase, halternate, Rgb.get_replicate, Rgb.get_replicate, (hoffsets c).1, (hoffsets c).2]
    exact ⟨rfl, rfl, by decide +kernel⟩
  · intro h
    have hsame := (h.offsets 0).1
    rw [(hoffsets 0).1] at hsame
    revert hsame
    unfold SameNumber
    decide +kernel

end GainMapOf

end DualRendition
