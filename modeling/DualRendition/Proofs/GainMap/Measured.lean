import DualRendition.GainMap.Measure
import DualRendition.Proofs.GainMap.Lookup
import DualRendition.Proofs.GainMap.Renderable

/-!
# What measuring stores

A gain map that was measured is complete. `Measured` collects what holds of it whatever the
renditions look like and whatever floats come out of the ratios: all samples of the target are there
and keep to its depth, the metadata is usable, and a gray map has the same metadata in all channels,
because gains that agree in the channels have ranges that agree (`gainRange_replicate`), and equal
floats become equal fractions. The colours of the renditions keep to their depths as well: all of
them were looked up.

Structure: the plan, the gains (`gains_eq_map`), and `measured_eq_ok`, which puts them together with
the metadata. What is put together, and of what, is said by `measured_eq_ok_iff`.
-/

namespace DualRendition

/-! ## Triples of one value -/

/-- All values of a list of triples are the same within their triple. -/
def Uniform {α : Type} (ts : List (Rgb α)) : Prop := ∀ t ∈ ts, ∃ a, t = .replicate a

theorem foldl_zipWith_replicate {α : Type} (op : α → α → α) (ts : List (Rgb α)) :
    ∀ {a : α}, Uniform ts →
      ∃ b, ts.foldl (fun least t => least.zipWith op t) (Rgb.replicate a) = Rgb.replicate b := by
  induction ts with
  | nil =>
    intro a _
    exact ⟨a, rfl⟩
  | cons t ts ih =>
    intro a h
    -- a triple of one value combined with another is again one
    obtain ⟨b, rfl⟩ := h t List.mem_cons_self
    exact ih fun t' ht' => h t' (List.mem_cons_of_mem _ ht')

/-- Gains that are the same in all channels range between bounds that are. -/
theorem gainRange_replicate {gains : Array (Rgb Float)} (h : Uniform gains.toList) :
    ∃ low high, gainRange gains = (.replicate low, .replicate high) := by
  obtain ⟨low, hlow⟩ := @foldl_zipWith_replicate _ smaller gains.toList (1 / 0) h
  obtain ⟨high, hhigh⟩ := @foldl_zipWith_replicate _ larger gains.toList (-1 / 0) h
  refine ⟨low, high, ?_⟩
  unfold gainRange
  rw [← Array.foldl_toList, ← Array.foldl_toList, hlow, hhigh]

namespace GainMapOf

variable {log2 : Float → Float} {g : GainMap} {base alternate : Image} {settings : MeasureSettings}
  {stop : Stop}

/-! ## The plan -/

/-- What is known once the inputs are checked. -/
structure Planned (g : GainMap) (base alternate : Image) (plan : MeasurePlan) : Prop where
  basePixels : base.hasPixels = true
  alternatePixels : alternate.hasPixels = true
  width : alternate.width = base.width
  height : alternate.height = base.height
  target : g.image = some plan.target
  layout : plan.target.layout ≠ .rgba
  baseColors : base.transfer ≠ .unspecified ∧ base.primaries ≠ .unspecified
  alternateColors : alternate.transfer ≠ .unspecified ∧ alternate.primaries ≠ .unspecified

/-- A table of an image is made only when its colours are specified. -/
theorem specified_of_lightTable {r : Rendition} {gamut : Gamut} {role : String} {table : LightTable}
    (h : LightTable.ofRendition r gamut role = .ok table) :
    r.transfer ≠ .unspecified ∧ r.primaries ≠ .unspecified := by
  unfold LightTable.ofRendition at h
  obtain ⟨hcheck, -⟩ := Outcome.check_bind_eq_ok.mp h
  exact checkColorInfo_eq_ok_iff.mp hcheck

/-- All that the checks settle: the plan is as the inputs and the settings have it. -/
structure PlannedWith (g : GainMap) (base alternate : Image) (settings : MeasureSettings)
    (plan : MeasurePlan) : Prop extends Planned g base alternate plan where
  baseHeadroom : MeasureSettings.headroom settings.baseHeadroom base.toRendition "base" =
    .ok plan.baseHeadroom
  alternateHeadroom :
    MeasureSettings.headroom settings.alternateHeadroom alternate.toRendition "alternate" =
      .ok plan.alternateHeadroom
  gamut : plan.gamut = settings.gamut base.toRendition alternate.toRendition
  baseTable : LightTable.ofRendition base.toRendition plan.gamut "base" = .ok plan.baseTable
  alternateTable : LightTable.ofRendition alternate.toRendition plan.gamut "alternate" =
    .ok plan.alternateTable

/-- The checks return the plan with all of this, and no other. -/
theorem plan_eq_ok_iff {plan : MeasurePlan} :
    g.plan base alternate settings = .ok plan ↔ PlannedWith g base alternate settings plan := by
  constructor
  · intro h
    unfold GainMapOf.plan at h
    dsimp only at h
    simp only [Outcome.throw_eq, Outcome.error_bind, Outcome.guard_eq_ok] at h
    obtain ⟨hpixels, hsize, hrest⟩ := h
    split at hrest
    next target htarget =>
      simp only [Outcome.guard_eq_ok] at hrest
      obtain ⟨hlayout, hrest⟩ := hrest
      obtain ⟨baseHeadroom, hbaseHeadroom, hrest⟩ := Outcome.bind_eq_ok.mp hrest
      obtain ⟨alternateHeadroom, halternateHeadroom, hrest⟩ := Outcome.bind_eq_ok.mp hrest
      obtain ⟨baseTable, hbase, hrest⟩ := Outcome.bind_eq_ok.mp hrest
      obtain ⟨alternateTable, halternate, hplan⟩ := Outcome.bind_eq_ok.mp hrest
      obtain rfl := Outcome.pure_eq_ok.mp hplan
      rw [Bool.or_eq_true, not_or, Bool.not_eq_true', Bool.not_eq_true', Bool.not_eq_false,
        Bool.not_eq_false] at hpixels
      rw [not_or] at hsize
      exact {
        basePixels := hpixels.1
        alternatePixels := hpixels.2
        width := (Decidable.not_not.mp hsize.1).symm
        height := (Decidable.not_not.mp hsize.2).symm
        target := htarget
        layout := hlayout
        baseColors := specified_of_lightTable hbase
        alternateColors := specified_of_lightTable halternate
        baseHeadroom := hbaseHeadroom
        alternateHeadroom := halternateHeadroom
        gamut := rfl
        baseTable := hbase
        alternateTable := halternate }
    next => cases hrest
  · intro h
    have hpixels : ¬(!base.hasPixels || !alternate.hasPixels) = true := by
      rw [h.basePixels, h.alternatePixels]
      exact Bool.false_ne_true
    have hsize : ¬(base.width ≠ alternate.width ∨ base.height ≠ alternate.height) := by
      rw [h.width, h.height]
      simp
    -- the checks, in the order in which they are made
    unfold GainMapOf.plan
    dsimp only
    rw [if_neg hpixels, if_neg hsize, h.target]
    dsimp only
    rw [if_neg h.layout, h.baseHeadroom, Outcome.ok_bind, h.alternateHeadroom, Outcome.ok_bind,
      ← h.gamut, h.baseTable, Outcome.ok_bind, h.alternateTable]
    rfl

theorem plan_eq_ok {plan : MeasurePlan} (h : g.plan base alternate settings = .ok plan) :
    Planned g base alternate plan :=
  (plan_eq_ok_iff.mp h).toPlanned

/-! ## Gains and codes -/

/-- The gains of all pixels, in the order in which these are stored. -/
theorem gains_eq_map {plan : MeasurePlan} {gains : Array (Rgb Float)}
    (h : GainMapOf.gains log2 plan base alternate settings stop = .ok gains) :
    ∃ baseLight alternateLight, lights plan base alternate stop = .ok (baseLight, alternateLight) ∧
      gains = (Array.range (plan.target.height.toNat * plan.target.width.toNat)).map fun i =>
        settings.pixelGain log2 plan plan.gamut.luma (pixelOf baseLight i)
          (pixelOf alternateLight i) := by
  unfold GainMapOf.gains at h
  obtain ⟨⟨baseLight, alternateLight⟩, hlights, h⟩ := Outcome.bind_eq_ok.mp h
  refine ⟨baseLight, alternateLight, hlights, ?_⟩
  obtain ⟨-, hrows⟩ := Stop.sweep_eq_ok_iff.mp h
  rw [← flatMap_range_map]
  exact Except.ok.inj (hrows.symm.trans (layOut_pure _ _))

/-- All colours of the renditions were looked up. -/
theorem inRange_of_lights {plan : MeasurePlan} {light : Array Float32 × Array Float32}
    (hplan : g.plan base alternate settings = .ok plan)
    (h : lights plan base alternate stop = .ok light) :
    base.RowsInRange base.height.toNat ∧ alternate.RowsInRange alternate.height.toNat := by
  have hplanned := plan_eq_ok_iff.mp hplan
  obtain ⟨baseLight, hbase, h⟩ := Outcome.bind_eq_ok.mp h
  obtain ⟨alternateLight, halternate, -⟩ := Outcome.bind_eq_ok.mp h
  exact ⟨(LightTable.exists_rows_iff hplanned.baseTable (Nat.le_refl _)).mp
      ⟨_, (Stop.sweep_eq_ok_iff.mp hbase).2⟩,
    (LightTable.exists_rows_iff hplanned.alternateTable (Nat.le_refl _)).mp
      ⟨_, (Stop.sweep_eq_ok_iff.mp halternate).2⟩⟩

/-- There is a gain for every pixel of the map, and gray maps have gains without colour. -/
theorem gains_eq_ok {plan : MeasurePlan} {gains : Array (Rgb Float)}
    (h : GainMapOf.gains log2 plan base alternate settings stop = .ok gains) :
    gains.size = plan.target.width.toNat * plan.target.height.toNat ∧
    (plan.target.layout = .gray → Uniform gains.toList) := by
  obtain ⟨baseLight, alternateLight, -, rfl⟩ := gains_eq_map h
  refine ⟨?_, ?_⟩
  · rw [Array.size_map, Array.size_range, Nat.mul_comm]
  · intro hgray t ht
    obtain ⟨i, -, rfl⟩ := Array.mem_map.mp (Array.mem_toList_iff.mp ht)
    unfold MeasureSettings.pixelGain
    rw [hgray]
    exact ⟨_, rfl⟩

theorem size_pixelCodes {layout : Layout} (h : layout ≠ .rgba)
    (channels : Rgb (ChannelParameters Float Float)) (max : UInt16) (gain : Rgb Float) :
    (pixelCodes layout channels max gain).size = layout.channels := by
  cases layout with
  | gray => rfl
  | rgb => rfl
  | rgba => exact absurd rfl h

/-- The codes of a gain are quantized. -/
theorem le_of_mem_pixelCodes {layout : Layout} {channels : Rgb (ChannelParameters Float Float)}
    {max code : UInt16} {gain : Rgb Float} (h : code ∈ pixelCodes layout channels max gain) :
    code ≤ max := by
  have hcode : ∀ (c : ChannelParameters Float Float) (gain : Float), gainCode c max gain ≤ max :=
    fun _ _ => Code.quantize_le _ _
  unfold pixelCodes Rgb.toList Rgb.zipWith at h
  cases layout with
  | gray =>
    simp only [List.mem_toArray, List.mem_singleton] at h
    rw [h]
    exact hcode _ _
  | rgb =>
    simp only [List.mem_toArray, List.mem_cons, List.not_mem_nil, or_false] at h
    rcases h with rfl | rfl | rfl <;> exact hcode _ _
  | rgba =>
    simp only [List.mem_toArray, List.mem_cons, List.not_mem_nil, or_false] at h
    rcases h with rfl | rfl | rfl <;> exact hcode _ _

/-- The metadata of a channel, but for its range, is as configured. -/
theorem get_measuredValues (plan : MeasurePlan) (settings : MeasureSettings)
    (gains : Array (Rgb Float)) (i : Fin 3) :
    (measuredValues plan settings gains).channels.get i =
      { min := (gainRange gains).1.get i, max := (gainRange gains).2.get i,
        gamma := settings.gamma, baseOffset := settings.baseOffset,
        alternateOffset := settings.alternateOffset } := by
  unfold measuredValues
  exact Rgb.get_zipWith _ _ _ i

/-! ## The measured gain map -/

/-- What holds of a measured gain map. -/
structure Measured (g : GainMap) (base alternate : Image) (settings : MeasureSettings)
    (result : GainMap) : Prop where
  /-- The inputs had pixels and specified colours, and agreed in size. -/
  planned : ∃ plan, Planned g base alternate plan
  /-- Every colour of the inputs has light. -/
  colors : base.RowsInRange base.height.toNat ∧ alternate.RowsInRange alternate.height.toNat
  /-- The image is the target with all of its samples, and they keep to its depth. -/
  image : ∀ target, g.image = some target → target.layout ≠ .rgba ∧
    ∃ samples, result.image = some { target with samples } ∧
      samples.size = target.width.toNat * target.height.toNat * target.channels ∧
      ∀ sample ∈ samples, sample ≤ target.maxValue
  metadata : result.metadata.validate = .ok ()
  /-- A gray map is read with the same parameters in all channels. -/
  single : ∀ target, g.image = some target → target.layout = .gray →
    result.metadata.isSingleChannel = true
  colorSpace : result.metadata.useBaseColorSpace = settings.useBaseColorSpace
  alternate : result.alternate = alternate.toRendition

/-- The parts of a measurement, each made of those before it. -/
theorem measured_eq_ok_iff {result : GainMap} :
    g.measured log2 base alternate settings stop = .ok result ↔
      ∃ plan found metadata stored, g.plan base alternate settings = .ok plan ∧
        gains log2 plan base alternate settings stop = .ok found ∧
        (measuredValues plan settings found).fractions = .ok metadata ∧
        metadata.values = .ok stored ∧
        result = ⟨some { plan.target with
            samples := found.flatMap
              (pixelCodes plan.target.layout stored.channels plan.target.maxValue) },
          metadata, alternate.toRendition⟩ := by
  unfold measured
  constructor
  · intro h
    obtain ⟨plan, hplan, h⟩ := Outcome.bind_eq_ok.mp h
    obtain ⟨found, hgains, h⟩ := Outcome.bind_eq_ok.mp h
    obtain ⟨metadata, hmetadata, h⟩ := Outcome.bind_eq_ok.mp h
    obtain ⟨stored, hstored, h⟩ := Outcome.bind_eq_ok.mp h
    obtain rfl := Outcome.pure_eq_ok.mp h
    exact ⟨plan, found, metadata, stored, hplan, hgains, hmetadata, hstored, rfl⟩
  · intro h
    obtain ⟨plan, found, metadata, stored, hplan, hgains, hmetadata, hstored, rfl⟩ := h
    rw [hplan, Outcome.ok_bind, hgains, Outcome.ok_bind, hmetadata, Outcome.ok_bind, hstored]
    rfl

theorem measured_eq_ok {result : GainMap}
    (h : g.measured log2 base alternate settings stop = .ok result) :
    Measured g base alternate settings result := by
  obtain ⟨plan, found, metadata, stored, hplan, hgains, hmetadata, -, rfl⟩ :=
    measured_eq_ok_iff.mp h
  have hplanned := plan_eq_ok hplan
  obtain ⟨hsize, huniform⟩ := gains_eq_ok hgains
  obtain ⟨baseLight, alternateLight, hlights, -⟩ := gains_eq_map hgains
  obtain ⟨hvalid, hcolorSpace, hsingle⟩ := GainValues.fractions_eq_ok hmetadata
  refine ⟨⟨plan, hplanned⟩, inRange_of_lights hplan hlights, ?_, hvalid, ?_, hcolorSpace, rfl⟩
  · intro target htarget
    obtain rfl : plan.target = target := Option.some.inj (hplanned.target.symm.trans htarget)
    refine ⟨hplanned.layout, _, rfl, ?_, ?_⟩
    · rw [size_flatMap_pieces (size_pixelCodes hplanned.layout _ _), hsize]
      rfl
    · intro sample hsample
      obtain ⟨gain, -, hcode⟩ := Array.mem_flatMap.mp hsample
      exact le_of_mem_pixelCodes hcode
  · intro target htarget hgray
    obtain rfl : plan.target = target := Option.some.inj (hplanned.target.symm.trans htarget)
    obtain ⟨low, high, hrange⟩ := gainRange_replicate (huniform hgray)
    refine hsingle ?_ ?_
    · unfold measuredValues
      rw [hrange]
      exact .refl _
    · unfold measuredValues
      rw [hrange]
      exact .refl _

/-- Only a complete gain map is stored, and a failure leaves it as it was. -/
theorem measure_apply_eq (log2 : Float → Float) (base alternate : Image)
    (settings : MeasureSettings) (stop : Stop) (g : GainMap) :
    (measure log2 base alternate settings stop).apply g =
      Edit.commit (g.measured log2 base alternate settings stop) (fun _ => ()) id g := by
  unfold measure
  rw [Edit.apply_bind, Edit.apply_get]
  dsimp only
  rw [Edit.apply_bind, Edit.apply_ofOutcome]
  cases g.measured log2 base alternate settings stop <;> rfl

end GainMapOf

end DualRendition
