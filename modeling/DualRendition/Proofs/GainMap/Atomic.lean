import DualRendition.Proofs.GainMap.Closure
import DualRendition.Proofs.GainMap.Inputs

/-!
# All or nothing

Measuring and rendering either leave the edited value as it was or store a complete result. A call
makes as many checks as the passes have rows: two passes over the renditions and one over the target
for measuring (`GainMapOf.measure_atomic`), one over the base for rendering
(`GainMapOf.render_atomic`). A stop with as many makes no difference, and one with fewer ends the
call.

There is one thing that comes before a stop: a row that was granted and reads an entry that no table
has. Nothing checks the samples, so such a row ends the program, and the stop is never reported
(`GainMapOf.measure_not_stopped`, `GainMapOf.render_not_stopped`). Pictures and maps that keep to
their depths have no such rows.

Structure: a stopped call is the rows that it has gone through, and then the failure of the stop
(`GainMapOf.measured_of_lt`, `GainMapOf.rendered_of_lt`). Nothing but reads can fail in these rows,
so the stop shows exactly when all of their reads succeed.
-/

namespace DualRendition

open Outcome (FailsAs OnlyAborts)

namespace GainMapOf

section Measuring

variable {log2 : Float → Float} {g : GainMap} {base alternate : Image} {settings : MeasureSettings}
  {plan : MeasurePlan} {granted : Nat} {reason : StopReason}

/-! ## The rows of a measurement -/

/-- The rows that are decoded while no more than `granted` checks pass, first those of the base,
then those of the alternate rendition. -/
def decodedRows (plan : MeasurePlan) (base alternate : Image) (granted : Nat) : Outcome Unit := do
  let _ ← layOut (min granted base.height.toNat) (plan.baseTable.rowLight base.toRaster)
  let _ ← layOut (min (granted - base.height.toNat) alternate.height.toNat)
    (plan.alternateTable.rowLight alternate.toRaster)
  return ()

theorem decodedRows_onlyAborts (plan : MeasurePlan) (base alternate : Image) (granted : Nat) :
    OnlyAborts (decodedRows plan base alternate granted) :=
  .bind (plan.baseTable.rows_onlyAborts _ _) fun _ =>
    .bind (plan.alternateTable.rows_onlyAborts _ _) fun _ => .ok _

/-- Rows are decoded as long as their colours keep to the depths. -/
theorem exists_decodedRows_iff (h : g.plan base alternate settings = .ok plan) :
    (∃ done, decodedRows plan base alternate granted = .ok done) ↔
      base.RowsInRange granted ∧ alternate.RowsInRange (granted - base.height.toNat) := by
  have hplanned := plan_eq_ok_iff.mp h
  rw [← Raster.rowsInRange_min, ← @Raster.rowsInRange_min alternate.toRaster,
    ← LightTable.exists_rows_iff hplanned.baseTable (Nat.min_le_right _ _),
    ← LightTable.exists_rows_iff hplanned.alternateTable (Nat.min_le_right _ _)]
  unfold decodedRows
  simp only [Outcome.bind_eq_ok, Outcome.pure_eq_ok]
  constructor
  · intro hrows
    obtain ⟨-, baseLight, hbase, alternateLight, halternate, -⟩ := hrows
    exact ⟨⟨baseLight, hbase⟩, alternateLight, halternate⟩
  · intro hrows
    obtain ⟨⟨baseLight, hbase⟩, alternateLight, halternate⟩ := hrows
    exact ⟨(), baseLight, hbase, alternateLight, halternate, trivial⟩

/-- A stop that runs out ends the call after the rows that are decoded by then. -/
theorem measured_of_lt (h : g.plan base alternate settings = .ok plan)
    (hlt : granted < 2 * base.height.toNat + plan.target.height.toNat) :
    g.measured log2 base alternate settings ⟨some granted, reason⟩ =
      decodedRows plan base alternate granted >>= fun _ => .error (.stopped reason) := by
  have hheight : alternate.height = base.height := (plan_eq_ok h).height
  unfold measured gains lights LightTable.rasterLight decodedRows
  dsimp only
  rw [h, Outcome.ok_bind, hheight]
  by_cases hbase : granted < base.height.toNat
  · -- within the base
    rw [Stop.sweep_of_lt (Nat.zero_le _) (by omega), Nat.sub_zero, Nat.min_eq_left (by omega),
      Nat.sub_eq_zero_of_le (by omega), Nat.zero_min, layOut_zero]
    simp only [bind_assoc, Outcome.error_bind, Outcome.ok_bind, pure_bind]
  · rw [Stop.sweep_of_le (by omega), Nat.min_eq_right (by omega)]
    by_cases halternate : granted < base.height.toNat + base.height.toNat
    · -- within the alternate rendition
      rw [Stop.sweep_of_lt (by omega) halternate, Nat.min_eq_left (by omega)]
      simp only [bind_assoc, Outcome.error_bind, pure_bind]
    · -- within the target, where no row fails
      rw [Stop.sweep_of_le (by omega), Nat.min_eq_right (by omega)]
      simp only [bind_assoc, pure_bind]
      congr 1
      funext baseLight
      congr 1
      funext alternateLight
      rw [Stop.sweep_of_lt (by omega) hlt, layOut_pure]
      rfl

/-- With enough checks, the call is the one that is never stopped. -/
theorem measured_of_le (h : g.plan base alternate settings = .ok plan)
    (hle : 2 * base.height.toNat + plan.target.height.toNat ≤ granted) :
    g.measured log2 base alternate settings ⟨some granted, reason⟩ =
      g.measured log2 base alternate settings .never := by
  have hheight : alternate.height = base.height := (plan_eq_ok h).height
  unfold measured gains lights LightTable.rasterLight
  dsimp only
  rw [h, Outcome.ok_bind, Outcome.ok_bind, hheight]
  simp only [Stop.sweep_never]
  rw [Stop.sweep_of_le (by omega), Stop.sweep_of_le (by omega)]
  simp only [Stop.sweep_of_le hle]

/-- Without a stop, the rows of both renditions come first. What is left to fail then are gains that
have no fractions. -/
theorem measured_never (h : g.plan base alternate settings = .ok plan) :
    ∃ rest : Array Float32 → Array Float32 → Outcome GainMap,
      (∀ baseLight alternateLight, FailsAs .invalidParameter (rest baseLight alternateLight)) ∧
      g.measured log2 base alternate settings .never = (do
        let baseLight ← layOut base.height.toNat (plan.baseTable.rowLight base.toRaster)
        let alternateLight ←
          layOut alternate.height.toNat (plan.alternateTable.rowLight alternate.toRaster)
        rest baseLight alternateLight) := by
  unfold measured gains lights LightTable.rasterLight
  rw [h, Outcome.ok_bind]
  simp only [Stop.sweep_never, bind_assoc, pure_bind]
  refine ⟨_, fun baseLight alternateLight => ?_, rfl⟩
  rw [layOut_pure, Outcome.ok_bind]
  exact .bind (GainValues.fractions_failsAs _) fun metadata =>
    .bind (Metadata.values_failsAs metadata) fun _ => .ok _

/-- What ends a call that is never stopped: a colour that has no light, or else a parameter. -/
theorem measured_never_eq_error (h : g.plan base alternate settings = .ok plan) {failure : Failure}
    (hfailure : g.measured log2 base alternate settings .never = .error failure) :
    if base.RowsInRange base.height.toNat ∧ alternate.RowsInRange alternate.height.toNat then
      failure.category = .invalidParameter
    else failure = .absentEntry := by
  have hplanned := plan_eq_ok_iff.mp h
  obtain ⟨rest, hrest, hmeasured⟩ := @measured_never log2 _ _ _ _ _ h
  rw [hmeasured] at hfailure
  split
  next hcolors =>
    obtain ⟨baseLight, hbase⟩ :=
      (LightTable.exists_rows_iff hplanned.baseTable (Nat.le_refl _)).mpr hcolors.1
    obtain ⟨alternateLight, halternate⟩ :=
      (LightTable.exists_rows_iff hplanned.alternateTable (Nat.le_refl _)).mpr hcolors.2
    rw [hbase, Outcome.ok_bind, halternate, Outcome.ok_bind] at hfailure
    exact hrest _ _ _ hfailure
  next hcolors =>
    rcases Outcome.bind_eq_error.mp hfailure with hbase | ⟨baseLight, hbase, hfailure⟩
    · exact plan.baseTable.rows_onlyAborts _ _ _ hbase
    · rcases Outcome.bind_eq_error.mp hfailure with halternate | ⟨alternateLight, halternate, -⟩
      · exact plan.alternateTable.rows_onlyAborts _ _ _ halternate
      · -- all rows were decoded
        exact absurd
          ⟨(LightTable.exists_rows_iff hplanned.baseTable (Nat.le_refl _)).mp ⟨_, hbase⟩,
            (LightTable.exists_rows_iff hplanned.alternateTable (Nat.le_refl _)).mp
              ⟨_, halternate⟩⟩ hcolors

theorem measured_never_ne_stopped (h : g.plan base alternate settings = .ok plan) :
    g.measured log2 base alternate settings .never ≠ .error (.stopped reason) := by
  intro hstopped
  have hfailure := measured_never_eq_error h hstopped
  split at hfailure <;> cases hfailure

/-! ## Measuring -/

/-- Inputs that cannot be measured are refused before any stop is asked. -/
theorem measure_refused (h : ¬Measurable g base alternate settings) :
    ∃ failure : Failure, failure.category = .invalidParameter ∧
      ∀ stop, (measure log2 base alternate settings stop).apply g = (.error failure, g) := by
  cases hplan : g.plan base alternate settings with
  | ok plan => exact absurd (exists_plan_iff.mp ⟨plan, hplan⟩) h
  | error failure =>
    refine ⟨failure, plan_failsAs g base alternate settings failure hplan, ?_⟩
    intro stop
    rw [measure_apply_eq]
    unfold measured
    rw [hplan]
    rfl

/-- **Measuring is all or nothing.** A failure leaves the gain map as it was. Inputs that cannot be
measured are refused whatever the stop. Other inputs are stopped exactly by a stop that grants fewer
checks than there are rows to go through, twice those of the renditions and those of the target,
unless one of the rows that are decoded by then has a colour over the largest code of its depth,
which ends the program. With as many checks, the call is the one that is never stopped, which fails
for a parameter or, if there is such a colour anywhere, ends the program. A success changes nothing
of the target but its samples, which are as many as its size and layout ask for, and takes the
alternate rendition as it is. -/
theorem measure_atomic (log2 : Float → Float) (g : GainMap) (base alternate : Image)
    (settings : MeasureSettings) :
    (∀ stop failure g',
      (measure log2 base alternate settings stop).apply g = (.error failure, g') → g' = g) ∧
    (¬Measurable g base alternate settings →
      ∃ failure : Failure, failure.category = .invalidParameter ∧
        ∀ stop, (measure log2 base alternate settings stop).apply g = (.error failure, g)) ∧
    (Measurable g base alternate settings → ∀ target, g.image = some target →
      ∀ granted reason,
        (((measure log2 base alternate settings ⟨some granted, reason⟩).apply g).1 =
            .error (.stopped reason) ↔
          granted < 2 * base.height.toNat + target.height.toNat ∧
            base.RowsInRange granted ∧ alternate.RowsInRange (granted - base.height.toNat)) ∧
        (granted < 2 * base.height.toNat + target.height.toNat →
          ¬(base.RowsInRange granted ∧ alternate.RowsInRange (granted - base.height.toNat)) →
          ((measure log2 base alternate settings ⟨some granted, reason⟩).apply g).1 =
            .error .absentEntry) ∧
        (2 * base.height.toNat + target.height.toNat ≤ granted →
          (measure log2 base alternate settings ⟨some granted, reason⟩).apply g =
            (measure log2 base alternate settings .never).apply g)) ∧
    (Measurable g base alternate settings → ∀ failure,
      ((measure log2 base alternate settings .never).apply g).1 = .error failure →
      if base.RowsInRange base.height.toNat ∧ alternate.RowsInRange alternate.height.toNat then
        failure.category = .invalidParameter
      else failure = .absentEntry) ∧
    ∀ stop g', (measure log2 base alternate settings stop).apply g = (.ok (), g') →
      ∃ target samples, g.image = some target ∧ g'.image = some { target with samples } ∧
        samples.size = target.width.toNat * target.height.toNat * target.channels ∧
        g'.alternate = alternate.toRendition := by
  refine ⟨?_, measure_refused, ?_, ?_, ?_⟩
  · intro stop failure g' h
    rw [measure_apply_eq] at h
    exact (Edit.commit_eq_error_iff.mp h).2
  · intro hmeasurable target htarget granted reason
    obtain ⟨plan, hplan⟩ := exists_plan_iff.mpr hmeasurable
    obtain rfl : plan.target = target :=
      Option.some.inj ((plan_eq_ok hplan).target.symm.trans htarget)
    simp only [measure_apply_eq, Edit.commit_fst_eq_error_iff]
    have hrows := decodedRows_onlyAborts plan base alternate granted
    rw [← exists_decodedRows_iff hplan]
    refine ⟨?_, ?_, ?_⟩
    · by_cases hlt : granted < 2 * base.height.toNat + plan.target.height.toNat
      · rw [measured_of_lt hplan hlt, hrows.bind_stopped_iff, and_iff_right hlt]
      · rw [measured_of_le hplan (Nat.le_of_not_lt hlt)]
        exact ⟨fun hstopped => absurd hstopped (measured_never_ne_stopped hplan),
          fun hboth => absurd hboth.1 hlt⟩
    · intro hlt hnone
      rw [measured_of_lt hplan hlt, hrows.eq_error_iff.mpr hnone]
      rfl
    · intro hle
      rw [measured_of_le hplan hle]
  · intro hmeasurable failure hfailure
    obtain ⟨plan, hplan⟩ := exists_plan_iff.mpr hmeasurable
    rw [measure_apply_eq, Edit.commit_fst_eq_error_iff] at hfailure
    exact measured_never_eq_error hplan hfailure
  · intro stop g' h
    have hmeasured := measured_eq_ok (measure_eq_ok h)
    obtain ⟨plan, hplanned⟩ := hmeasured.planned
    obtain ⟨-, samples, himage, hsize, -⟩ := hmeasured.image plan.target hplanned.target
    exact ⟨plan.target, samples, hplanned.target, himage, hsize, hmeasured.alternate⟩

/-- Two renditions of one row and a target of one row take three checks. -/
theorem linearPixel_atomic :
    (measure knownLog2 linearPixel linearPixel .standard ⟨some 2, .timedOut⟩).apply
        ⟨some emptyTarget, .unset, .unknown⟩ =
      (.error (.stopped .timedOut), ⟨some emptyTarget, .unset, .unknown⟩) ∧
    (∃ g' samples, (measure knownLog2 linearPixel linearPixel .standard ⟨some 3, .timedOut⟩).apply
        ⟨some emptyTarget, .unset, .unknown⟩ = (.ok (), g') ∧
      (measure knownLog2 linearPixel linearPixel .standard .never).apply
        ⟨some emptyTarget, .unset, .unknown⟩ = (.ok (), g') ∧
      g'.image = some { emptyTarget with samples } ∧ samples.size = 3 ∧
      g'.alternate = linearPixel.toRendition) ∧
    ∃ failure : Failure, failure.category = .invalidParameter ∧
      ∀ stop, (measure knownLog2 linearPixel linearPixel .standard stop).apply .unknown =
        (.error failure, .unknown) := by
  obtain ⟨hfailed, -, hstopped, -, hstored⟩ := measure_atomic knownLog2
    ⟨some emptyTarget, .unset, .unknown⟩ linearPixel linearPixel .standard
  obtain ⟨-, hrefused, -, -, -⟩ :=
    measure_atomic knownLog2 .unknown linearPixel linearPixel .standard
  have hmeasurable : Measurable ⟨some emptyTarget, .unset, .unknown⟩ linearPixel linearPixel
      .standard :=
    ⟨rfl, rfl, rfl, rfl, ⟨_, rfl, by decide⟩, fun _ h => (nomatch h), fun _ h => (nomatch h),
      ⟨by decide, by decide⟩, ⟨by decide, by decide⟩⟩
  have hok : ((measure knownLog2 linearPixel linearPixel .standard .never).apply
      ⟨some emptyTarget, .unset, .unknown⟩).1.isOk = true := by decide +kernel
  have hunmeasurable : ¬Measurable .unknown linearPixel linearPixel .standard := by
    intro h
    obtain ⟨target, htarget, -⟩ := h.target
    cases htarget
  refine ⟨?_, ?_, hrefused hunmeasurable⟩
  · have hresult := (hstopped hmeasurable emptyTarget rfl 2 .timedOut).1.mpr
      ⟨by decide, by decide, by decide⟩
    exact Prod.ext hresult (hfailed _ _ _ (Prod.ext hresult rfl))
  · have hpassed := (hstopped hmeasurable emptyTarget rfl 3 .timedOut).2.2 (by decide)
    obtain ⟨⟨⟩, g', hnever⟩ := Edit.exists_apply_of_isOk hok
    obtain ⟨target, samples, htarget, himage, hsize, halternate⟩ := hstored _ _ hnever
    obtain rfl := Option.some.inj htarget
    exact ⟨g', samples, hpassed.trans hnever, hnever, himage, hsize, halternate⟩

/-- Two gray rows of one bit. -/
def grayColumn (upper lower : UInt16) : Image :=
  .ofRaster ⟨⟨1, .gray, .bt709, .linear, .unknown⟩, 1, 2, #[upper, lower]⟩

/-- A gray target of two rows without samples. -/
def columnTarget : Image :=
  .ofRaster ⟨⟨8, .gray, .bt709, .srgb, .unknown⟩, 1, 2, #[]⟩

/-- A base whose first sample is over the largest code. The stop would end the call before the
second row, but the first one has ended the program by then. -/
theorem measure_not_stopped :
    (grayColumn 2 0).HasHeader ∧ (grayColumn 0 0).HasHeader ∧ columnTarget.HasHeader ∧
    Measurable ⟨some columnTarget, .unset, .unknown⟩ (grayColumn 2 0) (grayColumn 0 0) .standard ∧
    ((measure Float.log2 (grayColumn 2 0) (grayColumn 0 0) .standard ⟨some 1, .cancelled⟩).apply
      ⟨some columnTarget, .unset, .unknown⟩).1 = .error .absentEntry ∧
    ¬(((measure Float.log2 (grayColumn 2 0) (grayColumn 0 0) .standard ⟨some 1, .cancelled⟩).apply
        ⟨some columnTarget, .unset, .unknown⟩).1 = .error (.stopped .cancelled) ↔
      1 < 2 * (grayColumn 2 0).height.toNat + columnTarget.height.toNat) := by
  have hmeasurable : Measurable ⟨some columnTarget, .unset, .unknown⟩ (grayColumn 2 0)
      (grayColumn 0 0) .standard :=
    ⟨rfl, rfl, rfl, rfl, ⟨_, rfl, by decide⟩, fun _ h => (nomatch h), fun _ h => (nomatch h),
      ⟨by decide, by decide⟩, ⟨by decide, by decide⟩⟩
  have haborted : ((measure Float.log2 (grayColumn 2 0) (grayColumn 0 0) .standard
      ⟨some 1, .cancelled⟩).apply ⟨some columnTarget, .unset, .unknown⟩).1 =
        .error .absentEntry := by
    obtain ⟨plan, hplan⟩ := exists_plan_iff.mpr hmeasurable
    have hnone : ¬∃ done, decodedRows plan (grayColumn 2 0) (grayColumn 0 0) 1 = .ok done := by
      rw [exists_decodedRows_iff hplan]
      decide
    have hlt : 1 < 2 * (grayColumn 2 0).height.toNat + plan.target.height.toNat :=
      Nat.lt_of_lt_of_le (by decide) (Nat.le_add_right _ _)
    rw [measure_apply_eq, Edit.commit_fst_eq_error_iff, measured_of_lt hplan hlt,
      (decodedRows_onlyAborts _ _ _ _).eq_error_iff.mpr hnone]
    rfl
  refine ⟨⟨_, rfl⟩, ⟨_, rfl⟩, ⟨_, rfl⟩, hmeasurable, haborted, ?_⟩
  rw [haborted]
  intro hiff
  cases hiff.mpr (by decide)

end Measuring

/-! ## Rendering -/

section Rendering

variable {g : GainMap} {base output : Image} {headroom : Float} {plan : RenderPlan} {granted : Nat}
  {reason : StopReason}

/-- A stop that runs out ends the call after the rows that are rendered by then. -/
theorem rendered_of_lt (h : RenderPlan.make base g headroom output = .ok plan)
    (hlt : granted < base.height.toNat) :
    g.rendered base headroom output ⟨some granted, reason⟩ =
      layOut granted plan.row >>= fun _ => .error (.stopped reason) := by
  unfold rendered
  rw [h, Outcome.ok_bind, RenderPlan.samples_eq_sweep, (RenderPlan.make_eq_ok h).baseRaster,
    Stop.sweep_of_lt (Nat.zero_le _) (by omega), Nat.sub_zero, bind_assoc]
  rfl

/-- With enough checks, the call is the one that is never stopped, ... -/
theorem rendered_of_le (h : RenderPlan.make base g headroom output = .ok plan)
    (hle : base.height.toNat ≤ granted) :
    g.rendered base headroom output ⟨some granted, reason⟩ =
      g.rendered base headroom output .never := by
  unfold rendered
  rw [h, Outcome.ok_bind, Outcome.ok_bind, RenderPlan.samples_eq_sweep,
    RenderPlan.samples_eq_sweep, (RenderPlan.make_eq_ok h).baseRaster, Stop.sweep_never,
    Stop.sweep_of_le (by omega)]

/-- ... and nothing but reads can fail in that one. -/
theorem rendered_never_onlyAborts (h : RenderPlan.make base g headroom output = .ok plan) :
    OnlyAborts (g.rendered base headroom output .never) := by
  unfold rendered
  rw [h, Outcome.ok_bind, RenderPlan.samples_eq_sweep, Stop.sweep_never]
  exact .bind (layOut_onlyAborts fun _ _ => plan.row_onlyAborts _) fun _ => .ok _

theorem exists_rendered_never_iff (h : RenderPlan.make base g headroom output = .ok plan)
    {map : Image} (himage : g.image = some map) :
    (∃ result, g.rendered base headroom output .never = .ok result) ↔
      ∀ y < base.height.toNat, base.RowReadable map.toRaster y := by
  have hsettled := RenderPlan.make_eq_ok h
  unfold rendered
  rw [h, Outcome.ok_bind, RenderPlan.samples_eq_sweep, Stop.sweep_never, hsettled.baseRaster,
    ← hsettled.exists_rows_iff himage (Nat.le_refl _)]
  constructor
  · intro hrendered
    obtain ⟨result, hresult⟩ := hrendered
    obtain ⟨samples, hrows, -⟩ := Outcome.bind_eq_ok.mp hresult
    exact ⟨samples, hrows⟩
  · intro hrows
    obtain ⟨samples, hrows⟩ := hrows
    rw [hrows]
    exact ⟨_, rfl⟩

/-- What is not possible is refused before any stop is asked. -/
theorem render_refused (h : ¬RenderPlan.Possible g base headroom output) :
    ∃ failure : Failure, failure.category = .invalidParameter ∧
      ∀ stop, (g.render base headroom stop).apply output = (.error failure, output) := by
  cases hplan : RenderPlan.make base g headroom output with
  | ok plan => exact absurd (RenderPlan.exists_make_iff.mp ⟨plan, hplan⟩) h
  | error failure =>
    refine ⟨failure, RenderPlan.make_failsAs base g headroom output failure hplan, ?_⟩
    intro stop
    rw [render_apply_eq]
    unfold rendered
    rw [hplan]
    rfl

/-- **Rendering is all or nothing.** A failure leaves the output as it was. What is not possible is
refused whatever the stop. Anything else is stopped exactly by a stop that grants fewer checks than
the base has rows, unless one of the rows that are granted cannot be read, which ends the program.
With as many checks, the call is the one that is never stopped, which succeeds when all rows can be
read and ends the program otherwise. Rows can be read when their colours and the samples of the map
keep to their depths, and no side of the map is longer than 2^24.

A success changes nothing of the output but its samples and its light level, which is the returned
one. The output then has pixels, as the base is in memory, and the samples it had before make no
difference. -/
theorem render_atomic (g : GainMap) (base : Image) (headroom : Float) (output : Image) :
    (∀ stop failure after,
      (g.render base headroom stop).apply output = (.error failure, after) → after = output) ∧
    (¬RenderPlan.Possible g base headroom output →
      ∃ failure : Failure, failure.category = .invalidParameter ∧
        ∀ stop, (g.render base headroom stop).apply output = (.error failure, output)) ∧
    (RenderPlan.Possible g base headroom output → ∀ map, g.image = some map →
      (∀ granted reason,
        (((g.render base headroom ⟨some granted, reason⟩).apply output).1 =
            .error (.stopped reason) ↔
          granted < base.height.toNat ∧ ∀ y < granted, base.RowReadable map.toRaster y) ∧
        (granted < base.height.toNat → ¬(∀ y < granted, base.RowReadable map.toRaster y) →
          ((g.render base headroom ⟨some granted, reason⟩).apply output).1 =
            .error .absentEntry) ∧
        (base.height.toNat ≤ granted →
          (g.render base headroom ⟨some granted, reason⟩).apply output =
            (g.render base headroom .never).apply output)) ∧
      (if ∀ y < base.height.toNat, base.RowReadable map.toRaster y then
        ∃ lightLevel after, (g.render base headroom .never).apply output = (.ok lightLevel, after)
      else ((g.render base headroom .never).apply output).1 = .error .absentEntry) ∧
      (map.InRange → map.width.toNat ≤ 2 ^ 24 → map.height.toNat ≤ 2 ^ 24 →
        ∀ rows ≤ base.height.toNat, base.RowsInRange rows →
          ∀ y < rows, base.RowReadable map.toRaster y)) ∧
    ∀ stop lightLevel after,
      (g.render base headroom stop).apply output = (.ok lightLevel, after) →
        after = { output with samples := after.samples, lightLevel } ∧
        after.samples.size = output.width.toNat * output.height.toNat * output.channels ∧
        (base.FitsMemory → after.hasPixels = true) ∧
        ∀ samples, (g.render base headroom stop).apply { output with samples } =
          (.ok lightLevel, after) := by
  refine ⟨?_, render_refused, ?_, ?_⟩
  · intro stop failure after h
    rw [render_apply_eq] at h
    exact (Edit.commit_eq_error_iff.mp h).2
  · intro hpossible map himage
    obtain ⟨plan, hplan⟩ := RenderPlan.exists_make_iff.mpr hpossible
    have hnever := rendered_never_onlyAborts hplan
    refine ⟨fun granted reason => ?_, ?_, ?_⟩
    · simp only [render_apply_eq, Edit.commit_fst_eq_error_iff]
      refine ⟨?_, ?_, ?_⟩
      · by_cases hlt : granted < base.height.toNat
        · rw [rendered_of_lt hplan hlt, OnlyAborts.bind_stopped_iff
              (layOut_onlyAborts fun _ _ => plan.row_onlyAborts _), and_iff_right hlt,
            (RenderPlan.make_eq_ok hplan).exists_rows_iff himage hlt.le]
        · rw [rendered_of_le hplan (Nat.le_of_not_lt hlt)]
          refine ⟨fun hstopped => ?_, fun hboth => absurd hboth.1 hlt⟩
          cases hnever _ hstopped
      · intro hlt hnone
        rw [← (RenderPlan.make_eq_ok hplan).exists_rows_iff himage hlt.le] at hnone
        rw [rendered_of_lt hplan hlt,
          (layOut_onlyAborts fun _ _ => plan.row_onlyAborts _).eq_error_iff.mpr hnone]
        rfl
      · intro hle
        rw [rendered_of_le hplan hle]
    · rw [render_apply_eq, Edit.commit_fst_eq_error_iff, hnever.eq_error_iff,
        exists_rendered_never_iff hplan himage]
      split
      next hrows =>
        obtain ⟨result, hresult⟩ := (exists_rendered_never_iff hplan himage).mpr hrows
        rw [hresult]
        exact ⟨_, _, rfl⟩
      next hrows => exact hrows
    · intro hrange hwidth hheight rows hrows hcolors y hy
      obtain ⟨stored, hstored, hpixels, -⟩ := hpossible.renderable.map
      obtain rfl := Option.some.inj (himage.symm.trans hstored)
      exact Raster.rowReadable_of_inRange (hcolors y hy (Nat.lt_of_lt_of_le hy hrows)) hpixels
        hrange hwidth hheight
  · intro stop lightLevel after h
    obtain ⟨plan, samples, hplan, hpermits, hlevel, hpicture, rfl⟩ := render_eq_ok_iff.mp h
    have hsettled := RenderPlan.make_eq_ok hplan
    have hpossible := RenderPlan.exists_make_iff.mp ⟨plan, hplan⟩
    obtain ⟨hsize, -⟩ := hsettled.pixels_of_picture hpicture
    refine ⟨rfl, hsize, fun hmemory => ?_, fun before => ?_⟩
    · exact Raster.hasPixels_of_fitsMemory hpossible.renderable.basePixels hmemory hsettled.width
        hsettled.height hsize
    · have hsame : RenderPlan.make base g headroom { output with samples := before } =
          RenderPlan.make base g headroom output := rfl
      exact render_eq_ok_iff.mpr
        ⟨plan, samples, hsame.trans hplan, hpermits, hlevel, hpicture, rfl⟩

/-- A base of one row takes one check, whatever samples the output starts with. -/
theorem grayPair_atomic :
    (oneGain.render grayPair 0 ⟨some 0, .cancelled⟩).apply wideOutput =
      (.error (.stopped .cancelled), wideOutput) ∧
    (∃ lightLevel after, (oneGain.render grayPair 0 ⟨some 1, .cancelled⟩).apply wideOutput =
        (.ok lightLevel, after) ∧
      (oneGain.render grayPair 0 .never).apply { wideOutput with samples := #[7] } =
        (.ok lightLevel, after) ∧
      after = { wideOutput with samples := after.samples, lightLevel } ∧
      after.hasPixels = true) ∧
    ∃ failure : Failure, failure.category = .invalidParameter ∧
      ∀ stop, (oneGain.render grayPair 0 stop).apply grayPair = (.error failure, grayPair) := by
  have hrenderable : oneGain.Renderable grayPair := by
    refine ⟨rfl, by decide, by decide, ⟨_, rfl, rfl, by decide, fun _ => rfl⟩, rfl, by decide⟩
  have htakes : wideOutput.Takes grayPair := ⟨rfl, rfl, by decide, by decide, by decide⟩
  have hpossible : RenderPlan.Possible oneGain grayPair 0 wideOutput :=
    ⟨⟨by decide +kernel, by decide +kernel⟩, hrenderable, htakes⟩
  obtain ⟨hfailed, -, hresults, hstored⟩ := render_atomic oneGain grayPair 0 wideOutput
  obtain ⟨-, hrefused, -, -⟩ := render_atomic oneGain grayPair 0 grayPair
  obtain ⟨hstopped, hnever, hreadable⟩ := hresults hpossible _ rfl
  have hrows := hreadable (by decide +kernel) (by decide) (by decide) _ (Nat.le_refl _) (by decide)
  rw [if_pos hrows] at hnever
  obtain ⟨lightLevel, after, hnever⟩ := hnever
  refine ⟨?_, ?_, hrefused fun h => h.takes.layout rfl⟩
  · have hresult := (hstopped 0 .cancelled).1.mpr
      ⟨by decide, fun y hy => absurd hy (Nat.not_lt_zero y)⟩
    exact Prod.ext hresult (hfailed _ _ _ (Prod.ext hresult rfl))
  · have hpassed := (hstopped 1 .cancelled).2.2 (by decide)
    obtain ⟨hafter, -, hpixels, hsamples⟩ := hstored _ _ _ hnever
    exact ⟨lightLevel, _, hpassed.trans hnever, hsamples #[7], hafter, hpixels (by decide)⟩

/-- An output of two rows. -/
def columnOutput : Image := .ofRaster ⟨⟨8, .rgb, .bt709, .srgb, .unknown⟩, 1, 2, #[]⟩

/-- A base whose first sample is over the largest code. The stop would end the call before the
second row, but the first one has ended the program by then. -/
theorem render_not_stopped :
    RenderPlan.Possible oneGain (grayColumn 2 0) 0 columnOutput ∧
    ((oneGain.render (grayColumn 2 0) 0 ⟨some 1, .cancelled⟩).apply columnOutput).1 =
      .error .absentEntry ∧
    ¬(((oneGain.render (grayColumn 2 0) 0 ⟨some 1, .cancelled⟩).apply columnOutput).1 =
        .error (.stopped .cancelled) ↔ 1 < (grayColumn 2 0).height.toNat) := by
  have hrenderable : oneGain.Renderable (grayColumn 2 0) := by
    refine ⟨rfl, by decide, by decide, ⟨_, rfl, rfl, by decide, fun _ => rfl⟩, rfl, by decide⟩
  have hpossible : RenderPlan.Possible oneGain (grayColumn 2 0) 0 columnOutput :=
    ⟨⟨by decide +kernel, by decide +kernel⟩, hrenderable,
      ⟨rfl, rfl, by decide, by decide, by decide⟩⟩
  have haborted : ((oneGain.render (grayColumn 2 0) 0 ⟨some 1, .cancelled⟩).apply
      columnOutput).1 = .error .absentEntry := by
    obtain ⟨plan, hplan⟩ := RenderPlan.exists_make_iff.mpr hpossible
    have hnone : ¬∃ samples, layOut 1 plan.row = .ok samples := by
      rw [(RenderPlan.make_eq_ok hplan).exists_rows_iff rfl (by decide)]
      intro hrows
      exact absurd (hrows 0 (by decide)).rowInRange (by decide)
    rw [render_apply_eq, Edit.commit_fst_eq_error_iff, rendered_of_lt hplan (by decide),
      (layOut_onlyAborts fun _ _ => plan.row_onlyAborts _).eq_error_iff.mpr hnone]
    rfl
  refine ⟨hpossible, haborted, ?_⟩
  rw [haborted]
  intro hiff
  cases hiff.mpr (by decide)

end Rendering

end GainMapOf

end DualRendition
