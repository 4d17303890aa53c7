import DualRendition.Proofs.Encoder.Invariant

/-!
# Requests that can be exchanged

One content can be offered to a session in several ways. An image is a grid of one cell that is
shown for some time, and a grid whose cells own gain maps is that grid beside a grid of these gain
maps: `ways_of_adding_agree` proves that the session takes the one exactly when it takes the other,
and is the same afterwards but for the duration of the new frame.

The two are compared by what they submit (`submission_single`, `submission_owned`): a session only
sees the submission.
-/

namespace DualRendition

namespace Encoder

variable {e : Encoder} {s : Submission}

/-! ## An image is a grid of one cell -/

/-- A picture that is taken has pixels in all cells. -/
theorem Accepts.hasPixels (hs : e.Accepts s) : ∀ cell ∈ s.color.cells, cell.hasPixels = true := by
  obtain ⟨l, hl, -⟩ := hs.color
  obtain ⟨first, hlegal, -⟩ := ImageGrid.layout_eq_ok_iff.mp hl
  exact hlegal.pixels

/-- The grid of one cell submits what the image does, for no time. -/
theorem submission_single (image : Image) (flags : AddFlags) :
    (Request.grid (.single image) flags).submission =
      .ok ⟨.single image.withoutGainMap, image.gainMap.map .single, 0, flags⟩ := by
  show Submission.ofGrid (.single image) flags = _
  unfold Submission.ofGrid Submission.ownedGainMaps Grid.single
  dsimp only
  rw [List.filterMap_cons, List.filterMap_nil]
  cases image.gainMap <;> rfl

/-- An image and the grid that has it as its only cell are both refused, or both are added, and then
the sessions differ in the duration of the new frame. -/
theorem perform_image_cases (e : Encoder) (image : Image) (duration : UInt64) (flags : AddFlags) :
    (∃ color gainMap closed,
      (perform (.image image duration flags)).apply e =
        (.ok (), ⟨e.frames ++ [⟨color, duration⟩], gainMap, closed⟩) ∧
      (perform (.grid (.single image) flags)).apply e =
        (.ok (), ⟨e.frames ++ [⟨color, 0⟩], gainMap, closed⟩)) ∨
    ∃ failure failure',
      (perform (.image image duration flags)).apply e = (.error failure, e) ∧
      (perform (.grid (.single image) flags)).apply e = (.error failure', e) := by
  rcases perform_cases e (.grid (.single image) flags) with
    ⟨s, hsubmission, hs, hgrid⟩ | ⟨failure', hgrid⟩
  · -- the only cell has pixels, and no other check tells the two apart
    obtain rfl := Except.ok.inj ((submission_single image flags).symm.trans hsubmission)
    have hpixels : image.hasPixels = true := hs.hasPixels image.withoutGainMap (.head _)
    have himage : (Request.image image duration flags).submission =
        .ok ⟨.single image.withoutGainMap, image.gainMap.map .single, duration, flags⟩ := by
      show Submission.ofImage image duration flags = _
      unfold Submission.ofImage
      rw [if_pos hpixels]
    have htakes : e.Accepts
        ⟨.single image.withoutGainMap, image.gainMap.map .single, duration, flags⟩ :=
      ⟨hs.unclosed, hs.alone, hs.color, hs.gainMap⟩
    exact .inl ⟨_, _, _, perform_ok himage htakes, hgrid⟩
  · rcases perform_cases e (.image image duration flags) with
      ⟨s, hsubmission, hs, -⟩ | ⟨failure, himage⟩
    · -- what is taken as an image is taken as a cell
      obtain rfl := submission_eq hsubmission
      have htakes : e.Accepts
          ⟨.single image.withoutGainMap, image.gainMap.map .single, 0, flags⟩ :=
        ⟨hs.unclosed, hs.alone, hs.color, hs.gainMap⟩
      rw [perform_ok (submission_single image flags) htakes] at hgrid
      cases congrArg Prod.fst hgrid
    · exact .inr ⟨failure, failure', himage, hgrid⟩

/-! ## Owned gain maps are a grid -/

/-- Cells that all own gain maps bring these as a grid of their own shape. -/
theorem submission_owned {g : ImageGrid} {gainMaps : List GainMap} (hcells : g.cells ≠ [])
    (howned : g.cells.map (·.gainMap) = gainMaps.map some) (flags : AddFlags) :
    (Request.grid g flags).submission =
      (Request.grids g ⟨g.columns, g.rows, gainMaps⟩ flags).submission := by
  have hlength : gainMaps.length = g.cells.length := by
    rw [← List.length_map (f := some), ← howned, List.length_map]
  have hsome : ¬gainMaps.isEmpty = true := by
    rw [List.isEmpty_iff]
    rintro rfl
    exact hcells (List.eq_nil_of_length_eq_zero hlength.symm)
  show Submission.ofGrid g flags = .ok (Submission.ofGrids g ⟨g.columns, g.rows, gainMaps⟩ flags)
  unfold Submission.ofGrid Submission.ownedGainMaps
  dsimp only
  rw [GainMapGrid.filterMap_eq_of_map_eq howned, if_neg hsome, if_pos hlength]
  rfl

/-- **Ways of adding one content agree.** In any session, an image is taken exactly when the grid
that has it as its only cell is, and the sessions afterwards differ in the duration of the new frame
alone. A grid of cells that all own gain maps gets the answer that it gets beside the grid of these
gain maps, and leaves the same session. -/
theorem ways_of_adding_agree (e : Encoder) (flags : AddFlags) :
    (∀ (image : Image) (duration : UInt64),
      (∃ color gainMap closed,
        (perform (.image image duration flags)).apply e =
          (.ok (), ⟨e.frames ++ [⟨color, duration⟩], gainMap, closed⟩) ∧
        (perform (.grid (.single image) flags)).apply e =
          (.ok (), ⟨e.frames ++ [⟨color, 0⟩], gainMap, closed⟩)) ∨
      ∃ failure failure',
        (perform (.image image duration flags)).apply e = (.error failure, e) ∧
        (perform (.grid (.single image) flags)).apply e = (.error failure', e)) ∧
    ∀ (g : ImageGrid) (gainMaps : List GainMap), g.cells ≠ [] →
      g.cells.map (·.gainMap) = gainMaps.map some →
      (perform (.grid g flags)).apply e =
        (perform (.grids g ⟨g.columns, g.rows, gainMaps⟩ flags)).apply e := by
  refine ⟨fun image duration => perform_image_cases e image duration flags, ?_⟩
  intro g gainMaps hcells howned
  rw [perform_apply, perform_apply, submission_owned hcells howned]

/-- A picture with a gain map of its own, as an image and as cells. -/
theorem lonePixel_exchanged :
    (∃ color gainMap closed,
      (perform (.image lonePixel 5 .singleImage)).apply start =
        (.ok (), ⟨[⟨color, 5⟩], gainMap, closed⟩) ∧
      (perform (.grid (.single lonePixel) .singleImage)).apply start =
        (.ok (), ⟨[⟨color, 0⟩], gainMap, closed⟩)) ∧
    ∃ owned, lonePixel.gainMap = some owned ∧
      (perform (.grid ⟨2, 1, [lonePixel, lonePixel]⟩ .none)).apply start =
        (perform (.grids ⟨2, 1, [lonePixel, lonePixel]⟩ ⟨2, 1, [owned, owned]⟩ .none)).apply start ∧
      ((perform (.grid ⟨2, 1, [lonePixel, lonePixel]⟩ .none)).apply start).1 = .ok () := by
  obtain ⟨himage, -⟩ := ways_of_adding_agree start .singleImage
  obtain ⟨-, howned⟩ := ways_of_adding_agree start .none
  refine ⟨?_, _, rfl, howned ⟨2, 1, [lonePixel, lonePixel]⟩ _ (List.cons_ne_nil _ _) rfl, rfl⟩
  rcases himage lonePixel 5 with htaken | ⟨failure, -, hrefused, -⟩
  · exact htaken
  · have htaken : ((perform (.image lonePixel 5 .singleImage)).apply start).1 = .ok () := rfl
    rw [hrefused] at htaken
    cases htaken

end Encoder

end DualRendition
