import DualRendition.Encoder
import DualRendition.Proofs.Grid.Layout

/-!
# What one request does to an encoding session

The three ways of adding an image come down to one: a request brings a picture in cells, maybe a
gain map in cells, a duration and flags (`Request.color`, `Request.gainMap`, …), and its submission
is exactly these, the gain maps taken out of the picture (`submission_eq`).

`Encoder.Accepts` says when a session takes a submission, and `perform_cases` is all that a request
can do: an accepted one is appended, any other leaves the session as it was.
-/

namespace DualRendition

namespace Encoder

namespace Request

/-- The cells of the picture. -/
def color : Request → ImageGrid
  | image i _ _ => .single i
  | grid g _ => g
  | grids g _ _ => g

/-- The cells of the gain map. Those that the cells of a picture own are shaped like the picture. -/
def gainMap : Request → Option GainMapGrid
  | image i _ _ => i.gainMap.map .single
  | grid g _ =>
    let owned := g.cells.filterMap (·.gainMap)
    if owned.isEmpty then none else some ⟨g.columns, g.rows, owned⟩
  | grids _ g _ => some g

/-- How long the frame is shown; a picture in cells is a still image. -/
def duration : Request → UInt64
  | image _ duration _ => duration
  | grid _ _ => 0
  | grids _ _ _ => 0

def flags : Request → AddFlags
  | image _ _ flags => flags
  | grid _ flags => flags
  | grids _ _ flags => flags

/-- The frame that is stored for the request. -/
def frame (r : Request) : Frame := ⟨r.color.map Image.withoutGainMap, r.duration⟩

end Request

/-- A request that submits anything submits its picture without gain maps, and its gain map. -/
theorem submission_eq {r : Request} {s : Submission} (h : r.submission = .ok s) :
    s = ⟨r.color.map Image.withoutGainMap, r.gainMap, r.duration, r.flags⟩ := by
  cases r with
  | image i duration flags =>
    change Submission.ofImage i duration flags = .ok s at h
    unfold Submission.ofImage at h
    split at h
    next => exact (Except.ok.inj h).symm
    next => cases h
  | grid g flags =>
    change Submission.ofGrid g flags = .ok s at h
    unfold Submission.ofGrid at h
    obtain ⟨owned, howned, hs⟩ := Outcome.bind_eq_ok.mp h
    -- with no gain map there is none to submit, and with some there has to be one in every cell
    have heq : owned = Request.gainMap (.grid g flags) := by
      unfold Submission.ownedGainMaps at howned
      unfold Request.gainMap
      dsimp only at howned ⊢
      split at howned
      next hempty =>
        rw [if_pos hempty]
        exact (Except.ok.inj howned).symm
      next hempty =>
        rw [if_neg hempty]
        split at howned
        next => exact (Except.ok.inj howned).symm
        next => cases howned
    rw [← Outcome.pure_eq_ok.mp hs, heq]
    rfl
  | grids g gainMap flags => exact (Except.ok.inj h).symm

/-- No cell of a stored frame owns a gain map. -/
theorem Request.frame_bare (r : Request) : ∀ cell ∈ r.frame.color.cells, cell.gainMap = none := by
  intro stripped hstripped
  obtain ⟨cell, -, rfl⟩ := List.mem_map.mp hstripped
  rfl

/-! ## Acceptance -/

/-- A gain map in cells that can be stored: all cells have images, the grid is valid, and the
samples are gray or RGB. -/
structure Storable (g : GainMapGrid) : Prop where
  images : ∀ cell ∈ g.cells, cell.image.isSome
  layout : ∃ l, g.layout = .ok l ∧ l.cellLayout ≠ .rgba

theorem checkGainMap_eq_ok_iff {g : GainMapGrid} :
    Submission.checkGainMap g = .ok () ↔ Storable g := by
  unfold Submission.checkGainMap
  dsimp only
  simp only [Outcome.throw_eq, Outcome.error_bind, Outcome.guard_eq_ok, Outcome.bind_eq_ok,
    Outcome.pure_eq, and_true]
  constructor
  · intro h
    obtain ⟨himages, l, hl, hlayout⟩ := h
    exact ⟨by simpa [Option.isSome_iff_ne_none] using himages, l, hl, hlayout⟩
  · intro h
    obtain ⟨l, hl, hlayout⟩ := h.layout
    exact ⟨by simpa [Option.isSome_iff_ne_none] using h.images, l, hl, hlayout⟩

/-- When a session takes a submission. -/
structure Accepts (e : Encoder) (s : Submission) : Prop where
  unclosed : e.closed = false
  alone : e.frames ≠ [] →
    e.gainMap = none ∧ s.gainMap = none ∧ s.flags.contains .singleImage = false
  color : ∃ l, s.color.layout = .ok l ∧ ∀ first, e.frames.head? = some first →
    ∃ whole, first.color.layout = .ok whole ∧ whole.width = l.width ∧ whole.height = l.height
  gainMap : ∀ g, s.gainMap = some g → Storable g

theorem checkTurn_eq_ok_iff {e : Encoder} {s : Submission} :
    e.checkTurn s = .ok () ↔
      e.closed = false ∧ (e.frames ≠ [] →
        e.gainMap = none ∧ s.gainMap = none ∧ s.flags.contains .singleImage = false) := by
  unfold checkTurn
  dsimp only
  simp only [Outcome.throw_eq, Outcome.error_bind, Outcome.pure_eq, Outcome.guard_eq_ok,
    Bool.not_eq_true]
  refine and_congr_right fun _ => ?_
  -- only a session with frames has more to check
  cases e.frames with
  | nil => simp
  | cons first rest =>
    rw [if_pos (by rfl), Outcome.guard_eq_ok, Outcome.guard_eq_ok]
    simp [and_assoc]

theorem checkColor_eq_ok_iff {e : Encoder} {color : ImageGrid} :
    e.checkColor color = .ok () ↔
      ∃ l, color.layout = .ok l ∧ ∀ first, e.frames.head? = some first →
        ∃ whole, first.color.layout = .ok whole ∧
          whole.width = l.width ∧ whole.height = l.height := by
  unfold checkColor
  rw [Outcome.bind_eq_ok]
  refine exists_congr fun l => and_congr_right fun _ => ?_
  cases e.frames with
  | nil => simp [Outcome.pure_eq]
  | cons first rest =>
    dsimp only
    simp only [Outcome.bind_eq_ok, Outcome.throw_eq, Outcome.guard_eq_ok, Outcome.pure_eq,
      and_true]
    constructor
    · intro h first' hfirst
      obtain rfl := Option.some.inj hfirst
      obtain ⟨whole, hwhole, hsize⟩ := h
      rw [not_or] at hsize
      exact ⟨whole, hwhole, Decidable.not_not.mp hsize.1, Decidable.not_not.mp hsize.2⟩
    · intro h
      obtain ⟨whole, hwhole, hwidth, hheight⟩ := h first rfl
      exact ⟨whole, hwhole, not_or.mpr ⟨not_not_intro hwidth, not_not_intro hheight⟩⟩

/-- The checks before an image is added pass exactly when the session accepts it. -/
theorem check_eq_ok_iff {e : Encoder} {s : Submission} : e.check s = .ok () ↔ e.Accepts s := by
  obtain ⟨color, gainMap, duration, flags⟩ := s
  unfold check
  rw [Outcome.check_bind_eq_ok, Outcome.check_bind_eq_ok, checkTurn_eq_ok_iff,
    checkColor_eq_ok_iff]
  cases gainMap with
  | none =>
    refine ⟨?_, fun h => ⟨⟨h.unclosed, h.alone⟩, h.color, rfl⟩⟩
    intro h
    obtain ⟨⟨hunclosed, halone⟩, hcolor, -⟩ := h
    exact ⟨hunclosed, halone, hcolor, fun _ hg => nomatch hg⟩
  | some g =>
    refine ⟨?_, fun h => ⟨⟨h.unclosed, h.alone⟩, h.color, ?_⟩⟩
    · intro h
      obtain ⟨⟨hunclosed, halone⟩, hcolor, hgainMap⟩ := h
      refine ⟨hunclosed, halone, hcolor, ?_⟩
      intro g' hg'
      obtain rfl := Option.some.inj hg'
      exact checkGainMap_eq_ok_iff.mp hgainMap
    · exact checkGainMap_eq_ok_iff.mpr (h.gainMap g rfl)

/-! ## The step -/

theorem add_apply (e : Encoder) (s : Submission) :
    (add s).apply e =
      match e.check s with
      | .ok () => (.ok (), e.append s)
      | .error failure => (.error failure, e) := by
  show ((Edit.ofOutcome (e.check s) >>= fun _ => modify (·.append s)) : Edit Encoder Unit).apply e
    = _
  rw [Edit.apply_bind, Edit.apply_ofOutcome]
  cases e.check s <;> rfl

theorem perform_apply (e : Encoder) (r : Request) :
    (perform r).apply e =
      match r.submission with
      | .ok s => (add s).apply e
      | .error failure => (.error failure, e) := by
  show (Edit.ofOutcome r.submission >>= add).apply e = _
  rw [Edit.apply_bind, Edit.apply_ofOutcome]
  cases r.submission <;> rfl

/-- An accepted submission is appended. -/
theorem perform_ok {e : Encoder} {r : Request} {s : Submission} (hsubmission : r.submission = .ok s)
    (hs : e.Accepts s) : (perform r).apply e = (.ok (), e.append s) := by
  rw [perform_apply, hsubmission]
  dsimp only
  rw [add_apply, check_eq_ok_iff.mpr hs]

/-- **The step.** A request is appended once its submission is accepted, or else it is refused
without a trace. -/
theorem perform_cases (e : Encoder) (r : Request) :
    (∃ s, r.submission = .ok s ∧ e.Accepts s ∧ (perform r).apply e = (.ok (), e.append s)) ∨
    ∃ failure, (perform r).apply e = (.error failure, e) := by
  cases hsubmission : r.submission with
  | error failure =>
    right
    exact ⟨failure, by rw [perform_apply, hsubmission]⟩
  | ok s =>
    cases hcheck : e.check s with
    | error failure =>
      right
      refine ⟨failure, ?_⟩
      rw [perform_apply, hsubmission]
      dsimp only
      rw [add_apply, hcheck]
    | ok accepted =>
      left
      have hs := check_eq_ok_iff.mp hcheck
      exact ⟨s, rfl, hs, perform_ok hsubmission hs⟩

/-- A run is the first request and the run after it. -/
theorem run_cons (e : Encoder) (r : Request) (rest : List Request) :
    run e (r :: rest) =
      (((perform r).apply e).1 :: (run ((perform r).apply e).2 rest).1,
       (run ((perform r).apply e).2 rest).2) := rfl

/-! ## Finishing -/

/-- A finished session hands out its frames, of which there is one, and its gain map as an item. -/
theorem finish_eq_ok {e : Encoder} {stored : StoredImage} (h : e.finish = .ok stored) :
    e.frames ≠ [] ∧ stored.frames = e.frames ∧
    e.gainMap.mapM gainMapItem = .ok stored.gainMap := by
  unfold finish at h
  dsimp only at h
  simp only [Outcome.throw_eq, Outcome.error_bind, Outcome.guard_eq_ok] at h
  obtain ⟨hempty, hrest⟩ := h
  obtain ⟨item, hitem, hstored⟩ := Outcome.bind_eq_ok.mp hrest
  obtain rfl := Outcome.pure_eq_ok.mp hstored
  exact ⟨fun hnil => hempty (List.isEmpty_iff.mpr hnil), rfl, hitem⟩

/-- The item of a gain map has its images, its metadata as a payload, and the alternate rendition of
its first cell. -/
theorem gainMapItem_eq_ok_iff {g : GainMapGrid} {item : GainMapItem} :
    gainMapItem g = .ok item ↔
      ∃ first firstImage, g.Legal first item.image firstImage ∧
        Payload.write first.metadata = .ok item.payload ∧ item.alternate = first.alternate := by
  unfold gainMapItem
  rw [Outcome.bind_eq_ok]
  constructor
  · intro h
    obtain ⟨l, hl, hrest⟩ := h
    obtain ⟨first, images, firstImage, hlegal, rfl⟩ := GainMapGrid.layout_eq_ok_iff.mp hl
    obtain ⟨payload, hpayload, hrest⟩ := Outcome.bind_eq_ok.mp hrest
    obtain ⟨cell, hcell, hitem⟩ := Outcome.bind_eq_ok.mp hrest
    obtain rfl : cell = first := by
      have hhead := (GainMapGrid.firstCell_eq_ok_iff.mp hcell).2
      exact Option.some.inj (hhead.symm.trans hlegal.head)
    obtain rfl := Outcome.pure_eq_ok.mp hitem
    refine ⟨cell, firstImage, ?_, hpayload, rfl⟩
    rw [GainMapGrid.pick_images hlegal.cellImages]
    exact hlegal
  · intro h
    obtain ⟨first, firstImage, hlegal, hpayload, halternate⟩ := h
    refine ⟨_, GainMapGrid.layout_eq_ok_iff.mpr ⟨first, _, firstImage, hlegal, rfl⟩, ?_⟩
    rw [GainMapGrid.pick_images hlegal.cellImages,
      GainMapGrid.firstCell_eq_ok_iff.mpr ⟨hlegal.filled, hlegal.head⟩]
    show (Payload.write first.metadata >>= _) = _
    rw [hpayload, Outcome.ok_bind, Outcome.ok_bind, ← halternate]
    rfl

theorem encode_eq_finish {image : Image} {e : Encoder}
    (h : (perform (.image image 1 .singleImage)).apply start = (.ok (), e)) :
    encode image = e.finish := by
  unfold encode
  rw [h]
  rfl

/-- A session with frames is finished when its gain map can be made an item. -/
theorem finish_ok {e : Encoder} {item : Option GainMapItem} (hframes : e.frames ≠ [])
    (hitem : e.gainMap.mapM gainMapItem = .ok item) : e.finish = .ok ⟨e.frames, item⟩ := by
  unfold finish
  dsimp only
  rw [if_neg fun hempty => hframes (List.isEmpty_iff.mp hempty), hitem]
  rfl

end Encoder

end DualRendition
