import DualRendition.Proofs.Encoder.Step

/-!
# What every encoding session keeps

`Encoder.Invariant` holds of a new session and survives every request, accepted or refused, in
whatever order they come: `run_invariant`. Two facts about whole sessions follow, and with it make
up `run_keeps_invariant`: a stored image with a gain map has one frame, and after an image that was
added as single every request is refused.

Structure: `Invariant.append` carries the invariant over an accepted submission; by `perform_cases`
nothing else changes a session.
-/

namespace DualRendition

namespace Encoder

/-- All pictures are valid and of one size. -/
def SameSize (frames : List Frame) : Prop :=
  ∃ width height, ∀ frame ∈ frames, ∃ l, frame.color.layout = .ok l ∧
    l.width = width ∧ l.height = height

/-- What holds of a session at any time. -/
structure Invariant (e : Encoder) : Prop where
  /-- A frame with a gain map, or one added as single, is the only one. -/
  alone : e.gainMap.isSome ∨ e.closed = true → e.frames.length = 1
  sameSize : SameSize e.frames
  /-- No cell of a picture owns a gain map. -/
  bare : ∀ frame ∈ e.frames, ∀ cell ∈ frame.color.cells, cell.gainMap = none
  storable : ∀ g, e.gainMap = some g → Storable g

theorem start_invariant : start.Invariant where
  alone := by
    intro h
    rcases h with h | h <;> cases h
  sameSize := ⟨0, 0, fun _ hframe => nomatch hframe⟩
  bare := fun _ hframe => nomatch hframe
  storable := fun _ hg => nomatch hg

/-! ## One request -/

variable {e : Encoder} {s : Submission}

theorem mem_append_frames {frame : Frame} (h : frame ∈ (e.append s).frames) :
    frame ∈ e.frames ∨ frame = ⟨s.color, s.duration⟩ := by
  rcases List.mem_append.mp h with hold | hnew
  · exact .inl hold
  · exact .inr (List.mem_singleton.mp hnew)

/-- With frames before it, an accepted submission has no gain map and is not single. -/
theorem Accepts.alone_append (hs : e.Accepts s)
    (hlone : (e.append s).gainMap.isSome ∨ (e.append s).closed = true) :
    (e.append s).frames.length = 1 := by
  by_cases hframes : e.frames = []
  · show (e.frames ++ [_]).length = 1
    rw [hframes]
    rfl
  · obtain ⟨hnone, hnone', hflags⟩ := hs.alone hframes
    rcases hlone with hgainMap | hclosed
    · have hempty : (e.append s).gainMap = none := by
        show (s.gainMap <|> e.gainMap) = none
        rw [hnone, hnone']
        rfl
      rw [hempty] at hgainMap
      cases hgainMap
    · have hopen : (e.append s).closed = false := hflags
      rw [hopen] at hclosed
      cases hclosed

/-- An accepted submission is as large as the first frame, which is as large as every other. -/
theorem Accepts.sameSize_append (hs : e.Accepts s) (h : SameSize e.frames) :
    SameSize (e.append s).frames := by
  obtain ⟨l, hl, hsize⟩ := hs.color
  refine ⟨l.width, l.height, ?_⟩
  intro frame hframe
  rcases mem_append_frames hframe with hold | rfl
  · obtain ⟨width, height, hsame⟩ := h
    cases hframes : e.frames with
    | nil =>
      rw [hframes] at hold
      cases hold
    | cons first rest =>
      have hfirst : e.frames.head? = some first := by
        rw [hframes]
        rfl
      obtain ⟨whole, hwhole, hwidth, hheight⟩ := hsize first hfirst
      obtain ⟨whole', hwhole', rfl, rfl⟩ := hsame first (List.mem_of_mem_head? hfirst)
      obtain rfl : whole = whole' := Except.ok.inj (hwhole.symm.trans hwhole')
      obtain ⟨l', hl', hwidth', hheight'⟩ := hsame frame hold
      exact ⟨l', hl', hwidth'.trans hwidth, hheight'.trans hheight⟩
  · exact ⟨l, hl, rfl, rfl⟩

/-- The gain map of a session is the submitted one, or else the one it had. -/
theorem Accepts.storable_append (hs : e.Accepts s) (h : ∀ g, e.gainMap = some g → Storable g) :
    ∀ g, (e.append s).gainMap = some g → Storable g := by
  intro g hg
  change (s.gainMap <|> e.gainMap) = some g at hg
  cases hnew : s.gainMap with
  | some g' =>
    rw [hnew] at hg
    exact hs.gainMap g (hnew.trans hg)
  | none =>
    rw [hnew] at hg
    exact h g hg

/-- An accepted submission without gain maps in its cells keeps the invariant. -/
theorem Invariant.append (h : e.Invariant) (hs : e.Accepts s)
    (hbare : ∀ cell ∈ s.color.cells, cell.gainMap = none) : (e.append s).Invariant := by
  refine ⟨hs.alone_append, hs.sameSize_append h.sameSize, ?_, hs.storable_append h.storable⟩
  intro frame hframe
  rcases mem_append_frames hframe with hold | rfl
  · exact h.bare frame hold
  · exact hbare

theorem perform_invariant (h : e.Invariant) (r : Request) :
    ((perform r).apply e).2.Invariant := by
  rcases perform_cases e r with ⟨s, hsubmission, hs, happly⟩ | ⟨failure, happly⟩
  · rw [happly]
    refine h.append hs ?_
    rw [submission_eq hsubmission]
    exact r.frame_bare
  · rw [happly]
    exact h

/-- A closed session refuses every request. -/
theorem perform_closed (h : e.closed = true) (r : Request) :
    ∃ failure, (perform r).apply e = (.error failure, e) := by
  rcases perform_cases e r with ⟨s, -, hs, -⟩ | hrefused
  · have hopen := hs.unclosed
    rw [h] at hopen
    cases hopen
  · exact hrefused

/-- An image that is taken as single closes the session. -/
theorem closed_of_single {r : Request} (hflags : r.flags.contains .singleImage = true)
    (hok : ((perform r).apply e).1 = .ok ()) : ((perform r).apply e).2.closed = true := by
  rcases perform_cases e r with ⟨s, hsubmission, -, happly⟩ | ⟨failure, happly⟩
  · rw [happly]
    show s.flags.contains .singleImage = true
    rw [submission_eq hsubmission]
    exact hflags
  · rw [happly] at hok
    cases hok

/-! ## Whole sessions -/

/-- A run keeps the invariant. -/
theorem run_invariant (rs : List Request) :
    ∀ {e : Encoder}, e.Invariant → (run e rs).2.Invariant := by
  induction rs with
  | nil =>
    intro e h
    exact h
  | cons r rest ih =>
    intro e h
    rw [run_cons]
    exact ih (perform_invariant h r)

theorem run_closed (rs : List Request) : ∀ {e : Encoder}, e.closed = true →
    ∀ answer ∈ (run e rs).1, ∃ failure, answer = .error failure := by
  induction rs with
  | nil =>
    intro e _ answer hanswer
    cases hanswer
  | cons r rest ih =>
    intro e h answer hanswer
    obtain ⟨failure, happly⟩ := perform_closed h r
    rw [run_cons, happly] at hanswer
    rcases List.mem_cons.mp hanswer with rfl | hlater
    · exact ⟨failure, rfl⟩
    · exact ih h answer hlater

/-- **The invariant of encoding sessions.** It holds after any list of requests to a new session.
Hence a stored image with a gain map has exactly one frame, and once an image is taken as single,
all later requests are refused. -/
theorem run_keeps_invariant (rs : List Request) :
    (run start rs).2.Invariant ∧
    (∀ stored, (run start rs).2.finish = .ok stored → stored.gainMap.isSome →
      stored.frames.length = 1) ∧
    ∀ r, r.flags.contains .singleImage = true → ((perform r).apply (run start rs).2).1 = .ok () →
      ∀ later, ∀ answer ∈ (run ((perform r).apply (run start rs).2).2 later).1,
        ∃ failure, answer = .error failure := by
  have hinvariant := run_invariant rs start_invariant
  refine ⟨hinvariant, ?_, ?_⟩
  · intro stored hfinish hsome
    obtain ⟨-, hframes, hitem⟩ := finish_eq_ok hfinish
    rw [hframes]
    refine hinvariant.alone (.inl ?_)
    cases hgainMap : (run start rs).2.gainMap with
    | some g => rfl
    | none =>
      rw [hgainMap] at hitem
      obtain hnone : none = stored.gainMap := Except.ok.inj hitem
      rw [← hnone] at hsome
      cases hsome
  · intro r hflags hok later
    exact run_closed later (closed_of_single hflags hok)

/-- A picture of one pixel that owns a gain map of one gray pixel. -/
def lonePixel : Image where
  depth := 8
  layout := .rgb
  primaries := .bt709
  transfer := .srgb
  lightLevel := .unknown
  width := 1
  height := 1
  samples := #[64, 128, 192]
  gainMap := some
    { image := some (.ofRaster
        ⟨⟨8, .gray, .unspecified, .unspecified, .unknown⟩, 1, 1, #[255]⟩)
      metadata := ⟨false, true, ⟨0, 1⟩, ⟨1, 1⟩,
        .replicate ⟨⟨0, 1⟩, ⟨1, 1⟩, ⟨1, 1⟩, ⟨1, 64⟩, ⟨1, 64⟩⟩⟩
      alternate := ⟨10, .rgb, .bt2100, .pq, ⟨1000, 400⟩⟩ }

theorem lonePixel_session :
    (∃ stored, (run start [.image lonePixel 1 .singleImage]).2.finish = .ok stored ∧
      stored.frames.length = 1) ∧
    ∀ later, ∀ answer ∈ (run (run start [.image lonePixel 1 .singleImage]).2 later).1,
      ∃ failure, answer = .error failure := by
  obtain ⟨-, hone, -⟩ := run_keeps_invariant [.image lonePixel 1 .singleImage]
  obtain ⟨-, -, hlater⟩ := run_keeps_invariant []
  exact ⟨⟨_, rfl, hone _ rfl rfl⟩, hlater (.image lonePixel 1 .singleImage) rfl rfl⟩

end Encoder

end DualRendition
