import DualRendition.Proofs.Decoder.Options
import DualRendition.Proofs.Payload.Grammar

/-!
# Frames that are validated, and frames that are not

The layout of a picture is looked at in three places while a source is decoded: parsing reads the
header of the first frame, stitching that of every picture in several cells, and without colour the
header is all that is read. `delivered_valid` says what follows: a first frame, a frame in several
cells, and any frame without colour is handed out only with a valid layout, and otherwise refused.
With colour, a single cell of a later frame is seen by none of them. It is handed out whatever the
counts of its grid say, and if there is none, a cell is asked for that is not there:
`torn_delivered`.

Structure: `Outcome.Returns` says of a computation that it does not end that way, and is carried
from the layout of a grid up to the steps of a session.
-/

namespace DualRendition

/-! ## Computations that return -/

namespace Outcome

variable {α β : Type}

/-- The computation ends with a result or with a failure, never for want of a cell. -/
def Returns (x : Outcome α) : Prop := x ≠ .error .absentCell

theorem Returns.ok (a : α) : Returns (.ok a) := fun h => nomatch h

theorem Returns.error {failure : Failure} (h : failure ≠ .absentCell) :
    Returns (.error failure : Outcome α) := fun habsent => h (Except.error.inj habsent)

/-- Failures of any class that has a name are returned. -/
theorem FailsAs.returns {c : Category} {x : Outcome α} (h : FailsAs c x) (hc : c ≠ .unknown) :
    Returns x := fun habsent => hc (h _ habsent).symm

theorem Returns.bind {x : Outcome α} {f : α → Outcome β} (hx : Returns x)
    (hf : ∀ a, x = .ok a → Returns (f a)) : Returns (x >>= f) := by
  cases x with
  | ok a => exact hf a rfl
  | error failure => exact .error fun habsent => hx (congrArg Except.error habsent)

theorem Returns.ite {p : Prop} [Decidable p] {x y : Outcome α} (hx : Returns x) (hy : Returns y) :
    Returns (if p then x else y) := by
  split
  · exact hx
  · exact hy

theorem Returns.mapM {f : α → Outcome β} (hf : ∀ a, Returns (f a)) :
    ∀ o : Option α, Returns (o.mapM f)
  | none => .ok none
  | some a => (hf a).bind fun _ _ => .ok _

end Outcome

open Outcome (FailsAs Returns)

theorem Raster.header_returns (width height : UInt32) (depth : UInt8) (layout : Layout) :
    Returns (header width height depth layout) := by
  have hsize : Returns (checkSize width height) := by
    unfold checkSize
    simp only [Outcome.throw_eq, Outcome.error_bind]
    refine .ite (.error ?_) (.ite (.error ?_) (.ite (.error ?_) (.ok _))) <;> simp
  have hdepth : Returns (checkDepth depth) := .ite (.ok _) (.error (by simp))
  exact hsize.bind fun _ _ => hdepth.bind fun _ _ => .ok _

namespace ImageGrid

variable {g : ImageGrid} {first picture : Image}

theorem layout_returns (g : ImageGrid) : Returns g.layout :=
  g.layout_failsAs.returns (by decide)

theorem header_returns (g : ImageGrid) : Returns g.header :=
  g.layout_returns.bind fun _ _ => (g.firstCell_failsAs.returns (by decide)).bind fun _ _ =>
    (Raster.header_returns _ _ _ _).bind fun _ _ => .ok _

theorem stitch_returns (g : ImageGrid) : Returns g.stitch :=
  g.layout_returns.bind fun _ _ => g.header_returns.bind fun _ _ => .ok _

/-- Only without cells is one asked for that is not there. -/
theorem assemble_returns (h : g.cells ≠ []) : Returns g.assemble := by
  unfold assemble
  split
  next hnone => exact absurd hnone h
  next => exact .ok _
  next => exact g.stitch_returns

/-- A header is read off a valid layout. -/
theorem layout_of_header {header : Image} (h : g.header = .ok header) : ∃ l, g.layout = .ok l := by
  obtain ⟨l, hlayout, -⟩ := Outcome.bind_eq_ok.mp h
  exact ⟨l, hlayout⟩

theorem cells_ne_nil_of_layout {l : GridLayout} (h : g.layout = .ok l) : g.cells ≠ [] := by
  obtain ⟨first, hlegal, -⟩ := layout_eq_ok_iff.mp h
  exact List.ne_nil_of_mem hlegal.first_mem

theorem cells_ne_nil_of_isTiled (h : g.isTiled = true) : g.cells ≠ [] := by
  intro hnone
  unfold Grid.isTiled at h
  rw [hnone] at h
  cases h

/-- Cells are stitched by their layout. -/
theorem layout_of_tiled (htiled : g.isTiled = true) (h : g.assemble = .ok picture) :
    ∃ l, g.layout = .ok l := by
  rw [assemble_tiled htiled] at h
  obtain ⟨first, hlegal, -⟩ := stitch_eq_ok_iff.mp h
  exact ⟨_, layout_eq_ok_iff.mpr ⟨first, hlegal, rfl⟩⟩

/-- What a grid with a layout assembles to has its pixels. -/
theorem assemble_hasPixels {l : GridLayout} (hlayout : g.layout = .ok l)
    (h : g.assemble = .ok picture) : picture.hasPixels = true := by
  obtain ⟨first, hlegal, -⟩ := layout_eq_ok_iff.mp hlayout
  rcases assemble_eq_ok_iff.mp h with hcells | ⟨-, hstitch⟩
  · exact hlegal.pixels picture (by simp [hcells])
  · obtain ⟨first, hlegal, -, rfl⟩ := stitch_eq_ok_iff.mp hstitch
    exact hlegal.whole_hasPixels

end ImageGrid

/-! ## Steps -/

namespace Decoder

variable {source : StoredImage} {options : DecoderOptions} {n : Nat} {d : Decoder}

theorem gainMapHeader_returns (options : DecoderOptions) (item : GainMapItem) :
    Returns (gainMapHeader options item) := by
  have hread : FailsAs .invalidMetadata (Payload.read item.payload) :=
    fun _ => Payload.category_of_read_eq_error
  exact item.image.layout_returns.bind fun _ _ =>
    .ite ((hread.returns (by decide)).bind fun _ _ => .ok _) (.ok _)

/-- The cells of a gain map are looked at before one is asked for. -/
theorem gainMapOf_returns (options : DecoderOptions) (decode : Bool) (item : GainMapItem) :
    Returns (gainMapOf options decode item) := by
  refine (gainMapHeader_returns options item).bind fun header hheader => ?_
  obtain ⟨l, hlayout, -⟩ := Outcome.bind_eq_ok.mp hheader
  have hcells := ImageGrid.cells_ne_nil_of_layout hlayout
  exact .ite ((ImageGrid.assemble_returns hcells).bind fun _ _ => .ok _) (.ok _)

theorem frontHeader_returns (source : StoredImage) : Returns (frontHeader source) := by
  have hfirst : Returns source.firstFrame := by
    unfold StoredImage.firstFrame
    split
    · exact .ok _
    · exact .error (by simp)
  exact hfirst.bind fun frame _ => frame.color.header_returns

theorem headers_returns (source : StoredImage) (options : DecoderOptions) :
    Returns (headers source options) :=
  (frontHeader_returns source).bind fun _ _ =>
    (Returns.mapM (gainMapHeader_returns options) _).bind fun _ _ => .ok _

/-- A cell that is not there is asked for only with colour, where the frame at the cursor has none.
-/
theorem current_returns (h : ∀ frame, d.source.frames[d.cursor]? = some frame →
    d.options.ignoreColor = false → frame.color.cells ≠ []) : Returns d.current := by
  rw [current_eq]
  split
  next => exact .error (by simp)
  next frame hframe =>
    have hpicture : Returns (pictureOf d.options frame) := by
      unfold pictureOf
      split
      next => exact frame.color.header_returns
      next hcolor =>
        exact ImageGrid.assemble_returns (h frame hframe (Bool.eq_false_iff.mpr hcolor))
    refine .ite (.error (by simp)) (hpicture.bind fun _ _ => ?_)
    exact (Returns.mapM (gainMapOf_returns _ _) _).bind fun _ _ => .ok _

/-- A session that was parsed could read its headers. -/
def Opened (d : Decoder) : Prop :=
  d.parsed = true → ∃ header, headers d.source d.options = .ok header

theorem opened_kept : Kept Opened where
  opened := fun _ hheader _ => ⟨_, hheader⟩
  unopened := by
    intro d h
    obtain ⟨present, hsame⟩ := d.unopened_eq
    rw [hsame]
    exact h
  produced := fun h hparsed _ _ => h hparsed
  taken := fun h => h

/-- Behind headers that can be read, the first frame has a layout. -/
theorem layout_of_headers {header : Image} (h : headers source options = .ok header) {frame : Frame}
    (hframe : source.frames[0]? = some frame) : ∃ l, frame.color.layout = .ok l := by
  obtain ⟨front, -, hfront, -⟩ := headers_eq_ok_iff.mp h
  rw [frontHeader_eq hframe] at hfront
  exact ImageGrid.layout_of_header hfront

/-- The layout of frame `n` is looked at when it is decoded: the frame is the first one or in
several cells, or its colour is ignored. -/
def Inspects (options : DecoderOptions) (n : Nat) (frame : Frame) : Prop :=
  n = 0 ∨ frame.color.isTiled = true ∨ options.ignoreColor = true

/-- A frame whose layout is looked at is handed out with a valid one. -/
theorem Depicts.layout {image : Image} (h : Depicts source options n image) {header : Image}
    (hheaders : headers source options = .ok header) {frame : Frame}
    (hframe : source.frames[n]? = some frame) (hinspects : Inspects options n frame) :
    ∃ l, frame.color.layout = .ok l := by
  rcases hinspects with rfl | hlater
  · exact layout_of_headers hheaders hframe
  · obtain ⟨frame', picture, -, hframe', hpicture, -⟩ := h.content
    obtain rfl : frame' = frame := Option.some.inj (hframe'.symm.trans hframe)
    unfold pictureOf at hpicture
    split at hpicture
    next => exact ImageGrid.layout_of_header hpicture
    next hcolor => exact ImageGrid.layout_of_tiled (hlater.resolve_right hcolor) hpicture

/-- With colour, a frame that has a layout is handed out with its pixels. -/
theorem Depicts.hasPixels {image : Image} (h : Depicts source options n image)
    (hcolor : options.ignoreColor = false) {frame : Frame} (hframe : source.frames[n]? = some frame)
    {l : GridLayout} (hlayout : frame.color.layout = .ok l) : image.hasPixels = true := by
  obtain ⟨frame', picture, gainMap, hframe', hpicture, -, rfl⟩ := h.content
  obtain rfl : frame' = frame := Option.some.inj (hframe'.symm.trans hframe)
  unfold pictureOf at hpicture
  rw [hcolor, if_neg (by decide)] at hpicture
  show picture.hasPixels = true
  exact ImageGrid.assemble_hasPixels hlayout hpicture

/-- Behind readable headers, an absent cell is asked for only at a frame whose layout is not looked
at: whoever looks at the layout also finds a cell. -/
theorem Counts.produce_returns (h : Counts source options n d) {header : Image}
    (hheader : headers source options = .ok header)
    (hcells : ∀ frame, source.frames[n]? = some frame → ¬Inspects options n frame →
      frame.color.cells ≠ []) :
    Returns (Decoder.produce d).1 := by
  have hcurrent : Returns d.current := by
    refine current_returns fun frame hframe hcolor => ?_
    rw [h.source, h.cursor] at hframe
    rw [h.options] at hcolor
    by_cases hinspects : Inspects options n frame
    · rcases hinspects with hn | htiled | hignored
      · obtain ⟨l, hlayout⟩ := layout_of_headers hheader (hn ▸ hframe)
        exact ImageGrid.cells_ne_nil_of_layout hlayout
      · exact ImageGrid.cells_ne_nil_of_isTiled htiled
      · rw [hcolor] at hignored
        cases hignored
    · exact hcells frame hframe hinspects
  unfold Decoder.produce
  cases hresult : d.current with
  | ok image => exact .ok ()
  | error failure => exact .error fun habsent => hcurrent (hresult.trans (congrArg _ habsent))

/-- A step asks for an absent cell only at a frame whose layout is not looked at. -/
theorem Counts.next_returns (h : Counts source options n d) (hopened : d.Opened)
    (hcells : ∀ frame, source.frames[n]? = some frame → ¬Inspects options n frame →
      frame.color.cells ≠ []) :
    Returns (Decoder.next.apply d).1 := by
  rw [next_apply_eq]
  split
  next => exact .error (by simp)
  next =>
    split
    next hparsed =>
      obtain ⟨header, hheader⟩ := hopened hparsed
      rw [h.source, h.options] at hheader
      exact h.produce_returns hheader hcells
    next hparsed =>
      -- not parsed yet: the headers are read first, with the cursor at the first frame
      obtain rfl := h.unparsed (by simpa using hparsed)
      have hheaders := headers_returns d.source d.options
      cases hresult : headers d.source d.options with
      | ok header =>
        have hheader : headers source options = .ok header := by
          rw [← h.source, ← h.options]
          exact hresult
        exact (h.opened header).produce_returns hheader hcells
      | error failure => exact .error fun habsent => hheaders (hresult.trans (congrArg _ habsent))

/-- What a step delivers: the frame at the cursor, with a valid layout where it is looked at. -/
theorem Counts.next_valid (h : Counts source options n d) (hopened : d.Opened) {d' : Decoder}
    (hnext : Decoder.next.apply d = (.ok (), d')) :
    ∃ frame image, source.frames[n]? = some frame ∧ d'.image = some image ∧
      Depicts source options n image ∧
      (Inspects options n frame → ∃ l, frame.color.layout = .ok l) ∧
      ∀ l, frame.color.layout = .ok l → options.ignoreColor = false → image.hasPixels = true := by
  rcases h.next with ⟨image, e, he, himage, hdepicts, -⟩ | ⟨failure, e, he, -⟩
  · cases he.symm.trans hnext
    obtain ⟨header, hheader⟩ : ∃ header, headers source options = .ok header := by
      have hreadable : d.Readable := readable_of_next hnext
      rw [← h.source, ← h.options]
      exact hreadable.elim hopened fun h => h
    obtain ⟨frame, -, -, hframe, -⟩ := hdepicts.content
    exact ⟨frame, image, hframe, himage, hdepicts, hdepicts.layout hheader hframe,
      fun l hlayout hcolor => hdepicts.hasPixels hcolor hframe hlayout⟩
  · cases he.symm.trans hnext

theorem Counts.next_absent (h : Counts source options n d) (hopened : d.Opened) {d' : Decoder}
    (hnext : Decoder.next.apply d = (.error .absentCell, d')) :
    ∃ frame, source.frames[n]? = some frame ∧ frame.color.cells = [] ∧
      ¬Inspects options n frame := by
  refine Classical.byContradiction fun hcells => ?_
  refine h.next_returns hopened ?_ (congrArg Prod.fst hnext)
  exact fun frame hframe hinspects hnone => hcells ⟨frame, hframe, hnone, hinspects⟩

/-! ## Sessions -/

/-- **What a session hands out is valid** where its layout is looked at. Take any source, options
and requests before a step, and let `k` be the number of the frame at the cursor. If the step
succeeds, it delivers frame `k`; this has a valid layout if that is looked at; and with colour, a
valid layout means that all pixels are there. Without a valid layout, a frame whose layout is looked
at is refused with a failure. The step asks for an absent cell only at a frame that has none and is
not looked at. -/
theorem delivered_valid (source : StoredImage) (options : DecoderOptions) (rs : List Request) :
    let d := (start source options).after rs
    let k := handedOut 0 (start source options) rs
    (∀ d', next.apply d = (.ok (), d') → ∃ frame image, source.frames[k]? = some frame ∧
      d'.image = some image ∧ Depicts source options k image ∧
      (Inspects options k frame → ∃ l, frame.color.layout = .ok l) ∧
      ∀ l, frame.color.layout = .ok l → options.ignoreColor = false → image.hasPixels = true) ∧
    (∀ frame, source.frames[k]? = some frame → Inspects options k frame →
      (∀ l, frame.color.layout ≠ .ok l) →
      ∃ failure d', next.apply d = (.error failure, d') ∧ failure ≠ .absentCell) ∧
    ∀ d', next.apply d = (.error .absentCell, d') →
      ∃ frame, source.frames[k]? = some frame ∧ frame.color.cells = [] ∧
        ¬Inspects options k frame := by
  intro d k
  have hcounts : Counts source options k d := after_counts rs (start_counts source options)
  have hopened : d.Opened := opened_kept.after rs fun h => nomatch h
  refine ⟨fun d' => hcounts.next_valid hopened, ?_, fun d' => hcounts.next_absent hopened⟩
  intro frame hframe hinspects hinvalid
  cases hnext : next.apply d with
  | mk answer d' =>
    cases answer with
    | ok =>
      obtain ⟨frame', -, hframe', -, -, hlayout, -⟩ := hcounts.next_valid hopened hnext
      obtain rfl : frame' = frame := Option.some.inj (hframe'.symm.trans hframe)
      obtain ⟨l, hl⟩ := hlayout hinspects
      exact absurd hl (hinvalid l)
    | error failure =>
      refine ⟨failure, d', rfl, ?_⟩
      rintro rfl
      obtain ⟨frame', hframe', -, hunseen⟩ := hcounts.next_absent hopened hnext
      obtain rfl : frame' = frame := Option.some.inj (hframe'.symm.trans hframe)
      exact hunseen hinspects

/-- A pixel, then one that stands alone in a grid for two, then a grid without cells. -/
def torn : StoredImage where
  frames := [⟨.single (.ofRaster (grayPixel 7)), 1⟩, ⟨⟨2, 1, [.ofRaster (grayPixel 9)]⟩, 1⟩,
    ⟨⟨1, 1, []⟩, 1⟩]
  gainMap := none

/-- The first frame is delivered with its layout and its pixel. In front, the grid for two is
refused. -/
theorem torn_valid :
    (∃ d' frame image, next.apply (start torn .everything) = (.ok (), d') ∧
      torn.frames[0]? = some frame ∧ d'.image = some image ∧ (∃ l, frame.color.layout = .ok l) ∧
      image.hasPixels = true) ∧
    ∃ failure d', next.apply (start { torn with frames := torn.frames.tail } .everything) =
      (.error failure, d') ∧ failure ≠ .absentCell := by
  constructor
  · obtain ⟨hdelivered, -⟩ := delivered_valid torn .everything []
    obtain ⟨frame, image, hframe, himage, -, hlayout, hpixels⟩ := hdelivered _ rfl
    obtain ⟨l, hl⟩ := hlayout (.inl rfl)
    exact ⟨_, frame, image, rfl, hframe, himage, ⟨l, hl⟩, hpixels l hl rfl⟩
  · obtain ⟨-, hrefused, -⟩ :=
      delivered_valid { torn with frames := torn.frames.tail } .everything []
    exact hrefused _ rfl (.inl rfl) fun _ hl => nomatch hl

/-- As a later frame, the lone cell is delivered although its grid has no layout, and after it a
cell is asked for that is not there. -/
theorem torn_delivered :
    (∃ d' frame, next.apply ((start torn .everything).after [.next]) = (.ok (), d') ∧
      handedOut 0 (start torn .everything) [.next] = 1 ∧ torn.frames[1]? = some frame ∧
      (∀ l, frame.color.layout ≠ .ok l) ∧ d'.image = some (.ofRaster (grayPixel 9))) ∧
    ∃ d', next.apply ((start torn .everything).after [.next, .next]) = (.error .absentCell, d') :=
  ⟨⟨_, _, rfl, rfl, rfl, fun _ hl => (nomatch hl), rfl⟩, _, rfl⟩

end Decoder

end DualRendition
