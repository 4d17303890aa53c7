import DualRendition.Proofs.Decoder.Transition
import DualRendition.Proofs.Grid.Stitch

/-!
# Decoding one frame after the other

With everything switched on, what `Decoder.next` delivers depends on the source and the cursor
alone. `Decoder.Delivers` lists the images that a source gives this way; a session that has handed
out `i` of them hands out the next one and moves on, or has none left and stays: `next_apply_some`
and `next_apply_none`. `run_next` puts these steps together to any number of them.
-/

namespace DualRendition

/-- Colour, gain map samples and metadata are all wanted. -/
def DecoderOptions.everything : DecoderOptions := ⟨true, true, false⟩

namespace Decoder

/-! ## The gain map of a frame -/

/-- The header of a gain map that is stored in a legal grid with a readable payload. -/
theorem gainMapHeader_eq {item : GainMapItem} {firstImage : Image} {metadata : Metadata}
    (hlegal : item.image.Legal firstImage) (hread : Payload.read item.payload = .ok metadata) :
    gainMapHeader .everything item = .ok ⟨none, metadata, item.alternate⟩ := by
  unfold gainMapHeader
  rw [ImageGrid.layout_eq_ok_iff.mpr ⟨firstImage, hlegal, rfl⟩, Outcome.ok_bind]
  show (Payload.read item.payload >>= _) = _
  rw [hread]
  rfl

/-- The gain map itself, when its cells own no gain maps in turn. -/
theorem gainMapOf_eq {item : GainMapItem} {firstImage : Image} {metadata : Metadata}
    (hlegal : item.image.Legal firstImage) (hread : Payload.read item.payload = .ok metadata)
    (hdepth : Raster.DepthLegal firstImage.depth)
    (hbare : ∀ cell ∈ item.image.cells, cell.gainMap = none) :
    gainMapOf .everything true item =
      .ok ⟨some (item.image.whole firstImage), metadata, item.alternate⟩ := by
  unfold gainMapOf
  rw [gainMapHeader_eq hlegal hread, Outcome.ok_bind, if_pos rfl,
    ImageGrid.assemble_eq hlegal hdepth hbare]
  rfl

/-! ## The image at the cursor -/

theorem current_past {d : Decoder} (hframe : d.source.frames[d.cursor]? = none) :
    d.current = .error (.noContent .noImagesLeft) := by
  rw [current_eq, hframe]

/-- Without a gain map in the source, the image at the cursor is the assembled picture. -/
theorem current_bare {d : Decoder} {frame : Frame} {picture : Image}
    (hoptions : d.options = .everything) (hframe : d.source.frames[d.cursor]? = some frame)
    (hgainMap : d.source.gainMap = none) (hpicture : frame.color.assemble = .ok picture) :
    d.current = .ok picture := by
  obtain ⟨raster, own⟩ := picture
  rw [current_eq_ok_iff, hoptions]
  refine ⟨fun hcolor => (nomatch hcolor), frame, ⟨raster, own⟩, none, hframe, hpicture, ?_, rfl⟩
  rw [hgainMap]
  rfl

/-- On the first frame, the gain map comes with its samples. -/
theorem current_first {d : Decoder} {frame : Frame} {picture : Image} {item : GainMapItem}
    {gainMap : GainMap} (hoptions : d.options = .everything) (hcursor : d.cursor = 0)
    (hframe : d.source.frames[d.cursor]? = some frame) (hitem : d.source.gainMap = some item)
    (hpicture : frame.color.assemble = .ok picture)
    (hgainMap : gainMapOf .everything true item = .ok gainMap) :
    d.current = .ok { picture with gainMap := some gainMap } := by
  have hdecodes : decodes d.source .everything d.cursor = true := by
    rw [decodes_iff, hitem]
    exact ⟨rfl, rfl, hcursor⟩
  rw [current_eq_ok_iff, hoptions]
  refine ⟨fun hcolor => (nomatch hcolor), frame, picture, some gainMap, hframe, hpicture, ?_, rfl⟩
  rw [hitem, hdecodes]
  exact Outcome.mapM_some hgainMap

/-! ## Steps -/

/-- The images that a source gives, frame by frame. -/
structure Delivers (source : StoredImage) (images : List Image) : Prop where
  /-- The first step can read the headers. -/
  header : ∃ frame header, source.firstFrame = .ok frame ∧ frame.color.header = .ok header
  gainMap : ∃ gainMap, source.gainMap.mapM (gainMapHeader .everything) = .ok gainMap
  current : ∀ d : Decoder, d.source = source → d.options = .everything →
    d.current = match images[d.cursor]? with
      | some image => .ok image
      | none => .error (.noContent .noImagesLeft)

/-- A session over a source that has handed out `i` images. -/
structure At (source : StoredImage) (i : Nat) (d : Decoder) : Prop where
  source : d.source = source
  options : d.options = .everything
  cursor : d.parsed = true ∧ d.cursor = i ∨ d.parsed = false ∧ i = 0

theorem start_at (source : StoredImage) : At source 0 (start source .everything) :=
  ⟨rfl, rfl, .inr ⟨rfl, rfl⟩⟩

/-- Parsing a source that can be read leads before its first frame. -/
theorem parse_apply {source : StoredImage} {images : List Image} (h : Delivers source images)
    {d : Decoder} (hsource : d.source = source) (hoptions : d.options = .everything) :
    ∃ d', parse.apply d = (.ok (), d') ∧ d'.source = source ∧ d'.options = .everything ∧
      d'.parsed = true ∧ d'.cursor = 0 := by
  obtain ⟨frame, header, hframe, hheader⟩ := h.header
  obtain ⟨gainMap, hgainMap⟩ := h.gainMap
  have hfront : frontHeader source = .ok header := by
    unfold frontHeader
    rw [hframe]
    exact hheader
  rw [parse_apply_eq, hsource, hoptions,
    headers_eq_ok_iff.mpr ⟨header, gainMap, hfront, hgainMap, rfl⟩]
  exact ⟨_, rfl, hsource, hoptions, rfl, rfl⟩

/-- A step parses first, if that has not been done. -/
theorem next_eq {d : Decoder} (hoptions : d.options = .everything) :
    next.apply d =
      if d.parsed then produce d
      else match parse.apply d with
        | (.ok (), d') => produce d'
        | (.error failure, d') => (.error failure, d') := by
  rw [next_apply_eq, hoptions, if_neg (by decide), parse_apply_eq, hoptions]
  cases headers d.source .everything <;> rfl

theorem produce_eq {source : StoredImage} {images : List Image} (h : Delivers source images)
    {d : Decoder} (hsource : d.source = source) (hoptions : d.options = .everything) :
    produce d = match images[d.cursor]? with
      | some image => (.ok (), { d with cursor := d.cursor + 1, image := some image })
      | none => (.error (.noContent .noImagesLeft), d) := by
  unfold produce
  rw [h.current d hsource hoptions]
  cases images[d.cursor]? <;> rfl

/-- One step of a session: the next image is handed out, or there is none and the session stays
where it is. -/
theorem next_apply {source : StoredImage} {images : List Image} (h : Delivers source images)
    {d : Decoder} {i : Nat} (hd : At source i d) :
    (∃ image d', images[i]? = some image ∧ next.apply d = (.ok (), d') ∧
      d'.image = some image ∧ At source (i + 1) d') ∨
    (∃ d', images[i]? = none ∧ next.apply d = (.error (.noContent .noImagesLeft), d') ∧
      At source i d') := by
  -- after parsing where needed, the session is parsed and its cursor is at `i`
  obtain ⟨d', hnext, hsource, hoptions, hparsed, hcursor⟩ :
      ∃ d', next.apply d = produce d' ∧ d'.source = source ∧ d'.options = .everything ∧
        d'.parsed = true ∧ d'.cursor = i := by
    rw [next_eq hd.options]
    rcases hd.cursor with ⟨hparsed, hcursor⟩ | ⟨hparsed, hi⟩
    · rw [if_pos hparsed]
      exact ⟨d, rfl, hd.source, hd.options, hparsed, hcursor⟩
    · obtain ⟨d', hparse, hsource, hoptions, hparsed', hcursor⟩ :=
        parse_apply h hd.source hd.options
      rw [hparsed, if_neg (by decide), hparse]
      exact ⟨d', rfl, hsource, hoptions, hparsed', hcursor.trans hi.symm⟩
  rw [hnext, produce_eq h hsource hoptions, hcursor]
  cases himage : images[i]? with
  | some image =>
    left
    exact ⟨image, _, rfl, rfl, rfl, hsource, hoptions, .inl ⟨hparsed, rfl⟩⟩
  | none =>
    right
    exact ⟨d', rfl, rfl, hsource, hoptions, .inl ⟨hparsed, hcursor⟩⟩

/-! ## Runs -/

theorem run_cons_next (d : Decoder) (count : Nat) :
    run d (List.replicate (count + 1) .next) =
      (.done (next.apply d).1, (next.apply d).2) ::
        run (next.apply d).2 (List.replicate count .next) := rfl

/-- **Any number of steps.** Step `i` of a session hands out image `i` of the source; the steps
after the last image find none left. -/
theorem run_next {source : StoredImage} {images : List Image} (h : Delivers source images)
    (count : Nat) : ∀ {d : Decoder} {i j : Nat}, At source i d → j < count →
      ∃ answer d', (run d (List.replicate count .next))[j]? = some (answer, d') ∧
        match images[i + j]? with
        | some image => answer = .done (.ok ()) ∧ d'.image = some image
        | none => answer = .done (.error (.noContent .noImagesLeft)) := by
  induction count with
  | zero =>
    intro d i j _ hj
    exact absurd hj (Nat.not_lt_zero j)
  | succ count ih =>
    intro d i j hd hj
    rw [run_cons_next]
    rcases next_apply h hd with ⟨image, d', himage, happly, hd', hat⟩ | ⟨d', hnone, happly, hat⟩
    · cases j with
      | zero =>
        refine ⟨_, _, rfl, ?_⟩
        rw [Nat.add_zero, himage, happly]
        exact ⟨rfl, hd'⟩
      | succ j =>
        rw [happly, List.getElem?_cons_succ, show i + (j + 1) = i + 1 + j by omega]
        exact ih hat (Nat.lt_of_succ_lt_succ hj)
    · -- with none left at `i`, there is none left further on
      have hlast : ∀ k, images[i + k]? = none := by
        intro k
        rw [List.getElem?_eq_none_iff] at hnone ⊢
        omega
      cases j with
      | zero =>
        refine ⟨_, _, rfl, ?_⟩
        rw [hlast, happly]
      | succ j =>
        obtain ⟨answer, d'', hstep, hanswer⟩ := ih hat (Nat.lt_of_succ_lt_succ hj)
        refine ⟨answer, d'', ?_, ?_⟩
        · rw [happly, List.getElem?_cons_succ]
          exact hstep
        · rw [hlast] at hanswer ⊢
          exact hanswer

/-! ## Still images -/

/-- A source of one frame with a gain map delivers the one image. -/
theorem delivers_still {frame : Frame} {item : GainMapItem} {head picture : Image}
    {header gainMap : GainMap} (hhead : frame.color.header = .ok head)
    (hpicture : frame.color.assemble = .ok picture)
    (hheader : gainMapHeader .everything item = .ok header)
    (hgainMap : gainMapOf .everything true item = .ok gainMap) :
    Delivers ⟨[frame], some item⟩ [{ picture with gainMap := some gainMap }] where
  header := ⟨frame, head, rfl, hhead⟩
  gainMap := ⟨some header, Outcome.mapM_some hheader⟩
  current := by
    intro d hsource hoptions
    have hframes : d.source.frames = [frame] := by rw [hsource]
    have hitem : d.source.gainMap = some item := by rw [hsource]
    cases hcursor : d.cursor with
    | zero =>
      have hframe : d.source.frames[d.cursor]? = some frame := by
        rw [hframes, hcursor]
        rfl
      exact current_first hoptions hcursor hframe hitem hpicture hgainMap
    | succ k =>
      refine current_past ?_
      rw [hframes, hcursor]
      rfl

/-- Reading decodes the first image. -/
theorem read_eq {source : StoredImage} {image : Image} {rest : List Image}
    (h : Delivers source (image :: rest)) : read source .everything = .ok image := by
  have hstart := start_at source
  obtain ⟨d, hparse, hsource, hoptions, hparsed, hcursor⟩ :=
    parse_apply h hstart.source hstart.options
  have hat : At source 0 d := ⟨hsource, hoptions, .inl ⟨hparsed, hcursor⟩⟩
  rcases next_apply h hat with ⟨image', d', himage, hnext, hd', -⟩ | ⟨d', hnone, -⟩
  · obtain rfl : image = image' := Option.some.inj himage
    unfold read
    dsimp only
    rw [Edit.apply_bind, hparse]
    dsimp only
    rw [Edit.apply_bind, hnext]
    dsimp only
    rw [Edit.apply_bind, Edit.apply_get]
    show (match (Except.ok d'.image, d') with
      | ((.ok (some image), _) : Outcome (Option Image) × Decoder) => Except.ok image
      | (.ok none, _) => .error Failure.missingImage
      | (.error failure, _) => .error failure) = _
    rw [hd']
  · cases hnone

end Decoder

end DualRendition
