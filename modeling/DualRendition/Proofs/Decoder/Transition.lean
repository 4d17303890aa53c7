import DualRendition.Decoder
import DualRendition.Proofs.Outcome

/-!
# What one request does to a decoding session

Only `Decoder.parse` and `Decoder.next` change more than the current image. Their whole effect, on
success and on failure, is given by the equations `parse_apply_eq` and `next_apply_eq`. What a step
hands out is `Depicts`: the picture at the cursor with the gain map of the source, as far as the
options go (`current_eq_ok_iff`). Nothing later unfolds the two definitions.
-/

namespace DualRendition

namespace Decoder

/-! ## Parsing -/

/-- The header of the first frame. -/
def frontHeader (source : StoredImage) : Outcome Image := do
  let frame ← source.firstFrame
  frame.color.header

/-- What parsing finds: the header of the first frame, with that of the gain map. -/
def headers (source : StoredImage) (options : DecoderOptions) : Outcome Image := do
  let header ← frontHeader source
  let gainMap ← source.gainMap.mapM (gainMapHeader options)
  return { header with gainMap }

/-- The session that has parsed `header`. -/
def opened (d : Decoder) (header : Image) : Decoder :=
  { d with image := some header, parsed := true, gainMapPresent := d.source.gainMap.isSome,
           cursor := 0 }

/-- The session that could not parse. Behind a good front header it knows of the gain map. -/
def unopened (d : Decoder) : Decoder :=
  match frontHeader d.source with
  | .ok _ => { d with gainMapPresent := d.source.gainMap.isSome }
  | .error _ => d

theorem unopened_eq (d : Decoder) :
    ∃ present, d.unopened = { d with gainMapPresent := present } := by
  unfold unopened
  cases frontHeader d.source with
  | ok header => exact ⟨_, rfl⟩
  | error failure => exact ⟨d.gainMapPresent, rfl⟩

theorem headers_eq_ok_iff {source : StoredImage} {options : DecoderOptions} {header : Image} :
    headers source options = .ok header ↔
      ∃ front gainMap, frontHeader source = .ok front ∧
        source.gainMap.mapM (gainMapHeader options) = .ok gainMap ∧
        header = { front with gainMap } := by
  unfold headers
  simp only [Outcome.bind_eq_ok, Outcome.pure_eq_ok]
  constructor
  · intro h
    obtain ⟨front, hfront, gainMap, hgainMap, rfl⟩ := h
    exact ⟨front, gainMap, hfront, hgainMap, rfl⟩
  · intro h
    obtain ⟨front, gainMap, hfront, hgainMap, rfl⟩ := h
    exact ⟨front, hfront, gainMap, hgainMap, rfl⟩

/-- **Parsing.** -/
theorem parse_apply_eq (d : Decoder) :
    parse.apply d =
      match headers d.source d.options with
      | .ok header => (.ok (), d.opened header)
      | .error failure => (.error failure, d.unopened) := by
  have hfront : ∀ frame, d.source.firstFrame = .ok frame →
      frontHeader d.source = frame.color.header := by
    intro frame hframe
    unfold frontHeader
    rw [hframe]
    rfl
  unfold parse headers unopened
  simp only [Edit.apply_bind, Edit.apply_get, Edit.apply_ofOutcome, Edit.apply_modify]
  cases hframe : d.source.firstFrame with
  | error failure =>
    have hfront : frontHeader d.source = .error failure := by
      unfold frontHeader
      rw [hframe]
      rfl
    rw [hfront]
    rfl
  | ok frame =>
    rw [hfront frame hframe]
    dsimp only
    cases frame.color.header with
    | error failure => rfl
    | ok header =>
      rw [Outcome.ok_bind]
      dsimp only
      cases d.source.gainMap.mapM (gainMapHeader d.options) <;> rfl

/-! ## The image at the cursor -/

/-- Whether the samples of a gain map come with frame `i`. -/
def decodes (source : StoredImage) (options : DecoderOptions) (i : Nat) : Bool :=
  options.decodeGainMap && source.gainMap.isSome && i == 0

theorem decodes_iff {source : StoredImage} {options : DecoderOptions} {i : Nat} :
    decodes source options i = true ↔
      options.decodeGainMap = true ∧ source.gainMap.isSome = true ∧ i = 0 := by
  unfold decodes
  simp only [Bool.and_eq_true, beq_iff_eq, and_assoc]

/-- The picture of a frame: only its header when colour is ignored. -/
def pictureOf (options : DecoderOptions) (frame : Frame) : Outcome Image :=
  if options.ignoreColor then frame.color.header else frame.color.assemble

/-- The image is frame `i` of the source, as far as the options go. -/
structure Depicts (source : StoredImage) (options : DecoderOptions) (i : Nat) (image : Image) :
    Prop where
  /-- There are pixels to produce. -/
  wanted : options.ignoreColor = true → decodes source options i = true
  /-- The picture of the frame, with the gain map of the source in place of its own. -/
  content : ∃ frame picture gainMap, source.frames[i]? = some frame ∧
    pictureOf options frame = .ok picture ∧
    source.gainMap.mapM (gainMapOf options (decodes source options i)) = .ok gainMap ∧
    image = { picture with gainMap := gainMap <|> picture.gainMap }

theorem current_eq (d : Decoder) :
    d.current =
      match d.source.frames[d.cursor]? with
      | none => .error (.noContent .noImagesLeft)
      | some frame =>
        if d.options.ignoreColor && !decodes d.source d.options d.cursor then
          .error (.noContent .noGainMapPixels)
        else do
          let picture ← pictureOf d.options frame
          let gainMap ← d.source.gainMap.mapM
            (gainMapOf d.options (decodes d.source d.options d.cursor))
          return { picture with gainMap := gainMap <|> picture.gainMap } := by
  obtain ⟨⟨frames, stored⟩, options, image, parsed, present, cursor⟩ := d
  -- without a gain map in the source, the picture stays as it is
  have hbare : ∀ picture : Outcome Image,
      (picture >>= pure) = (do
        let picture ← picture
        return { picture with gainMap := none <|> picture.gainMap }) := by
    intro picture
    cases picture with
    | error failure => rfl
    | ok picture =>
      obtain ⟨raster, own⟩ := picture
      rfl
  have hmapped : ∀ (decode : Bool) (item : GainMapItem) (picture : Image),
      (do
        let gainMap ← gainMapOf options decode item
        return { picture with gainMap := some gainMap } : Outcome Image) =
      (do
        let gainMap ← (some item).mapM (gainMapOf options decode)
        return { picture with gainMap := gainMap <|> picture.gainMap }) := by
    intro decode item picture
    show _ = ((gainMapOf options decode item >>= fun gainMap => pure (some gainMap)) >>= _)
    cases gainMapOf options decode item <;> rfl
  unfold current pictureOf
  dsimp only
  cases frames[cursor]? with
  | none => rfl
  | some frame =>
    cases stored with
    | none =>
      cases options.ignoreColor with
      | false => exact hbare frame.color.assemble
      | true =>
        show (if (!decodes ⟨frames, none⟩ options cursor) = true then _
          else frame.color.header >>= pure) = _
        rw [hbare]
        rfl
    | some item =>
      simp only [← hmapped]
      cases options.ignoreColor <;> rfl

/-- What is handed out at the cursor. -/
theorem current_eq_ok_iff {d : Decoder} {image : Image} :
    d.current = .ok image ↔ Depicts d.source d.options d.cursor image := by
  have hwanted : ¬(d.options.ignoreColor && !decodes d.source d.options d.cursor) = true ↔
      (d.options.ignoreColor = true → decodes d.source d.options d.cursor = true) := by
    cases d.options.ignoreColor <;> simp
  rw [current_eq]
  constructor
  · intro h
    split at h
    next => cases h
    next frame hframe =>
      rw [Outcome.guard_eq_ok, hwanted] at h
      obtain ⟨hpixels, h⟩ := h
      obtain ⟨picture, hpicture, h⟩ := Outcome.bind_eq_ok.mp h
      obtain ⟨gainMap, hgainMap, himage⟩ := Outcome.bind_eq_ok.mp h
      exact ⟨hpixels, frame, picture, gainMap, hframe, hpicture, hgainMap,
        (Outcome.pure_eq_ok.mp himage).symm⟩
  · intro h
    obtain ⟨frame, picture, gainMap, hframe, hpicture, hgainMap, rfl⟩ := h.content
    rw [hframe]
    dsimp only
    rw [if_neg (hwanted.mpr h.wanted), hpicture, Outcome.ok_bind, hgainMap]
    rfl

/-- Without pixels to produce there is nothing at the cursor. -/
theorem current_unwanted {d : Decoder} (hcolor : d.options.ignoreColor = true)
    (hdecodes : decodes d.source d.options d.cursor = false) :
    ∃ absence, d.current = .error (.noContent absence) := by
  rw [current_eq]
  cases d.source.frames[d.cursor]? with
  | none => exact ⟨_, rfl⟩
  | some frame =>
    dsimp only
    rw [hcolor, hdecodes, if_pos (by rfl)]
    exact ⟨_, rfl⟩

/-! ## Stepping -/

/-- The last part of a step: the image at the cursor is produced, and the cursor moves on. -/
def produce (d : Decoder) : Outcome Unit × Decoder :=
  match d.current with
  | .ok image => (.ok (), { d with cursor := d.cursor + 1, image := some image })
  | .error failure => (.error failure, d)

/-- **Stepping.** A step parses first, if that has not been done. -/
theorem next_apply_eq (d : Decoder) :
    next.apply d =
      if d.options.ignoreColor && !d.options.decodeGainMap then
        (.error (.noContent .everythingDisabled), d)
      else if d.parsed then produce d
      else match headers d.source d.options with
        | .ok header => produce (d.opened header)
        | .error failure => (.error failure, d.unopened) := by
  have hproduce : ∀ d : Decoder, (do
      let d ← get
      let image ← Edit.ofOutcome d.current
      set { d with cursor := d.cursor + 1, image := some image } : Edit Decoder Unit).apply d
        = produce d := by
    intro d
    rw [Edit.apply_bind, Edit.apply_get]
    dsimp only
    rw [Edit.apply_bind, Edit.apply_ofOutcome]
    unfold produce
    cases d.current <;> rfl
  unfold next
  dsimp only
  rw [Edit.apply_bind, Edit.apply_get]
  dsimp only
  split
  next => rfl
  next =>
    rw [Edit.apply_bind, Edit.apply_get]
    dsimp only
    cases d.parsed with
    | true =>
      rw [if_neg (by decide), if_pos rfl]
      exact hproduce d
    | false =>
      rw [if_pos (by rfl), if_neg (by decide), Edit.apply_bind, parse_apply_eq]
      cases headers d.source d.options with
      | ok header => exact hproduce (d.opened header)
      | error failure => rfl

end Decoder

end DualRendition
