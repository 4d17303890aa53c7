import DualRendition.Proofs.Decoder.Options

/-!
# What is switched off has no influence

A decoding session answers for what its options ask for, and for nothing else. Without metadata,
neither the payload nor the alternate rendition of the gain map can be told from another; without
gains, none of its samples; without colour, none of the samples of the frames. This holds of every
run, and of failures no less than of results: `disabled_content_unseen`.

Structure: two runs are compared through one change to the source. `Unnoticed` says of a change that
it keeps whatever the session reads, and then one request after the other answers as before
(`Unnoticed.perform`). The changes that matter clear what is switched off. Cells of zeros pass the
checks as the cells did, because a check reads the number of samples and never one of them
(`ImageGrid.layout_blank`).
-/

namespace DualRendition

/-! ## Clearing samples -/

/-- The image with zeros for samples, as many as there were. -/
def Image.blank (i : Image) : Image := { i with samples := Array.replicate i.samples.size 0 }

theorem Image.hasPixels_blank (i : Image) : i.blank.hasPixels = i.hasPixels := by
  rw [Bool.eq_iff_iff, Raster.hasPixels_iff, Raster.hasPixels_iff]
  unfold blank
  simp only [Array.size_replicate]
  rfl

theorem Grid.checkCounts_map {α β : Type} (f : α → β) (g : Grid α) :
    (g.map f).checkCounts = g.checkCounts := by
  unfold checkCounts map
  simp only [List.length_map]

namespace ImageGrid

/-- The grid with zeros for samples in all cells. -/
def blank (g : ImageGrid) : ImageGrid := g.map Image.blank

theorem firstCell_blank (g : ImageGrid) : g.blank.firstCell = g.firstCell.map Image.blank := by
  have hcounts : g.blank.checkCounts = g.checkCounts := Grid.checkCounts_map _ g
  unfold firstCell
  rw [hcounts]
  cases g.checkCounts with
  | error failure => rfl
  | ok =>
    obtain ⟨columns, rows, cells⟩ := g
    cases cells <;> rfl

/-- The layout does not depend on the samples, and neither does its failure. -/
theorem layout_blank (g : ImageGrid) : g.blank.layout = g.layout := by
  unfold layout
  rw [firstCell_blank]
  cases g.firstCell with
  | error failure => rfl
  | ok first =>
    have hpixels : (g.blank.cells.any fun cell => !cell.hasPixels) =
        g.cells.any fun cell => !cell.hasPixels := by
      unfold blank Grid.map
      rw [List.any_map]
      exact congrArg g.cells.any (funext fun cell => congrArg not cell.hasPixels_blank)
    have hshapes : (g.blank.cells.any fun cell => !cell.sameShape first.blank.toRaster) =
        g.cells.any fun cell => !cell.sameShape first.toRaster := by
      unfold blank Grid.map
      rw [List.any_map]
      rfl
    simp only [Except.map, Outcome.ok_bind, hpixels, hshapes]
    rfl

/-- A header describes no sample. -/
theorem header_blank (g : ImageGrid) : g.blank.header = g.header := by
  unfold header
  rw [layout_blank, firstCell_blank]
  cases g.layout with
  | error failure => rfl
  | ok layout => cases g.firstCell <;> rfl

end ImageGrid

/-! ## What a session does not notice -/

namespace Decoder

/-- The session over a changed source. -/
def withSource (change : StoredImage → StoredImage) (d : Decoder) : Decoder :=
  { d with source := change d.source }

/-- What a caller sees of a request: the answer and the session, of the source only the number of
frames. -/
def seen (e : Answer × Decoder) : Answer × Option Image × Bool × Bool × Nat × Nat :=
  (e.1, e.2.image, e.2.parsed, e.2.gainMapPresent, e.2.cursor, e.2.imageCount)

/-- A change to sources that keeps whatever a session with these options reads. -/
structure Unnoticed (o : DecoderOptions) (change : StoredImage → StoredImage) : Prop where
  count : ∀ s, (change s).frames.length = s.frames.length
  present : ∀ s, (change s).gainMap.isSome = s.gainMap.isSome
  front : ∀ s, frontHeader (change s) = frontHeader s
  picture : ∀ s (i : Nat), (change s).frames[i]?.map (pictureOf o) = s.frames[i]?.map (pictureOf o)
  header : ∀ s, (change s).gainMap.mapM (gainMapHeader o) = s.gainMap.mapM (gainMapHeader o)
  gainMap : ∀ s i, (change s).gainMap.mapM (gainMapOf o (decodes s o i)) =
    s.gainMap.mapM (gainMapOf o (decodes s o i))

variable {o : DecoderOptions} {change : StoredImage → StoredImage} {d : Decoder}

theorem Unnoticed.headers (h : Unnoticed o change) (hoptions : d.options = o) :
    headers (d.withSource change).source (d.withSource change).options =
      Decoder.headers d.source d.options := by
  show Decoder.headers (change d.source) d.options = _
  unfold Decoder.headers
  rw [hoptions, h.front, h.header]

/-- The image at the cursor, or the failure to have one. -/
theorem Unnoticed.current (h : Unnoticed o change) (hoptions : d.options = o) :
    (d.withSource change).current = d.current := by
  obtain ⟨source, options, image, parsed, present, cursor⟩ := d
  obtain rfl : options = o := hoptions
  have hdecodes : decodes (change source) options cursor = decodes source options cursor := by
    unfold decodes
    rw [h.present]
  have hpicture := h.picture source cursor
  show current ⟨change source, options, image, parsed, present, cursor⟩ = _
  rw [current_eq, current_eq]
  dsimp only
  rw [hdecodes, h.gainMap]
  -- frames are compared by what is decoded of them, so one is there exactly when the other is
  cases hframe : source.frames[cursor]? with
  | none =>
    rw [hframe, Option.map_none, Option.map_eq_none_iff] at hpicture
    rw [hpicture]
  | some frame =>
    rw [hframe, Option.map_some] at hpicture
    obtain ⟨frame', hframe', hsame⟩ := Option.map_eq_some_iff.mp hpicture
    rw [hframe']
    dsimp only
    rw [hsame]

theorem Unnoticed.opened (h : Unnoticed o change) (header : Image) :
    (d.withSource change).opened header = (d.opened header).withSource change := by
  unfold Decoder.opened withSource
  dsimp only
  rw [h.present]

theorem Unnoticed.unopened (h : Unnoticed o change) :
    (d.withSource change).unopened = d.unopened.withSource change := by
  unfold Decoder.unopened withSource
  dsimp only
  rw [h.front, h.present]
  cases frontHeader d.source <;> rfl

theorem Unnoticed.produce (h : Unnoticed o change) (hoptions : d.options = o) :
    produce (d.withSource change) =
      ((Decoder.produce d).1, (Decoder.produce d).2.withSource change) := by
  unfold Decoder.produce
  rw [h.current hoptions]
  cases d.current <;> rfl

theorem Unnoticed.parse (h : Unnoticed o change) (hoptions : d.options = o) :
    parse.apply (d.withSource change) =
      ((Decoder.parse.apply d).1, (Decoder.parse.apply d).2.withSource change) := by
  rw [parse_apply_eq, parse_apply_eq, h.headers hoptions]
  cases Decoder.headers d.source d.options with
  | ok header => exact congrArg _ (h.opened header)
  | error failure => exact congrArg _ h.unopened

theorem Unnoticed.next (h : Unnoticed o change) (hoptions : d.options = o) :
    next.apply (d.withSource change) =
      ((Decoder.next.apply d).1, (Decoder.next.apply d).2.withSource change) := by
  rw [next_apply_eq, next_apply_eq, h.headers hoptions]
  show (if (d.options.ignoreColor && !d.options.decodeGainMap) = true then _
    else if d.parsed = true then _ else _) = _
  split
  next => rfl
  next =>
    split
    next => exact h.produce hoptions
    next =>
      cases Decoder.headers d.source d.options with
      | ok header =>
        show Decoder.produce ((d.withSource change).opened header) = _
        rw [h.opened]
        exact h.produce hoptions
      | error failure => exact congrArg _ h.unopened

/-- **One request** over a changed source answers as before, and leaves the same session over the
changed source. -/
theorem Unnoticed.perform (h : Unnoticed o change) (hoptions : d.options = o) (r : Request) :
    (d.withSource change).perform r = ((d.perform r).1, (d.perform r).2.withSource change) := by
  cases r with
  | parse =>
    unfold Decoder.perform
    dsimp only
    rw [h.parse hoptions]
  | next =>
    unfold Decoder.perform
    dsimp only
    rw [h.next hoptions]
  -- these read the current image and nothing of the source
  | take => rfl
  | toneMap headroom output stop => rfl

theorem options_kept (o : DecoderOptions) : Kept fun d => d.options = o where
  opened := fun h _ => h
  unopened := by
    intro d h
    obtain ⟨present, hsame⟩ := d.unopened_eq
    rw [hsame]
    exact h
  produced := fun h _ _ => h
  taken := fun h => h

/-- So does a list of requests. -/
theorem Unnoticed.run (h : Unnoticed o change) (rs : List Request) : ∀ {d : Decoder},
    d.options = o → run (d.withSource change) rs =
      (Decoder.run d rs).map fun e => (e.1, e.2.withSource change) := by
  induction rs with
  | nil =>
    intro d _
    rfl
  | cons r rest ih =>
    intro d hoptions
    show (d.withSource change).perform r :: Decoder.run ((d.withSource change).perform r).2 rest = _
    rw [h.perform hoptions, ih ((options_kept o).perform hoptions r)]
    rfl

/-- A caller sees the same over the changed source. -/
theorem Unnoticed.seen (h : Unnoticed o change) (s : StoredImage) (rs : List Request) :
    (Decoder.run (start (change s) o) rs).map Decoder.seen =
      (Decoder.run (start s o) rs).map Decoder.seen := by
  have hseen : ∀ e : Answer × Decoder,
      Decoder.seen (e.1, e.2.withSource change) = Decoder.seen e := by
    intro e
    unfold Decoder.seen
    exact congrArg (fun n => (e.1, e.2.image, e.2.parsed, e.2.gainMapPresent, e.2.cursor, n))
      (h.count e.2.source)
  show (Decoder.run ((start s o).withSource change) rs).map Decoder.seen = _
  rw [h.run rs rfl, List.map_map]
  exact List.map_congr_left fun e _ => hseen e

end Decoder

/-! ## Clearing what is switched off -/

namespace StoredImage

/-- The source without the payload and the alternate rendition of its gain map. -/
def withoutMetadata (s : StoredImage) : StoredImage :=
  { s with gainMap := s.gainMap.map fun item =>
      { item with payload := [], alternate := .unknown } }

/-- The source with zeros for the samples of its gain map. -/
def withoutGains (s : StoredImage) : StoredImage :=
  { s with gainMap := s.gainMap.map fun item => { item with image := item.image.blank } }

/-- The source with zeros for the samples of its frames. -/
def withoutColors (s : StoredImage) : StoredImage :=
  { s with frames := s.frames.map fun frame => { frame with color := frame.color.blank } }

end StoredImage

namespace Decoder

variable {o : DecoderOptions}

/-- A change of the item alone is not noticed when gain maps are read as before. -/
theorem unnoticed_of_item {change : GainMapItem → GainMapItem}
    (hheader : ∀ item, gainMapHeader o (change item) = gainMapHeader o item)
    (hgainMap : ∀ decode item, (decode = true → o.decodeGainMap = true) →
      gainMapOf o decode (change item) = gainMapOf o decode item) :
    Unnoticed o fun s => { s with gainMap := s.gainMap.map change } where
  count := fun _ => rfl
  present := fun s => Option.isSome_map
  front := fun _ => rfl
  picture := fun _ _ => rfl
  header := by
    intro s
    cases hitem : s.gainMap with
    | none => rfl
    | some item =>
      show (gainMapHeader o (change item) >>= _) = _
      rw [hheader]
      rfl
  gainMap := by
    intro s i
    cases hitem : s.gainMap with
    | none => rfl
    | some item =>
      show (gainMapOf o (decodes s o i) (change item) >>= _) = _
      rw [hgainMap _ item fun hdecodes => (decodes_iff.mp hdecodes).1]
      rfl

/-- Without metadata, payload and alternate rendition are not read. -/
theorem metadata_unnoticed (h : o.parseMetadata = false) :
    Unnoticed o StoredImage.withoutMetadata := by
  have hheader : ∀ item : GainMapItem,
      gainMapHeader o { item with payload := [], alternate := .unknown } =
        gainMapHeader o item := by
    intro item
    unfold gainMapHeader
    rw [h]
    rfl
  refine unnoticed_of_item hheader fun decode item _ => ?_
  unfold gainMapOf
  rw [hheader]

/-- Without gains, the cells of the gain map are only checked. -/
theorem gains_unnoticed (h : o.decodeGainMap = false) : Unnoticed o StoredImage.withoutGains := by
  have hheader : ∀ item : GainMapItem,
      gainMapHeader o { item with image := item.image.blank } = gainMapHeader o item := by
    intro item
    unfold gainMapHeader
    dsimp only
    rw [ImageGrid.layout_blank]
  refine unnoticed_of_item hheader fun decode item hdecode => ?_
  have hnone : decode = false := by
    cases decode with
    | false => rfl
    | true => exact (hdecode rfl).symm.trans h
  unfold gainMapOf
  rw [hheader, hnone]
  simp only [Bool.false_eq_true, if_false]

/-- Without colour, only the headers of frames are read. -/
theorem colors_unnoticed (h : o.ignoreColor = true) : Unnoticed o StoredImage.withoutColors where
  count := fun s => List.length_map _
  present := fun _ => rfl
  front := by
    intro s
    obtain ⟨frames, item⟩ := s
    cases frames with
    | nil => rfl
    | cons frame rest => exact frame.color.header_blank
  picture := by
    intro s i
    have hpicture : ∀ frame : Frame,
        pictureOf o { frame with color := frame.color.blank } = pictureOf o frame := by
      intro frame
      unfold pictureOf
      rw [h]
      exact frame.color.header_blank
    unfold StoredImage.withoutColors
    dsimp only
    rw [List.getElem?_map, Option.map_map]
    exact congrArg (fun f => s.frames[i]?.map f) (funext hpicture)
  header := fun _ => rfl
  gainMap := fun _ _ => rfl

/-- **What is switched off has no influence.** Take two sources and any requests to a new session
over each. Without metadata, sources that differ only in the payload and the alternate rendition of
their gain maps give the same answers and leave the same sessions, request after request. So do,
without gains, sources that differ only in the values of the samples of their gain maps, and without
colour, those that differ only in the values of the samples of their frames. -/
theorem disabled_content_unseen (o : DecoderOptions) (s s' : StoredImage) (rs : List Request) :
    (o.parseMetadata = false → s.withoutMetadata = s'.withoutMetadata →
      (run (start s o) rs).map seen = (run (start s' o) rs).map seen) ∧
    (o.decodeGainMap = false → s.withoutGains = s'.withoutGains →
      (run (start s o) rs).map seen = (run (start s' o) rs).map seen) ∧
    (o.ignoreColor = true → s.withoutColors = s'.withoutColors →
      (run (start s o) rs).map seen = (run (start s' o) rs).map seen) := by
  have hsame : ∀ {change : StoredImage → StoredImage}, Unnoticed o change →
      change s = change s' → (run (start s o) rs).map seen = (run (start s' o) rs).map seen := by
    intro change h heq
    rw [← h.seen s rs, heq, h.seen s' rs]
  exact ⟨fun h => hsame (metadata_unnoticed h), fun h => hsame (gains_unnoticed h),
    fun h => hsame (colors_unnoticed h)⟩

/-- Two pixels with a payload that cannot be read. -/
def garbled : StoredImage :=
  { twoPixels with
    gainMap := twoPixels.gainMap.map fun item =>
      { item with payload := [0, 1], alternate := ⟨10, .rgb, .bt2100, .pq, .unknown⟩ } }

/-- Two pixels with another gain. -/
def regained : StoredImage :=
  { twoPixels with
    gainMap := twoPixels.gainMap.map fun item =>
      { item with image := .single (.ofRaster (grayPixel 13)) } }

/-- Two other pixels. -/
def recoloured : StoredImage :=
  { twoPixels with
    frames := [⟨.single (.ofRaster (grayPixel 1)), 1⟩, ⟨.single (.ofRaster (grayPixel 2)), 1⟩] }

theorem twoPixels_unseen :
    (run (start garbled ⟨true, false, false⟩) [.next, .take, .next]).map seen =
      (run (start twoPixels ⟨true, false, false⟩) [.next, .take, .next]).map seen ∧
    (run (start regained ⟨false, true, false⟩) [.parse, .next, .next]).map seen =
      (run (start twoPixels ⟨false, true, false⟩) [.parse, .next, .next]).map seen ∧
    (run (start recoloured ⟨true, true, true⟩) [.next, .next]).map seen =
      (run (start twoPixels ⟨true, true, true⟩) [.next, .next]).map seen := by
  obtain ⟨hmetadata, -, -⟩ :=
    disabled_content_unseen ⟨true, false, false⟩ garbled twoPixels [.next, .take, .next]
  obtain ⟨-, hgains, -⟩ :=
    disabled_content_unseen ⟨false, true, false⟩ regained twoPixels [.parse, .next, .next]
  obtain ⟨-, -, hcolors⟩ :=
    disabled_content_unseen ⟨true, true, true⟩ recoloured twoPixels [.next, .next]
  exact ⟨hmetadata rfl rfl, hgains rfl rfl, hcolors rfl rfl⟩

end Decoder

end DualRendition
