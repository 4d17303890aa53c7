import DualRendition.Proofs.Decoder.Cursor

/-!
# Options only hide

The options of a decoding session take parts of an image away and change nothing else.
`DecoderOptions.hide` says which parts. `options_hide_content` compares a session with any options
to the one in which everything is switched on: it hands out the same frames with those parts hidden.
When colour is ignored, only the first frame of a source with a gain map is left to hand out.

Structure: `handsOut_iff` turns what a session hands out into a condition on each frame alone
(`Depicts`), and `Depicts.hide` carries this condition from one set of options to another. Parsing
reads headers and stepping assembles cells. That both describe the same picture is
`ImageGrid.header_assemble`.
-/

namespace DualRendition

namespace DecoderOptions

/-- What is left of a gain map. -/
def keep (o : DecoderOptions) (gainMap : GainMap) : GainMap :=
  { (if o.parseMetadata then gainMap else .unknown) with
    image := if o.decodeGainMap then gainMap.image else none }

/-- What is left of an image. -/
def hide (o : DecoderOptions) (image : Image) : Image :=
  { image with
    samples := if o.ignoreColor then #[] else image.samples
    gainMap := image.gainMap.map o.keep }

/-- The options under which a step would show what parsing shows. -/
def headersOnly (o : DecoderOptions) : DecoderOptions :=
  { o with decodeGainMap := false, ignoreColor := true }

end DecoderOptions

namespace Decoder

/-- A new session hands out the images, one a step. -/
def HandsOut (source : StoredImage) (options : DecoderOptions) (images : List Image) : Prop :=
  ∀ (i : Nat) image, images[i]? = some image →
    ∃ d, (run (start source options) (List.replicate images.length .next))[i]? =
      some (.done (.ok ()), d) ∧ d.image = some image

variable {source : StoredImage} {options : DecoderOptions} {n : Nat} {d : Decoder}

/-! ## Steps, frame by frame -/

/-- The headers are read or can be read. -/
def Readable (d : Decoder) : Prop :=
  d.parsed = true ∨ ∃ header, headers d.source d.options = .ok header

theorem Counts.readable_succ (h : Counts source options (n + 1) d) : d.Readable := by
  by_cases hparsed : d.parsed = true
  · exact .inl hparsed
  · have hzero := h.unparsed (by simpa using hparsed)
    omega

/-- A step that succeeds had the headers. -/
theorem readable_of_next {d' : Decoder} (h : next.apply d = (.ok (), d')) : d.Readable := by
  rw [next_apply_eq] at h
  split at h
  next => cases h
  next =>
    by_cases hparsed : d.parsed = true
    · exact .inl hparsed
    · rw [if_neg hparsed] at h
      cases hheaders : headers d.source d.options with
      | ok header => exact .inr ⟨header, hheaders⟩
      | error failure =>
        rw [hheaders] at h
        cases h

/-- Unless everything is switched off, a step of a readable session produces an image. -/
theorem Counts.next_produces (h : Counts source options n d) (hreadable : d.Readable)
    (hpixels : options.ignoreColor = true → options.decodeGainMap = true) :
    ∃ e, Decoder.next.apply d = Decoder.produce e ∧ e.parsed = true ∧
      Counts source options n e := by
  have hsome : ¬(d.options.ignoreColor && !d.options.decodeGainMap) = true := by
    rw [h.options]
    intro hnone
    obtain ⟨hcolor, hgainMap⟩ := Bool.and_eq_true_iff.mp hnone
    rw [hpixels hcolor] at hgainMap
    cases hgainMap
  rw [next_apply_eq, if_neg hsome]
  by_cases hparsed : d.parsed = true
  · rw [if_pos hparsed]
    exact ⟨d, rfl, hparsed, h⟩
  · rw [if_neg hparsed]
    obtain ⟨header, hheader⟩ := hreadable.resolve_left hparsed
    rw [hheader]
    obtain rfl := h.unparsed (by simpa using hparsed)
    exact ⟨d.opened header, rfl, rfl, h.opened header⟩

/-- It hands out what the frame at the cursor depicts. -/
theorem Counts.next_depicts (h : Counts source options n d) (hreadable : d.Readable) {image : Image}
    (hdepicts : Depicts source options n image) :
    ∃ d', Decoder.next.apply d = (.ok (), d') ∧ d'.image = some image ∧
      Counts source options (n + 1) d' := by
  have hpixels : options.ignoreColor = true → options.decodeGainMap = true := by
    intro hcolor
    exact (decodes_iff.mp (hdepicts.wanted hcolor)).1
  obtain ⟨e, hnext, hparsed, he⟩ := h.next_produces hreadable hpixels
  have hcurrent : e.current = .ok image := by
    rw [current_eq_ok_iff, he.source, he.options, he.cursor]
    exact hdepicts
  rw [hnext]
  unfold Decoder.produce
  rw [hcurrent]
  refine ⟨_, rfl, rfl, he.source, he.options, congrArg (· + 1) he.cursor, ?_, he.present⟩
  intro hunparsed
  cases hparsed.symm.trans hunparsed

/-- Without pixels to produce, a step is refused, and so is the next one. -/
theorem Counts.next_unwanted (h : Counts source options n d) (hreadable : d.Readable)
    (hcolor : options.ignoreColor = true) (hdecodes : decodes source options n = false) :
    ∃ absence d', Decoder.next.apply d = (.error (.noContent absence), d') ∧ d'.Readable ∧
      Counts source options n d' := by
  by_cases hgainMap : options.decodeGainMap = true
  · obtain ⟨e, hnext, hparsed, he⟩ := h.next_produces hreadable (fun _ => hgainMap)
    obtain ⟨absence, hcurrent⟩ : ∃ absence, e.current = .error (.noContent absence) := by
      refine current_unwanted ?_ ?_
      · rw [he.options]
        exact hcolor
      · rw [he.source, he.options, he.cursor]
        exact hdecodes
    rw [hnext]
    unfold Decoder.produce
    rw [hcurrent]
    exact ⟨absence, e, rfl, .inl hparsed, he⟩
  · have hnone : (d.options.ignoreColor && !d.options.decodeGainMap) = true := by
      rw [h.options, hcolor]
      simpa using hgainMap
    rw [next_apply_eq, if_pos hnone]
    exact ⟨_, d, rfl, hreadable, h⟩

/-! ## Runs -/

/-- The steps of a session hand out images exactly when each is what its frame depicts. -/
theorem run_depicts (images : List Image) : ∀ {n : Nat} {d : Decoder},
    Counts source options n d → d.Readable →
    ((∀ (i : Nat) image, images[i]? = some image →
      ∃ d', (run d (List.replicate images.length .next))[i]? = some (.done (.ok ()), d') ∧
        d'.image = some image) ↔
    ∀ (i : Nat) image, images[i]? = some image → Depicts source options (n + i) image) := by
  induction images with
  | nil =>
    intro n d _ _
    constructor
    · intro _ i image himage
      cases himage
    · intro _ i image himage
      cases himage
  | cons first rest ih =>
    intro n d h hreadable
    rw [List.length_cons, run_cons_next]
    constructor
    · intro hrun
      obtain ⟨d', hd', himage⟩ := hrun 0 first rfl
      have hnext : next.apply d = (.ok (), d') := by
        obtain ⟨hanswer, hsession⟩ := Prod.mk.inj (Option.some.inj hd')
        exact Prod.ext (Answer.done.inj hanswer) hsession
      obtain ⟨image, e, he, hcurrent, hdepicts, hcounts⟩ | ⟨failure, e, he, -⟩ := h.next
      · cases he.symm.trans hnext
        obtain rfl : image = first := Option.some.inj (hcurrent.symm.trans himage)
        rw [hnext] at hrun
        have hrest := (ih hcounts hcounts.readable_succ).mp fun i => hrun (i + 1)
        intro i other hother
        cases i with
        | zero =>
          cases hother
          exact hdepicts
        | succ i =>
          rw [show n + (i + 1) = n + 1 + i by omega]
          exact hrest i other hother
      · cases he.symm.trans hnext
    · intro hdepicts
      obtain ⟨d', hnext, himage, hcounts⟩ := h.next_depicts hreadable (hdepicts 0 first rfl)
      rw [hnext]
      have hrest := (ih hcounts hcounts.readable_succ).mpr ?_
      · intro i other hother
        cases i with
        | zero =>
          cases hother
          exact ⟨d', rfl, himage⟩
        | succ i => exact hrest i other hother
      · intro i other hother
        have hshift := hdepicts (i + 1) other hother
        rwa [show n + (i + 1) = n + 1 + i by omega] at hshift

/-- A new session hands out images exactly when the headers can be read and each is what its frame
depicts. -/
theorem handsOut_iff {first : Image} {rest : List Image} :
    HandsOut source options (first :: rest) ↔
      (∃ header, headers source options = .ok header) ∧
      ∀ (i : Nat) image, (first :: rest)[i]? = some image → Depicts source options i image := by
  have hstart := start_counts source options
  constructor
  · intro h
    have hreadable : (start source options).Readable := by
      obtain ⟨d, hd, -⟩ := h 0 first rfl
      obtain ⟨hanswer, hsession⟩ := Prod.mk.inj (Option.some.inj hd)
      exact readable_of_next (Prod.ext (Answer.done.inj hanswer) hsession)
    refine ⟨hreadable.resolve_left Bool.false_ne_true, ?_⟩
    have hdepicts := (run_depicts (first :: rest) hstart hreadable).mp h
    simpa only [Nat.zero_add] using hdepicts
  · intro h
    refine (run_depicts (first :: rest) hstart (.inr h.1)).mpr ?_
    simpa only [Nat.zero_add] using h.2

/-- Without pixels to produce, every step is refused. -/
theorem run_unwanted (count : Nat) : ∀ {n i : Nat} {d : Decoder},
    Counts source options n d → d.Readable → options.ignoreColor = true →
    decodes source options n = false → i < count →
    ∃ absence d', (run d (List.replicate count .next))[i]? =
      some (.done (.error (.noContent absence)), d') := by
  induction count with
  | zero =>
    intro n i d _ _ _ _ hi
    omega
  | succ count ih =>
    intro n i d h hreadable hcolor hdecodes hi
    obtain ⟨absence, d', hnext, hreadable', h'⟩ := h.next_unwanted hreadable hcolor hdecodes
    rw [run_cons_next, hnext]
    cases i with
    | zero => exact ⟨absence, d', rfl⟩
    | succ i => exact ih h' hreadable' hcolor hdecodes (by omega)

/-- Without colour, only the first frame is handed out, and only for the samples of its gain map. -/
theorem run_ignoring_color (hcolor : options.ignoreColor = true)
    (hheaders : ∃ header, headers source options = .ok header) {image : Image}
    (hdepicts : decodes source options 0 = true → Depicts source options 0 image) {count i : Nat}
    (hi : i < count) :
    ∃ answer d,
      (run (start source options) (List.replicate count .next))[i]? = some (.done answer, d) ∧
      if i = 0 ∧ options.decodeGainMap = true ∧ source.gainMap.isSome = true then
        answer = .ok () ∧ d.image = some image
      else ∃ absence, answer = .error (.noContent absence) := by
  have hstart := start_counts source options
  by_cases hdecodes : decodes source options 0 = true
  · obtain ⟨count, rfl⟩ : ∃ k, count = k + 1 := ⟨count - 1, by omega⟩
    obtain ⟨hgainMap, hstored, -⟩ := decodes_iff.mp hdecodes
    obtain ⟨d, hnext, himage, hcounts⟩ := hstart.next_depicts (.inr hheaders) (hdepicts hdecodes)
    rw [run_cons_next, hnext]
    cases i with
    | zero =>
      refine ⟨.ok (), d, rfl, ?_⟩
      rw [if_pos ⟨rfl, hgainMap, hstored⟩]
      exact ⟨rfl, himage⟩
    | succ i =>
      have hlater : decodes source options 1 = false := by
        rw [← Bool.not_eq_true, decodes_iff]
        omega
      obtain ⟨absence, d', hd'⟩ :=
        run_unwanted count hcounts hcounts.readable_succ hcolor hlater (Nat.lt_of_succ_lt_succ hi)
      refine ⟨_, d', hd', ?_⟩
      rw [if_neg (by omega)]
      exact ⟨absence, rfl⟩
  · have hnone : ¬(i = 0 ∧ options.decodeGainMap = true ∧ source.gainMap.isSome = true) := by
      intro h
      exact hdecodes (decodes_iff.mpr ⟨h.2.1, h.2.2, rfl⟩)
    obtain ⟨absence, d, hd⟩ :=
      run_unwanted count hstart (.inr hheaders) hcolor (by simpa using hdecodes) hi
    refine ⟨_, d, hd, ?_⟩
    rw [if_neg hnone]
    exact ⟨absence, rfl⟩

/-! ## What the options leave -/

/-- The samples of the gain map belong to the first frame, whatever the options. -/
theorem decodes_eq (source : StoredImage) (o : DecoderOptions) (i : Nat) :
    decodes source o i = (o.decodeGainMap && decodes source .everything i) := by
  unfold decodes
  show (o.decodeGainMap && _ && _) = (o.decodeGainMap && (true && _ && _))
  rw [Bool.true_and, Bool.and_assoc]

theorem gainMapHeader_keep {item : GainMapItem} {header : GainMap}
    (h : gainMapHeader .everything item = .ok header) (o : DecoderOptions) :
    header.image = none ∧
      gainMapHeader o item = .ok (if o.parseMetadata then header else .unknown) := by
  unfold gainMapHeader at h ⊢
  obtain ⟨l, hlayout, h⟩ := Outcome.bind_eq_ok.mp h
  rw [if_pos (by rfl)] at h
  obtain ⟨metadata, hmetadata, h⟩ := Outcome.bind_eq_ok.mp h
  obtain rfl := Outcome.pure_eq_ok.mp h
  rw [hlayout, Outcome.ok_bind, hmetadata]
  cases o.parseMetadata <;> exact ⟨rfl, rfl⟩

/-- With a gain map, the options take away its samples, its metadata or both. -/
theorem gainMapOf_keep {decode : Bool} {item : GainMapItem} {gainMap : GainMap}
    (h : gainMapOf .everything decode item = .ok gainMap) (o : DecoderOptions) :
    gainMapOf o (o.decodeGainMap && decode) item = .ok (o.keep gainMap) := by
  unfold gainMapOf at h ⊢
  obtain ⟨header, hheader, h⟩ := Outcome.bind_eq_ok.mp h
  obtain ⟨hnone, hkeep⟩ := gainMapHeader_keep hheader o
  rw [hkeep, Outcome.ok_bind]
  obtain ⟨image, metadata, alternate⟩ := header
  obtain rfl : image = none := hnone
  cases decode with
  | false =>
    obtain rfl := Outcome.pure_eq_ok.mp h
    unfold DecoderOptions.keep
    cases o.decodeGainMap <;> cases o.parseMetadata <;> rfl
  | true =>
    obtain ⟨image, himage, h⟩ := Outcome.bind_eq_ok.mp h
    obtain rfl := Outcome.pure_eq_ok.mp h
    rw [himage]
    unfold DecoderOptions.keep
    cases o.decodeGainMap <;> cases o.parseMetadata <;> rfl

/-- So they do when there may be none. -/
theorem mapM_gainMapOf_keep {i : Nat} {gainMap : Option GainMap}
    (h : source.gainMap.mapM (gainMapOf .everything (decodes source .everything i)) = .ok gainMap)
    (o : DecoderOptions) :
    source.gainMap.mapM (gainMapOf o (decodes source o i)) = .ok (gainMap.map o.keep) := by
  rw [decodes_eq source o i]
  cases hitem : source.gainMap with
  | none =>
    rw [hitem] at h
    obtain rfl := Outcome.pure_eq_ok.mp h
    rfl
  | some item =>
    rw [hitem] at h
    obtain ⟨full, hfull, rfl⟩ := Outcome.mapM_some_eq_ok h
    exact Outcome.mapM_some (gainMapOf_keep hfull o)

/-- The frames, cell by cell, own no gain maps. -/
def BareColor (source : StoredImage) : Prop :=
  ∀ frame ∈ source.frames, ∀ cell ∈ frame.color.cells, cell.gainMap = none

/-- Parsing describes the first frame. -/
theorem frontHeader_eq {frame : Frame} (hframe : source.frames[0]? = some frame) :
    frontHeader source = frame.color.header := by
  obtain ⟨frames, item⟩ := source
  cases frames with
  | nil => cases hframe
  | cons front rest =>
    obtain rfl := Option.some.inj hframe
    rfl

/-- With everything switched on, a frame without gain maps in its cells gets that of the source. Its
header is the same picture without samples. -/
theorem Depicts.bare (hbare : BareColor source) {i : Nat} {image : Image}
    (h : Depicts source .everything i image) :
    ∃ frame raster gainMap, source.frames[i]? = some frame ∧
      frame.color.assemble = .ok (.ofRaster raster) ∧
      (∀ header, frame.color.header = .ok header →
        header = (Image.ofRaster raster).withoutSamples) ∧
      source.gainMap.mapM (gainMapOf .everything (decodes source .everything i)) = .ok gainMap ∧
      image = ⟨raster, gainMap⟩ := by
  obtain ⟨frame, picture, gainMap, hframe, hpicture, hgainMap, rfl⟩ := h.content
  have hassemble : frame.color.assemble = .ok picture := hpicture
  have hcells := hbare frame (List.mem_of_getElem? hframe)
  have hnone : picture.gainMap = none := ImageGrid.assemble_bare hassemble hcells
  obtain ⟨raster, own⟩ := picture
  obtain rfl : own = none := hnone
  refine ⟨frame, raster, gainMap, hframe, hassemble, ?_, hgainMap, ?_⟩
  · intro header hheader
    exact ImageGrid.header_assemble hheader hassemble hcells
  · cases gainMap <;> rfl

/-- **A frame under other options** is the frame under all of them, with some of it hidden. -/
theorem Depicts.hide (hbare : BareColor source) {i : Nat} {image : Image}
    (h : Depicts source .everything i image) (hfront : ∃ header, frontHeader source = .ok header)
    (o : DecoderOptions) (hwanted : o.ignoreColor = true → decodes source o i = true) :
    Depicts source o i (o.hide image) := by
  obtain ⟨frame, raster, gainMap, hframe, hassemble, hheader, hgainMap, rfl⟩ := h.bare hbare
  have hpicture : pictureOf o frame =
      .ok (.ofRaster { raster with samples := if o.ignoreColor then #[] else raster.samples }) := by
    unfold pictureOf
    by_cases hcolor : o.ignoreColor = true
    · -- only the first frame is wanted, whose header was parsed
      obtain ⟨-, -, rfl⟩ := decodes_iff.mp (hwanted hcolor)
      obtain ⟨header, hparsed⟩ := hfront
      rw [frontHeader_eq hframe] at hparsed
      rw [if_pos hcolor, if_pos hcolor, hparsed, hheader header hparsed]
      rfl
    · rw [if_neg hcolor, if_neg hcolor]
      exact hassemble
  refine ⟨hwanted, frame, _, _, hframe, hpicture, mapM_gainMapOf_keep hgainMap o, ?_⟩
  cases gainMap <;> rfl

/-- What parsing finds under other options. -/
theorem headers_hide (hbare : BareColor source) {image : Image}
    (h : Depicts source .everything 0 image) (hfront : ∃ header, frontHeader source = .ok header)
    (o : DecoderOptions) : headers source o = .ok (o.headersOnly.hide image) := by
  obtain ⟨frame, raster, gainMap, hframe, -, hheader, hgainMap, rfl⟩ := h.bare hbare
  obtain ⟨header, hparsed⟩ := hfront
  have hsame : header = (Image.ofRaster raster).withoutSamples := by
    rw [frontHeader_eq hframe] at hparsed
    exact hheader header hparsed
  -- without samples to decode, the gain map is its header
  have hplain : gainMapOf o.headersOnly (decodes source o.headersOnly 0) = gainMapHeader o := by
    funext item
    rw [decodes_eq]
    show (gainMapHeader o item >>= pure) = _
    cases gainMapHeader o item <;> rfl
  have hkeep := mapM_gainMapOf_keep hgainMap o.headersOnly
  rw [hplain] at hkeep
  refine headers_eq_ok_iff.mpr ⟨header, gainMap.map o.headersOnly.keep, hparsed, hkeep, ?_⟩
  rw [hsame]
  rfl

/-! ## Options only hide -/

/-- **Options only hide content.** Let a session with everything switched on hand out some images of
a source whose cells own no gain maps. With colour, a session with other options hands out the same
images, with what the options do not ask for hidden. Without colour, it hands out the first of them
if the samples of the gain map are asked for and there are any; every other step finds no content.
Whatever the options, parsing always succeeds, shows the first image without samples and tells
whether there is a gain map. -/
theorem options_hide_content {source : StoredImage} {first : Image} {rest : List Image}
    (hbare : BareColor source) (hfull : HandsOut source .everything (first :: rest))
    (o : DecoderOptions) :
    (o.ignoreColor = false → HandsOut source o ((first :: rest).map o.hide)) ∧
    (o.ignoreColor = true → ∀ count i, i < count → ∃ answer d,
      (run (start source o) (List.replicate count .next))[i]? = some (.done answer, d) ∧
      if i = 0 ∧ o.decodeGainMap = true ∧ source.gainMap.isSome = true then
        answer = .ok () ∧ d.image = some (o.hide first)
      else ∃ absence, answer = .error (.noContent absence)) ∧
    ∀ rs, let d := (start source o).after rs
      (∃ d', parse.apply d = (.ok (), d') ∧ d'.image = some (o.headersOnly.hide first) ∧
        d'.gainMapPresent = source.gainMap.isSome) ∧
      (d.parsed = true → d.gainMapPresent = source.gainMap.isSome) := by
  obtain ⟨⟨header, hheader⟩, hdepicts⟩ := handsOut_iff.mp hfull
  have hfront : ∃ header, frontHeader source = .ok header := by
    obtain ⟨front, -, hfront, -⟩ := headers_eq_ok_iff.mp hheader
    exact ⟨front, hfront⟩
  have hheaders : headers source o = .ok (o.headersOnly.hide first) :=
    headers_hide hbare (hdepicts 0 first rfl) hfront o
  refine ⟨?_, ?_, ?_⟩
  · intro hcolor
    refine handsOut_iff.mpr ⟨⟨_, hheaders⟩, ?_⟩
    intro i image himage
    rw [← List.map_cons, List.getElem?_map] at himage
    obtain ⟨full, hat, rfl⟩ := Option.map_eq_some_iff.mp himage
    refine (hdepicts i full hat).hide hbare hfront o ?_
    intro hignore
    cases hcolor.symm.trans hignore
  · intro hcolor count i hi
    refine run_ignoring_color hcolor ⟨_, hheaders⟩ ?_ hi
    intro hdecodes
    exact (hdepicts 0 first rfl).hide hbare hfront o fun _ => hdecodes
  · intro rs d
    have hcounts : Counts source o (handedOut 0 (start source o) rs) d :=
      after_counts rs (start_counts source o)
    constructor
    · rw [parse_apply_eq, hcounts.source, hcounts.options, hheaders]
      exact ⟨_, rfl, rfl, congrArg (fun s : StoredImage => s.gainMap.isSome) hcounts.source⟩
    · intro hparsed
      rw [hcounts.present hparsed, hcounts.source]

/-- Two gray pixels in two frames, with one gain. -/
def twoPixels : StoredImage where
  frames := [⟨.single (.ofRaster (grayPixel 7)), 1⟩, ⟨.single (.ofRaster (grayPixel 9)), 1⟩]
  gainMap := some
    { image := .single (.ofRaster (grayPixel 200))
      payload := [0, 0, 0, 0, 0, 8, 0, 0, 0, 1, 0, 0, 0, 0, 0, 0, 0, 1] ++
        [0, 0, 0, 0, 0, 0, 0, 1, 0, 0, 0, 1, 0, 0, 0, 0, 0, 0, 0, 0]
      alternate := .unknown }

/-- The metadata of that gain. -/
def unitGain : Metadata where
  backward := false
  useBaseColorSpace := false
  baseHeadroom := ⟨0, 1⟩
  alternateHeadroom := ⟨1, 1⟩
  channels := .replicate ⟨⟨0, 1⟩, ⟨1, 1⟩, ⟨1, 1⟩, ⟨0, 1⟩, ⟨0, 1⟩⟩

theorem twoPixels_hide :
    HandsOut twoPixels .everything
      [⟨grayPixel 7, some ⟨some (.ofRaster (grayPixel 200)), unitGain, .unknown⟩⟩,
        ⟨grayPixel 9, some ⟨none, unitGain, .unknown⟩⟩] ∧
    HandsOut twoPixels ⟨false, true, false⟩
      [⟨grayPixel 7, some ⟨none, unitGain, .unknown⟩⟩,
        ⟨grayPixel 9, some ⟨none, unitGain, .unknown⟩⟩] ∧
    (∃ d, (run (start twoPixels ⟨true, false, true⟩) [.next, .next])[0]? =
        some (.done (.ok ()), d) ∧
      d.image = some ⟨{ grayPixel 7 with samples := #[] },
        some ⟨some (.ofRaster (grayPixel 200)), .unset, .unknown⟩⟩) ∧
    (∃ absence d, (run (start twoPixels ⟨true, false, true⟩) [.next, .next])[1]? =
        some (.done (.error (.noContent absence)), d)) ∧
    ∃ d, parse.apply (start twoPixels ⟨false, false, true⟩) = (.ok (), d) ∧
      d.image = some ⟨{ grayPixel 7 with samples := #[] }, some .unknown⟩ ∧
      d.gainMapPresent = true := by
  have hbare : BareColor twoPixels := by
    intro frame hframe cell hcell
    rcases List.mem_cons.mp hframe with rfl | hframe
    · obtain rfl := List.mem_singleton.mp hcell
      rfl
    · obtain rfl := List.mem_singleton.mp hframe
      obtain rfl := List.mem_singleton.mp hcell
      rfl
  have hfull : HandsOut twoPixels .everything
      [⟨grayPixel 7, some ⟨some (.ofRaster (grayPixel 200)), unitGain, .unknown⟩⟩,
        ⟨grayPixel 9, some ⟨none, unitGain, .unknown⟩⟩] := by
    intro i image himage
    match i with
    | 0 =>
      obtain rfl := Option.some.inj himage
      exact ⟨_, rfl, rfl⟩
    | 1 =>
      obtain rfl := Option.some.inj himage
      exact ⟨_, rfl, rfl⟩
    | i + 2 => cases himage
  obtain ⟨hcolor, -, -⟩ := options_hide_content hbare hfull ⟨false, true, false⟩
  obtain ⟨-, hignored, -⟩ := options_hide_content hbare hfull ⟨true, false, true⟩
  obtain ⟨-, -, hparse⟩ := options_hide_content hbare hfull ⟨false, false, true⟩
  refine ⟨hfull, hcolor rfl, ?_, ?_, (hparse []).1⟩
  · obtain ⟨answer, d, hd, hanswer⟩ := hignored rfl 2 0 (by decide)
    rw [if_pos (by decide)] at hanswer
    obtain ⟨rfl, himage⟩ := hanswer
    exact ⟨d, hd, himage⟩
  · obtain ⟨answer, d, hd, hanswer⟩ := hignored rfl 2 1 (by decide)
    rw [if_neg (by decide)] at hanswer
    obtain ⟨absence, rfl⟩ := hanswer
    exact ⟨absence, d, hd⟩

end Decoder

end DualRendition
