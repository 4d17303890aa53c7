import DualRendition.Proofs.Decoder.Options
import DualRendition.Proofs.Encoder.Invariant
import DualRendition.Proofs.Encoder.Trace

/-!
# Gain maps within gain maps

Images and gain maps own each other, so the image of a gain map may own a gain map again. Cells of
pictures are stored without what they own. Cells of gain maps are stored as they are: a stored image
is flat exactly when all accepted gain maps were (`stored_nesting`). A decoder hands out what a lone
cell of the stored gain map owns and loses what several of them own, because stitching makes a new
image (`ImageGrid.assemble_owned`). `nestedPixel_nests` is a nested gain map that goes all the way.

Structure: `Decoder.NestsAs` says what an image may own that comes out of a source. It is carried
through the requests of a decoding session, and the encoding session is settled by what it collects.
-/

namespace DualRendition

/-- No image of the cells owns a gain map. -/
def GainMapGrid.Flat (g : GainMapGrid) : Prop :=
  ∀ cell ∈ g.cells, ∀ image, cell.image = some image → image.gainMap = none

/-- No stored cell owns a gain map. -/
structure StoredImage.Flat (stored : StoredImage) : Prop where
  color : Decoder.BareColor stored
  gainMap : ∀ item, stored.gainMap = some item → ∀ cell ∈ item.image.cells, cell.gainMap = none

/-! ## Decoding -/

namespace Decoder

/-- The image of a gain map comes from the stored item, and owns what a lone cell of it does. -/
def NestsAs (source : StoredImage) (image : Image) : Prop :=
  ∀ gainMap map, image.gainMap = some gainMap → gainMap.image = some map →
    ∃ item, source.gainMap = some item ∧ map.gainMap = item.image.owned

/-- An image comes out of a source: it is the current one of some session, or read at once. -/
inductive Yields (source : StoredImage) (image : Image) : Prop
  | current (options : DecoderOptions) (requests : List Request)
      (h : ((start source options).after requests).image = some image)
  | read (options : DecoderOptions) (h : read source options = .ok image)

variable {source : StoredImage} {options : DecoderOptions} {d : Decoder} {image : Image}

/-- The header of a gain map has no image. -/
theorem gainMapHeader_image {item : GainMapItem} {header : GainMap}
    (h : gainMapHeader options item = .ok header) : header.image = none := by
  unfold gainMapHeader at h
  obtain ⟨l, -, h⟩ := Outcome.bind_eq_ok.mp h
  split at h
  next =>
    obtain ⟨metadata, -, h⟩ := Outcome.bind_eq_ok.mp h
    obtain rfl := Outcome.pure_eq_ok.mp h
    rfl
  next =>
    obtain rfl := Outcome.pure_eq_ok.mp h
    rfl

theorem gainMapOf_image {decode : Bool} {item : GainMapItem} {gainMap : GainMap} {map : Image}
    (h : gainMapOf options decode item = .ok gainMap) (hmap : gainMap.image = some map) :
    item.image.assemble = .ok map := by
  unfold gainMapOf at h
  obtain ⟨header, hheader, h⟩ := Outcome.bind_eq_ok.mp h
  split at h
  next =>
    obtain ⟨assembled, hassembled, h⟩ := Outcome.bind_eq_ok.mp h
    obtain rfl := Outcome.pure_eq_ok.mp h
    obtain rfl := Option.some.inj hmap
    exact hassembled
  next =>
    obtain rfl := Outcome.pure_eq_ok.mp h
    rw [gainMapHeader_image hheader] at hmap
    cases hmap

theorem headers_gainMap_image {header : GainMap} (h : headers source options = .ok image)
    (hheader : image.gainMap = some header) : header.image = none := by
  obtain ⟨front, gainMap, -, hgainMap, rfl⟩ := headers_eq_ok_iff.mp h
  obtain rfl : gainMap = some header := hheader
  obtain ⟨item, -, hread⟩ := Outcome.exists_of_mapM_eq_some hgainMap
  exact gainMapHeader_image hread

theorem headers_nestsAs (h : headers source options = .ok image) : NestsAs source image := by
  intro header map hheader hmap
  rw [headers_gainMap_image h hheader] at hmap
  cases hmap

/-- A picture made of cells that own nothing owns nothing. -/
theorem pictureOf_bare {frame : Frame} {picture : Image} (h : pictureOf options frame = .ok picture)
    (hbare : ∀ cell ∈ frame.color.cells, cell.gainMap = none) : picture.gainMap = none := by
  unfold pictureOf at h
  split at h
  next =>
    obtain ⟨first, -, -, rfl⟩ := ImageGrid.header_eq_ok_iff.mp h
    rfl
  next => exact ImageGrid.assemble_bare h hbare

/-- What a frame depicts nests as the source does, whose pictures own nothing themselves. -/
theorem Depicts.nestsAs {n : Nat} (h : Depicts source options n image) (hbare : BareColor source) :
    NestsAs source image := by
  obtain ⟨frame, picture, gainMap, hframe, hpicture, hgainMap, rfl⟩ := h.content
  intro owned map howned hmap
  -- the gain map that was read, or else what the picture brought along
  cases gainMap with
  | none =>
    have hnone := pictureOf_bare hpicture (hbare frame (List.mem_of_getElem? hframe))
    change (none <|> picture.gainMap) = some owned at howned
    rw [hnone] at howned
    cases howned
  | some read =>
    obtain rfl : read = owned := Option.some.inj howned
    obtain ⟨item, hitem, hread⟩ := Outcome.exists_of_mapM_eq_some hgainMap
    exact ⟨item, hitem, ImageGrid.assemble_owned (gainMapOf_image hread hmap)⟩

/-- The session belongs to the source, and so does its image. -/
structure Nests (source : StoredImage) (d : Decoder) : Prop where
  origin : d.source = source
  held : ∀ image, d.image = some image → NestsAs source image

/-- Pictures that own nothing keep the session and its image with the source. -/
theorem nests_kept (hbare : BareColor source) : Kept (Nests source) where
  opened := by
    intro d header h hheader
    refine ⟨h.origin, fun image himage => ?_⟩
    obtain rfl := Option.some.inj himage
    rw [h.origin] at hheader
    exact headers_nestsAs hheader
  unopened := by
    intro d h
    obtain ⟨present, hsame⟩ := d.unopened_eq
    rw [hsame]
    exact ⟨h.origin, h.held⟩
  produced := by
    intro d image h _ hcurrent
    refine ⟨h.origin, fun image' himage' => ?_⟩
    obtain rfl := Option.some.inj himage'
    have hdepicts := current_eq_ok_iff.mp hcurrent
    rw [h.origin] at hdepicts
    exact hdepicts.nestsAs hbare
  taken := fun h => ⟨h.origin, fun _ himage => nomatch himage⟩

/-- Reading at once is parsing and stepping. -/
theorem current_of_read (h : read source options = .ok image) :
    ((start source options).after [.parse, .next]).image = some image := by
  show (next.apply (parse.apply (start source options)).2).2.image = some image
  unfold read at h
  dsimp only at h
  rw [Edit.apply_bind] at h
  cases hparse : parse.apply (start source options) with
  | mk parsed d =>
    rw [hparse] at h
    cases parsed with
    | error failure => cases h
    | ok =>
      dsimp only at h ⊢
      rw [Edit.apply_bind] at h
      cases hnext : next.apply d with
      | mk stepped d' =>
        rw [hnext] at h
        cases stepped with
        | error failure => cases h
        | ok =>
          dsimp only at h ⊢
          rw [Edit.apply_bind, Edit.apply_get] at h
          change (match (Except.ok d'.image, d') with
            | ((.ok (some image), _) : Outcome (Option Image) × Decoder) => Except.ok image
            | (.ok none, _) => .error Failure.missingImage
            | (.error failure, _) => .error failure) = .ok image at h
          cases himage : d'.image with
          | none =>
            rw [himage] at h
            cases h
          | some image' =>
            rw [himage] at h
            exact congrArg some (Except.ok.inj h)

/-- Whatever comes out of a source nests as the source does. -/
theorem Yields.nestsAs (h : Yields source image) (hbare : BareColor source) :
    NestsAs source image := by
  have hstart : ∀ options, Nests source (start source options) :=
    fun _ => ⟨rfl, fun _ himage => nomatch himage⟩
  cases h with
  | current options requests h =>
    exact ((nests_kept hbare).after requests (hstart options)).held image h
  | read options h =>
    exact ((nests_kept hbare).after _ (hstart options)).held image (current_of_read h)

end Decoder

/-! ## Encoding -/

namespace Encoder

/-- The item of a gain map is flat when the gain map is. -/
theorem gainMapItem_flat_iff {g : GainMapGrid} {item : GainMapItem}
    (h : gainMapItem g = .ok item) :
    (∀ image ∈ item.image.cells, image.gainMap = none) ↔ g.Flat := by
  obtain ⟨first, firstImage, hlegal, -⟩ := gainMapItem_eq_ok_iff.mp h
  have hmem : ∀ {image}, image ∈ item.image.cells ↔ ∃ cell ∈ g.cells, cell.image = some image :=
    GainMapGrid.mem_images_iff hlegal.cellImages
  constructor
  · intro hflat cell hcell image himage
    exact hflat image (hmem.mpr ⟨cell, hcell, himage⟩)
  · intro hflat image himage
    obtain ⟨cell, hcell, hfound⟩ := hmem.mp himage
    exact hflat cell hcell image hfound

/-- What is stored for some requests: by finishing their session, or by encoding the one image at
once. -/
inductive Stores : List Request → StoredImage → Prop
  | finished {rs : List Request} {stored : StoredImage}
      (h : (run start rs).2.finish = .ok stored) : Stores rs stored
  | encoded {image : Image} {stored : StoredImage} (h : encode image = .ok stored) :
      Stores [.image image 1 .singleImage] stored

/-- Encoding at once is finishing the session of that image. -/
theorem Stores.finish {rs : List Request} {stored : StoredImage} (h : Stores rs stored) :
    (run start rs).2.finish = .ok stored := by
  cases h with
  | finished h => exact h
  | @encoded image stored h =>
    unfold encode at h
    rw [run_cons]
    cases hperform : (perform (.image image 1 .singleImage)).apply start with
    | mk answer e =>
      rw [hperform] at h
      cases answer with
      | error failure => cases h
      | ok => exact h

/-- The item of a stored image is that of the gain map which an accepted request brought: a stored
image has a frame, so there is such a request. -/
theorem finish_item {rs : List Request} {stored : StoredImage} {item : GainMapItem}
    (h : (run start rs).2.finish = .ok stored) (hstored : stored.gainMap = some item) :
    ∃ r ∈ start.accepted rs, ∃ g, r.gainMap = some g ∧ gainMapItem g = .ok item := by
  have hcollected : Collected (run start rs).2 (start.accepted rs) :=
    run_collected rs start_collected
  obtain ⟨hframes, -, hitem⟩ := finish_eq_ok h
  rw [hstored] at hitem
  obtain ⟨g, hg, hitem⟩ := Outcome.exists_of_mapM_eq_some hitem
  obtain ⟨r, hr⟩ := List.exists_mem_of_ne_nil _ ((not_congr (frames_eq_nil_iff rs)).mp hframes)
  exact ⟨r, hr, g, (hcollected.gainMap r hr).trans hg, hitem⟩

/-- The stored gain map is flat exactly when all accepted ones are. -/
theorem finish_gainMap_flat_iff {rs : List Request} {stored : StoredImage}
    (h : (run start rs).2.finish = .ok stored) :
    (∀ item, stored.gainMap = some item → ∀ cell ∈ item.image.cells, cell.gainMap = none) ↔
      ∀ r ∈ start.accepted rs, ∀ g, r.gainMap = some g → g.Flat := by
  constructor
  · intro hflat r hr g hg
    obtain ⟨-, -, hitem⟩ := finish_eq_ok h
    have hcollected : Collected (run start rs).2 (start.accepted rs) :=
      run_collected rs start_collected
    rw [hcollected.gainMap r hr] at hg
    rw [hg] at hitem
    obtain ⟨item, hitem, hstored⟩ := Outcome.mapM_some_eq_ok hitem
    exact (gainMapItem_flat_iff hitem).mp (hflat item hstored)
  · intro hflat item hstored
    obtain ⟨r, hr, g, hg, hitem⟩ := finish_item h hstored
    exact (gainMapItem_flat_iff hitem).mpr (hflat r hr g hg)

end Encoder

/-! ## From one session to the other -/

namespace Session

open Encoder

/-- **Nesting is stored as it was accepted.** Let an image be stored for some requests, refused ones
among them. No cell of its pictures owns a gain map. The cells of its gain map own none either
exactly when those of all accepted gain maps own none. What a decoder hands out as the image of a
gain map owns what a lone cell of the stored gain map owns; it owns nothing when that has several
cells, or when the stored image is flat. -/
theorem stored_nesting {rs : List Request} {stored : StoredImage} (h : Stores rs stored) :
    Decoder.BareColor stored ∧
    (stored.Flat ↔ ∀ r ∈ start.accepted rs, ∀ g, r.gainMap = some g → g.Flat) ∧
    ∀ image, Decoder.Yields stored image →
      ∀ gainMap map, image.gainMap = some gainMap → gainMap.image = some map →
        ∃ item, stored.gainMap = some item ∧ map.gainMap = item.image.owned ∧
          (item.image.isTiled = true ∨ stored.Flat → map.gainMap = none) := by
  have hfinish := h.finish
  obtain ⟨-, hframes, -⟩ := finish_eq_ok hfinish
  have hbare : Decoder.BareColor stored := by
    unfold Decoder.BareColor
    rw [hframes]
    exact (run_invariant rs start_invariant).bare
  refine ⟨hbare, ?_, ?_⟩
  · rw [← finish_gainMap_flat_iff hfinish]
    exact ⟨fun hflat => hflat.gainMap, fun hflat => ⟨hbare, hflat⟩⟩
  · intro image hyields gainMap map hgainMap hmap
    obtain ⟨item, hitem, howned⟩ := hyields.nestsAs hbare gainMap map hgainMap hmap
    refine ⟨item, hitem, howned, ?_⟩
    rintro (htiled | hflat)
    · rw [howned]
      exact ImageGrid.owned_of_tiled htiled
    · rw [howned]
      exact ImageGrid.owned_of_bare (hflat.gainMap item hitem)

/-- A flat image is stored flat, and so it comes back. -/
theorem lonePixel_flat :
    ∃ stored, encode lonePixel = .ok stored ∧ stored.Flat ∧
      ∃ image gainMap map, Decoder.read stored .everything = .ok image ∧
        image.gainMap = some gainMap ∧ gainMap.image = some map ∧ map.gainMap = none := by
  refine ⟨_, rfl, ?_⟩
  obtain ⟨-, hflat, hyielded⟩ := stored_nesting (.encoded (rfl : encode lonePixel = .ok _))
  have hstored := hflat.mpr <| by
    intro r hr g hg cell hcell image himage
    obtain rfl := List.mem_singleton.mp hr
    obtain rfl := Option.some.inj hg
    obtain rfl := List.mem_singleton.mp hcell
    obtain rfl := Option.some.inj himage
    rfl
  obtain ⟨item, -, -, hnone⟩ := hyielded _ (.read .everything rfl) _ _ rfl rfl
  exact ⟨hstored, _, _, _, rfl, rfl, rfl, hnone (.inr hstored)⟩

/-- The picture of one pixel, with a gain map whose image owns that gain map again. -/
def nestedPixel : Image :=
  { lonePixel with
    gainMap := lonePixel.gainMap.map fun g =>
      { g with image := g.image.map fun map => { map with gainMap := lonePixel.gainMap } } }

/-- A nested gain map is stored in the cell of the item, and comes back in the decoded image. -/
theorem nestedPixel_nests :
    ∃ stored item cell image gainMap map, encode nestedPixel = .ok stored ∧
      stored.gainMap = some item ∧ cell ∈ item.image.cells ∧ cell.gainMap.isSome = true ∧
      Decoder.read stored .everything = .ok image ∧ image.gainMap = some gainMap ∧
      gainMap.image = some map ∧ map.gainMap.isSome = true :=
  ⟨_, _, _, _, _, _, rfl, rfl, List.mem_cons_self, rfl, rfl, rfl, rfl, rfl⟩

end Session

end DualRendition
