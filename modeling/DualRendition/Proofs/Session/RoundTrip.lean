import DualRendition.Proofs.Decoder.Step
import DualRendition.Proofs.Encoder.Invariant
import DualRendition.Proofs.Encoder.Trace
import DualRendition.Proofs.Payload.RoundTrip

/-!
# From one session to the other

A decoding session hands out what was accepted by the encoding session before it: the pictures
stitched from the cells of every request, in order, with the gain map assembled in memory from the
cells that came with the picture. `session_round_trip` says so of any list of requests.

Structure: `Session.Shows` says which image belongs to a request. `gainMap_round_trip` follows the
gain map through item and payload, `current_pictured` finds the image of a request at its frame, and
`delivers` concludes that a stored session delivers these images, so that `Decoder.run_next`
applies.
-/

namespace DualRendition

open Encoder

namespace Session

/-! ## Images and requests -/

/-- Every image of the gain map has a legal depth and owns no gain map of its own. -/
def PlainGainMap (g : GainMapGrid) : Prop :=
  ∀ cell ∈ g.cells, ∀ image, cell.image = some image →
    Raster.DepthLegal image.depth ∧ image.gainMap = none

/-- All images of a request have a legal depth, and those of its gain map own no gain maps. -/
structure Plain (r : Request) : Prop where
  color : ∀ cell ∈ r.color.cells, Raster.DepthLegal cell.depth
  gainMap : ∀ g, r.gainMap = some g → PlainGainMap g

/-- The image that a request should come back as. -/
structure Shows (r : Request) (image : Image) : Prop where
  /-- Size, rendition and samples are those of the stitched cells. -/
  raster : ∃ whole, r.color.stitch = .ok whole ∧ image.toRaster = whole.toRaster
  /-- A picture in one cell comes back as that cell. -/
  single : ∀ cell, r.color.cells = [cell] → image.toRaster = cell.toRaster
  /-- The gain map is the assembled one, and there is none where none was given. -/
  gainMap : r.gainMap.mapM GainMapGrid.assemble = .ok image.gainMap

/-- The image is the whole picture of a legal request, with the assembled gain map. -/
def Pictured (r : Request) (image : Image) : Prop :=
  ∃ first gainMap, r.color.Legal first ∧ r.gainMap.mapM GainMapGrid.assemble = .ok gainMap ∧
    image = { r.color.whole first with gainMap }

theorem Pictured.shows {r : Request} {image : Image} (h : Pictured r image) (hr : Plain r) :
    Shows r image := by
  obtain ⟨first, gainMap, hlegal, hgainMap, rfl⟩ := h
  refine ⟨⟨_, ImageGrid.stitch_eq hlegal (hr.color first hlegal.first_mem), rfl⟩, ?_, hgainMap⟩
  intro cell hcells
  obtain rfl := hlegal.first_eq hcells
  show (r.color.whole cell).toRaster = cell.toRaster
  rw [ImageGrid.whole_singleton hlegal hcells]
  rfl

/-- The stored frame of a request assembles to the picture stitched from its cells. -/
theorem frame_assemble {r : Request} {first : Image} (hr : Plain r)
    (hlegal : r.color.Legal first) : r.frame.color.assemble = .ok (r.color.whole first) := by
  have hdepth := hr.color first hlegal.first_mem
  -- the cells were stored without gain maps, which the whole picture does not notice
  have hassemble := ImageGrid.assemble_eq hlegal.withoutGainMaps hdepth r.frame_bare
  rw [ImageGrid.whole_withoutGainMaps] at hassemble
  exact hassemble

/-! ## The gain map -/

/-- A gain map that was made an item is read back as it assembles in memory. -/
theorem gainMap_round_trip {g : GainMapGrid} {item : GainMapItem} (hg : PlainGainMap g)
    (hitem : gainMapItem g = .ok item) :
    ∃ gainMap header, g.assemble = .ok gainMap ∧
      Decoder.gainMapOf .everything true item = .ok gainMap ∧
      Decoder.gainMapHeader .everything item = .ok header := by
  obtain ⟨first, firstImage, hlegal, hwrite, halternate⟩ := gainMapItem_eq_ok_iff.mp hitem
  have hread := Payload.read_of_write hwrite
  -- the images of the item are those of the cells
  have hplain : ∀ image ∈ item.image.cells,
      Raster.DepthLegal image.depth ∧ image.gainMap = none := by
    intro image himage
    obtain ⟨cell, hcell, hfound⟩ := (GainMapGrid.mem_images_iff hlegal.cellImages).mp himage
    exact hg cell hcell image hfound
  have hdepth : Raster.DepthLegal firstImage.depth :=
    (hplain firstImage hlegal.legal.first_mem).1
  refine ⟨_, _, GainMapGrid.assemble_eq hlegal hdepth, ?_,
    Decoder.gainMapHeader_eq hlegal.legal hread⟩
  rw [Decoder.gainMapOf_eq hlegal.legal hread hdepth fun image himage => (hplain image himage).2,
    halternate]

/-! ## The stored session -/

/-- One image for every request. -/
theorem exists_images {P : Request → Image → Prop} (taken : List Request) :
    (∀ r ∈ taken, ∃ image, P r image) →
    ∃ images : List Image, images.length = taken.length ∧
      ∀ (i : Nat) r image, taken[i]? = some r → images[i]? = some image → P r image := by
  induction taken with
  | nil =>
    intro _
    exact ⟨[], rfl, fun _ _ _ h => nomatch h⟩
  | cons r taken ih =>
    intro h
    obtain ⟨image, himage⟩ := h r List.mem_cons_self
    obtain ⟨images, hlength, himages⟩ := ih fun r' hr' => h r' (List.mem_cons_of_mem r hr')
    refine ⟨image :: images, congrArg (· + 1) hlength, ?_⟩
    intro i r' image' hr' himage'
    cases i with
    | zero =>
      obtain rfl := Option.some.inj hr'
      obtain rfl := Option.some.inj himage'
      exact himage
    | succ i => exact himages i r' image' hr' himage'

variable {e : Encoder} {taken : List Request} {stored : StoredImage}

/-- What becomes of the gain map of a finished session. -/
inductive GainMapKept (e : Encoder) (taken : List Request) (stored : StoredImage) : Prop
  /-- There was none. -/
  | absent (hsession : e.gainMap = none) (hstored : stored.gainMap = none)
  /-- It came with the only frame, and is read back as it assembles. -/
  | present (g : GainMapGrid) (item : GainMapItem) (gainMap header : GainMap)
      (hone : taken.length = 1) (hsession : e.gainMap = some g)
      (hstored : stored.gainMap = some item) (hassemble : g.assemble = .ok gainMap)
      (hread : Decoder.gainMapOf .everything true item = .ok gainMap)
      (hheader : Decoder.gainMapHeader .everything item = .ok header)

theorem gainMap_kept (hcollected : Collected e taken) (hplain : ∀ r ∈ taken, Plain r)
    (hfinish : e.finish = .ok stored) (halone : e.gainMap.isSome → taken.length = 1) :
    GainMapKept e taken stored := by
  obtain ⟨-, -, hitem⟩ := finish_eq_ok hfinish
  cases hgainMap : e.gainMap with
  | none =>
    rw [hgainMap] at hitem
    exact .absent hgainMap (Except.ok.inj hitem).symm
  | some g =>
    rw [hgainMap] at hitem halone
    obtain ⟨item, hitem, hsome⟩ := Outcome.mapM_some_eq_ok hitem
    have hone := halone rfl
    obtain ⟨r, hr⟩ : ∃ r, r ∈ taken := List.exists_mem_of_length_pos (by omega)
    have hg : PlainGainMap g := (hplain r hr).gainMap g ((hcollected.gainMap r hr).trans hgainMap)
    obtain ⟨gainMap, header, hassemble, hread, hheader⟩ := gainMap_round_trip hg hitem
    exact .present g item gainMap header hone hgainMap hsome hassemble hread hheader

/-- Every request has an image that it should come back as. -/
theorem exists_pictured (hcollected : Collected e taken) (hkept : GainMapKept e taken stored) :
    ∀ r ∈ taken, ∃ image, Pictured r image := by
  intro r hr
  obtain ⟨first, hfirst⟩ := hcollected.colors r hr
  cases hkept with
  | absent hsession _ =>
    refine ⟨_, first, none, hfirst, ?_, rfl⟩
    rw [hcollected.gainMap r hr, hsession]
    rfl
  | present g item gainMap header _ hsession _ hassemble _ _ =>
    refine ⟨_, first, some gainMap, hfirst, ?_, rfl⟩
    rw [hcollected.gainMap r hr, hsession]
    exact Outcome.mapM_some hassemble

/-- At the frame of a request, a decoder that wants everything finds the image of that request. -/
theorem current_pictured (hcollected : Collected e taken) (hkept : GainMapKept e taken stored)
    {d : Decoder} {r : Request} {image : Image} (hsource : d.source = stored)
    (hoptions : d.options = .everything) (htaken : taken[d.cursor]? = some r) (hr : Plain r)
    (hframe : d.source.frames[d.cursor]? = some r.frame) (himage : Pictured r image) :
    d.current = .ok image := by
  obtain ⟨first, gainMap, hlegal, hassemble, rfl⟩ := himage
  have hpicture := frame_assemble hr hlegal
  rw [hcollected.gainMap r (List.mem_of_getElem? htaken)] at hassemble
  cases hkept with
  | absent hsession hstored =>
    rw [hsession] at hassemble
    obtain rfl : none = gainMap := Except.ok.inj hassemble
    exact Decoder.current_bare hoptions hframe (hsource ▸ hstored) hpicture
  | present g item gainMap' header hone hsession hstored hassemble' hread _ =>
    rw [hsession, Outcome.mapM_some hassemble'] at hassemble
    obtain rfl : some gainMap' = gainMap := Except.ok.inj hassemble
    -- there is one frame, so this is the first one
    obtain ⟨hcursor, -⟩ := List.getElem?_eq_some_iff.mp htaken
    exact Decoder.current_first hoptions (by omega) hframe (hsource ▸ hstored) hpicture hread

/-- A finished session delivers the image of every request it collected. -/
theorem delivers (hcollected : Collected e taken) (hplain : ∀ r ∈ taken, Plain r)
    (hfinish : e.finish = .ok stored) (halone : e.gainMap.isSome → taken.length = 1) :
    ∃ images, Decoder.Delivers stored images ∧ images.length = taken.length ∧
      ∀ (i : Nat) r image, taken[i]? = some r → images[i]? = some image → Shows r image := by
  obtain ⟨hne, hstored, -⟩ := finish_eq_ok hfinish
  have hframes : stored.frames = taken.map Request.frame := hstored.trans hcollected.frames
  have hkept := gainMap_kept hcollected hplain hfinish halone
  obtain ⟨images, hlength, himages⟩ := exists_images taken (exists_pictured hcollected hkept)
  refine ⟨images, ⟨?_, ?_, ?_⟩, hlength, ?_⟩
  · cases htaken : taken with
    | nil =>
      rw [hcollected.frames, htaken] at hne
      exact absurd rfl hne
    | cons r rest =>
      have hr : r ∈ taken := htaken ▸ List.mem_cons_self
      obtain ⟨first, hfirst⟩ := hcollected.colors r hr
      have hdepth := (hplain r hr).color first hfirst.first_mem
      refine ⟨r.frame, _, ?_, ImageGrid.header_eq hfirst.withoutGainMaps hdepth⟩
      unfold StoredImage.firstFrame
      rw [hframes, htaken]
      rfl
  · cases hkept with
    | absent _ hstored =>
      rw [hstored]
      exact ⟨none, rfl⟩
    | present g item gainMap header _ _ hstored _ _ hheader =>
      rw [hstored]
      exact ⟨some header, Outcome.mapM_some hheader⟩
  · intro d hsource hoptions
    have hframe : d.source.frames[d.cursor]? = taken[d.cursor]?.map Request.frame := by
      rw [hsource, hframes, List.getElem?_map]
    cases htaken : taken[d.cursor]? with
    | none =>
      rw [htaken] at hframe
      have hnone : images[d.cursor]? = none := by
        rw [List.getElem?_eq_none_iff] at htaken ⊢
        omega
      rw [hnone, Decoder.current_past hframe]
    | some r =>
      rw [htaken] at hframe
      obtain ⟨hcursor, -⟩ := List.getElem?_eq_some_iff.mp htaken
      obtain ⟨image, himage⟩ : ∃ image, images[d.cursor]? = some image :=
        ⟨_, List.getElem?_eq_getElem (hlength ▸ hcursor)⟩
      rw [himage]
      exact current_pictured hcollected hkept hsource hoptions htaken
        (hplain r (List.mem_of_getElem? htaken)) hframe (himages _ r image htaken himage)
  · intro i r image hr himage
    exact (himages i r image hr himage).shows (hplain r (List.mem_of_getElem? hr))

/-- **Round trip of a session.** Take any requests to a new encoding session, refused ones among
them, whose accepted ones have images of legal depths and gain map cells without gain maps of their
own. If the session finishes, it stores one frame for every accepted request, in order and with its
duration. A decoding session that wants everything then hands out, step by step, the images of
these requests, and after the last one reports that there are none left. -/
theorem session_round_trip (rs : List Request) (stored : StoredImage)
    (hplain : ∀ r ∈ start.accepted rs, Plain r)
    (hfinish : (run start rs).2.finish = .ok stored) :
    stored.frames = (start.accepted rs).map Request.frame ∧
    ∀ count i, i < count →
      ∃ answer d, (Decoder.run (Decoder.start stored .everything)
          (List.replicate count .next))[i]? = some (answer, d) ∧
        match (start.accepted rs)[i]? with
        | some r => answer = .done (.ok ()) ∧ ∃ image, d.image = some image ∧ Shows r image
        | none => answer = .done (.error (.noContent .noImagesLeft)) := by
  have hcollected : Collected (run start rs).2 (start.accepted rs) :=
    run_collected rs start_collected
  have hinvariant := run_invariant rs start_invariant
  have halone : (run start rs).2.gainMap.isSome → (start.accepted rs).length = 1 := by
    intro hsome
    rw [← List.length_map Request.frame, ← hcollected.frames]
    exact hinvariant.alone (.inl hsome)
  obtain ⟨-, hframes, -⟩ := finish_eq_ok hfinish
  obtain ⟨images, hdelivers, hlength, himages⟩ := delivers hcollected hplain hfinish halone
  refine ⟨hframes.trans hcollected.frames, ?_⟩
  intro count i hi
  obtain ⟨answer, d, hstep, hanswer⟩ :=
    Decoder.run_next hdelivers count (Decoder.start_at stored) hi
  rw [Nat.zero_add] at hanswer
  refine ⟨answer, d, hstep, ?_⟩
  cases hr : (start.accepted rs)[i]? with
  | none =>
    have hnone : images[i]? = none := by
      rw [List.getElem?_eq_none_iff] at hr ⊢
      omega
    rw [hnone] at hanswer
    exact hanswer
  | some r =>
    obtain ⟨hcursor, -⟩ := List.getElem?_eq_some_iff.mp hr
    obtain ⟨image, himage⟩ : ∃ image, images[i]? = some image :=
      ⟨_, List.getElem?_eq_getElem (hlength ▸ hcursor)⟩
    rw [himage] at hanswer
    exact ⟨hanswer.1, image, hanswer.2, himages i r image hr himage⟩

/-- Two pixels side by side with a gain map in one cell, and then a picture that is refused. -/
def pairThenRefused : List Request :=
  [.grids ⟨2, 1, [lonePixel, lonePixel]⟩ ⟨1, 1, lonePixel.gainMap.toList⟩ .none,
   .image lonePixel 40 .none]

theorem pairThenRefused_round_trip :
    ∃ stored, (run start pairThenRefused).2.finish = .ok stored ∧
      stored.frames = (pairThenRefused.take 1).map Request.frame ∧
      ∃ d image, (Decoder.run (Decoder.start stored .everything) [.next, .next])[0]? =
          some (.done (.ok ()), d) ∧
        d.image = some image ∧ ∀ r ∈ pairThenRefused.head?, Shows r image := by
  have haccepted : start.accepted pairThenRefused = pairThenRefused.take 1 := rfl
  have hplain : ∀ r ∈ start.accepted pairThenRefused, Plain r := by
    rw [haccepted]
    intro r hr
    obtain rfl := List.mem_singleton.mp hr
    refine ⟨?_, ?_⟩
    · intro cell hcell
      have hlone : cell = lonePixel := by
        rcases List.mem_cons.mp hcell with hfirst | hsecond
        · exact hfirst
        · exact List.mem_singleton.mp hsecond
      subst hlone
      exact ⟨by decide, by decide⟩
    · intro g hg cell hcell image himage
      obtain rfl := Option.some.inj hg
      obtain rfl := List.mem_singleton.mp hcell
      obtain rfl := Option.some.inj himage
      exact ⟨⟨by decide, by decide⟩, rfl⟩
  refine ⟨_, rfl, ?_⟩
  obtain ⟨hframes, hsteps⟩ := session_round_trip pairThenRefused _ hplain rfl
  obtain ⟨answer, d, hstep, rfl, image, himage, hshows⟩ := hsteps 2 0 (by decide)
  refine ⟨hframes, d, image, hstep, himage, ?_⟩
  intro r hr
  obtain rfl := Option.some.inj hr
  exact hshows

end Session

end DualRendition
