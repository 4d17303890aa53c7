import DualRendition.Proofs.GainMap.Inputs
import DualRendition.Proofs.GainMap.SampleRange
import DualRendition.Proofs.Session.Nesting

/-!
# Every image keeps to its range

Sessions copy cells, stitch them and render into outputs. None of this takes a sample over the range
of its depth, and neither does anything else that makes an image. `Obtained` is the closure of some
given images under all operations of the library, applied to each other's results in any order;
`samples_stay_in_range` says that it has only bounded images when the given ones are, and that no
table of measuring or rendering is then read beside the part that is meant.

Structure: a decoding session is bounded when the cells of its source are (`Yields.bounded`), and
these are when the images of the requests are (`Stores.bounded`). The closure is settled by one
induction, with a lemma for each operation.
-/

namespace DualRendition

/-- The image is a cell of a frame or of the gain map. -/
def StoredImage.Holds (s : StoredImage) (image : Image) : Prop :=
  (∃ frame ∈ s.frames, image ∈ frame.color.cells) ∨
    ∃ item, s.gainMap = some item ∧ image ∈ item.image.cells

/-- The request brings the image in a cell of its picture or of its gain map. -/
def Encoder.Request.Brings (r : Encoder.Request) (image : Image) : Prop :=
  image ∈ r.color.cells ∨ ∃ g, r.gainMap = some g ∧ ∃ cell ∈ g.cells, cell.image = some image

/-! ## Decoding -/

namespace Decoder

variable {source : StoredImage} {options : DecoderOptions} {d : Decoder} {image : Image}

/-- The header of a gain map has no samples, and its image is assembled from the item. -/
theorem gainMapOf_bounded {decode : Bool} {item : GainMapItem} {gainMap : GainMap}
    (hcells : ∀ cell ∈ item.image.cells, cell.Bounded)
    (h : gainMapOf options decode item = .ok gainMap) : gainMap.Bounded :=
  fun _ hmap => ImageGrid.assemble_bounded hcells (gainMapOf_image h hmap)

theorem headers_bounded (h : headers source options = .ok image) : image.Bounded := by
  obtain ⟨front, gainMap, hfront, -, rfl⟩ := headers_eq_ok_iff.mp h
  obtain ⟨frame, -, hheader⟩ := Outcome.bind_eq_ok.mp hfront
  refine Image.bounded_mk (ImageGrid.header_bounded hheader).range ?_
  intro owned howned map hmap
  rw [headers_gainMap_image h howned] at hmap
  cases hmap

/-- What a frame depicts is bounded when all cells are. -/
theorem Depicts.bounded {n : Nat} (h : Depicts source options n image)
    (hsource : ∀ cell, source.Holds cell → cell.Bounded) : image.Bounded := by
  obtain ⟨frame, picture, gainMap, hframe, hpicture, hgainMap, rfl⟩ := h.content
  have hbounded : picture.Bounded := by
    have hcells : ∀ cell ∈ frame.color.cells, cell.Bounded := fun cell hcell =>
      hsource cell (.inl ⟨frame, List.mem_of_getElem? hframe, hcell⟩)
    unfold pictureOf at hpicture
    split at hpicture
    · exact ImageGrid.header_bounded hpicture
    · exact ImageGrid.assemble_bounded hcells hpicture
  refine Image.bounded_mk hbounded.range ?_
  intro owned howned
  -- the gain map that was read, or else what the picture brought along
  cases gainMap with
  | none => exact hbounded.owned howned
  | some read =>
    obtain rfl : read = owned := Option.some.inj howned
    obtain ⟨item, hitem, hread⟩ := Outcome.exists_of_mapM_eq_some hgainMap
    exact gainMapOf_bounded (fun cell hcell => hsource cell (.inr ⟨item, hitem, hcell⟩)) hread

/-- The session belongs to the source, and its image is bounded. -/
structure Bounded (source : StoredImage) (d : Decoder) : Prop where
  origin : d.source = source
  held : ∀ image, d.image = some image → image.Bounded

theorem bounded_kept (hsource : ∀ cell, source.Holds cell → cell.Bounded) :
    Kept (Bounded source) where
  opened := by
    intro d header h hheader
    refine ⟨h.origin, fun image himage => ?_⟩
    obtain rfl := Option.some.inj himage
    exact headers_bounded hheader
  unopened := by
    intro d h
    obtain ⟨present, hsame⟩ := d.unopened_eq
    rw [hsame]
    exact ⟨h.origin, h.held⟩
  produced := by
    intro d image h _ hcurrent
    refine ⟨h.origin, fun image' himage' => ?_⟩
    obtain rfl := Option.some.inj himage'
    have hdepicts := current_eq_ok_iff.mp hcurrent
    rw [h.origin] at hdepicts
    exact hdepicts.bounded hsource
  taken := fun h => ⟨h.origin, fun _ himage => nomatch himage⟩

/-- After any requests the session is bounded. -/
theorem after_bounded (hsource : ∀ cell, source.Holds cell → cell.Bounded)
    (options : DecoderOptions) (rs : List Request) :
    Bounded source ((start source options).after rs) :=
  (bounded_kept hsource).after rs ⟨rfl, fun _ himage => nomatch himage⟩

/-- Whatever comes out of a source is bounded when its cells are. -/
theorem Yields.bounded (h : Yields source image)
    (hsource : ∀ cell, source.Holds cell → cell.Bounded) : image.Bounded := by
  cases h with
  | current options requests h => exact (after_bounded hsource options requests).held image h
  | read options h =>
    exact (after_bounded hsource options _).held image (current_of_read h)

/-- Rendering the current image keeps the output bounded. -/
theorem Bounded.toneMap (h : Bounded source d) {headroom : Float} {stop : Stop}
    {output after : Image} {answer : Outcome LightLevel} (houtput : output.Bounded)
    (htone : (d.toneMap headroom stop).apply output = (answer, after)) : after.Bounded := by
  unfold Decoder.toneMap at htone
  split at htone
  next image himage =>
    split at htone
    next gainMap hgainMap =>
      exact GainMapOf.render_bounded (h.held image himage) houtput htone
    next =>
      obtain ⟨-, rfl⟩ := Prod.mk.inj htone
      exact houtput
  next =>
    obtain ⟨-, rfl⟩ := Prod.mk.inj htone
    exact houtput

end Decoder

/-! ## Encoding -/

namespace Encoder

theorem mem_of_accepted {e : Encoder} {rs : List Request} {r : Request} (h : r ∈ e.accepted rs) :
    r ∈ rs := by
  obtain ⟨⟨r', answer⟩, hmem, rfl⟩ := List.mem_map.mp h
  exact (List.of_mem_zip (List.mem_filter.mp hmem).1).1

/-- Cells are stored as the requests brought them, those of pictures without their gain maps. -/
theorem Stores.brought {rs : List Request} {stored : StoredImage} (h : Stores rs stored)
    {cell : Image} (hcell : stored.Holds cell) :
    ∃ r ∈ rs, ∃ image, r.Brings image ∧ (cell = image ∨ cell = image.withoutGainMap) := by
  rcases hcell with ⟨frame, hframe, hcell⟩ | ⟨item, hitem, hcell⟩
  · have hcollected : Collected (run start rs).2 (start.accepted rs) :=
      run_collected rs start_collected
    obtain ⟨-, hstored, -⟩ := finish_eq_ok h.finish
    rw [hstored, hcollected.frames] at hframe
    obtain ⟨r, hr, rfl⟩ := List.mem_map.mp hframe
    obtain ⟨image, himage, rfl⟩ := List.mem_map.mp hcell
    exact ⟨r, mem_of_accepted hr, image, .inl himage, .inr rfl⟩
  · obtain ⟨r, hr, g, hbrought, hitem⟩ := finish_item h.finish hitem
    obtain ⟨first, firstImage, hlegal, -⟩ := gainMapItem_eq_ok_iff.mp hitem
    obtain ⟨owner, howner, himage⟩ := (GainMapGrid.mem_images_iff hlegal.cellImages).mp hcell
    exact ⟨r, mem_of_accepted hr, cell, .inr ⟨g, hbrought, owner, howner, himage⟩, .inl rfl⟩

theorem Stores.bounded {rs : List Request} {stored : StoredImage} (h : Stores rs stored)
    (hrs : ∀ r ∈ rs, ∀ image, r.Brings image → image.Bounded) {cell : Image}
    (hcell : stored.Holds cell) : cell.Bounded := by
  obtain ⟨r, hr, image, himage, rfl | rfl⟩ := h.brought hcell
  · exact hrs r hr _ himage
  · exact (hrs r hr image himage).withoutGainMap

end Encoder

/-! ## All operations together -/

/-- The images that are obtained from given ones by operations of the library, in any order:
headers, pictures of zeros or of samples, filled buffers, gain maps taken off, put on and looked
into, stitched cells, measured gain maps, renditions, and whatever goes through a session. -/
inductive Obtained (given : Image → Prop) : Image → Prop
  | given {i : Image} (h : given i) : Obtained given i
  | header {width height : UInt32} {depth : UInt8} {layout : Layout} {r : Raster}
      (h : Raster.header width height depth layout = .ok r) : Obtained given (.ofRaster r)
  | zeros {width height : UInt32} {depth : UInt8} {layout : Layout} {r : Raster}
      (h : Raster.zeros width height depth layout = .ok r) : Obtained given (.ofRaster r)
  | ofSamples {width height : UInt32} {depth : UInt8} {layout : Layout} {samples : Array UInt16}
      {r : Raster} (h : Raster.ofSamples width height depth layout samples = .ok r) :
      Obtained given (.ofRaster r)
  | allocated {i : Image} {r : Raster} (hi : Obtained given i) (h : i.allocate = .ok r) :
      Obtained given ⟨r, i.gainMap⟩
  | withoutGainMap {i : Image} (hi : Obtained given i) : Obtained given i.withoutGainMap
  | withGainMap {i : Image} {g : GainMap} (hi : Obtained given i)
      (hg : ∀ map, g.image = some map → Obtained given map) :
      Obtained given { i with gainMap := some g }
  | owned {i map : Image} {g : GainMap} (hi : Obtained given i) (hg : i.gainMap = some g)
      (hmap : g.image = some map) : Obtained given map
  | stitched {g : ImageGrid} {i : Image} (hcells : ∀ cell ∈ g.cells, Obtained given cell)
      (h : g.stitch = .ok i) : Obtained given i
  | stitchedMap {g : GainMapGrid} {result : GainMap} {map : Image}
      (hcells : ∀ cell ∈ g.cells, ∀ map, cell.image = some map → Obtained given map)
      (h : g.assemble = .ok result) (hmap : result.image = some map) : Obtained given map
  | measured {log2 : Float → Float} {g result : GainMap} {base alternate map : Image}
      {settings : MeasureSettings} {stop : Stop} {answer : Outcome Unit}
      (hg : ∀ map, g.image = some map → Obtained given map)
      (h : (GainMapOf.measure log2 base alternate settings stop).apply g = (answer, result))
      (hmap : result.image = some map) : Obtained given map
  | rendered {g : GainMap} {base output after : Image} {headroom : Float} {stop : Stop}
      {answer : Outcome LightLevel} (hbase : Obtained given base) (houtput : Obtained given output)
      (h : (g.render base headroom stop).apply output = (answer, after)) : Obtained given after
  | stored {rs : List Encoder.Request} {stored : StoredImage} {cell : Image}
      (hrs : ∀ r ∈ rs, ∀ image, r.Brings image → Obtained given image)
      (h : Encoder.Stores rs stored) (hcell : stored.Holds cell) : Obtained given cell
  | decoded {source : StoredImage} {i : Image}
      (hsource : ∀ cell, source.Holds cell → Obtained given cell)
      (h : Decoder.Yields source i) : Obtained given i
  | toned {source : StoredImage} {options : DecoderOptions} {rs : List Decoder.Request}
      {headroom : Float} {stop : Stop} {output after : Image} {answer : Outcome LightLevel}
      (hsource : ∀ cell, source.Holds cell → Obtained given cell)
      (houtput : Obtained given output)
      (h : ((((Decoder.start source options).after rs).toneMap headroom stop).apply output) =
        (answer, after)) : Obtained given after

variable {given : Image → Prop}

/-- From bounded images, only bounded images are obtained. -/
theorem Obtained.bounded (hgiven : ∀ i, given i → i.Bounded) {i : Image} (h : Obtained given i) :
    i.Bounded := by
  induction h with
  | given h => exact hgiven _ h
  | header h => exact Image.bounded_ofRaster (Raster.header_inRange h)
  | zeros h => exact Image.bounded_ofRaster (Raster.zeros_inRange h)
  | ofSamples h => exact Image.bounded_ofRaster (Raster.ofSamples_inRange h)
  | allocated _ h ih =>
    exact Image.bounded_mk (ih.range.allocate h) fun _ howned => ih.owned howned
  | withoutGainMap _ ih => exact ih.withoutGainMap
  | withGainMap _ _ ih ihMap =>
    refine Image.bounded_mk ih.range fun owned howned => ?_
    obtain rfl := Option.some.inj howned
    exact ihMap
  | owned _ hg hmap ih => exact ih.owned hg _ hmap
  | stitched _ h ih => exact ImageGrid.stitch_bounded ih h
  | stitchedMap _ h hmap ih => exact GainMapGrid.assemble_bounded ih h _ hmap
  | measured _ h hmap ih => exact GainMapOf.measure_bounded ih h _ hmap
  | rendered _ _ h ihBase ihOutput => exact GainMapOf.render_bounded ihBase ihOutput h
  | stored _ h hcell ih => exact h.bounded ih hcell
  | decoded _ h ih => exact h.bounded ih
  | toned _ _ h ihSource ihOutput =>
    exact (Decoder.after_bounded ihSource _ _).toneMap ihOutput h

/-- **Samples stay in range.** Let no sample of some given images be over the largest code of its
depth. Then neither is a sample of any image that is obtained from them, in whatever order
operations and sessions follow each other. When a gain map is measured from such images, each of
their codes has an entry in the table that is made for its image. When one is rendered, so has each
code of the base, and each code of the gain map is read from the part of the gain table that belongs
to its channel. -/
theorem samples_stay_in_range (hgiven : ∀ i, given i → i.Bounded) :
    (∀ i, Obtained given i → i.Bounded) ∧
    (∀ (g : GainMap) base alternate settings plan, Obtained given base → Obtained given alternate →
      g.plan base alternate settings = .ok plan →
      plan.baseTable.Covers base.toRaster ∧ plan.alternateTable.Covers alternate.toRaster) ∧
    ∀ (g : GainMap) base headroom output plan, Obtained given base →
      (∀ map, g.image = some map → Obtained given map) →
      RenderPlan.make base g headroom output = .ok plan →
      plan.table.Covers plan.base ∧
      (GainTable.ofValues plan.values plan.weight plan.map.depth).Covers plan.map := by
  refine ⟨fun i h => h.bounded hgiven, ?_, ?_⟩
  · intro g base alternate settings plan hbase halternate hplan
    obtain ⟨hbaseTable, halternateTable⟩ := GainMapOf.tables_of_plan hplan
    exact ⟨LightTable.covers hbaseTable (hbase.bounded hgiven).range,
      LightTable.covers halternateTable (halternate.bounded hgiven).range⟩
  · intro g base headroom output plan hbase hmaps hplan
    have hsettled := RenderPlan.make_eq_ok hplan
    obtain ⟨map, hmap, hraster⟩ := hsettled.mapRaster
    rw [hsettled.baseRaster, hraster]
    exact ⟨LightTable.covers hsettled.table (hbase.bounded hgiven).range,
      GainTable.covers ((hmaps map hmap).bounded hgiven).range _ _⟩

/-- Two gray pixels of four bits are rendered to ten bits with a gain of eight, and measured against
themselves. -/
theorem grayPair_in_range :
    ∃ samples lightLevel renderPlan measurePlan,
      (GainMapOf.oneGain.render GainMapOf.grayPair 0 .never).apply GainMapOf.wideOutput =
        (.ok lightLevel, { GainMapOf.wideOutput with samples, lightLevel }) ∧
      ({ GainMapOf.wideOutput with samples, lightLevel } : Image).Bounded ∧
      RenderPlan.make GainMapOf.grayPair GainMapOf.oneGain 0 GainMapOf.wideOutput = .ok renderPlan ∧
      renderPlan.table.Covers renderPlan.base ∧
      (GainTable.ofValues renderPlan.values renderPlan.weight renderPlan.map.depth).Covers
        renderPlan.map ∧
      GainMapOf.oneGain.plan GainMapOf.grayPair GainMapOf.grayPair .standard = .ok measurePlan ∧
      measurePlan.baseTable.Covers GainMapOf.grayPair.toRaster := by
  have hgiven : ∀ i, (i = GainMapOf.grayPair ∨ i = GainMapOf.wideOutput ∨
      GainMapOf.oneGain.image = some i) → i.Bounded := by
    rintro i (rfl | rfl | himage)
    · exact Image.bounded_ofRaster (by decide +kernel)
    · exact Image.bounded_ofRaster (by decide +kernel)
    · obtain rfl := Option.some.inj himage
      exact Image.bounded_ofRaster (by decide +kernel)
  obtain ⟨hobtained, hmeasured, hrendered⟩ := samples_stay_in_range hgiven
  have hbase : Obtained (fun i => i = GainMapOf.grayPair ∨ i = GainMapOf.wideOutput ∨
      GainMapOf.oneGain.image = some i) GainMapOf.grayPair := .given (.inl rfl)
  have hrenderable : GainMapOf.oneGain.Renderable GainMapOf.grayPair :=
    ⟨rfl, by decide, by decide, ⟨_, rfl, rfl, by decide, fun _ => rfl⟩, rfl, by decide⟩
  have htakes : GainMapOf.wideOutput.Takes GainMapOf.grayPair :=
    ⟨rfl, rfl, by decide, by decide, by decide⟩
  obtain ⟨renderPlan, hrenderPlan, -⟩ := @GainMapOf.Renderable.make_ok _ _ GainMapOf.wideOutput 0
    hrenderable (by decide +kernel) (by decide +kernel) htakes
  obtain ⟨samples, lightLevel, hrender, -⟩ := @GainMapOf.Renderable.render_ok _ _
    GainMapOf.wideOutput 0 .never _ hrenderable (by decide +kernel) (by decide +kernel) htakes
    (fun _ _ => rfl) rfl (by decide +kernel)
  obtain ⟨measurePlan, hmeasurePlan⟩ := GainMapOf.exists_plan_iff.mpr
    (⟨rfl, rfl, rfl, rfl, ⟨_, rfl, by decide⟩, (fun _ h => nomatch h), (fun _ h => nomatch h),
      by decide, by decide⟩ :
      GainMapOf.Measurable GainMapOf.oneGain GainMapOf.grayPair GainMapOf.grayPair .standard)
  obtain ⟨htable, hgains⟩ :=
    hrendered _ _ _ _ _ hbase (fun _ h => .given (.inr (.inr h))) hrenderPlan
  exact ⟨samples, lightLevel, renderPlan, measurePlan, hrender,
    hobtained _ (.rendered hbase (.given (.inr (.inl rfl))) hrender), hrenderPlan, htable, hgains,
    hmeasurePlan, (hmeasured _ _ _ _ _ hbase hbase hmeasurePlan).1⟩

end DualRendition
