import Mathlib.Data.Set.Function
import DualRendition.Proofs.Raster.Addressing
import DualRendition.Proofs.Raster.Patch

/-!
# Every sample has one place

A sample of a picture with pixels is addressed by column, row and channel, a `Place`.
`Raster.samples_addressed` says that this is exact. Rows and pixels lie inside the buffer, the
pixels of a row make up the row and the rows make up the buffer; places and samples correspond one
to one; and overwriting a row changes the pixels of that row and no others.

Structure: `Raster.placeOf` reads the place of a sample off its index by quotients and remainders. A
row that is overwritten is a `Patch` of the buffer, and the other rows are pieces beside it.
-/

namespace DualRendition

/-- Where a sample belongs: a channel of a pixel. -/
structure Place where
  x : Nat
  y : Nat
  channel : Nat
  deriving DecidableEq, Repr

namespace Raster

/-! ## Places -/

/-- The places of a picture. -/
structure HasPlace (r : Raster) (p : Place) : Prop where
  x_lt : p.x < r.width.toNat
  y_lt : p.y < r.height.toNat
  channel_lt : p.channel < r.channels

/-- Where in the buffer the sample of a place stands. -/
def indexOf (r : Raster) (p : Place) : Nat := r.pixelStart p.x p.y + p.channel

/-- The place of the sample that stands at an index of the buffer. -/
def placeOf (r : Raster) (i : Nat) : Place :=
  { x := i / r.channels % r.width.toNat
    y := i / r.channels / r.width.toNat
    channel := i % r.channels }

variable {r : Raster} {p : Place} {x y : Nat}

theorem indexOf_placeOf (r : Raster) (i : Nat) : r.indexOf (r.placeOf i) = i := by
  unfold indexOf placeOf pixelStart
  dsimp only
  rw [Nat.div_add_mod', Nat.div_add_mod']

theorem placeOf_indexOf (h : r.HasPlace p) : r.placeOf (r.indexOf p) = p := by
  have hchannels : 0 < r.channels := r.layout.channels_pos
  obtain ⟨hpixel, hchannel⟩ :
      r.indexOf p / r.channels = p.y * r.width.toNat + p.x ∧ r.indexOf p % r.channels = p.channel :=
    (Nat.div_mod_unique hchannels).mpr
      ⟨by rw [indexOf, pixelStart, Nat.mul_comm r.channels, Nat.add_comm], h.channel_lt⟩
  obtain ⟨hrow, hcolumn⟩ :
      (p.y * r.width.toNat + p.x) / r.width.toNat = p.y ∧
        (p.y * r.width.toNat + p.x) % r.width.toNat = p.x :=
    (Nat.div_mod_unique (Nat.zero_lt_of_lt h.x_lt)).mpr
      ⟨by rw [Nat.mul_comm r.width.toNat, Nat.add_comm], h.x_lt⟩
  unfold placeOf
  rw [hpixel, hchannel, hrow, hcolumn]

/-- The buffer of a picture with pixels is counted by its three sides. -/
theorem indexOf_lt_size (h : r.hasPixels = true) (hp : r.HasPlace p) :
    r.indexOf p < r.samples.size := by
  obtain ⟨-, hsize, -⟩ := hasPixels_iff.mp h
  rw [hsize, Nat.mul_comm r.width.toNat]
  exact place_lt hp.channel_lt (place_lt hp.x_lt hp.y_lt)

theorem hasPlace_placeOf (h : r.hasPixels = true) {i : Nat} (hi : i < r.samples.size) :
    r.HasPlace (r.placeOf i) := by
  obtain ⟨-, hsize, -⟩ := hasPixels_iff.mp h
  obtain ⟨hwidth, -⟩ := dimensions_pos h
  have hpixel : i / r.channels < r.width.toNat * r.height.toNat := by
    refine Nat.div_lt_of_lt_mul ?_
    rw [Nat.mul_comm, ← hsize]
    exact hi
  exact ⟨Nat.mod_lt _ hwidth, Nat.div_lt_of_lt_mul hpixel, Nat.mod_lt _ r.layout.channels_pos⟩

/-- Places and samples correspond one to one. -/
theorem indexOf_bijOn (h : r.hasPixels = true) :
    Set.BijOn r.indexOf {p | r.HasPlace p} {i | i < r.samples.size} :=
  Set.InvOn.bijOn ⟨fun _ hp => placeOf_indexOf hp, fun i _ => r.indexOf_placeOf i⟩
    (fun _ hp => indexOf_lt_size h hp) fun _ hi => hasPlace_placeOf h hi

/-! ## Inside the buffer -/

/-- The buffer has `length` samples from `start` on, and words of 64 bits count them. -/
structure Holds (r : Raster) (start length : Nat) : Prop where
  end_le : start + length ≤ r.samples.size
  size_lt : r.samples.size < UInt64.size

theorem holds_row (h : r.hasPixels = true) (hy : y < r.height.toNat) :
    r.Holds (y * r.rowLength) r.rowLength := by
  obtain ⟨-, -, hlt⟩ := hasPixels_iff.mp h
  exact ⟨row_end_le h hy, hlt⟩

theorem holds_pixel (h : r.hasPixels = true) (hx : x < r.width.toNat) (hy : y < r.height.toNat) :
    r.Holds (r.pixelStart x y) r.channels := by
  obtain ⟨-, hsize, hlt⟩ := hasPixels_iff.mp h
  refine ⟨?_, hlt⟩
  rw [hsize, Nat.mul_comm r.width.toNat]
  exact piece_le (place_lt hx hy) r.channels

/-- The sample of a place is the one at its index, ... -/
theorem getElem?_sample (h : r.hasPixels = true) (hp : r.HasPlace p) :
    r.samples[r.indexOf p]? = some (r.sample p.x p.y p.channel) := by
  have hlt : r.pixelStart p.x p.y + p.channel < r.samples.size := indexOf_lt_size h hp
  unfold indexOf sample
  rw [Array.getD_eq_getD_getElem?, Array.getElem?_eq_getElem hlt]
  rfl

/-- ... and its pixel has it in its channel. -/
theorem getElem?_pixel (h : r.hasPixels = true) (hp : r.HasPlace p) :
    (r.pixel p.x p.y)[p.channel]? = some (r.sample p.x p.y p.channel) := by
  have hchannel := hp.channel_lt
  have hend := (holds_pixel h hp.x_lt hp.y_lt).end_le
  unfold pixel
  rw [Array.getElem?_extract, if_pos (by omega)]
  exact getElem?_sample h hp

/-! ## Overwriting a row

The new samples are a patch of the buffer that starts where the row does. -/

variable {samples : Array UInt16}

/-- The samples that are written end where the row does, or before. -/
theorem stop_le_of_row (h : r.hasPixels = true) (hy : y < r.height.toNat)
    (hsamples : samples.size ≤ r.rowLength) :
    (⟨y * r.rowLength, samples⟩ : Patch).stop ≤ r.samples.size := by
  have hend := row_end_le h hy
  show y * r.rowLength + samples.size ≤ _
  omega

theorem setRow_hasPixels (h : r.hasPixels = true) (hy : y < r.height.toNat)
    (hsamples : samples.size ≤ r.rowLength) : (r.setRow y samples).hasPixels = true := by
  obtain ⟨hpos, hsize, hlt⟩ := hasPixels_iff.mp h
  have hsame : (r.setRow y samples).samples.size = r.samples.size :=
    Patch.size_write (stop_le_of_row h hy hsamples)
  rw [← hsame] at hpos hsize hlt
  exact hasPixels_iff.mpr ⟨hpos, hsize, hlt⟩

/-- In an overwritten row stand the new samples, and behind them what they leave of the old row. -/
theorem row_setRow (h : r.hasPixels = true) (hy : y < r.height.toNat)
    (hsamples : samples.size ≤ r.rowLength) :
    (r.setRow y samples).row y = samples ++ (r.row y).extract samples.size := by
  have hwrite := @Patch.extract_write_around r.samples samples (y * r.rowLength) 0 r.rowLength
    (row_end_le h hy) (by rwa [Nat.zero_add])
  rw [Nat.add_zero] at hwrite
  show (Patch.write r.samples ⟨y * r.rowLength, samples⟩).extract (y * r.rowLength)
    (y * r.rowLength + r.rowLength) = _
  rw [hwrite]
  unfold Patch.write Patch.stop
  dsimp only
  rw [Array.extract_zero, Array.empty_append, Nat.zero_add]
  rfl

/-- The other rows are as they were. -/
theorem row_setRow_of_ne (h : r.hasPixels = true) (hy : y < r.height.toNat)
    (hsamples : samples.size ≤ r.rowLength) {y' : Nat} (hne : y' ≠ y) :
    (r.setRow y samples).row y' = r.row y' := by
  refine Patch.extract_write_outside (stop_le_of_row h hy hsamples) ?_
  -- a row ends where the next one starts, or before
  rcases Nat.lt_or_gt_of_ne hne with hlt | hgt
  · exact .inl (piece_le hlt r.rowLength)
  · have hend : y * r.rowLength + r.rowLength ≤ y' * r.rowLength := piece_le hgt r.rowLength
    refine .inr ?_
    show y * r.rowLength + samples.size ≤ y' * r.rowLength
    omega

/-- So the pixels of the row are pieces of it, and the pixels of the other rows are as they were. -/
theorem pixel_setRow (h : r.hasPixels = true) (hy : y < r.height.toNat)
    (hsamples : samples.size ≤ r.rowLength) (hx : x < r.width.toNat) :
    (r.setRow y samples).pixel x y =
        (samples ++ (r.row y).extract samples.size).extract (x * r.channels)
          (x * r.channels + r.channels) ∧
      ∀ y' ≠ y, (r.setRow y samples).pixel x y' = r.pixel x y' := by
  have hpixel : ∀ y', (r.setRow y samples).pixel x y' =
      ((r.setRow y samples).row y').extract (x * r.channels) (x * r.channels + r.channels) :=
    fun y' => @pixel_eq_extract_row (r.setRow y samples) x hx y'
  constructor
  · rw [hpixel, row_setRow h hy hsamples]
  · intro y' hne
    rw [hpixel, row_setRow_of_ne h hy hsamples hne, ← pixel_eq_extract_row hx]

/-! ## All of it -/

/-- **Every sample has one place.** In a picture with pixels, every row and every pixel lies inside
the buffer. The rows from top to bottom are the buffer, and the pixels from left to right are the
row. Places and samples correspond one to one, and the sample of a place is the one that its pixel
has in its channel. Overwriting a row, or the front of it, leaves size and description of the
picture and keeps its pixels present; the pixels of that row are then pieces of the new row, and all
others are as they were. -/
theorem samples_addressed (h : r.hasPixels = true) :
    (∀ y < r.height.toNat, r.Holds (y * r.rowLength) r.rowLength) ∧
    (∀ x < r.width.toNat, ∀ y < r.height.toNat, r.Holds (r.pixelStart x y) r.channels) ∧
    (Array.range r.height.toNat).flatMap r.row = r.samples ∧
    (∀ y < r.height.toNat, (Array.range r.width.toNat).flatMap (r.pixel · y) = r.row y) ∧
    Set.BijOn r.indexOf {p | r.HasPlace p} {i | i < r.samples.size} ∧
    (∀ p, r.HasPlace p →
      (r.pixel p.x p.y)[p.channel]? = r.samples[r.indexOf p]? ∧
      r.samples[r.indexOf p]? = some (r.sample p.x p.y p.channel)) ∧
    ∀ y < r.height.toNat, ∀ samples, samples.size ≤ r.rowLength →
      (r.setRow y samples).hasPixels = true ∧
      r.setRow y samples = { r with samples := (r.setRow y samples).samples } ∧
      (r.setRow y samples).row y = samples ++ (r.row y).extract samples.size ∧
      ∀ x < r.width.toNat,
        (r.setRow y samples).pixel x y =
            (samples ++ (r.row y).extract samples.size).extract (x * r.channels)
              (x * r.channels + r.channels) ∧
          ∀ y' ≠ y, (r.setRow y samples).pixel x y' = r.pixel x y' := by
  refine ⟨fun y hy => holds_row h hy, fun x hx y hy => holds_pixel h hx hy, rows_eq_samples h,
    fun y _ => pixels_eq_row r y, indexOf_bijOn h, ?_, ?_⟩
  · intro p hp
    have hsample := getElem?_sample h hp
    exact ⟨(getElem?_pixel h hp).trans hsample.symm, hsample⟩
  · intro y hy samples hsamples
    exact ⟨setRow_hasPixels h hy hsamples, rfl, row_setRow h hy hsamples,
      fun x hx => pixel_setRow h hy hsamples hx⟩

/-- Two rows of two pixels. -/
def fourPixels : Raster :=
  ⟨⟨8, .rgb, .bt709, .srgb, .unknown⟩, 2, 2, #[0, 1, 2, 3, 4, 5, 6, 7, 8, 9, 10, 11]⟩

/-- The last sample is the blue one of the lower right pixel. New samples for the first pixel of the
lower row leave the other pixels. -/
theorem fourPixels_addressed :
    fourPixels.hasPixels = true ∧
    (∃! p, fourPixels.HasPlace p ∧ fourPixels.indexOf p = 11) ∧
    (fourPixels.pixel 1 1)[2]? = some 11 ∧
    (fourPixels.setRow 1 #[20, 21, 22]).hasPixels = true ∧
    (fourPixels.setRow 1 #[20, 21, 22]).row 1 = #[20, 21, 22, 9, 10, 11] ∧
    (fourPixels.setRow 1 #[20, 21, 22]).pixel 1 0 = #[3, 4, 5] := by
  obtain ⟨-, -, -, -, hbij, hplace, hset⟩ := @samples_addressed fourPixels (by decide)
  have hlast : fourPixels.HasPlace ⟨1, 1, 2⟩ := ⟨by decide, by decide, by decide⟩
  obtain ⟨hpixels, -, hrow, hpixel⟩ := hset 1 (by decide) #[20, 21, 22] (by decide)
  refine ⟨by decide, ⟨⟨1, 1, 2⟩, ⟨hlast, rfl⟩, ?_⟩, (hplace _ hlast).1, hpixels, hrow,
    (hpixel 1 (by decide)).2 0 (by decide)⟩
  intro p hp
  exact hbij.injOn hp.1 hlast hp.2

end Raster

end DualRendition
