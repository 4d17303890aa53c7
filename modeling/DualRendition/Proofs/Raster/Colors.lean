import DualRendition.Proofs.Raster.Addressing

/-!
# Colours without their layout

Every pixel has a sample for each of the three colour channels, whatever its layout is:
`Raster.colorSample`. In a gray picture one sample is all three, and an alpha sample is none of
them. Two pictures with `Raster.SameColors` differ in layout and alpha only.

`Raster.asRgb` is the picture with just its colour samples. `Raster.asRgb_sameColors` proves that it
has the same colours, and `Raster.asRgb_hasPixels` that it is complete when the picture is.

Samples are codes of a depth, but nothing keeps a buffer from holding larger numbers.
`Raster.InRange` says that all samples keep to the depth, and `Raster.RowInRange` that the colours
of one row do.

Structure: the samples of `asRgb` are those of the picture at every place of the buffer, also
outside of it (`Raster.getD_colors`), so that no reader has to stay inside.
-/

namespace DualRendition

namespace Raster

/-! ## The colour samples -/

/-- The sample of a colour channel in the pixel at `(x, y)`. A gray pixel has one for all. -/
def colorSample (r : Raster) (c : Fin 3) (x y : Nat) : UInt16 :=
  r.sample x y (if r.layout = .gray then 0 else c)

/-- The colour samples of all pixels: gray samples are repeated, and alpha is left out. -/
def colors (r : Raster) : Array UInt16 :=
  match r.layout with
  | .gray => r.samples.flatMap fun sample => #[sample, sample, sample]
  | .rgb => r.samples
  | .rgba =>
    (Array.range (r.samples.size / 4)).flatMap fun i => r.samples.extract (i * 4) (i * 4 + 3)

/-- The picture in three channels. -/
def asRgb (r : Raster) : Raster := { r with layout := .rgb, samples := r.colors }

/-- A sample of a pixel, read from the pixel. -/
theorem sample_eq_getD_pixel (r : Raster) (x y : Nat) {c : Nat} (hc : c < r.channels) :
    r.sample x y c = (r.pixel x y).getD c 0 := by
  unfold sample pixel
  rw [Array.getD_eq_getD_getElem?, Array.getD_eq_getD_getElem?, Array.getElem?_extract]
  split
  next => rfl
  next hout =>
    -- the pixel is cut off where the buffer ends
    rw [Array.getElem?_eq_none]
    omega

/-- The first three samples of a pixel with three or four samples are its colours. -/
theorem colorSample_eq_getD_pixel {r : Raster} (h : r.layout ≠ .gray) (c : Fin 3) (x y : Nat) :
    r.colorSample c x y = (r.pixel x y).getD c 0 := by
  unfold colorSample
  rw [if_neg h]
  refine r.sample_eq_getD_pixel x y ?_
  unfold channels
  cases hlayout : r.layout with
  | gray => exact absurd hlayout h
  | rgb => exact c.isLt
  | rgba => exact Nat.lt_succ_of_lt c.isLt

/-! ## The range of the depth -/

/-- No sample is over the largest code of its depth. -/
def InRange (r : Raster) : Prop := ∀ sample ∈ r.samples, sample ≤ r.maxValue

instance (r : Raster) : Decidable r.InRange :=
  decidable_of_iff (r.samples.all (· ≤ r.maxValue) = true) <| by
    simp only [Array.all_eq_true_iff_forall_mem, decide_eq_true_eq, InRange]

theorem InRange.sample_le {r : Raster} (h : r.InRange) (x y c : Nat) :
    r.sample x y c ≤ r.maxValue := by
  unfold sample
  rw [Array.getD_eq_getD_getElem?]
  cases hsample : r.samples[r.pixelStart x y + c]? with
  | none => exact UInt16.zero_le
  | some sample => exact h sample (Array.mem_of_getElem? hsample)

theorem InRange.colorSample_le {r : Raster} (h : r.InRange) (c : Fin 3) (x y : Nat) :
    r.colorSample c x y ≤ r.maxValue :=
  h.sample_le x y _

/-- No colour sample of row `y` is over the largest code of its depth. -/
def RowInRange (r : Raster) (y : Nat) : Prop :=
  ∀ x < r.width.toNat, ∀ c, r.colorSample c x y ≤ r.maxValue

instance (r : Raster) (y : Nat) : Decidable (r.RowInRange y) :=
  inferInstanceAs (Decidable (∀ x < r.width.toNat, ∀ c, r.colorSample c x y ≤ r.maxValue))

/-- The colours of the first `rows` rows keep to the depth, or of all rows if there are no more. -/
def RowsInRange (r : Raster) (rows : Nat) : Prop :=
  ∀ y < rows, y < r.height.toNat → r.RowInRange y

instance (r : Raster) (rows : Nat) : Decidable (r.RowsInRange rows) :=
  inferInstanceAs (Decidable (∀ y < rows, y < r.height.toNat → r.RowInRange y))

theorem rowsInRange_min {r : Raster} {rows : Nat} :
    r.RowsInRange (min rows r.height.toNat) ↔ r.RowsInRange rows := by
  constructor
  · exact fun h y hy hin => h y (Nat.lt_min.mpr ⟨hy, hin⟩) hin
  · exact fun h y hy hin => h y (Nat.lt_min.mp hy).1 hin

/-! ## Three channels -/

theorem size_tripled (samples : Array UInt16) :
    (samples.flatMap fun sample => #[sample, sample, sample]).size = samples.size * 3 :=
  size_flatMap_of_mem fun _ _ => rfl

theorem getD_tripled (samples : Array UInt16) (i : Nat) (c : Fin 3) :
    (samples.flatMap fun sample => #[sample, sample, sample]).getD (i * 3 + c) 0 =
      samples.getD i 0 := by
  have hpiece : ∀ sample ∈ samples, (#[sample, sample, sample]).size = 3 := fun _ _ => rfl
  rw [Array.getD_eq_getD_getElem?, Array.getD_eq_getD_getElem?]
  by_cases hi : i < samples.size
  · rw [getElem?_flatMap hpiece hi c.isLt, Array.getElem?_eq_getElem hi]
    match c with
    | 0 | 1 | 2 => rfl
  · have hsize := size_tripled samples
    rw [Array.getElem?_eq_none (by omega), Array.getElem?_eq_none (by omega)]

/-- The pixels of a buffer of whole pixels with alpha, without their last samples. -/
theorem size_withoutAlpha {samples : Array UInt16} :
    ∀ i ∈ Array.range (samples.size / 4), (samples.extract (i * 4) (i * 4 + 3)).size = 3 := by
  intro i hi
  have hi := Array.mem_range.mp hi
  rw [Array.size_extract]
  omega

theorem getD_withoutAlpha {samples : Array UInt16} (h : 4 ∣ samples.size) (i : Nat) (c : Fin 3) :
    ((Array.range (samples.size / 4)).flatMap fun i => samples.extract (i * 4) (i * 4 + 3)).getD
      (i * 3 + c) 0 = samples.getD (i * 4 + c) 0 := by
  have hc := c.isLt
  rw [Array.getD_eq_getD_getElem?, Array.getD_eq_getD_getElem?]
  by_cases hi : i < samples.size / 4
  · have hi' : i < (Array.range (samples.size / 4)).size := by rwa [Array.size_range]
    rw [getElem?_flatMap size_withoutAlpha hi' c.isLt, Array.getElem_range, Array.getElem?_extract,
      if_pos (by omega)]
  · have hsize := size_flatMap_of_mem (@size_withoutAlpha samples)
    rw [Array.size_range] at hsize
    rw [Array.getElem?_eq_none (by omega), Array.getElem?_eq_none (by omega)]

/-- The colours of pixel `i` of a buffer of whole pixels, wherever `i` is. -/
theorem getD_colors {r : Raster} (h : r.channels ∣ r.samples.size) (i : Nat) (c : Fin 3) :
    r.colors.getD (i * 3 + c) 0 =
      r.samples.getD (i * r.channels + (if r.layout = .gray then 0 else c.val)) 0 := by
  unfold channels at h ⊢
  unfold colors
  cases hlayout : r.layout with
  | gray =>
    show _ = r.samples.getD (i * 1 + 0) 0
    rw [Nat.mul_one, Nat.add_zero]
    exact getD_tripled r.samples i c
  | rgb => rfl
  | rgba =>
    rw [hlayout] at h
    exact getD_withoutAlpha h i c

/-- The picture in three channels has the colours of the picture, at every place. -/
theorem colorSample_asRgb {r : Raster} (h : r.channels ∣ r.samples.size) (c : Fin 3) (x y : Nat) :
    r.asRgb.colorSample c x y = r.colorSample c x y :=
  getD_colors h (y * r.width.toNat + x) c

theorem size_colors {r : Raster} {pixels : Nat} (h : r.samples.size = pixels * r.channels) :
    r.colors.size = pixels * 3 := by
  unfold channels at h
  unfold colors
  cases hlayout : r.layout with
  | gray =>
    rw [hlayout] at h
    have hsize : r.samples.size = pixels * 1 := h
    rw [Nat.mul_one] at hsize
    dsimp only
    rw [size_tripled, hsize]
  | rgb =>
    rw [hlayout] at h
    exact h
  | rgba =>
    rw [hlayout] at h
    have hsize : r.samples.size = pixels * 4 := h
    dsimp only
    rw [size_flatMap_of_mem size_withoutAlpha, Array.size_range, hsize,
      Nat.mul_div_cancel _ (by decide)]

theorem channels_dvd_size {r : Raster} (h : r.hasPixels = true) : r.channels ∣ r.samples.size := by
  obtain ⟨-, hsize, -⟩ := hasPixels_iff.mp h
  rw [hsize]
  exact Nat.dvd_mul_left ..

/-- A picture in memory is complete in three channels, too. -/
theorem asRgb_hasPixels {r : Raster} (h : r.hasPixels = true) (hmemory : r.FitsMemory) :
    r.asRgb.hasPixels = true := by
  obtain ⟨-, hsize, -⟩ := hasPixels_iff.mp h
  exact hasPixels_of_fitsMemory h hmemory rfl rfl (size_colors hsize)

/-! ## The same colours -/

/-- Both rasters show the same colours and are to be understood alike. Layout and alpha may
differ. -/
structure SameColors (r s : Raster) : Prop where
  rendition : s.toRendition = { r.toRendition with layout := s.layout }
  width : s.width = r.width
  height : s.height = r.height
  sample : ∀ x < r.width.toNat, ∀ y < r.height.toNat, ∀ c,
    s.colorSample c x y = r.colorSample c x y

theorem SameColors.refl (r : Raster) : r.SameColors r :=
  ⟨rfl, rfl, rfl, fun _ _ _ _ _ => rfl⟩

theorem asRgb_sameColors {r : Raster} (h : r.hasPixels = true) : r.SameColors r.asRgb :=
  ⟨rfl, rfl, rfl, fun x _ y _ c => colorSample_asRgb (channels_dvd_size h) c x y⟩

end Raster

end DualRendition
