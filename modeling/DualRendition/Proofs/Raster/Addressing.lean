import Mathlib.Algebra.Group.Nat.Defs
import DualRendition.Raster
import DualRendition.Proofs.Outcome

/-!
# Addressing a raster

Pixels count as present when the buffer has exactly the samples of a whole picture
(`Raster.hasPixels_iff`), and then the rows tile the buffer: `Raster.rows_eq_samples`. A buffer that
was laid out row by row is read pixel by pixel with `Raster.pixel_of_rows`. What a header accepts is
given by `Raster.header_eq_ok_iff`; `Raster.HasHeader` says it of a raster that is there.

Structure: sides and buffers come first, since grids and gain maps count with them too.
-/

namespace DualRendition

/-! ## Sides -/

/-- Neither of two sides is zero. -/
theorem sides_ne_zero_iff {a b : UInt32} : ¬(a = 0 ∨ b = 0) ↔ 0 < a.toNat ∧ 0 < b.toNat := by
  have hpos : ∀ {side : UInt32}, ¬side = 0 ↔ 0 < side.toNat := UInt32.pos_iff_ne_zero.symm
  rw [not_or, hpos, hpos]

/-- Neither of two sides is over a limit. -/
theorem sides_le_iff {limit a b : UInt32} :
    ¬(limit < a ∨ limit < b) ↔ a.toNat ≤ limit.toNat ∧ b.toNat ≤ limit.toNat := by
  rw [not_or]
  exact and_congr Nat.not_lt Nat.not_lt

/-- Every one of some pieces of one length ends where the last one does, or before. -/
theorem piece_le {i count : Nat} (h : i < count) (length : Nat) :
    i * length + length ≤ count * length := by
  rw [← Nat.succ_mul]
  exact Nat.mul_le_mul_right length h

/-- The places of a table, counted row by row, are as many as its sides tell. -/
theorem place_lt {columns rows column row : Nat} (hcolumn : column < columns) (hrow : row < rows) :
    row * columns + column < rows * columns :=
  Nat.lt_of_lt_of_le (Nat.add_lt_add_left hcolumn _) (piece_le hrow columns)

/-! ## Buffers -/

/-- Neighbouring pieces of equal length, laid end to end, are the buffer up to where they end. -/
theorem flatMap_range_extract {α : Type} (buffer : Array α) (length : Nat) :
    ∀ count, (Array.range count).flatMap
        (fun i => buffer.extract (i * length) (i * length + length))
      = buffer.extract 0 (count * length) := by
  intro count
  induction count with
  | zero => simp
  | succ count ih =>
    -- the next piece starts where those before it end
    rw [Array.range_succ, Array.flatMap_append, ih, Array.flatMap_singleton,
      Array.extract_append_extract]
    rw [Nat.zero_min, Nat.max_eq_right (Nat.le_add_right ..), Nat.succ_mul]

/-- Elements whose pieces have one length. -/
theorem size_flatMap_of_mem {α β : Type} {piece : α → Array β} {length : Nat} {elements : Array α}
    (h : ∀ a ∈ elements, (piece a).size = length) :
    (elements.flatMap piece).size = elements.size * length := by
  rw [Array.size_flatMap, Array.map_congr_left h, Array.map_const', Array.sum_replicate_nat]

/-- Pieces of one length, one for each element. -/
theorem size_flatMap_pieces {α β : Type} {piece : α → Array β} {length : Nat}
    (h : ∀ a, (piece a).size = length) (elements : Array α) :
    (elements.flatMap piece).size = elements.size * length :=
  size_flatMap_of_mem fun a _ => h a

/-- A piece of a piece is a piece of the buffer. -/
theorem extract_extract_of_le {α : Type} (buffer : Array α) (start : Nat)
    {length offset size : Nat} (h : offset + size ≤ length) :
    (buffer.extract start (start + length)).extract offset (offset + size) =
      buffer.extract (start + offset) (start + offset + size) := by
  have hend : start + (offset + size) ≤ start + length := Nat.add_le_add_left h start
  rw [Array.extract_extract, Nat.min_eq_left hend, Nat.add_assoc]

/-- Reading the piece of the `i`th of some elements whose pieces, of one length, are laid end to
end. -/
theorem extract_flatMap {α β : Type} {piece : α → Array β} {length : Nat} {elements : Array α}
    (h : ∀ a ∈ elements, (piece a).size = length) {i : Nat} (hi : i < elements.size) :
    (elements.flatMap piece).extract (i * length) (i * length + length) = piece elements[i] := by
  have hsplit : elements = elements.extract 0 i ++ #[elements[i]] ++ elements.extract (i + 1) := by
    rw [← Array.push_eq_append, ← Array.extract_succ_right (Nat.succ_pos i) hi,
      Array.extract_append_extract, Nat.zero_min, Nat.max_eq_right hi, Array.extract_size]
  have hbefore : ((elements.extract 0 i).flatMap piece).size = i * length := by
    rw [size_flatMap_of_mem, Array.size_extract_of_le (Nat.le_of_lt hi), Nat.sub_zero]
    intro a ha
    obtain ⟨j, hj, rfl⟩ := Array.mem_extract_iff_getElem.mp ha
    exact h _ (Array.getElem_mem _)
  have hpiece : (piece elements[i]).size = length := h _ (Array.getElem_mem hi)
  have hpieces : elements.flatMap piece = (elements.extract 0 i).flatMap piece ++
      (piece elements[i] ++ (elements.extract (i + 1)).flatMap piece) := by
    calc elements.flatMap piece
        = (elements.extract 0 i ++ #[elements[i]] ++ elements.extract (i + 1)).flatMap piece := by
          rw [← hsplit]
      _ = _ := by
          rw [Array.flatMap_append, Array.flatMap_append, Array.flatMap_singleton,
            Array.append_assoc]
  -- what stands in front of the piece ends where it starts, and what follows starts where it ends
  rw [hpieces, Array.extract_append, hbefore, Nat.sub_self, Nat.add_sub_cancel_left,
    Array.extract_eq_empty_of_le (by omega), Array.empty_append, Array.extract_append, hpiece,
    Array.extract_eq_self_of_le (Nat.le_of_eq hpiece), Nat.sub_self,
    Array.extract_eq_empty_of_le (by omega), Array.append_empty]

/-- Reading one element of the piece of the `i`th of some elements whose pieces, of one length, are
laid end to end. -/
theorem getElem?_flatMap {α β : Type} {piece : α → Array β} {length : Nat} {elements : Array α}
    (h : ∀ a ∈ elements, (piece a).size = length) {i j : Nat} (hi : i < elements.size)
    (hj : j < length) :
    (elements.flatMap piece)[i * length + j]? = (piece elements[i])[j]? := by
  have hend : i * length + length ≤ (elements.flatMap piece).size := by
    rw [size_flatMap_of_mem h]
    exact piece_le hi length
  rw [← extract_flatMap h hi, Array.getElem?_extract, if_pos (by omega)]

/-- Reading the `i`th of some pieces of one length that are laid end to end. -/
theorem extract_flatMap_range {α : Type} {piece : Nat → Array α} {count length : Nat}
    (h : ∀ i < count, (piece i).size = length) {i : Nat} (hi : i < count) :
    ((Array.range count).flatMap piece).extract (i * length) (i * length + length) = piece i := by
  have hi' : i < (Array.range count).size := by rwa [Array.size_range]
  rw [extract_flatMap (fun j hj => h j (Array.mem_range.mp hj)) hi', Array.getElem_range]

/-- Buffers with the same pieces are the same. -/
theorem flatMap_range_congr {α : Type} {piece piece' : Nat → Array α} {count : Nat}
    (h : ∀ i < count, piece i = piece' i) :
    (Array.range count).flatMap piece = (Array.range count).flatMap piece' := by
  rw [Array.flatMap_def, Array.flatMap_def,
    Array.map_congr_left fun i hi => h i (Array.mem_range.mp hi)]

/-- Going over a table row by row is going over its places in order. -/
theorem flatMap_range_map {α : Type} (f : Nat → α) (width : Nat) : ∀ rows,
    ((Array.range rows).flatMap fun y => (Array.range width).map fun x => f (y * width + x)) =
      (Array.range (rows * width)).map f := by
  intro rows
  induction rows with
  | zero =>
    rw [Nat.zero_mul, Array.range_eq_empty_iff.mpr rfl, Array.flatMap_empty, Array.map_empty]
  | succ rows ih =>
    rw [Array.range_succ, Array.flatMap_append, ih, Array.flatMap_singleton, Nat.succ_mul,
      Array.range_add, Array.map_append, Array.map_map]
    rfl

namespace Raster

theorem sampleCount_eq_ok_iff {r : Raster} {count : Nat} :
    r.sampleCount = .ok count ↔
      r.width.toNat * r.height.toNat * r.channels = count ∧ count < UInt64.size := by
  unfold sampleCount
  dsimp only
  split
  next h =>
    refine ⟨?_, ?_⟩
    · intro hok
      obtain rfl := Except.ok.inj hok
      exact ⟨rfl, h⟩
    · intro hcount
      rw [hcount.1]
  next h =>
    refine ⟨fun hok => (nomatch hok), ?_⟩
    intro hcount
    rw [← hcount.1] at hcount
    exact absurd hcount.2 h

/-- Pixels are present when there are samples and as many as the whole picture has. -/
theorem hasPixels_iff {r : Raster} :
    r.hasPixels = true ↔
      0 < r.samples.size ∧ r.samples.size = r.width.toNat * r.height.toNat * r.channels ∧
      r.samples.size < UInt64.size := by
  have hempty : (!r.samples.isEmpty) = true ↔ 0 < r.samples.size := by
    rw [Bool.not_eq_true', Array.isEmpty_eq_false_iff, ← Array.size_pos_iff]
  unfold hasPixels
  rw [Bool.and_eq_true, hempty]
  cases hcount : r.sampleCount with
  | ok count =>
    obtain ⟨hproduct, hlt⟩ := sampleCount_eq_ok_iff.mp hcount
    simp only [decide_eq_true_eq]
    refine ⟨?_, ?_⟩
    · intro h
      obtain ⟨hpos, rfl⟩ := h
      exact ⟨hpos, hproduct.symm, hlt⟩
    · intro h
      exact ⟨h.1, by omega⟩
  | error e =>
    -- a picture with so many samples as there are has a sample count
    refine ⟨fun h => (nomatch h.2), ?_⟩
    intro h
    rw [sampleCount_eq_ok_iff.mpr ⟨h.2.1.symm, h.2.2⟩] at hcount
    cases hcount

/-- A picture with pixels has neither width nor height zero. -/
theorem dimensions_pos {r : Raster} (h : r.hasPixels = true) :
    0 < r.width.toNat ∧ 0 < r.height.toNat := by
  obtain ⟨hpos, hsize, -⟩ := hasPixels_iff.mp h
  rw [hsize] at hpos
  have harea := Nat.pos_of_mul_pos_right hpos
  exact ⟨Nat.pos_of_mul_pos_right harea, Nat.pos_of_mul_pos_left harea⟩

/-- No layout has more than four samples in a pixel. -/
theorem channels_le (r : Raster) : r.channels ≤ 4 := by
  unfold channels
  cases r.layout <;> decide

/-- Every buffer that can exist does: at two bytes for a sample, it takes less than half of a 64 bit
address space. -/
def FitsMemory (r : Raster) : Prop := 2 * r.samples.size < 2 ^ 63

instance (r : Raster) : Decidable r.FitsMemory := inferInstanceAs (Decidable (_ < _))

/-- Beside a picture in memory, one of the same size has its samples counted in every layout. -/
theorem hasPixels_of_fitsMemory {r s : Raster} (hr : r.hasPixels = true) (hmemory : r.FitsMemory)
    (hwidth : s.width = r.width) (hheight : s.height = r.height)
    (hsize : s.samples.size = s.width.toNat * s.height.toNat * s.channels) :
    s.hasPixels = true := by
  obtain ⟨hpos, hcount, -⟩ := hasPixels_iff.mp hr
  -- the picture in memory has a sample for each pixel, and the other at most four
  have harea : r.width.toNat * r.height.toNat ≤ r.samples.size := by
    rw [hcount]
    exact Nat.le_mul_of_pos_right _ r.layout.channels_pos
  have hfour : s.samples.size ≤ r.samples.size * 4 := by
    rw [hsize, hwidth, hheight]
    exact Nat.mul_le_mul harea s.channels_le
  have hlimit : 2 * r.samples.size < 2 ^ 63 := hmemory
  refine hasPixels_iff.mpr ⟨?_, hsize, ?_⟩
  · rw [hcount] at hpos
    rw [hsize, hwidth, hheight]
    exact Nat.mul_pos (Nat.pos_of_mul_pos_right hpos) s.layout.channels_pos
  · show s.samples.size < 2 ^ 64
    omega

/-- The rows of a picture with pixels end inside the buffer, ... -/
theorem row_end_le {r : Raster} (h : r.hasPixels = true) {y : Nat} (hy : y < r.height.toNat) :
    y * r.rowLength + r.rowLength ≤ r.samples.size := by
  obtain ⟨-, hsize, -⟩ := hasPixels_iff.mp h
  rw [hsize, Nat.mul_comm r.width.toNat, Nat.mul_assoc]
  exact piece_le hy r.rowLength

/-- ... and so every one of them is complete. -/
theorem size_row {r : Raster} (h : r.hasPixels = true) {y : Nat} (hy : y < r.height.toNat) :
    (r.row y).size = r.rowLength := by
  unfold row
  rw [Array.size_extract, Nat.min_eq_left (row_end_le h hy), Nat.add_sub_cancel_left]

/-- The rows of a picture with pixels, from top to bottom, are its buffer. -/
theorem rows_eq_samples {r : Raster} (h : r.hasPixels = true) :
    (Array.range r.height.toNat).flatMap r.row = r.samples := by
  obtain ⟨-, hsize, -⟩ := hasPixels_iff.mp h
  have hrows : r.height.toNat * r.rowLength = r.samples.size := by
    rw [hsize, rowLength, ← Nat.mul_assoc, Nat.mul_comm r.height.toNat]
  show (Array.range r.height.toNat).flatMap
    (fun y => r.samples.extract (y * r.rowLength) (y * r.rowLength + r.rowLength)) = r.samples
  rw [flatMap_range_extract, hrows, Array.extract_size]

/-- A pixel is a piece of its row. -/
theorem pixel_eq_extract_row {r : Raster} {x : Nat} (hx : x < r.width.toNat) (y : Nat) :
    r.pixel x y = (r.row y).extract (x * r.channels) (x * r.channels + r.channels) := by
  have hend : x * r.channels + r.channels ≤ r.rowLength := piece_le hx r.channels
  unfold row
  rw [extract_extract_of_le _ _ hend]
  unfold pixel pixelStart rowLength
  rw [Nat.add_mul, Nat.mul_assoc]

/-- The pixels of a row, from left to right, are the row. -/
theorem pixels_eq_row (r : Raster) (y : Nat) :
    (Array.range r.width.toNat).flatMap (r.pixel · y) = r.row y := by
  have hrow : (r.row y).size ≤ r.width.toNat * r.channels := by
    unfold row
    refine Nat.le_trans Array.size_extract_le ?_
    rw [Nat.add_sub_cancel_left]
    exact Nat.le_refl _
  rw [flatMap_range_congr fun x hx => pixel_eq_extract_row hx y, flatMap_range_extract,
    Array.extract_eq_self_of_le hrow]

section Rows

/-! Pixels laid out row by row, `rows` rows of `width` pixels with `channels` samples each. -/

variable {piece : Nat → Nat → Array UInt16} {rows width channels : Nat}
  (hpiece : ∀ y < rows, ∀ x < width, (piece x y).size = channels)

include hpiece

theorem size_rowOf {y : Nat} (hy : y < rows) :
    ((Array.range width).flatMap fun x => piece x y).size = width * channels := by
  rw [size_flatMap_of_mem (fun x hx => hpiece y hy x (Array.mem_range.mp hx)), Array.size_range]

theorem size_rows :
    ((Array.range rows).flatMap fun y => (Array.range width).flatMap fun x => piece x y).size =
      width * rows * channels := by
  rw [size_flatMap_of_mem (fun y hy => size_rowOf hpiece (Array.mem_range.mp hy)), Array.size_range,
    ← Nat.mul_assoc, Nat.mul_comm rows]

end Rows

/-- Reading a pixel of a raster whose buffer was laid out row by row. -/
theorem pixel_of_rows {r : Raster} {piece : Nat → Nat → Array UInt16} {rows : Nat}
    (hpiece : ∀ y < rows, ∀ x < r.width.toNat, (piece x y).size = r.channels)
    (hsamples : r.samples = (Array.range rows).flatMap fun y =>
      (Array.range r.width.toNat).flatMap fun x => piece x y)
    {x y : Nat} (hx : x < r.width.toNat) (hy : y < rows) : r.pixel x y = piece x y := by
  rw [pixel_eq_extract_row hx]
  unfold row rowLength
  rw [hsamples, extract_flatMap_range (fun y hy => size_rowOf hpiece hy) hy,
    extract_flatMap_range (fun x hx => hpiece y hy x hx) hx]

/-- The samples of the window of `width` by `height` pixels whose upper left one is at `(x, y)`. -/
def window (r : Raster) (x y width height : Nat) : Array UInt16 :=
  (Array.range height).flatMap fun j => (Array.range width).flatMap fun i => r.pixel (x + i) (y + j)

/-- Windows with the same pixels are the same. -/
theorem window_congr {r s : Raster} {x y x' y' width height : Nat}
    (h : ∀ i < width, ∀ j < height, r.pixel (x + i) (y + j) = s.pixel (x' + i) (y' + j)) :
    r.window x y width height = s.window x' y' width height :=
  flatMap_range_congr fun j hj => flatMap_range_congr fun i hi => h i hi j hj

/-- What stands in a window depends on the buffer, and on how wide and thick its rows are. -/
theorem window_eq_of_samples {r s : Raster} (hwidth : r.width = s.width)
    (hlayout : r.layout = s.layout) (hsamples : r.samples = s.samples) (x y width height : Nat) :
    r.window x y width height = s.window x y width height := by
  refine window_congr fun i _ j _ => ?_
  unfold pixel pixelStart channels
  rw [hwidth, hlayout, hsamples]

/-- The window as large as a picture with pixels is its buffer. -/
theorem window_eq_samples {r : Raster} (h : r.hasPixels = true) :
    r.window 0 0 r.width.toNat r.height.toNat = r.samples := by
  unfold window
  simp only [Nat.zero_add, pixels_eq_row]
  exact rows_eq_samples h

/-! ## Shapes -/

theorem sameShape_iff {r s : Raster} :
    r.sameShape s = true ↔
      r.width = s.width ∧ r.height = s.height ∧ r.depth = s.depth ∧ r.layout = s.layout := by
  simp only [sameShape, Bool.and_eq_true, decide_eq_true_eq, and_assoc]

/-! ## Headers -/

/-- The sizes within the limits of an image. -/
structure SizeLegal (width height : UInt32) : Prop where
  width_pos : 0 < width.toNat
  height_pos : 0 < height.toNat
  width_le : width.toNat ≤ maxDimension.toNat
  height_le : height.toNat ≤ maxDimension.toNat
  area_le : width.toNat * height.toNat ≤ maxPixels

theorem checkSize_eq_ok_iff {width height : UInt32} :
    checkSize width height = .ok () ↔ SizeLegal width height := by
  unfold checkSize
  dsimp only
  simp only [Outcome.throw_eq, Outcome.error_bind, Outcome.pure_eq, Outcome.guard_eq_ok, and_true,
    sides_ne_zero_iff, sides_le_iff, Nat.not_lt]
  refine ⟨?_, fun h => ⟨⟨h.width_pos, h.height_pos⟩, ⟨h.width_le, h.height_le⟩, h.area_le⟩⟩
  intro h
  obtain ⟨⟨hwidth, hheight⟩, ⟨hwidth', hheight'⟩, harea⟩ := h
  exact ⟨hwidth, hheight, hwidth', hheight', harea⟩

/-- The depths that samples can be stored in. -/
def DepthLegal (depth : UInt8) : Prop := 1 ≤ depth ∧ depth ≤ 16

theorem checkDepth_eq_ok_iff {depth : UInt8} : checkDepth depth = .ok () ↔ DepthLegal depth := by
  unfold checkDepth DepthLegal
  by_cases h : 1 ≤ depth ∧ depth ≤ 16 <;> simp [h]

/-- A header is made exactly for a legal size and depth. -/
theorem header_eq_ok_iff {width height : UInt32} {depth : UInt8} {layout : Layout} {r : Raster} :
    header width height depth layout = .ok r ↔
      SizeLegal width height ∧ DepthLegal depth ∧
      r = { depth, layout, primaries := .bt709, transfer := .srgb, lightLevel := .unknown,
            width, height, samples := #[] } := by
  unfold header
  rw [Outcome.check_bind_eq_ok, Outcome.check_bind_eq_ok, checkSize_eq_ok_iff,
    checkDepth_eq_ok_iff, Outcome.pure_eq_ok, @eq_comm _ _ r]

/-- The raster has a size and a depth that a header can be made of. -/
def HasHeader (r : Raster) : Prop := ∃ h, header r.width r.height r.depth r.layout = .ok h

theorem hasHeader_iff {r : Raster} :
    r.HasHeader ↔ SizeLegal r.width r.height ∧ DepthLegal r.depth := by
  refine ⟨?_, ?_⟩
  · intro h
    obtain ⟨_, hheader⟩ := h
    obtain ⟨hsize, hdepth, -⟩ := header_eq_ok_iff.mp hheader
    exact ⟨hsize, hdepth⟩
  · intro h
    exact ⟨_, header_eq_ok_iff.mpr ⟨h.1, h.2, rfl⟩⟩

/-- The largest picture has four samples for each of its pixels, far below the limit of a count. -/
theorem SizeLegal.count_lt {r : Raster} (h : SizeLegal r.width r.height) :
    r.width.toNat * r.height.toNat * r.channels < UInt64.size := by
  have hlimit : maxPixels * 4 < UInt64.size := by decide
  exact Nat.lt_of_le_of_lt (Nat.mul_le_mul h.area_le r.channels_le) hlimit

/-- A raster of a legal size has its pixels once the buffer has the right length. -/
theorem hasPixels_of_size {r : Raster} (h : SizeLegal r.width r.height)
    (hsize : r.samples.size = r.width.toNat * r.height.toNat * r.channels) :
    r.hasPixels = true := by
  have harea : 0 < r.width.toNat * r.height.toNat := Nat.mul_pos h.width_pos h.height_pos
  rw [hasPixels_iff, hsize]
  exact ⟨Nat.mul_pos harea r.layout.channels_pos, rfl, h.count_lt⟩

/-! ## Allocation -/

/-- The raster with a zero for each of its samples. -/
def blank (r : Raster) : Raster :=
  { r with samples := Array.replicate (r.width.toNat * r.height.toNat * r.channels) 0 }

/-- An empty buffer is filled, ... -/
theorem allocate_of_empty {r : Raster} (h : SizeLegal r.width r.height) (hempty : r.samples = #[]) :
    r.allocate = .ok r.blank := by
  unfold allocate
  rw [if_pos (by rw [hempty]; rfl), sampleCount_eq_ok_iff.mpr ⟨rfl, h.count_lt⟩]
  rfl

/-- ... and any other buffer stays. -/
theorem allocate_of_nonempty {r : Raster} (h : r.samples ≠ #[]) : r.allocate = .ok r := by
  unfold allocate
  rw [if_neg (by rwa [Array.isEmpty_iff])]
  rfl

theorem blank_hasPixels {r : Raster} (h : SizeLegal r.width r.height) : r.blank.hasPixels = true :=
  @hasPixels_of_size r.blank h Array.size_replicate

/-- Wherever a header can be made, so can a blank picture with all its samples. -/
theorem zeros_eq {width height : UInt32} {depth : UInt8} {layout : Layout} {r : Raster}
    (h : header width height depth layout = .ok r) :
    zeros width height depth layout =
      .ok { r with
        samples := Array.replicate (width.toNat * height.toNat * layout.channels) 0 } := by
  obtain ⟨hsize, -, rfl⟩ := header_eq_ok_iff.mp h
  unfold zeros
  rw [h, Outcome.ok_bind]
  exact allocate_of_empty hsize rfl

end Raster

end DualRendition
