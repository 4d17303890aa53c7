import DualRendition.Proofs.Raster.Tiling

/-!
# Which buffers get their samples

Allocation fills a buffer that is empty, and pixels are present in a buffer of exactly the right
length. The two agree on buffers that are empty or complete: `Raster.allocate_presence` says that
after allocation pixels are present for these and for no others. A buffer of any other length counts
as absent and yet is not filled (`Raster.shortBuffer_unfilled`).
-/

namespace DualRendition

namespace Raster

variable {r : Raster}

/-- **Allocation makes the pixels present, unless the buffer has a wrong length.** It always
succeeds for a picture of legal size. Zeros fill an empty buffer, and any other buffer stays as it
is, in particular one that is complete. Pixels are present afterwards exactly when the buffer was
empty or complete, and then every row and every pixel lies inside the buffer. -/
theorem allocate_presence (h : SizeLegal r.width r.height) :
    ∃ after, r.allocate = .ok after ∧
      (r.samples = #[] → after = r.blank) ∧
      (r.samples ≠ #[] → after = r) ∧
      (r.hasPixels = true → after = r) ∧
      (after.hasPixels = true ↔ r.samples = #[] ∨ r.hasPixels = true) ∧
      (after.hasPixels = true →
        (∀ y < r.height.toNat, after.Holds (y * after.rowLength) after.rowLength) ∧
        ∀ x < r.width.toNat, ∀ y < r.height.toNat,
          after.Holds (after.pixelStart x y) after.channels) := by
  by_cases hempty : r.samples = #[]
  · have hblank := blank_hasPixels h
    refine ⟨r.blank, allocate_of_empty h hempty, fun _ => rfl, fun hne => absurd hempty hne, ?_,
      iff_of_true hblank (.inl hempty), fun _ => ⟨fun y hy => holds_row hblank hy,
        fun x hx y hy => holds_pixel hblank hx hy⟩⟩
    intro hpixels
    obtain ⟨hpos, -, -⟩ := hasPixels_iff.mp hpixels
    rw [hempty] at hpos
    exact absurd hpos (Nat.lt_irrefl 0)
  · refine ⟨r, allocate_of_nonempty hempty, fun hcontra => absurd hcontra hempty, fun _ => rfl,
      fun _ => rfl, (or_iff_right hempty).symm, fun hpixels => ⟨fun y hy => holds_row hpixels hy,
        fun x hx y hy => holds_pixel hpixels hx hy⟩⟩

/-- A picture of four pixels of which only the header is known. -/
def unfilled : Raster := ⟨⟨8, .rgb, .bt709, .srgb, .unknown⟩, 2, 2, #[]⟩

theorem unfilled_allocated :
    ∃ after, unfilled.allocate = .ok after ∧ after.samples = Array.replicate 12 0 ∧
      after.hasPixels = true ∧ after.Holds (after.pixelStart 1 1) 3 := by
  obtain ⟨after, hok, hblank, -, -, hpresent, hinside⟩ :=
    @allocate_presence unfilled ⟨by decide, by decide, by decide, by decide, by decide⟩
  obtain rfl := hblank rfl
  have hpixels := hpresent.mpr (.inl rfl)
  exact ⟨unfilled.blank, hok, rfl, hpixels, (hinside hpixels).2 1 (by decide) 1 (by decide)⟩

/-- The same picture with five of its twelve samples. -/
def shortBuffer : Raster := { unfilled with samples := #[1, 2, 3, 4, 5] }

/-- Too short a buffer has no pixels, and allocation leaves it so: not even the first row is inside.
-/
theorem shortBuffer_unfilled :
    SizeLegal shortBuffer.width shortBuffer.height ∧ shortBuffer.hasPixels = false ∧
    ∃ after, shortBuffer.allocate = .ok after ∧ after.hasPixels = false ∧
      after.samples = #[1, 2, 3, 4, 5] ∧ ¬after.Holds (0 * after.rowLength) after.rowLength := by
  refine ⟨⟨by decide, by decide, by decide, by decide, by decide⟩, by decide, shortBuffer,
    allocate_of_nonempty (by decide), by decide, rfl, ?_⟩
  intro hrow
  exact absurd hrow.end_le (by decide)

end Raster

end DualRendition
