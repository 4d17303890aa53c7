/-!
# Writing over a buffer

A `Patch` is a run of samples with a place in a buffer. Written over a buffer that is long enough,
it stands at its place (`Patch.getElem?_write_inside`), and everywhere else stands what stood there
(`Patch.getElem?_write_outside`). A piece of the buffer is seen through the write as a whole: a
piece beside the run is as it was (`Patch.extract_write_outside`), and a piece around the run has
the run written over it (`Patch.extract_write_around`).
-/

namespace DualRendition

/-- A run of samples, and where it is written. -/
structure Patch where
  start : Nat
  samples : Array UInt16

namespace Patch

/-- Where the run ends. -/
def stop (p : Patch) : Nat := p.start + p.samples.size

/-- The buffer with the run written over it. -/
def write (buffer : Array UInt16) (p : Patch) : Array UInt16 :=
  buffer.extract 0 p.start ++ p.samples ++ buffer.extract p.stop

variable {p : Patch} {buffer : Array UInt16}

theorem size_write (h : p.stop ≤ buffer.size) : (write buffer p).size = buffer.size := by
  unfold stop at h
  simp only [write, stop, Array.size_append, Array.size_extract]
  omega

/-- Inside the run stands the run. -/
theorem getElem?_write_inside {k : Nat} (h : p.stop ≤ buffer.size) (hlow : p.start ≤ k)
    (hhigh : k < p.stop) : (write buffer p)[k]? = p.samples[k - p.start]? := by
  unfold stop at h hhigh
  have hfront : (buffer.extract 0 p.start).size = p.start := by
    rw [Array.size_extract]
    omega
  unfold write
  rw [Array.getElem?_append_left (by rw [Array.size_append, hfront]; exact hhigh),
    Array.getElem?_append_right (by rw [hfront]; exact hlow), hfront]

/-- Outside the run stands what stood there. -/
theorem getElem?_write_outside {k : Nat} (h : p.stop ≤ buffer.size)
    (hk : ¬(p.start ≤ k ∧ k < p.stop)) : (write buffer p)[k]? = buffer[k]? := by
  have hstop : p.stop = p.start + p.samples.size := rfl
  have hfront : (buffer.extract 0 p.start).size = p.start := by
    rw [Array.size_extract]
    omega
  have hrun : (buffer.extract 0 p.start ++ p.samples).size = p.stop := by
    rw [Array.size_append, hfront, hstop]
  unfold write
  by_cases hlow : k < p.start
  · rw [Array.getElem?_append_left (by omega), Array.getElem?_append_left (by omega),
      Array.getElem?_extract, if_pos (by omega), Nat.zero_add]
  · rw [Array.getElem?_append_right (by omega), hrun, Array.getElem?_extract]
    have hback : p.stop + (k - p.stop) = k := by omega
    rw [hback]
    by_cases hk' : k < buffer.size
    · rw [if_pos (by omega)]
    · rw [if_neg (by omega), Array.getElem?_eq_none (by omega)]

/-- A piece of the buffer beside the run is as it was. -/
theorem extract_write_outside {i j : Nat} (h : p.stop ≤ buffer.size)
    (hbeside : j ≤ p.start ∨ p.stop ≤ i) :
    (write buffer p).extract i j = buffer.extract i j := by
  refine Array.ext_getElem? fun k => ?_
  rw [Array.getElem?_extract, Array.getElem?_extract, size_write h]
  split
  next hk => exact getElem?_write_outside h (by omega)
  next => rfl

/-- A piece of the buffer around the run has the run written over it. -/
theorem extract_write_around {samples : Array UInt16} {start offset length : Nat}
    (hpiece : start + length ≤ buffer.size) (h : offset + samples.size ≤ length) :
    (write buffer ⟨start + offset, samples⟩).extract start (start + length) =
      write (buffer.extract start (start + length)) ⟨offset, samples⟩ := by
  have hstop : (⟨start + offset, samples⟩ : Patch).stop = start + offset + samples.size := rfl
  have hstop' : (⟨offset, samples⟩ : Patch).stop = offset + samples.size := rfl
  have hwhole : (⟨start + offset, samples⟩ : Patch).stop ≤ buffer.size := by omega
  have hsize : (buffer.extract start (start + length)).size = length := by
    rw [Array.size_extract, Nat.min_eq_left hpiece, Nat.add_sub_cancel_left]
  have hinside : (⟨offset, samples⟩ : Patch).stop ≤
      (buffer.extract start (start + length)).size := by omega
  refine Array.ext_getElem? fun k => ?_
  by_cases hk : k < length
  · rw [Array.getElem?_extract, size_write hwhole, if_pos (by omega)]
    by_cases hrun : offset ≤ k ∧ k < offset + samples.size
    · rw [getElem?_write_inside hwhole (by dsimp only; omega) (by omega),
        getElem?_write_inside hinside hrun.1 (by omega)]
      congr 1
      dsimp only
      omega
    · rw [getElem?_write_outside hwhole (by dsimp only; omega),
        getElem?_write_outside hinside (by dsimp only; omega), Array.getElem?_extract,
        if_pos (by omega)]
  · rw [Array.getElem?_eq_none (by rw [Array.size_extract, size_write hwhole]; omega),
      Array.getElem?_eq_none (by rw [size_write hinside]; omega)]

end Patch

end DualRendition
