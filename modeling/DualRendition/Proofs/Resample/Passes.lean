import Mathlib.Data.List.Basic
import DualRendition.Resample
import DualRendition.Proofs.Raster.Addressing

/-!
# Resampling, sample by sample

Every span lies inside its axis and is not empty, whatever numbers its limits are rounded from
(`Span.covering_inside`). So a resampled sample is a sum over places that are all there, and
`getElem?_resample` says which sum: over the rows under it, of sums over the columns under it, both
from the first to the last (`Span.total`).

The sums of one channel meet no sample of another, so that channels may be taken apart before or
after: `channel_resample`. No float operation is looked into.
-/

namespace DualRendition

namespace Span

/-! ## Spans -/

/-- The span is not empty, and lies inside an axis of `source` samples. -/
structure Inside (s : Span) (source : Nat) : Prop where
  nonempty : s.weights ≠ []
  start_lt : s.start + 1 ≤ source
  stop_le : s.start + s.weights.length ≤ source

/-- Limits that are held inside an axis do not cross. -/
theorem limits_inside {source : Nat} (h : 0 < source) (low high : Nat) :
    min low (source - 1) + 1 ≤ source ∧
    min low (source - 1) < min (max high (min low (source - 1) + 1)) source ∧
    min (max high (min low (source - 1) + 1)) source ≤ source := by
  omega

/-- Nothing has to be known of the floats that the limits come from. -/
theorem covering_inside {source : Nat} (h : 0 < source) (target x : Nat) :
    (covering source target x).Inside source := by
  unfold covering
  dsimp only
  generalize (x.toFloat * (source.toFloat / target.toFloat)).toUInt64.toNat = low
  generalize ((x + 1).toFloat * (source.toFloat / target.toFloat)).ceil.toUInt64.toNat = high
  obtain ⟨hstart, hlt, hstop⟩ := limits_inside h low high
  refine ⟨?_, hstart, ?_⟩
  · rw [← List.length_pos_iff, List.length_map, List.length_range']
    omega
  · rw [List.length_map, List.length_range']
    show min low (source - 1) + _ ≤ source
    omega

theorem size_axis (source target : Nat) : (axis source target).size = target := by
  unfold axis
  rw [Array.size_map, Array.size_range]

theorem getElem_axis {source target x : Nat} (hx : x < (axis source target).size) :
    (axis source target)[x] = covering source target x := by
  simp only [axis, Array.getElem_map, Array.getElem_range]

theorem inside_of_mem_axis {source target : Nat} (h : 0 < source) :
    ∀ span ∈ axis source target, span.Inside source := by
  intro span hspan
  obtain ⟨x, -, rfl⟩ := Array.mem_map.mp hspan
  exact covering_inside h target x

/-! ## Sums -/

/-- The places under the span, each with its weight. -/
def parts (s : Span) : List (Nat × Float32) := (List.range' s.start s.weights.length).zip s.weights

/-- The sum of value times weight over the places under the span, from the first to the last and
beginning with 0. -/
def total (s : Span) (value : Nat → Float32) : Float32 :=
  s.parts.foldl (fun sum part => sum + value part.1 * part.2) 0

/-- Where the area under sample `x` begins, in samples of the source. -/
def low (source target x : Nat) : Float := x.toFloat * (source.toFloat / target.toFloat)

/-- Where the area under sample `x` ends. -/
def high (source target x : Nat) : Float := (x + 1).toFloat * (source.toFloat / target.toFloat)

/-- The places that the area under sample `x` touches, at least one. -/
def places (source target x : Nat) : List Nat :=
  let first := min (low source target x).toUInt64.toNat (source - 1)
  let last := min (max (high source target x).ceil.toUInt64.toNat (first + 1)) source
  List.range' first (last - first)

/-- How much of the area under sample `x` falls on a place: the overlap over the length. -/
def coverage (source target x place : Nat) : Float32 :=
  let low := low source target x
  let high := high source target x
  let overlap := smaller high (place + 1).toFloat - larger low place.toFloat
  (larger overlap 0 / (high - low)).toFloat32

/-- Every place under a sample is weighted by how much of the area falls on it. -/
theorem parts_covering (source target x : Nat) :
    (covering source target x).parts =
      (places source target x).map fun place => (place, coverage source target x place) := by
  have hrange : List.range' (covering source target x).start (places source target x).length =
      places source target x := by
    unfold places
    dsimp only
    rw [List.length_range']
    rfl
  have hweights : (covering source target x).weights =
      (places source target x).map (coverage source target x) := rfl
  unfold parts
  rw [hweights, List.length_map, hrange, List.map_prod_left_eq_zip]

theorem blend_eq_total (s : Span) (value : Nat → Float32) : s.blend value = s.total value := by
  unfold blend total parts
  obtain ⟨start, weights⟩ := s
  dsimp only
  -- on the weights, from any place on and with any sum before them
  suffices hfold : ∀ (n : Nat) (sum : Float32),
      (weights.zipIdx n).foldl (fun sum term => sum + value (start + term.2) * term.1) sum =
        ((List.range' (start + n) weights.length).zip weights).foldl
          (fun sum part => sum + value part.1 * part.2) sum from hfold 0 0
  induction weights with
  | nil => exact fun _ _ => rfl
  | cons weight weights ih =>
    intro n sum
    rw [List.zipIdx_cons, List.foldl_cons, List.length_cons, List.range'_succ, List.zip_cons_cons,
      List.foldl_cons]
    exact ih (n + 1) _

variable {s : Span} {source : Nat}

theorem Inside.lt_of_mem_parts (h : s.Inside source) {part : Nat × Float32}
    (hpart : part ∈ s.parts) : part.1 < source := by
  obtain ⟨hplace, -⟩ := List.of_mem_zip hpart
  have hlt := (List.mem_range'_1.mp hplace).2
  exact Nat.lt_of_lt_of_le hlt h.stop_le

/-- Only values inside the axis count. -/
theorem Inside.total_congr (h : s.Inside source) {value value' : Nat → Float32}
    (hvalue : ∀ place < source, value place = value' place) : s.total value = s.total value' := by
  unfold total
  refine List.foldl_ext _ _ _ fun sum part hpart => ?_
  rw [hvalue part.1 (h.lt_of_mem_parts hpart)]

/-! ## Passes -/

variable {outer inner : Nat} {spans : Array Span} {samples : Array Float32}

/-- The samples that a pass makes of one row. -/
theorem size_passRow (spans : Array Span) (inner : Nat) (value : Span → Nat → Float32) :
    (spans.flatMap fun span => (Array.range inner).map (value span)).size = spans.size * inner := by
  refine size_flatMap_pieces (fun span => ?_) spans
  rw [Array.size_map, Array.size_range]

theorem size_pass (outer source inner : Nat) (spans : Array Span) (samples : Array Float32) :
    (pass outer source inner spans samples).size = outer * (spans.size * inner) := by
  unfold pass
  rw [size_flatMap_pieces fun o => size_passRow spans inner _, Array.size_range]

/-- A sample after a pass is the sum under its span, in its own row and column. -/
theorem getElem?_pass {o x k : Nat} (ho : o < outer) (hx : x < spans.size) (hk : k < inner) :
    (pass outer source inner spans samples)[(o * spans.size + x) * inner + k]? =
      some (spans[x].total fun place => samples.getD ((o * source + place) * inner + k) 0) := by
  have hindex : (o * spans.size + x) * inner + k =
      o * (spans.size * inner) + (x * inner + k) := by
    rw [Nat.add_mul, Nat.mul_assoc, Nat.add_assoc]
  have ho' : o < (Array.range outer).size := by rwa [Array.size_range]
  have hpiece : ∀ value : Span → Nat → Float32, ∀ span ∈ spans,
      ((Array.range inner).map (value span)).size = inner := by
    intro value span _
    rw [Array.size_map, Array.size_range]
  unfold pass
  rw [hindex, getElem?_flatMap (fun o _ => size_passRow spans inner _) ho' (place_lt hk hx),
    Array.getElem_range, getElem?_flatMap (hpiece _) hx hk, Array.getElem?_map,
    Array.getElem?_range, if_pos hk, ← blend_eq_total]
  rfl

end Span

open DualRendition.Span (axis covering covering_inside getElem_axis getElem?_pass size_axis
  size_pass)

variable {samples : Array Float32} {width height channels newWidth newHeight : Nat}

/-! ## Both passes -/

theorem size_resample (hsize : samples.size = width * height * channels) :
    (resample samples width height channels newWidth newHeight).size =
      newWidth * newHeight * channels := by
  unfold resample
  split
  next hsame => rw [hsize, hsame.1, hsame.2]
  next =>
    rw [size_pass, size_axis, Nat.one_mul, ← Nat.mul_assoc, Nat.mul_comm newHeight]

/-- A sample of the resampled picture: the sum over the rows under it, of the sums over the columns
under it. -/
theorem getElem?_resample (hheight : 0 < height) (hnew : ¬(width = newWidth ∧ height = newHeight))
    {x y c : Nat} (hx : x < newWidth) (hy : y < newHeight) (hc : c < channels) :
    (resample samples width height channels newWidth newHeight)[
        (y * newWidth + x) * channels + c]? =
      some ((covering height newHeight y).total fun sy =>
        (covering width newWidth x).total fun sx =>
          samples.getD ((sy * width + sx) * channels + c) 0) := by
  have hx' : x < (axis width newWidth).size := by rwa [size_axis]
  have hy' : y < (axis height newHeight).size := by rwa [size_axis]
  -- a row of pixels is what the second pass takes for one sample
  have hindex : ∀ row, (row * newWidth + x) * channels + c =
      row * (newWidth * channels) + (x * channels + c) := by
    intro row
    rw [Nat.add_mul, Nat.mul_assoc, Nat.add_assoc]
  unfold resample
  rw [if_neg hnew]
  dsimp only
  have hsecond := @getElem?_pass height 1 (newWidth * channels) (axis height newHeight)
    (Span.pass height width channels (axis width newWidth) samples) 0 y (x * channels + c)
    Nat.zero_lt_one hy' (place_lt hc hx)
  rw [Nat.zero_mul, Nat.zero_add, getElem_axis] at hsecond
  rw [hindex, hsecond]
  refine congrArg some ((covering_inside hheight newHeight y).total_congr fun sy hsy => ?_)
  have hfirst :=
    @getElem?_pass width height channels (axis width newWidth) samples sy x c hsy hx' hc
  rw [size_axis, getElem_axis] at hfirst
  rw [Nat.zero_mul, Nat.zero_add, ← hindex, Array.getD_eq_getD_getElem?, hfirst, Option.getD_some]

/-! ## Channels -/

/-- One channel of interleaved pixels. -/
def channel (channels c : Nat) (samples : Array Float32) : Array Float32 :=
  (Array.range (samples.size / channels)).map fun i => samples.getD (i * channels + c) 0

theorem size_channel {pixels : Nat} (hchannels : 0 < channels)
    (hsize : samples.size = pixels * channels) (c : Nat) :
    (channel channels c samples).size = pixels := by
  unfold channel
  rw [Array.size_map, Array.size_range, hsize, Nat.mul_div_cancel _ hchannels]

theorem getElem?_channel {pixels i : Nat} (hchannels : 0 < channels)
    (hsize : samples.size = pixels * channels) (hi : i < pixels) (c : Nat) :
    (channel channels c samples)[i]? = some (samples.getD (i * channels + c) 0) := by
  unfold channel
  rw [Array.getElem?_map, Array.getElem?_range, hsize, Nat.mul_div_cancel _ hchannels, if_pos hi]
  rfl

theorem getD_channel {pixels i : Nat} (hchannels : 0 < channels)
    (hsize : samples.size = pixels * channels) (hi : i < pixels) (c : Nat) :
    (channel channels c samples).getD i 0 = samples.getD (i * channels + c) 0 := by
  rw [Array.getD_eq_getD_getElem?, getElem?_channel hchannels hsize hi, Option.getD_some]

/-- Taking a channel out before resampling is taking it out after. -/
theorem channel_resample (hwidth : 0 < width) (hheight : 0 < height)
    (hsize : samples.size = width * height * channels) {c : Nat} (hc : c < channels) :
    channel channels c (resample samples width height channels newWidth newHeight) =
      resample (channel channels c samples) width height 1 newWidth newHeight := by
  have hchannels : 0 < channels := Nat.zero_lt_of_lt hc
  by_cases hsame : width = newWidth ∧ height = newHeight
  · unfold resample
    rw [if_pos hsame, if_pos hsame]
  · have hsizeChannel := size_channel hchannels hsize c
    have hsizeAfter := @size_resample samples width height channels newWidth newHeight hsize
    have hsizeAlone := @size_resample (channel channels c samples) width height 1 newWidth newHeight
      (by rw [hsizeChannel, Nat.mul_one])
    refine Array.ext_getElem? fun i => ?_
    by_cases hi : i < newWidth * newHeight
    · -- the place is one in a row of the new picture
      have hx : i % newWidth < newWidth :=
        Nat.mod_lt _ (Nat.pos_of_mul_pos_right (Nat.zero_lt_of_lt hi))
      have hy : i / newWidth < newHeight := Nat.div_lt_of_lt_mul hi
      have hplace : i / newWidth * newWidth + i % newWidth = i := Nat.div_add_mod' i newWidth
      have hafter := @getElem?_resample samples _ _ _ _ _ hheight hsame _ _ _ hx hy hc
      have halone := @getElem?_resample (channel channels c samples) _ _ _ _ _ hheight hsame _ _ _
        hx hy Nat.zero_lt_one
      rw [hplace] at hafter halone
      rw [Nat.mul_one, Nat.add_zero] at halone
      rw [getElem?_channel hchannels hsizeAfter hi, Array.getD_eq_getD_getElem?, hafter, halone,
        Option.getD_some]
      refine congrArg some ((covering_inside hheight _ _).total_congr fun sy hsy => ?_)
      refine (covering_inside hwidth _ _).total_congr fun sx hsx => ?_
      rw [Nat.mul_one, Nat.add_zero,
        getD_channel hchannels hsize (Nat.lt_of_lt_of_eq (place_lt hsx hsy) (Nat.mul_comm ..))]
    · rw [Array.getElem?_eq_none, Array.getElem?_eq_none]
      · omega
      · rw [size_channel hchannels hsizeAfter]
        omega

end DualRendition
