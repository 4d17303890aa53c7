import DualRendition.Proofs.Resample.Passes

/-!
# Resampling in place

Both passes of `resample` can run over a buffer of zeros, to which the source is added sample by
sample: `resampleInPlace`. Here every piece of the source is cut out of it by its limits, and where
the source does not reach so far there is no result. `resampleInPlace_eq` proves that there always
is one, and that it is what `resample` gives: with every span inside its axis
(`Span.Inside.addTo_zeros`), nothing is read that is not there.

Structure: blocks of samples are written as maps of a range (`cut_eq`, `addBlock_map`), so that a
span is added to a block in all its places at once; `overChunks_zeros` puts the blocks together.
-/

namespace DualRendition

/-! ## Pieces of a buffer -/

/-- `length` samples from `start` on, if the buffer reaches so far. -/
def cut (samples : Array Float32) (start length : Nat) : Option (Array Float32) :=
  if start + length ≤ samples.size then some (samples.extract start (start + length)) else none

/-- The whole chunks of a buffer, from the first on. There are no chunks of length 0. -/
def chunks (length : Nat) (samples : Array Float32) : Option (List (Array Float32)) :=
  if length = 0 then none
  else some ((List.range (samples.size / length)).map fun i =>
    samples.extract (i * length) (i * length + length))

/-- Changes one chunk of the buffer for each item, until there are no more items or no more chunks.
What is left of the buffer stays. -/
def overChunks {α : Type} (length : Nat) (edit : α → Array Float32 → Option (Array Float32)) :
    List α → Array Float32 → Option (Array Float32)
  | [], buffer => if length = 0 then none else some buffer
  | item :: items, buffer =>
    if length = 0 then none
    else if length ≤ buffer.size then do
      let chunk ← edit item (buffer.extract 0 length)
      let rest ← overChunks length edit items (buffer.extract length)
      return chunk ++ rest
    else some buffer

/-- Adds one block of a row of blocks to a block of sums, place by place and by weight. -/
def addBlock (row : Array Float32) (length : Nat) (sums : Array Float32) (place : Nat)
    (weight : Float32) : Option (Array Float32) := do
  let block ← cut row (place * length) length
  return sums.zipWith (fun sum sample => sum + sample * weight) block

/-- Adds all blocks under the span, from the first to the last. -/
def Span.addTo (s : Span) (row : Array Float32) (length : Nat) (sums : Array Float32) :
    Option (Array Float32) :=
  s.weights.zipIdx.foldlM
    (fun sums (weight, i) => addBlock row length sums (s.start + i) weight) sums

/-- Resamples by adding up in buffers of zeros. -/
def resampleInPlace (samples : Array Float32) (width height channels newWidth newHeight : Nat) :
    Option (Array Float32) :=
  if width = newWidth ∧ height = newHeight then some samples
  else do
    let sourceRows ← chunks (width * channels) samples
    let columns := (Span.axis width newWidth).toList
    let rows ← overChunks (newWidth * channels)
      (fun row => overChunks channels (fun span => span.addTo row channels) columns)
      sourceRows (.replicate (newWidth * height * channels) 0)
    overChunks (newWidth * channels) (fun span => span.addTo rows (newWidth * channels))
      (Span.axis height newHeight).toList (.replicate (newWidth * newHeight * channels) 0)

/-! ## One block -/

section Blocks

variable {samples : Array Float32} {length : Nat}

theorem getD_map_range {value : Nat → Float32} {k : Nat} (hk : k < length) :
    ((Array.range length).map value).getD k 0 = value k := by
  rw [Array.getD_eq_getD_getElem?, Array.getElem?_map, Array.getElem?_range, if_pos hk]
  rfl

/-- A piece of a buffer, place by place. -/
theorem extract_eq_map {start : Nat} (h : start + length ≤ samples.size) :
    samples.extract start (start + length) =
      (Array.range length).map fun k => samples.getD (start + k) 0 := by
  have hsize : (samples.extract start (start + length)).size = length := by
    rw [Array.size_extract, Nat.min_eq_left h, Nat.add_sub_cancel_left]
  refine Array.ext (by rw [hsize, Array.size_map, Array.size_range]) fun k hk _ => ?_
  have hplace : start + k < samples.size := by omega
  rw [Array.getElem_extract, Array.getElem_map, Array.getElem_range,
    Array.getD_eq_getD_getElem?, Array.getElem?_eq_getElem hplace, Option.getD_some]

theorem cut_eq {start : Nat} (h : start + length ≤ samples.size) :
    cut samples start length =
      some ((Array.range length).map fun k => samples.getD (start + k) 0) := by
  unfold cut
  rw [if_pos h, extract_eq_map h]

/-- A buffer of whole chunks is cut up by its limits. -/
theorem chunks_eq {count : Nat} (hlength : 0 < length) (hsize : samples.size = count * length) :
    chunks length samples =
      some ((List.range count).map fun i =>
        samples.extract (i * length) (i * length + length)) := by
  unfold chunks
  rw [if_neg (Nat.ne_of_gt hlength), hsize, Nat.mul_div_cancel _ hlength]

/-- Adding a block that the row has. -/
theorem addBlock_map {source place : Nat} (hrow : source * length ≤ samples.size)
    (hplace : place < source) (sums : Nat → Float32) (weight : Float32) :
    addBlock samples length ((Array.range length).map sums) place weight =
      some ((Array.range length).map fun k =>
        sums k + samples.getD (place * length + k) 0 * weight) := by
  unfold addBlock
  rw [cut_eq (Nat.le_trans (piece_le hplace length) hrow), Option.bind_eq_bind, Option.bind_some,
    Array.zipWith_map, Array.zipWith_self]
  rfl

/-- Adding blocks that the row has, one after the other, adds up in every place. -/
theorem foldlM_addBlock {source : Nat} (hrow : source * length ≤ samples.size) (start : Nat) :
    ∀ {weights : List Float32} {n : Nat} (sums : Nat → Float32),
      start + n + weights.length ≤ source →
      (weights.zipIdx n).foldlM
          (fun sums (weight, i) => addBlock samples length sums (start + i) weight)
          ((Array.range length).map sums) =
        some ((Array.range length).map fun k =>
          (weights.zipIdx n).foldl (fun sum (weight, i) =>
            sum + samples.getD ((start + i) * length + k) 0 * weight) (sums k)) := by
  intro weights
  induction weights with
  | nil => exact fun _ _ => rfl
  | cons weight weights ih =>
    intro n sums hle
    rw [List.length_cons] at hle
    have hplace : start + n < source := by omega
    rw [List.zipIdx_cons, List.foldlM_cons]
    dsimp only
    rw [addBlock_map hrow hplace, Option.bind_eq_bind, Option.bind_some]
    exact ih _ (by omega)

/-- A block of zeros that a span inside its axis was added to holds the sums under the span. -/
theorem Span.Inside.addTo_zeros {s : Span} {source : Nat} (h : s.Inside source)
    (hrow : source * length ≤ samples.size) :
    s.addTo samples length (.replicate length 0) =
      some ((Array.range length).map fun k =>
        s.total fun place => samples.getD (place * length + k) 0) := by
  have hzeros : Array.replicate length (0 : Float32) = (Array.range length).map fun _ => 0 := by
    rw [Array.map_const', Array.size_range]
  simp only [← blend_eq_total, hzeros]
  exact foldlM_addBlock hrow s.start _ h.stop_le

end Blocks

/-! ## All chunks -/

/-- A buffer of zeros, one chunk of them for each item, becomes what is made of a chunk of zeros for
each item. -/
theorem overChunks_zeros {α : Type} {length : Nat} (hlength : 0 < length)
    {edit : α → Array Float32 → Option (Array Float32)} {piece : α → Array Float32} :
    ∀ {items : List α}, (∀ item ∈ items, edit item (.replicate length 0) = some (piece item)) →
      overChunks length edit items (.replicate (items.length * length) 0) =
        some (items.toArray.flatMap piece) := by
  intro items
  induction items with
  | nil =>
    intro _
    simp [overChunks, Nat.ne_of_gt hlength]
  | cons item items ih =>
    intro hedit
    have hcount : (item :: items).length * length = length + items.length * length := by
      rw [List.length_cons, Nat.succ_mul, Nat.add_comm]
    let zeros : Array Float32 := .replicate (length + items.length * length) 0
    have hchunk : zeros.extract 0 length = .replicate length 0 := by
      rw [Array.extract_replicate]
      congr 1
      omega
    have hrest : zeros.extract length = .replicate (items.length * length) 0 := by
      rw [Array.extract_replicate, Array.size_replicate]
      congr 1
      omega
    have hcons : (item :: items).toArray = #[item] ++ items.toArray := by
      rw [List.append_toArray, List.singleton_append]
    unfold overChunks
    rw [hcount, if_neg (Nat.ne_of_gt hlength),
      if_pos (by rw [Array.size_replicate]; exact Nat.le_add_right ..), hchunk, hrest,
      hedit item (.head _), ih fun item hitem => hedit item (.tail _ hitem), hcons,
      Array.flatMap_append, Array.flatMap_singleton]
    rfl

/-! ## Both passes -/

section Passes

variable {samples : Array Float32} {spans : Array Span} {source inner : Nat}

/-- A pass over a single row. -/
theorem pass_one (source inner : Nat) (spans : Array Span) (row : Array Float32) :
    Span.pass 1 source inner spans row =
      spans.flatMap fun span => (Array.range inner).map fun k =>
        span.total fun place => row.getD (place * inner + k) 0 := by
  have hone : Array.range 1 = #[0] := rfl
  unfold Span.pass
  rw [hone, Array.flatMap_singleton]
  simp only [Nat.zero_mul, Nat.zero_add, Span.blend_eq_total]

/-- A pass goes row by row. -/
theorem pass_eq_rows (hinside : ∀ span ∈ spans, span.Inside source) {outer : Nat}
    (hsize : samples.size = outer * (source * inner)) :
    Span.pass outer source inner spans samples =
      (Array.range outer).flatMap fun o => Span.pass 1 source inner spans
        (samples.extract (o * (source * inner)) (o * (source * inner) + source * inner)) := by
  unfold Span.pass
  refine flatMap_range_congr fun o ho => ?_
  have hend := piece_le ho (source * inner)
  rw [← hsize] at hend
  rw [← Span.pass, pass_one, extract_eq_map hend, Array.flatMap_def, Array.flatMap_def]
  refine congrArg _ (Array.map_congr_left fun span hspan => Array.map_congr_left fun k hk => ?_)
  rw [Span.blend_eq_total]
  refine (hinside span hspan).total_congr fun place hplace => ?_
  -- the place in the row is one in the buffer
  have hlt : place * inner + k < source * inner := place_lt (Array.mem_range.mp hk) hplace
  rw [Nat.add_mul, Nat.mul_assoc, Nat.add_assoc, getD_map_range hlt]

/-- One row of blocks of zeros that all spans were added to. -/
theorem overChunks_addTo (hinner : 0 < inner) (hinside : ∀ span ∈ spans, span.Inside source)
    (hrow : source * inner ≤ samples.size) :
    overChunks inner (fun span => span.addTo samples inner) spans.toList
        (.replicate (spans.size * inner) 0) =
      some (Span.pass 1 source inner spans samples) := by
  rw [← Array.length_toList, overChunks_zeros hinner, Array.toArray_toList, pass_one]
  intro span hspan
  exact (hinside span (Array.mem_toList_iff.mp hspan)).addTo_zeros hrow

/-- All rows of blocks of zeros, each with a row of the source added. -/
theorem overChunks_rows (hinner : 0 < inner) (hspans : 0 < spans.size)
    (hinside : ∀ span ∈ spans, span.Inside source) {outer : Nat}
    (hsize : samples.size = outer * (source * inner)) :
    overChunks (spans.size * inner)
        (fun row => overChunks inner (fun span => span.addTo row inner) spans.toList)
        ((List.range outer).map fun o =>
          samples.extract (o * (source * inner)) (o * (source * inner) + source * inner))
        (.replicate (outer * (spans.size * inner)) 0) =
      some (Span.pass outer source inner spans samples) := by
  have hzeros := @overChunks_zeros _ _ (Nat.mul_pos hspans hinner)
    (fun row => overChunks inner (fun span => span.addTo row inner) spans.toList)
    (Span.pass 1 source inner spans)
    ((List.range outer).map fun o =>
      samples.extract (o * (source * inner)) (o * (source * inner) + source * inner))
  rw [List.length_map, List.length_range] at hzeros
  rw [hzeros, pass_eq_rows hinside hsize, ← List.map_toArray, Array.flatMap_map,
    List.toArray_range]
  intro row hrow
  obtain ⟨o, ho, rfl⟩ := List.mem_map.mp hrow
  have hend := piece_le (List.mem_range.mp ho) (source * inner)
  rw [← hsize] at hend
  refine overChunks_addTo hinner hinside (Nat.le_of_eq ?_)
  rw [extract_eq_map hend, Array.size_map, Array.size_range]

end Passes

variable {samples : Array Float32} {width height channels newWidth newHeight : Nat}

/-- Nothing is read that is not there, and the sums are those of `resample`. -/
theorem resampleInPlace_eq (hwidth : 0 < width) (hheight : 0 < height) (hchannels : 0 < channels)
    (hnewWidth : 0 < newWidth) (hsize : samples.size = width * height * channels) :
    resampleInPlace samples width height channels newWidth newHeight =
      some (resample samples width height channels newWidth newHeight) := by
  have hcolumns : (Span.axis width newWidth).size = newWidth := Span.size_axis width newWidth
  have hlines : (Span.axis height newHeight).size = newHeight := Span.size_axis height newHeight
  have hrows : samples.size = height * (width * channels) := by
    rw [hsize, Nat.mul_comm width, Nat.mul_assoc]
  have hfirst := overChunks_rows hchannels (hcolumns.symm ▸ hnewWidth)
    (Span.inside_of_mem_axis hwidth) hrows
  rw [hcolumns, ← Nat.mul_assoc, Nat.mul_comm height] at hfirst
  let rows := Span.pass height width channels (Span.axis width newWidth) samples
  have hsizeRows : rows.size = height * (newWidth * channels) := by
    rw [Span.size_pass, hcolumns]
  have hinsideLines : ∀ span ∈ Span.axis height newHeight, span.Inside height :=
    Span.inside_of_mem_axis hheight
  have hsecond := overChunks_addTo (Nat.mul_pos hnewWidth hchannels)
    hinsideLines (Nat.le_of_eq hsizeRows.symm)
  rw [hlines, ← Nat.mul_assoc, Nat.mul_comm newHeight] at hsecond
  unfold resampleInPlace resample
  split
  next => rfl
  next =>
    rw [chunks_eq (Nat.mul_pos hwidth hchannels) hrows, Option.bind_eq_bind, Option.bind_some]
    dsimp only
    rw [hfirst, Option.bind_eq_bind, Option.bind_some]
    exact hsecond

open DualRendition.Span (coverage covering places) in
/-- What a resampled picture is, for all sizes and whatever the limits of its spans are rounded
from. Every span is inside its axis and weights each place by its coverage; adding up in place reads
nothing that is not there; every sample is a sum of sums, over the rows under it and the columns
under it; and no channel has to do with another. -/
theorem resample_exact (hwidth : 0 < width) (hheight : 0 < height) (hchannels : 0 < channels)
    (hnewWidth : 0 < newWidth) (hsize : samples.size = width * height * channels) :
    (∀ x < newWidth, (covering width newWidth x).Inside width ∧
      (covering width newWidth x).parts =
        (places width newWidth x).map fun sx => (sx, coverage width newWidth x sx)) ∧
    (∀ y < newHeight, (covering height newHeight y).Inside height ∧
      (covering height newHeight y).parts =
        (places height newHeight y).map fun sy => (sy, coverage height newHeight y sy)) ∧
    resampleInPlace samples width height channels newWidth newHeight =
      some (resample samples width height channels newWidth newHeight) ∧
    (resample samples width height channels newWidth newHeight).size =
      newWidth * newHeight * channels ∧
    (width = newWidth ∧ height = newHeight →
      resample samples width height channels newWidth newHeight = samples) ∧
    (¬(width = newWidth ∧ height = newHeight) →
      ∀ x < newWidth, ∀ y < newHeight, ∀ c < channels,
        (resample samples width height channels newWidth newHeight)[
            (y * newWidth + x) * channels + c]? =
          some ((covering height newHeight y).total fun sy =>
            (covering width newWidth x).total fun sx =>
              samples.getD ((sy * width + sx) * channels + c) 0)) ∧
    (∀ c < channels,
      channel channels c (resample samples width height channels newWidth newHeight) =
        resample (channel channels c samples) width height 1 newWidth newHeight) := by
  refine ⟨fun x _ => ⟨Span.covering_inside hwidth newWidth x, Span.parts_covering width newWidth x⟩,
    fun y _ => ⟨Span.covering_inside hheight newHeight y, Span.parts_covering height newHeight y⟩,
    resampleInPlace_eq hwidth hheight hchannels hnewWidth hsize, size_resample hsize, ?_, ?_,
    fun c hc => channel_resample hwidth hheight hsize hc⟩
  · intro hsame
    unfold resample
    rw [if_pos hsame]
  · intro hnew x hx y hy c hc
    exact getElem?_resample hheight hnew hx hy hc

/-- Three pixels of two channels become two pixels: the first channel alone is resampled like three
gray pixels. -/
theorem resample_three_pixels :
    (#[0, 1, 3, 1, 6, 1] : Array Float32).size = 3 * 1 * 2 ∧
    resampleInPlace #[0, 1, 3, 1, 6, 1] 3 1 2 2 1 = some (resample #[0, 1, 3, 1, 6, 1] 3 1 2 2 1) ∧
    (resample #[0, 1, 3, 1, 6, 1] 3 1 2 2 1).size = 2 * 1 * 2 ∧
    channel 2 0 (resample #[0, 1, 3, 1, 6, 1] 3 1 2 2 1) = resample #[0, 3, 6] 3 1 1 2 1 := by
  have hgray : channel 2 0 #[0, 1, 3, 1, 6, 1] = #[0, 3, 6] := by cbv
  obtain ⟨-, -, hinPlace, hcount, -, -, hchannel⟩ :=
    @resample_exact #[0, 1, 3, 1, 6, 1] 3 1 2 2 1 (by decide) (by decide) (by decide) (by decide)
      rfl
  rw [← hgray]
  exact ⟨rfl, hinPlace, hcount, hchannel 0 (by decide)⟩

end DualRendition
