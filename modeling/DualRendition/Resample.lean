import DualRendition.Bound

/-!
# Area resampling

A sample of the resampled picture is the average of the source area it covers, each source sample
weighted by its coverage. The filter is separable: rows are resampled first, then columns, both by
the same `Span.pass` over a buffer seen as `outer × source × inner`.
-/

namespace DualRendition

/-- The source samples under one resampled sample: where they start, and their weights. -/
structure Span where
  start : Nat
  weights : List Float32

namespace Span

/-- The span of sample `x` when `source` samples become `target`. Whatever the rounding of its
limits, it starts inside the source, ends inside it and is not empty. -/
def covering (source target x : Nat) : Span :=
  let scale := source.toFloat / target.toFloat
  let low := x.toFloat * scale
  let high := (x + 1).toFloat * scale
  let start := min low.toUInt64.toNat (source - 1)
  let stop := min (max high.ceil.toUInt64.toNat (start + 1)) source
  let weight (s : Nat) : Float32 :=
    let overlap := smaller high (s + 1).toFloat - larger low s.toFloat
    (larger overlap 0 / (high - low)).toFloat32
  { start, weights := (List.range' start (stop - start)).map weight }

/-- The spans of all resampled samples of an axis. -/
def axis (source target : Nat) : Array Span :=
  (Array.range target).map (covering source target)

/-- The weighted sum of the samples under the span, from the first to the last. -/
def blend (s : Span) (value : Nat → Float32) : Float32 :=
  s.weights.zipIdx.foldl (fun sum (weight, i) => sum + value (s.start + i) * weight) 0

/-- Resamples the middle axis of a buffer of `outer × source × inner` samples. -/
def pass (outer source inner : Nat) (spans : Array Span) (samples : Array Float32) :
    Array Float32 :=
  (Array.range outer).flatMap fun o =>
    spans.flatMap fun span =>
      (Array.range inner).map fun k =>
        span.blend fun s => samples.getD ((o * source + s) * inner + k) 0

end Span

/-- Resamples interleaved pixels of `channels` samples from `width × height` to
`newWidth × newHeight`. -/
def resample (samples : Array Float32) (width height channels newWidth newHeight : Nat) :
    Array Float32 :=
  if width = newWidth ∧ height = newHeight then samples
  else
    let rows := Span.pass height width channels (Span.axis width newWidth) samples
    Span.pass 1 height (newWidth * channels) (Span.axis height newHeight) rows

end DualRendition
