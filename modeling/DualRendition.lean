import DualRendition.Decoder
import DualRendition.Encoder
import DualRendition.GainMap.Measure
import DualRendition.Proofs.Payload.RoundTrip
import DualRendition.Proofs.Encoder.Invariant
import DualRendition.Proofs.Session.RoundTrip
import DualRendition.Proofs.GainMap.Closure
import DualRendition.Proofs.Payload.Grammar
import DualRendition.Proofs.Decoder.Cursor
import DualRendition.Proofs.Decoder.Options
import DualRendition.Proofs.GainMap.Pointwise
import DualRendition.Proofs.GainMap.Inputs
import DualRendition.Proofs.GainMap.Atomic
import DualRendition.Proofs.Encoder.Replay
import DualRendition.Proofs.Session.Nesting
import DualRendition.Proofs.Decoder.Validation
import DualRendition.Proofs.Decoder.Hidden
import DualRendition.Proofs.GainMap.SampleRange
import DualRendition.Proofs.GainMap.Validity
import DualRendition.Proofs.Session.SampleRange
import DualRendition.Proofs.Grid.Placement
import DualRendition.Proofs.Grid.Acceptance
import DualRendition.Proofs.Payload.NormalForm
import DualRendition.Proofs.Grid.Agreement
import DualRendition.Proofs.GainMap.GrayMap
import DualRendition.Proofs.GainMap.Colors
import DualRendition.Proofs.GainMap.Direction
import DualRendition.Proofs.GainMap.Offsets
import DualRendition.Proofs.Encoder.Exchange
import DualRendition.Proofs.Fraction
import DualRendition.Proofs.Resample.InPlace
import DualRendition.Proofs.Raster.Allocation
