import DualRendition.Numeral

/-!
# Failures

Every operation that can fail returns an `Outcome`. A `Failure` is the cause, one constructor per
class of failure and, inside a class, one per cause; the wording of all of them is in
`Failure.message`, and `Failure.category` and `Category.kind` give the two coarser views of a
failure that callers branch on.
-/

namespace DualRendition

/-- Why an operation was asked to stop. -/
inductive StopReason where
  | cancelled
  | timedOut
  deriving DecidableEq, Repr

/-- The per-channel fields of gain map metadata. -/
inductive ChannelField where
  | baseOffset
  | alternateOffset
  | gamma
  | min
  | max
  deriving DecidableEq, Repr

/-- What makes a metadata record unusable. -/
inductive MetadataFault where
  | headroomDenominator
  | channelDenominator (field : ChannelField) (channel : Nat)
  | zeroGamma (channel : Nat)
  deriving DecidableEq, Repr

/-- An input that breaks the contract of an operation. A `role` names the part an image plays. -/
inductive ParameterFault where
  | metadata (fault : MetadataFault)
  | zeroDenominator
  | negativeFraction (value : Float)
  | nonFiniteFraction (value : Float)
  | fractionRange (value : Float)
  | gammaNotPositive (channel : Nat) (value : Float)
  | depth (bits : UInt8)
  | sampleCount (expected actual : Nat)
  | sampleRange (sample : UInt16) (bits : UInt8)
  | unspecifiedTransfer (role : String)
  | unspecifiedPrimaries (role : String)
  | renditionsWithoutPixels
  | renditionSizes (baseWidth baseHeight alternateWidth alternateHeight : UInt32)
  | noTargetImage
  | gainMapLayout
  | configuredHeadroom (role : String) (value : Float)
  | displayHeadroom (value : Float)
  | baseWithoutPixels
  | gainMapWithoutPixels
  | grayWithChannels
  | outputSize (outputWidth outputHeight baseWidth baseHeight : UInt32)
  | outputLayout
  | unspecifiedMathPrimaries
  | imageWithoutPixels
  | afterSingle
  | singleNotAlone
  | frameSize (width height sequenceWidth sequenceHeight : UInt32)
  | gainMapWithoutImage
  | nothingAdded
  | noFrames
  | nothingDecoded
  | noGainMap
  deriving DecidableEq

/-- What makes cells unfit for a grid. -/
inductive GridFault where
  | noCells (columns rows : UInt32)
  | tooManyPerSide (columns rows : UInt32)
  | cellCount (cells : Nat) (columns rows : UInt32)
  | cellWithoutPixels
  | cellShapes
  | assembledSize (width height : Nat)
  | cellWithoutImage
  | cellMetadata
  | partialGainMaps
  deriving DecidableEq, Repr

/-- What makes a metadata payload unreadable. -/
inductive PayloadFault where
  | truncated
  | minimumVersion (version : Nat)
  | invalid (fault : MetadataFault)
  deriving DecidableEq, Repr

/-- Why no pixels came out of a decoding step. -/
inductive Absence where
  | everythingDisabled
  | noImagesLeft
  | noGainMapPixels
  deriving DecidableEq, Repr

/-- A size beyond what is processed. -/
inductive Excess where
  | dimension (side : UInt32)
  | pixels (count : Nat)
  | samples
  deriving DecidableEq, Repr

/-- The cause of a failed operation. -/
inductive Failure where
  | stopped (reason : StopReason)
  | parameter (fault : ParameterFault)
  | dimensions (width height : UInt32)
  | grid (fault : GridFault)
  | gainMapSequence
  | noContent (absence : Absence)
  | payload (fault : PayloadFault)
  | limit (excess : Excess)
  | missingImage
  /-- A cell that is not there is asked for: no failure that is returned, but the end of the
  program. -/
  | absentCell
  /-- An entry beyond the end of a table or of a buffer is read, which ends the program as well. -/
  | absentEntry
  deriving DecidableEq

/-- A result or the cause of its absence. -/
abbrev Outcome (α : Type) := Except Failure α

/-- The entry at place `i`, which has to be there. -/
def readAt {α : Type} (entries : Array α) (i : Nat) : Outcome α :=
  match entries[i]? with
  | some entry => .ok entry
  | none => .error .absentEntry

/-- Largest width or height of an image. -/
def maxDimension : UInt32 := 65535

/-- Largest number of pixels of an image. -/
def maxPixels : Nat := 500000000

/-- Largest number of columns or rows of a grid. -/
def maxGridSide : UInt32 := 256

namespace StopReason

def message : StopReason → String
  | cancelled => "operation cancelled"
  | timedOut => "operation timed out"

end StopReason

namespace ChannelField

def name : ChannelField → String
  | baseOffset => "base_offset"
  | alternateOffset => "alternate_offset"
  | gamma => "gain_map_gamma"
  | min => "gain_map_min"
  | max => "gain_map_max"

end ChannelField

/-- A float as it stands in a message. -/
def shown (x : Float) : String := (Numeral.ofFloat x).text

/-- Two lengths as they stand in a message. -/
def bySize (width height : UInt32) : String := s!"{width}x{height}"

namespace MetadataFault

def message : MetadataFault → String
  | headroomDenominator => "hdr headroom has a zero denominator"
  | channelDenominator field channel => s!"{field.name}[{channel}] has a zero denominator"
  | zeroGamma channel => s!"gain_map_gamma[{channel}] must be positive"

end MetadataFault

namespace ParameterFault

def message : ParameterFault → String
  | metadata fault => fault.message
  | zeroDenominator => "fraction has a zero denominator"
  | negativeFraction value => shown value ++ " cannot be stored as an unsigned fraction"
  | nonFiniteFraction value => shown value ++ " has no fractional representation"
  | fractionRange value => shown value ++ " is out of range for a 32-bit fraction"
  | gammaNotPositive channel value =>
    s!"gain_map_gamma[{channel}] must be positive, got " ++ shown value
  | depth bits => s!"bit depth {bits} outside 1..=16"
  | sampleCount expected actual => s!"expected {expected} samples, got {actual}"
  | sampleRange sample bits => s!"sample {sample} exceeds {bits}-bit range"
  | unspecifiedTransfer role => role ++ " image has unspecified transfer characteristics"
  | unspecifiedPrimaries role => role ++ " image has unspecified color primaries"
  | renditionsWithoutPixels => "base and alternate images need pixels"
  | renditionSizes w h aw ah => "base is " ++ bySize w h ++ " but alternate is " ++ bySize aw ah
  | noTargetImage => "gain map has no image to write"
  | gainMapLayout => "gain map image must be Gray or Rgb"
  | configuredHeadroom role value =>
    role ++ " headroom must be finite and non-negative, got " ++ shown value
  | displayHeadroom value => "headroom must be finite and non-negative, got " ++ shown value
  | baseWithoutPixels => "base image has no pixels"
  | gainMapWithoutPixels => "gain map has no pixels"
  | grayWithChannels => "single-channel gain map with per-channel metadata"
  | outputSize w h bw bh => "output is " ++ bySize w h ++ " but base is " ++ bySize bw bh
  | outputLayout => "output layout must be Rgb or Rgba"
  | unspecifiedMathPrimaries => "gain map math primaries are unspecified"
  | imageWithoutPixels => "image has no pixels"
  | afterSingle => "cannot add an image after a single image"
  | singleNotAlone => "a single image must be the only image"
  | frameSize w h sw sh => "frame is " ++ bySize w h ++ " but the sequence is " ++ bySize sw sh
  | gainMapWithoutImage => "gain map has no image"
  | nothingAdded => "no images were added"
  | noFrames => "encoded image has no frames"
  | nothingDecoded => "no image decoded"
  | noGainMap => "image has no gain map"

end ParameterFault

namespace GridFault

def message : GridFault → String
  | noCells columns rows => bySize columns rows ++ " grid has no cells"
  | tooManyPerSide columns rows =>
    bySize columns rows ++ s!" grid exceeds {maxGridSide} cells per side"
  | cellCount cells columns rows =>
    s!"{cells} cells do not fill a " ++ bySize columns rows ++ " grid"
  | cellWithoutPixels => "grid cell without pixels"
  | cellShapes => "grid cells differ in size, depth or layout"
  | assembledSize width height => s!"assembled size {width}x{height} exceeds limits"
  | cellWithoutImage => "gain map grid cell without an image"
  | cellMetadata => "gain map grid cells differ in metadata"
  | partialGainMaps => "only some grid cells have a gain map"

end GridFault

namespace PayloadFault

def message : PayloadFault → String
  | truncated => "unexpected end of ISO data"
  | minimumVersion version => s!"unsupported ISO 21496-1 minimum version: {version}"
  | invalid fault => "invalid parameter: " ++ fault.message

end PayloadFault

namespace Absence

def message : Absence → String
  | everythingDisabled => "color, alpha and gain map decoding are all disabled"
  | noImagesLeft => "no images remaining"
  | noGainMapPixels => "no gain map pixels to decode"

end Absence

namespace Excess

def message : Excess → String
  | dimension side => s!"dimension {side} exceeds maximum {maxDimension}"
  | pixels count => s!"total pixels {count} exceeds maximum {maxPixels}"
  | samples => "sample count overflow"

end Excess

/-- The class a failure belongs to. -/
inductive Category where
  | stopped
  | invalidParameter
  | invalidDimensions
  | invalidImageGrid
  | notImplemented
  | noContent
  | invalidMetadata
  | limitExceeded
  | unknown
  deriving DecidableEq, Repr

/-- The coarse code a caller sees. -/
inductive Kind where
  | invalidParameter
  | invalidImageGrid
  | notImplemented
  | noContent
  | stopped
  | unknown
  deriving DecidableEq, Repr

/-- Every fault of an input that is not about grids counts as an invalid parameter. -/
def Category.kind : Category → Kind
  | invalidParameter | invalidDimensions | invalidMetadata | limitExceeded => .invalidParameter
  | invalidImageGrid => .invalidImageGrid
  | notImplemented => .notImplemented
  | noContent => .noContent
  | stopped => .stopped
  | unknown => .unknown

namespace Failure

def category : Failure → Category
  | stopped _ => .stopped
  | parameter _ => .invalidParameter
  | dimensions _ _ => .invalidDimensions
  | grid _ => .invalidImageGrid
  | gainMapSequence => .notImplemented
  | noContent _ => .noContent
  | payload _ => .invalidMetadata
  | limit _ => .limitExceeded
  | missingImage => .unknown
  | absentCell => .unknown
  | absentEntry => .unknown

/-- Whether the program ends there, so that no caller gets to see the failure. -/
def endsProgram : Failure → Bool
  | absentCell | absentEntry => true
  | stopped _ | parameter _ | dimensions _ _ | grid _ | gainMapSequence | noContent _ | payload _
  | limit _ | missingImage => false

/-- The full text: the class, then the cause. -/
def message : Failure → String
  | stopped reason => "operation stopped: " ++ reason.message
  | parameter fault => "invalid parameter: " ++ fault.message
  | dimensions width height => "invalid image dimensions: " ++ bySize width height
  | grid fault => "invalid image grid: " ++ fault.message
  | gainMapSequence => "not implemented: image sequences with gain maps"
  | noContent absence => "no content: " ++ absence.message
  | payload fault => "invalid metadata: " ++ fault.message
  | limit excess => "input exceeds safety limit: " ++ excess.message
  | missingImage => "unknown error: decoder produced no image"
  | absentCell => "index out of bounds: the len is 0 but the index is 0"
  | absentEntry => "index out of bounds"

end Failure

end DualRendition
