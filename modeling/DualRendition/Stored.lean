import DualRendition.Grid

/-!
# Stored images

What a container file would hold: timed frames of pictures in cells, and at most one gain map, whose
metadata travels as a payload. Samples are stored as they are.
-/

namespace DualRendition

/-- A gain map as it is stored. -/
structure GainMapItem where
  image : ImageGrid
  /-- The metadata as bytes. -/
  payload : List UInt8
  alternate : Rendition

/-- A picture and how long it is shown. -/
structure Frame where
  color : ImageGrid
  duration : UInt64

/-- Frames in order of presentation, and the gain map of the first one. -/
structure StoredImage where
  frames : List Frame
  gainMap : Option GainMapItem

namespace StoredImage

def empty : StoredImage := ⟨[], none⟩

/-- Whether there is more than one frame. -/
def isSequence (s : StoredImage) : Bool := 1 < s.frames.length

def firstFrame (s : StoredImage) : Outcome Frame :=
  match s.frames with
  | first :: _ => .ok first
  | [] => .error (.parameter .noFrames)

end StoredImage

end DualRendition
