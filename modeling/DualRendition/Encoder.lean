import DualRendition.Edit
import DualRendition.Payload
import DualRendition.Stored

/-!
# Encoding sessions

An `Encoder` collects frames and at most one gain map. A gain map is only accepted with a frame
that stays the only one, and nothing follows an image that was added as single.

Images come alone or in cells, with the gain maps they own or with one in cells of its own. All of
them become a `Submission`, which `Encoder.check` judges and `Encoder.append` stores: every check
comes before the first change, so a refused submission leaves the session as it was.
`Encoder.finish` writes the metadata and hands out what was collected.
-/

namespace DualRendition

/-- What a caller asks for when adding an image. -/
structure AddFlags where
  /-- The image stays the only one. -/
  single : Bool
  deriving DecidableEq, Repr

namespace AddFlags

def none : AddFlags := ⟨false⟩

def singleImage : AddFlags := ⟨true⟩

/-- Whether every flag of `b` is set in `a`. -/
def contains (a b : AddFlags) : Bool := !b.single || a.single

/-- The flags that are set in `a` or in `b`. -/
def union (a b : AddFlags) : AddFlags := ⟨a.single || b.single⟩

end AddFlags

/-- A frame that is offered to a session. -/
structure Submission where
  color : ImageGrid
  gainMap : Option GainMapGrid
  duration : UInt64
  flags : AddFlags

namespace Submission

/-- An image with the gain map it owns. -/
def ofImage (image : Image) (duration : UInt64) (flags : AddFlags) : Outcome Submission :=
  if image.hasPixels then
    .ok ⟨.single image.withoutGainMap, image.gainMap.map .single, duration, flags⟩
  else .error (.parameter .imageWithoutPixels)

/-- The gain maps that the cells own, as a grid of the same shape: every cell owns one, or none
does. -/
def ownedGainMaps (g : ImageGrid) : Outcome (Option GainMapGrid) :=
  let owned := g.cells.filterMap (·.gainMap)
  if owned.isEmpty then .ok none
  else if owned.length = g.cells.length then .ok (some ⟨g.columns, g.rows, owned⟩)
  else .error (.grid .partialGainMaps)

/-- A still image in cells, with the gain maps that the cells own. -/
def ofGrid (g : ImageGrid) (flags : AddFlags) : Outcome Submission := do
  let gainMap ← ownedGainMaps g
  return ⟨g.map Image.withoutGainMap, gainMap, 0, flags⟩

/-- A still image in cells, with a gain map in cells of its own. -/
def ofGrids (g : ImageGrid) (gainMap : GainMapGrid) (flags : AddFlags) : Submission :=
  ⟨g.map Image.withoutGainMap, some gainMap, 0, flags⟩

/-- Fails unless the gain map is a valid grid of gray or RGB images. -/
def checkGainMap (g : GainMapGrid) : Outcome Unit := do
  if g.cells.any fun cell => cell.image.isNone then throw (.parameter .gainMapWithoutImage)
  let layout ← g.layout
  if layout.cellLayout = .rgba then throw (.parameter .gainMapLayout)

end Submission

/-- The state of an encoding session. -/
structure Encoder where
  frames : List Frame
  gainMap : Option GainMapGrid
  /-- The last image was added as single. -/
  closed : Bool

namespace Encoder

/-- A session before the first frame. -/
def start : Encoder := ⟨[], none, false⟩

/-- Fails unless the session takes a further frame of this kind. -/
def checkTurn (e : Encoder) (s : Submission) : Outcome Unit := do
  if e.closed then throw (.parameter .afterSingle)
  if !e.frames.isEmpty then
    if e.gainMap.isSome || s.gainMap.isSome then throw .gainMapSequence
    if s.flags.contains .singleImage then throw (.parameter .singleNotAlone)

/-- Fails unless the picture is valid and as large as the frames before it. -/
def checkColor (e : Encoder) (color : ImageGrid) : Outcome Unit := do
  let layout ← color.layout
  match e.frames with
  | [] => return ()
  | first :: _ =>
    let whole ← first.color.layout
    if whole.width ≠ layout.width ∨ whole.height ≠ layout.height then
      throw (.parameter (.frameSize layout.width layout.height whole.width whole.height))

/-- Fails unless the session accepts the submission. -/
def check (e : Encoder) (s : Submission) : Outcome Unit := do
  e.checkTurn s
  e.checkColor s.color
  match s.gainMap with
  | none => return ()
  | some g => Submission.checkGainMap g

/-- The session with an accepted submission. -/
def append (e : Encoder) (s : Submission) : Encoder where
  frames := e.frames ++ [⟨s.color, s.duration⟩]
  gainMap := s.gainMap <|> e.gainMap
  closed := s.flags.contains .singleImage

/-- Adds a submission. -/
def add (s : Submission) : Edit Encoder Unit := do
  .ofOutcome ((← get).check s)
  modify (·.append s)

/-- A gain map as it is stored: the images of its cells, the shared metadata as bytes, and the
alternate rendition as the first cell describes it. -/
def gainMapItem (g : GainMapGrid) : Outcome GainMapItem := do
  let layout ← g.layout
  let payload ← Payload.write (layout.metadata.getD .unset)
  let first ← g.firstCell
  return { image := ⟨g.columns, g.rows, g.cells.filterMap (·.image)⟩, payload,
           alternate := first.alternate }

/-- The collected frames and the stored form of the gain map. -/
def finish (e : Encoder) : Outcome StoredImage := do
  if e.frames.isEmpty then throw (.parameter .nothingAdded)
  let gainMap ← e.gainMap.mapM gainMapItem
  return ⟨e.frames, gainMap⟩

/-- What can be asked of a session. -/
inductive Request where
  | image (image : Image) (duration : UInt64) (flags : AddFlags)
  | grid (grid : ImageGrid) (flags : AddFlags)
  | grids (grid : ImageGrid) (gainMap : GainMapGrid) (flags : AddFlags)

/-- The frame that a request offers. -/
def Request.submission : Request → Outcome Submission
  | image i duration flags => Submission.ofImage i duration flags
  | grid g flags => Submission.ofGrid g flags
  | grids g gainMap flags => .ok (Submission.ofGrids g gainMap flags)

/-- Carries out one request. -/
def perform (r : Request) : Edit Encoder Unit := do
  let s ← .ofOutcome r.submission
  add s

/-- The answers to a list of requests, refusals included, and the session after them. -/
def run (e : Encoder) : List Request → List (Outcome Unit) × Encoder
  | [] => ([], e)
  | r :: rest =>
    let (answer, e) := (perform r).apply e
    let (answers, e) := run e rest
    (answer :: answers, e)

/-- A still image and the gain map it owns, encoded in a session of its own. -/
def encode (image : Image) : Outcome StoredImage := do
  let (answer, e) := (perform (.image image 1 .singleImage)).apply start
  answer
  e.finish

end Encoder

end DualRendition
