import DualRendition.GainMap.Render
import DualRendition.Payload
import DualRendition.Stored

/-!
# Decoding sessions

A `Decoder` walks over the frames of a stored image. `Decoder.parse` reads headers and metadata,
`Decoder.next` produces the pixels of one frame after the other, parsing first when that has not
been done, and `Decoder.take` hands the current image over. The options switch off parts of the
work; a step from which no pixels would come is refused and does not move the cursor.
-/

namespace DualRendition

/-- What a decoder produces. -/
structure DecoderOptions where
  decodeGainMap : Bool
  parseMetadata : Bool
  ignoreColor : Bool
  deriving DecidableEq, Repr

/-- The state of a decoding session. -/
structure Decoder where
  source : StoredImage
  options : DecoderOptions
  /-- The image of the last step, until it is taken. -/
  image : Option Image
  parsed : Bool
  gainMapPresent : Bool
  /-- The frame that comes next. -/
  cursor : Nat

namespace Decoder

/-- A session before its first step. -/
def start (source : StoredImage) (options : DecoderOptions) : Decoder :=
  ⟨source, options, none, false, false, 0⟩

/-- A gain map without its samples. The cells are validated even when nothing is read. -/
def gainMapHeader (options : DecoderOptions) (item : GainMapItem) : Outcome GainMap := do
  let _ ← item.image.layout
  if options.parseMetadata then
    let metadata ← Payload.read item.payload
    return { image := none, metadata, alternate := item.alternate }
  else
    return .unknown

/-- Reads the header of the first frame and the metadata of the gain map. -/
def parse : Edit Decoder Unit := do
  let d ← get
  let frame ← .ofOutcome d.source.firstFrame
  let header ← .ofOutcome frame.color.header
  modify ({ · with gainMapPresent := d.source.gainMap.isSome })
  let gainMap ← .ofOutcome (d.source.gainMap.mapM (gainMapHeader d.options))
  modify ({ · with image := some { header with gainMap }, parsed := true, cursor := 0 })

/-- The gain map that belongs to a frame, with its samples when `decode` is set. -/
def gainMapOf (options : DecoderOptions) (decode : Bool) (item : GainMapItem) :
    Outcome GainMap := do
  let header ← gainMapHeader options item
  if decode then
    let image ← item.image.assemble
    return { header with image := some image }
  else
    return header

/-- The image at the cursor. The samples of the gain map belong to the first frame only. -/
def current (d : Decoder) : Outcome Image := do
  let some frame := d.source.frames[d.cursor]? | throw (.noContent .noImagesLeft)
  let decode := d.options.decodeGainMap && d.source.gainMap.isSome && d.cursor == 0
  if d.options.ignoreColor && !decode then throw (.noContent .noGainMapPixels)
  let image ← if d.options.ignoreColor then frame.color.header else frame.color.assemble
  match d.source.gainMap with
  | none => return image
  | some item =>
    let gainMap ← gainMapOf d.options decode item
    return { image with gainMap := some gainMap }

/-- Produces the pixels of the next frame. -/
def next : Edit Decoder Unit := do
  let options := (← get).options
  if options.ignoreColor && !options.decodeGainMap then
    throw (.noContent .everythingDisabled)
  if !(← get).parsed then parse
  let d ← get
  let image ← .ofOutcome d.current
  set { d with cursor := d.cursor + 1, image := some image }

/-- Hands the current image over. -/
def take (d : Decoder) : Option Image × Decoder := (d.image, { d with image := none })

/-- Number of frames of the source. -/
def imageCount (d : Decoder) : Nat := d.source.frames.length

/-- Renders the current image into `output` with its own gain map. -/
def toneMap (d : Decoder) (headroom : Float) (stop : Stop) : Edit Image LightLevel := do
  let some image := d.image | throw (.parameter .nothingDecoded)
  let some gainMap := image.gainMap | throw (.parameter .noGainMap)
  gainMap.render image headroom stop

/-- The first frame of a source, decoded in a session of its own. -/
def read (source : StoredImage) (options : DecoderOptions) : Outcome Image :=
  let session : Edit Decoder (Option Image) := do
    parse
    next
    return (← get).image
  match session.apply (start source options) with
  | (.ok (some image), _) => .ok image
  | (.ok none, _) => .error .missingImage
  | (.error failure, _) => .error failure

/-- What can be asked of a session. -/
inductive Request where
  | parse
  | next
  | take
  | toneMap (headroom : Float) (output : Image) (stop : Stop)

/-- What a session answers to a request. -/
inductive Answer where
  | done (result : Outcome Unit)
  | taken (image : Option Image)
  /-- The result of rendering, and the output afterwards. -/
  | toned (result : Outcome LightLevel) (output : Image)

/-- Carries out one request. Rendering leaves the session alone. -/
def perform (d : Decoder) : Request → Answer × Decoder
  | .parse =>
    let (result, d) := parse.apply d
    (.done result, d)
  | .next =>
    let (result, d) := next.apply d
    (.done result, d)
  | .take =>
    let (image, d) := d.take
    (.taken image, d)
  | .toneMap headroom output stop =>
    let (result, output) := (d.toneMap headroom stop).apply output
    (.toned result output, d)

/-- The sessions after each of a list of requests, with the answers to them. -/
def run (d : Decoder) : List Request → List (Answer × Decoder)
  | [] => []
  | r :: rest =>
    let step := d.perform r
    step :: run step.2 rest

end Decoder

end DualRendition
