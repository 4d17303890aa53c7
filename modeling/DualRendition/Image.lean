import DualRendition.Metadata
import DualRendition.Raster

/-!
# Images and gain maps

An `Image` is a raster that may own a gain map; a `GainMap` is an image of stored gains with the
metadata to read them and what is known of the alternate rendition. The two types contain each
other, so the gain map is written over the type of its image and closed afterwards.
-/

namespace DualRendition

/-- A gain map whose samples are an `ι`. -/
structure GainMapOf (ι : Type) where
  /-- The stored gains; absent when only the metadata is known. -/
  image : Option ι
  metadata : Metadata
  /-- The rendition that the gains lead to from the base. -/
  alternate : Rendition

/-- A raster and the gain map it owns, if any. -/
structure Image extends Raster where
  gainMap : Option (GainMapOf Image)

/-- A gain map whose samples are an image. -/
abbrev GainMap := GainMapOf Image

namespace Image

/-- A raster that owns no gain map. -/
def ofRaster (r : Raster) : Image := { r with gainMap := none }

/-- The image without its gain map. -/
def withoutGainMap (i : Image) : Image := { i with gainMap := none }

/-- The image without its samples. -/
def withoutSamples (i : Image) : Image := { i with samples := #[] }

end Image

namespace GainMapOf

/-- A gain map of which nothing is known. -/
def unknown : GainMap := ⟨none, .unset, .unknown⟩

/-- Makes the gain map lead back from the alternate rendition to `base`. The samples stay, and
with them the colour space of the gains. -/
def swap (g : GainMap) (base : Image) : GainMap :=
  { g with metadata := g.metadata.swap, alternate := base.toRendition }

end GainMapOf

end DualRendition
