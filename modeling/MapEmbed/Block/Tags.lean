import MapEmbed.Text.Basic

/-!
# Tag names

Maps and markers come in two families of tags, one for plain text and one for the elements of a page builder. The
names are part of stored documents. A marker that is taken out of a map gets the marker tag of the map's family.
-/

namespace MapEmbed

/-- The two families of tags. -/
inductive TagFamily where
  | builder
  | plain
  deriving DecidableEq, Repr

namespace TagFamily

/-- The families in the order in which their tags are tried. -/
def all : List TagFamily := [.builder, .plain]

/-- The map tag of a family. -/
def mapTag : TagFamily → Text
  | .builder => "sbs_wpb_openstreetmap".toList
  | .plain => "sbs_openstreetmap".toList

/-- The marker tag of a family. -/
def markerTag : TagFamily → Text
  | .builder => "sbs_wpb_marker".toList
  | .plain => "sbs_marker".toList

end TagFamily

/-- All map tags. -/
def mapTags : List Text := TagFamily.all.map TagFamily.mapTag

/-- All marker tags. -/
def markerTags : List Text := TagFamily.all.map TagFamily.markerTag

/-- The marker tag of the family that a map tag belongs to. -/
def markerTagFor? (tag : Text) : Option Text :=
  (TagFamily.all.find? fun family => family.mapTag == tag).map TagFamily.markerTag

end MapEmbed
