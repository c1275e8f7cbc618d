import MapEmbed.Attribute.Coercion
import MapEmbed.Attribute.Basic
import MapEmbed.Block.Basic
import MapEmbed.Style.Catalog
import MapEmbed.Style.Retired

/-!
# Moving old attributes

Old maps carried their one marker in attributes of their own, and the credential of their style under a name that
depended on its kind. Two passes over the attributes of a map move these to where they belong now: the marker
attributes out of the map, the credential to the style's key.
-/

namespace MapEmbed.Migration

/-- The start of the keys that describe a marker. -/
def markerStart : Text := "marker_".toList

/-- Whether a key describes a marker. -/
def isMarkerKey (key : Text) : Bool :=
  markerStart.isPrefixOf key

/-- The key that says whether an old map is centred on its marker. -/
def markerCenterKey : Text := "marker_center".toList

/-- The key of the marker that a map is centred on. -/
def centerMarkerKey : Text := "center_marker".toList

/-- The key of a style's credential. -/
def styleKeyKey : Text := "map_style_key".toList

/-- Whether attributes say that the map is not centred on its marker. -/
def centersElsewhere (attributes : Attributes) : Bool :=
  ((attributes.get? markerCenterKey).map fun value => !Coercion.truth value).getD false

/-- The marker attributes of a map. That the map is not centred on the marker is said of the map. -/
def markerPart (attributes : Attributes) : Attributes :=
  attributes.filterKeys fun key =>
    isMarkerKey key && !(centersElsewhere attributes && key == markerCenterKey)

/-- The attributes of a map without those of its marker. -/
def mapPart (attributes : Attributes) : Attributes :=
  let kept := attributes.filterKeys fun key => !isMarkerKey key
  if centersElsewhere attributes then kept.insert centerMarkerKey ['0'] else kept

/-- Takes the marker out of a map's attributes: the map's attributes and the marker's, if there is any of these. -/
def splitMarker? (attributes : Attributes) : Option (Attributes × Attributes) :=
  if attributes.keys.any isMarkerKey then some (mapPart attributes, markerPart attributes) else none

/-- The key and value of the old credential that the style of a map needs. -/
def oldCredential? (catalog : Catalog) (attributes : Attributes) : Option (Text × Text) :=
  let style := (attributes.get? "map_style".toList).getD defaultStyle
  (catalog.dependencyOf (currentStyle style)).bind fun dependency =>
    (MapBlock.nonEmpty? attributes dependency.legacyAttribute).map fun value =>
      (dependency.legacyAttribute, value)

/-- Moves the credential that the style needs to the style's key, unless the map has that key already. Other
credentials stay where they are. -/
def moveCredential? (catalog : Catalog) (attributes : Attributes) : Option Attributes :=
  if (MapBlock.nonEmpty? attributes styleKeyKey).isSome then none
  else (oldCredential? catalog attributes).map fun (key, value) =>
    (attributes.erase key).insert styleKeyKey value

/-- What the two passes make of a map's attributes. -/
structure Moved where
  /-- The attributes of the map. -/
  attributes : Attributes
  /-- The attributes of the marker that was taken out of it. -/
  marker : Option Attributes
  deriving DecidableEq

/-- Runs both passes; nothing if neither changes anything. -/
def move? (catalog : Catalog) (attributes : Attributes) : Option Moved :=
  match splitMarker? attributes with
  | some (map, marker) => some ⟨(moveCredential? catalog map).getD map, some marker⟩
  | none => (moveCredential? catalog attributes).map fun moved => ⟨moved, none⟩

end MapEmbed.Migration
