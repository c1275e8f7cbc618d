import MapEmbed.Marker.Basic

/-!
# Map blocks

A map with all its settings. As with markers, every setting has a default and every text is accepted. Two of the
settings point at markers: in attributes they count from one, zero meaning none; in a block they are positions
in the marker list or absent.
-/

namespace MapEmbed

/-- A map block. Its coordinates are finite and its indices are positions in a list or absent, as they are in every block
that attributes denote. A block that is filled in by hand can hold other numbers in the program, infinite ones and
indices below -1 among them; such a block cannot be written down here. -/
structure MapBlock where
  /-- The name of the block, empty if it is to be generated. -/
  blockId : Text
  style : Text
  styleKey : Option Text
  /-- The height in hundredths of the width. -/
  height : Int
  zoom : Int
  ctrlMouseZoom : Bool
  latitude : Binary64
  longitude : Binary64
  routing : Bool
  router : Text
  routerKey : Option Text
  geocoder : Text
  geocoderKey : Option Text
  destinationMarker : Option Nat
  centerMarker : Option Nat
  showAttribution : Bool
  markers : List Marker
  deriving DecidableEq

/-- The style of maps that name none. -/
def defaultStyle : Text := "OpenStreetMap.DE".toList

/-- An index that points into a list of the given length. -/
def markerIndex? (index : Int) (length : Nat) : Option Nat :=
  if 0 ≤ index ∧ index < length then some index.toNat else none

/-- An index in print: its number counted from zero, or -1 for none. -/
def indexNumber : Option Nat → Int
  | some index => index
  | none => -1

namespace MapBlock

/-- The value of a key that is present and not empty. -/
def nonEmpty? (attributes : Attributes) (key : Text) : Option Text :=
  (attributes.get? key).filter fun value => !value.isEmpty

/-- The marker that an attribute points at, counted from one; without the attribute it is the first. -/
def markerPointer? (attributes : Attributes) (key : Text) (markers : List Marker) : Option Nat :=
  markerIndex? (((attributes.get? key).map Coercion.integer).getD 1 - 1) markers.length

/-- The block that attributes denote, with the given markers. -/
def ofAttributes (attributes : Attributes) (markers : List Marker) : MapBlock where
  blockId := (attributes.get? "block_id".toList).getD []
  style := (attributes.get? "map_style".toList).getD defaultStyle
  styleKey := nonEmpty? attributes "map_style_key".toList
  height := ((attributes.get? "map_height".toList).map Coercion.integer).getD 50
  zoom := ((attributes.get? "zoom".toList).map Coercion.integer).getD 15
  ctrlMouseZoom := ((attributes.get? "ctrl_mouse_zoom".toList).map Coercion.truth).getD false
  latitude := ((attributes.get? "latitude".toList).map Coercion.number).getD defaultLatitude
  longitude := ((attributes.get? "longitude".toList).map Coercion.number).getD defaultLongitude
  routing := ((attributes.get? "routing".toList).map Coercion.truth).getD false
  router := (attributes.get? "router".toList).getD "osrmv1".toList
  routerKey := nonEmpty? attributes "router_key".toList
  geocoder := (attributes.get? "geocoder".toList).getD "nominatim".toList
  geocoderKey := nonEmpty? attributes "geocoder_key".toList
  destinationMarker := markerPointer? attributes "destination_marker".toList markers
  centerMarker := markerPointer? attributes "center_marker".toList markers
  showAttribution := ((attributes.get? "show_attribution".toList).map Coercion.truth).getD true
  markers := markers

/-- The block that attributes alone denote: it has one marker, the default one. -/
def withDefaultMarker (attributes : Attributes) : MapBlock :=
  ofAttributes attributes [Marker.ofAttributes OrderedMap.empty]

/-- The data of a block under its attribute names, its marker positions counted from one again. -/
def toJson (b : MapBlock) : Json :=
  Json.record [
    ("block_id", .string b.blockId),
    ("map_style", .string b.style),
    ("map_style_key", Json.optional b.styleKey),
    ("map_height", .integer b.height),
    ("zoom", .integer b.zoom),
    ("ctrl_mouse_zoom", .bool b.ctrlMouseZoom),
    ("latitude", .number b.latitude),
    ("longitude", .number b.longitude),
    ("routing", .bool b.routing),
    ("destination_marker", .integer (indexNumber b.destinationMarker + 1)),
    ("router", .string b.router),
    ("router_key", Json.optional b.routerKey),
    ("show_attribution", .bool b.showAttribution),
    ("geocoder", .string b.geocoder),
    ("geocoder_key", Json.optional b.geocoderKey),
    ("center_marker", .integer (indexNumber b.centerMarker + 1)),
    ("marker_list", .array (b.markers.map Marker.toJson))]

end MapBlock
end MapEmbed
