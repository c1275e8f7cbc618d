import MapEmbed.Json.Basic
import MapEmbed.Number.Layout
import MapEmbed.Attribute.Basic
import MapEmbed.Attribute.Coercion

/-!
# Markers

A marker of a map: where it is, by address or by coordinates, and how it looks. Every attribute has a default
and every text is accepted, so each set of attributes denotes a marker.
-/

namespace MapEmbed

/-- How the position of a marker is given. -/
inductive MarkerSource where
  | address
  | coordinates
  deriving DecidableEq, Repr

namespace MarkerSource

/-- The name of a source. -/
def name : MarkerSource → Text
  | .address => "address".toList
  | .coordinates => "coordinates".toList

/-- Every text but the name of the address source means coordinates. -/
def ofText (text : Text) : MarkerSource :=
  if text = MarkerSource.address.name then .address else .coordinates

end MarkerSource

/-- The colour of a marker's pin. -/
inductive MarkerColor where
  | red
  | white
  | darkBlue
  | green
  | black
  | orange
  | yellow
  deriving DecidableEq, Repr

namespace MarkerColor

/-- All colours. -/
def all : List MarkerColor := [.red, .white, .darkBlue, .green, .black, .orange, .yellow]

/-- The name of a colour. -/
def name : MarkerColor → Text
  | .red => "red".toList
  | .white => "white".toList
  | .darkBlue => "dark_blue".toList
  | .green => "green".toList
  | .black => "black".toList
  | .orange => "orange".toList
  | .yellow => "yellow".toList

/-- The colour with the given name; any other text means dark blue. -/
def ofText (text : Text) : MarkerColor :=
  (all.find? fun color => color.name == text).getD .darkBlue

end MarkerColor

/-- The latitude of maps and markers that give none. -/
def defaultLatitude : Binary64 := Coercion.number "52.4679888".toList

/-- The longitude of maps and markers that give none. -/
def defaultLongitude : Binary64 := Coercion.number "13.3257928".toList

/-- A marker of a map. Its coordinates are finite, as all coordinates are that attributes denote. -/
structure Marker where
  source : MarkerSource
  address : Text
  latitude : Binary64
  longitude : Binary64
  /-- Whether an old map is to be centred on the marker. -/
  center : Bool
  /-- The name of an icon, empty for the plain pin. -/
  icon : Text
  color : MarkerColor
  /-- The text of the popup. -/
  text : Option Text
  deriving DecidableEq

namespace Marker

/-- The marker that attributes denote, each missing one by its default. -/
def ofAttributes (attributes : Attributes) : Marker where
  source := ((attributes.get? "marker_source".toList).map MarkerSource.ofText).getD .address
  address := (attributes.get? "marker_address".toList).getD []
  latitude := ((attributes.get? "marker_latitude".toList).map Coercion.number).getD defaultLatitude
  longitude := ((attributes.get? "marker_longitude".toList).map Coercion.number).getD defaultLongitude
  center := ((attributes.get? "marker_center".toList).map Coercion.truth).getD true
  icon := (attributes.get? "marker_icon".toList).getD []
  color := ((attributes.get? "marker_color".toList).map MarkerColor.ofText).getD .darkBlue
  text := none

/-- The position as readers see it. -/
def summary (m : Marker) : Text :=
  match m.source with
  | .address => m.address
  | .coordinates =>
    "lat: ".toList ++ NumberLayout.display.render m.latitude ++ ", lng: ".toList ++
      NumberLayout.display.render m.longitude

/-- The data of a marker under its attribute names; the popup text only if there is one. -/
def toJson (m : Marker) : Json :=
  Json.record ([
    ("marker_source", .string m.source.name),
    ("marker_address", .string m.address),
    ("marker_latitude", .number m.latitude),
    ("marker_longitude", .number m.longitude),
    ("marker_center", .bool m.center),
    ("marker_icon", .string m.icon),
    ("marker_color", .string m.color.name)] ++
    (m.text.map fun text => ("marker_text", Json.string text)).toList)

end Marker
end MapEmbed
