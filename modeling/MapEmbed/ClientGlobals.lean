import MapEmbed.Style.Catalog
import MapEmbed.Style.Retired
import MapEmbed.Block.Basic

/-!
# What the editor's script is told

One data value with everything that authors can choose from and the defaults of a new map. A new map has no marker
that it points at.
-/

namespace MapEmbed

/-- The attributes of a map that an author has just inserted. -/
def newMapAttributes : Attributes :=
  OrderedMap.ofList [("destination_marker".toList, ['0']), ("center_marker".toList, ['0'])]

/-- Services under their keys. -/
def servicesJson (services : List Service) : Json :=
  .object (services.map fun service => (service.key, service.toJson))

/-- Texts under their keys. -/
def textsJson (pairs : List (Text × Text)) : Json :=
  .object (pairs.map fun (key, text) => (key, .string text))

/-- The value that the script reads. -/
def clientGlobals (catalog : Catalog) : Json :=
  Json.record [
    ("defaults", (MapBlock.withDefaultMarker newMapAttributes).toJson),
    ("defaults_marker", (Marker.ofAttributes OrderedMap.empty).toJson),
    ("deprecated_styles", textsJson retiredStyles),
    ("map_styles", .object (catalog.styles.entries.map fun (key, style) => (key, style.toJson))),
    ("mapbox_styles", textsJson mapboxStyles),
    ("routers", servicesJson Service.routers),
    ("geocoders", servicesJson Service.geocoders),
    ("icons", catalog.icons)]

end MapEmbed
