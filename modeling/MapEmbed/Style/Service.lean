import MapEmbed.OrderedMap
import MapEmbed.Style.Dependency
import MapEmbed.Json.Basic

/-!
# Services

The routing and geocoding services that authors can choose from, and the styles of the one provider whose
variants are fixed.
-/

namespace MapEmbed

/-- A routing or geocoding service. -/
structure Service where
  key : Text
  label : Text
  dependency : Option Dependency
  terms : Text
  deriving DecidableEq, Repr

namespace Service

/-- The routing services. -/
def routers : List Service :=
  [⟨"osrmv1".toList, "OSRM Demo Server".toList, none,
      "https://github.com/Project-OSRM/osrm-backend/wiki/Api-usage-policy".toList⟩,
    ⟨"mapbox".toList, "Mapbox".toList, some .apiKey, "https://www.mapbox.com/legal/tos/".toList⟩]

/-- The geocoding services. -/
def geocoders : List Service :=
  [⟨"nominatim".toList, "Nominatim".toList, none,
      "https://operations.osmfoundation.org/policies/nominatim/".toList⟩,
    ⟨"mapbox".toList, "Mapbox".toList, some .apiKey, "https://www.mapbox.com/legal/tos/".toList⟩]

/-- The data of a service; a dependency only if there is one. -/
def toJson (s : Service) : Json :=
  Json.record ([("label", .string s.label)] ++
    (s.dependency.map fun dependency => ("dependency", Json.string dependency.name)).toList ++
    [("terms", .string s.terms)])

end Service

/-- The provider whose variants are always those of `mapboxStyles`. -/
def mapboxName : Text := "Mapbox".toList

/-- The variants of that provider, each with the path of its style. -/
def mapboxStyles : List (Text × Text) :=
  [("Streets", "mapbox/streets-v11"),
    ("Outdoors", "mapbox/outdoors-v11"),
    ("Light", "mapbox/light-v10"),
    ("Dark", "mapbox/dark-v10"),
    ("Satellite", "mapbox/satellite-v9")].map fun (variant, path) => (variant.toList, path.toList)

end MapEmbed
