import MapEmbed.Style.Catalog

/-!
# The built-in dataset

The providers and icons that are used where no other dataset is configured.
-/

namespace MapEmbed

/-- A provider with constant texts. -/
private def builtinProvider (name : String) (dependency : Option Dependency) (terms : String)
    (variants : Option (List String)) : Provider :=
  ⟨name.toList, dependency, some terms.toList, variants.map fun names => names.map String.toList⟩

/-- The built-in providers. -/
def builtinProviders : List Provider :=
  [builtinProvider "OpenStreetMap" none "https://operations.osmfoundation.org/policies/tiles/"
      (some ["Mapnik", "DE", "CH", "France", "HOT"]),
    builtinProvider "OpenTopoMap" none "https://opentopomap.org/about" none,
    builtinProvider "CyclOSM" none "https://www.cyclosm.org/" none,
    builtinProvider "Stadia" (some .apiKey) "https://stadiamaps.com/terms-of-service/"
      (some ["Alidade Smooth", "Alidade Smooth Dark", "OSM Bright", "Outdoors", "Stamen Toner",
        "Stamen Toner Lite", "Stamen Terrain", "Stamen Watercolor"]),
    builtinProvider "Thunderforest" (some .apiKey) "https://www.thunderforest.com/terms/"
      (some ["Open Cycle Map", "Transport", "Landscape", "Outdoors", "Atlas"]),
    builtinProvider "Jawg" (some .accessToken) "https://www.jawg.io/en/terms/"
      (some ["Streets", "Terrain", "Sunny", "Dark", "Light"]),
    builtinProvider "Esri" none "https://www.esri.com/en-us/legal/terms/full-master-agreement"
      (some ["World Street Map", "World Topo Map", "World Imagery"]),
    builtinProvider "CartoDB" none "https://carto.com/legal/"
      (some ["Positron", "Dark Matter", "Voyager"]),
    builtinProvider "Mapbox" (some .apiKey) "https://www.mapbox.com/legal/tos/" none]

/-- The built-in icons. -/
def builtinIcons : Json :=
  .array (["place", "home", "business", "store", "restaurant", "local_cafe", "local_bar", "hotel",
    "local_parking", "local_hospital", "local_pharmacy", "school", "directions_bus", "directions_railway",
    "local_airport", "local_gas_station", "park", "beach_access", "museum", "church", "star", "flag", "info",
    "warning"].map fun icon => .string icon.toList)

/-- The catalogue of the built-in dataset. -/
def Catalog.builtin : Catalog :=
  Catalog.ofProviders (Provider.withMapbox builtinProviders) builtinIcons

end MapEmbed
