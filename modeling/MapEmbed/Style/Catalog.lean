import MapEmbed.Style.Provider

/-!
# The style catalogue

All styles in the order in which their keys first came, and the icons that markers can have.
-/

namespace MapEmbed

/-- The styles and icons that authors can choose from. -/
structure Catalog where
  styles : OrderedMap Style
  icons : Json

namespace Catalog

/-- The styles of providers, each under its key. -/
def stylesOf (providers : List Provider) : OrderedMap Style :=
  OrderedMap.ofList ((providers.flatMap Provider.styles).map fun style => (style.key, style))

/-- The catalogue of a list of providers. -/
def ofProviders (providers : List Provider) (icons : Json) : Catalog :=
  ⟨stylesOf providers, icons⟩

/-- The credential that a style needs; none if the style is unknown or needs none. -/
def dependencyOf (catalog : Catalog) (key : Text) : Option Dependency :=
  (catalog.styles.get? key).bind Style.dependency

/-- The keys of the styles that need the given kind of credential, in order. -/
def dependentStyles (catalog : Catalog) (dependency : Dependency) : List Text :=
  (catalog.styles.values.filter fun style => style.dependency == some dependency).map Style.key

end Catalog
end MapEmbed
