import MapEmbed.Style.Service
import MapEmbed.Unicode.Letter

/-!
# Providers and their styles

A provider offers one style, or one for each of its variants. A style is known by its key: the provider's name,
or that and the variant without spaces. Where two styles have the same key the later takes the earlier's place.
-/

namespace MapEmbed

/-- A provider of map tiles. -/
structure Provider where
  name : Text
  dependency : Option Dependency
  terms : Option Text
  variants : Option (List Text)
  deriving DecidableEq, Repr

/-- A style that authors can choose. -/
structure Style where
  key : Text
  label : Text
  provider : Text
  dependency : Option Dependency
  terms : Option Text
  deriving DecidableEq, Repr

namespace Style

/-- The data of a style; its key stands outside. -/
def toJson (s : Style) : Json :=
  Json.record [
    ("label", .string s.label),
    ("dependency", Json.optional (s.dependency.map Dependency.name)),
    ("terms", Json.optional s.terms),
    ("provider", .string s.provider)]

end Style

namespace Provider

/-- The style of a variant. -/
def variantStyle (p : Provider) (variant : Text) : Style where
  key := p.name ++ '.' :: variant.filter (· != ' ')
  label := p.name ++ ' ' :: variant
  provider := Unicode.capitalize p.name
  dependency := p.dependency
  terms := p.terms

/-- The style of a provider without variants. -/
def ownStyle (p : Provider) : Style where
  key := p.name
  label := Unicode.capitalize p.name
  provider := Unicode.capitalize p.name
  dependency := p.dependency
  terms := p.terms

/-- The styles that a provider offers, in the order of its variants. -/
def styles (p : Provider) : List Style :=
  match p.variants with
  | some variants => variants.map p.variantStyle
  | none => [p.ownStyle]

/-- The names of the fixed variants. -/
def mapboxVariants : List Text := mapboxStyles.map Prod.fst

/-- Gives the provider with fixed variants those variants, and adds it at the end if it is missing. -/
def withMapbox : List Provider → List Provider
  | [] => [⟨mapboxName, none, none, some mapboxVariants⟩]
  | p :: rest =>
    if p.name = mapboxName then { p with variants := some mapboxVariants } :: rest
    else p :: withMapbox rest

end Provider
end MapEmbed
