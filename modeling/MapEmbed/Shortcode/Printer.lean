import MapEmbed.Shortcode.Basic
import MapEmbed.Attribute.Basic

/-!
# Writing a shortcode

The written form is always an enclosing one: opening tag, content, closing tag, with the extra brackets around
the whole.
-/

namespace MapEmbed.Shortcode

/-- Writes a shortcode from its name, attributes and content. -/
def print (name : Text) (attributes : Attributes) (content : Text) (brackets : Brackets) : Text :=
  let opened := if attributes.isEmpty then name else name ++ ' ' :: attributes.toText
  brackets.wrap (['['] ++ opened ++ [']'] ++ content ++ ['[', '/'] ++ name ++ [']'])

end MapEmbed.Shortcode
