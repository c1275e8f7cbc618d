import MapEmbed.Html.Element
import MapEmbed.Unicode.Letter

/-!
# What authors may write

The elements and attributes that are kept of an author's markup. Everything else is left out: some elements with
all that is in them, the others without their content.
-/

namespace MapEmbed.Html

/-- The allowed elements, each with the attributes that it alone may have. -/
def allowedElements : List (Text × List Text) :=
  [("a", ["href", "target", "rel"]), ("abbr", []), ("b", []), ("blockquote", ["cite"]), ("br", []), ("code", []),
    ("div", []), ("em", []), ("h1", []), ("h2", []), ("h3", []), ("h4", []), ("h5", []), ("h6", []), ("i", []),
    ("img", ["src", "alt", "width", "height"]), ("li", []), ("ol", []), ("p", []), ("span", []), ("strong", []),
    ("u", []), ("ul", [])].map fun (name, own) => (name.toList, names own)

/-- The attributes that every allowed element may have. -/
def globalAttributes : List Text := names ["class", "id", "title", "lang", "dir"]

/-- The elements that are left out with their content. -/
def droppedElements : List Text :=
  names ["script", "style", "iframe", "object", "embed", "noscript", "template"]

/-- The allowed elements without content. -/
def voidElements : List Text := names ["br", "img"]

/-- The attributes whose value is an address. -/
def addressAttributes : List Text := names ["href", "src", "cite"]

/-- The schemes of addresses that run code or carry content. -/
def unsafeSchemes : List Text := names ["javascript:", "vbscript:", "data:"]

/-- The start of the attributes that carry data, of which at least one more character is needed. -/
def dataStart : Text := "data-".toList

/-- The attributes that an element alone may have, if it is allowed. -/
def ownAttributes? (name : Text) : Option (List Text) :=
  allowedElements.lookup name

/-- Whether an element with the given own attributes may have an attribute. -/
def allowsAttribute (own : List Text) (name : Text) : Bool :=
  own.contains name || globalAttributes.contains name ||
    (dataStart.isPrefixOf name && decide (dataStart.length < name.length))

/-- An address as a careless reader sees it: without blanks and control characters, in lower case. -/
def bareAddress (value : Text) : Text :=
  (value.filter fun c => !Unicode.isBlank c && !Unicode.isControl c).map Unicode.asciiLower

/-- Whether a value may be kept: an address must not have an unsafe scheme. -/
def isSafeValue (name value : Text) : Bool :=
  !addressAttributes.contains name || !unsafeSchemes.any fun scheme => scheme.isPrefixOf (bareAddress value)

end MapEmbed.Html
