import MapEmbed.Text.Basic

/-!
# Shortcodes

A shortcode is a tag in square brackets: an opening tag with attribute text, and optionally a content closed by
`[/tag]`. An extra bracket may stand before it, after it, or on both sides; both together mean that the tag is
to be shown and not expanded. An occurrence holds every piece as it was written, so its source text is a
function of it.
-/

namespace MapEmbed.Shortcode

/-- The extra brackets around a shortcode. -/
structure Brackets where
  /-- A second bracket stands before the tag. -/
  before : Bool
  /-- A second bracket stands after the shortcode. -/
  after : Bool
  deriving DecidableEq, Repr

namespace Brackets

/-- No extra bracket. -/
def none : Brackets := ⟨false, false⟩

/-- Extra brackets on both sides: the shortcode is literal text. -/
def escaped (brackets : Brackets) : Bool :=
  brackets.before && brackets.after

/-- Puts the extra brackets around a text. -/
def wrap (brackets : Brackets) (inner : Text) : Text :=
  (if brackets.before then ['['] else []) ++ inner ++ (if brackets.after then [']'] else [])

end Brackets

/-- What follows the attribute text of an opening tag. -/
inductive Body where
  /-- The opening tag ends in `/]` and has no content. -/
  | selfClosing
  /-- The opening tag ends in `]`, and no closing tag of its name follows. -/
  | unclosed
  /-- A content runs to the first closing tag, whose name is kept as written. -/
  | enclosing (content closingName : Text)
  deriving DecidableEq, Repr

/-- The content of an enclosing shortcode. -/
def Body.content? : Body → Option Text
  | .enclosing content _ => some content
  | _ => none

/-- What stands between the opening tag and the extra bracket: content and closing tag, if there are any. -/
def Body.source : Body → Text
  | .enclosing content closingName => content ++ ['[', '/'] ++ closingName ++ [']']
  | _ => []

/-- One shortcode in a text. -/
structure Occurrence where
  brackets : Brackets
  /-- The name as written. -/
  tag : Text
  /-- Everything between the name and the end of the opening tag. -/
  rawAttributes : Text
  body : Body
  deriving DecidableEq, Repr

namespace Occurrence

/-- The opening tag with the extra bracket before it. -/
def opening (o : Occurrence) : Text :=
  (if o.brackets.before then ['[', '['] else ['[']) ++ o.tag ++ o.rawAttributes ++
    (if o.body = .selfClosing then ['/', ']'] else [']'])

/-- What stands after the opening tag: content and closing tag if there are any, and the extra bracket. -/
def afterOpening (o : Occurrence) : Text :=
  o.body.source ++ (if o.brackets.after then [']'] else [])

/-- The source text of the occurrence. -/
def source (o : Occurrence) : Text :=
  o.opening ++ o.afterOpening

/-- Extra brackets on both sides make the occurrence literal text. -/
def escaped (o : Occurrence) : Bool :=
  o.brackets.escaped

/-- The content, empty where there is none. -/
def contentText (o : Occurrence) : Text :=
  o.body.content?.getD []

/-- The source text without its first and its last character: an escaped shortcode as it is shown. -/
def unescaped (o : Occurrence) : Text :=
  (o.source.drop 1).dropLast

end Occurrence
end MapEmbed.Shortcode
