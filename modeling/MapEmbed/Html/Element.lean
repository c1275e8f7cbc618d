import MapEmbed.Text.Basic

/-!
# Kinds of elements

How the tree builder treats a tag depends on its name alone. The tables sort names into the kinds that are told
apart in the body of a document, and into the sets at which searches through the open elements stop.
-/

namespace MapEmbed.Html

/-- Names from constant texts. -/
def names (constants : List String) : List Text := constants.map String.toList

/-- The kinds of start tags in a body. -/
inductive StartKind where
  /-- Means nothing inside a body. -/
  | ignored
  /-- An element that belongs to the head and has no content. -/
  | headVoid
  /-- An element whose content is text with references. -/
  | escapableText
  /-- An element whose content is raw text. -/
  | rawText
  | script
  | template
  | block
  | heading
  /-- A block at whose start a line feed is dropped. -/
  | preformatted
  | form
  | listItem
  | definition
  | plaintext
  | button
  | anchor
  | formatting
  | nobr
  /-- An element that keeps formatting elements in. -/
  | scoping
  | table
  | void
  /-- A void element that does not resume formatting. -/
  | bareVoid
  | rule
  | image
  | textarea
  | example
  | select
  | option
  | rubyBase
  | rubyText
  | ordinary
  deriving DecidableEq, Repr

/-- The start tags of each kind. -/
def startKinds : List (List Text × StartKind) :=
  [(names ["html", "body", "frameset", "caption", "col", "colgroup", "frame", "head", "tbody", "td", "tfoot",
      "th", "thead", "tr"], .ignored),
    (names ["base", "basefont", "bgsound", "link", "meta"], .headVoid),
    (names ["title"], .escapableText),
    (names ["noframes", "style", "iframe", "noembed", "noscript"], .rawText),
    (names ["script"], .script),
    (names ["template"], .template),
    (names ["address", "article", "aside", "blockquote", "center", "details", "dialog", "dir", "div", "dl",
      "fieldset", "figcaption", "figure", "footer", "header", "hgroup", "main", "menu", "nav", "ol", "p",
      "section", "summary", "ul"], .block),
    (names ["h1", "h2", "h3", "h4", "h5", "h6"], .heading),
    (names ["pre", "listing"], .preformatted),
    (names ["form"], .form),
    (names ["li"], .listItem),
    (names ["dd", "dt"], .definition),
    (names ["plaintext"], .plaintext),
    (names ["button"], .button),
    (names ["a"], .anchor),
    (names ["b", "big", "code", "em", "font", "i", "s", "small", "strike", "strong", "tt", "u"], .formatting),
    (names ["nobr"], .nobr),
    (names ["applet", "marquee", "object"], .scoping),
    (names ["table"], .table),
    (names ["area", "br", "embed", "img", "keygen", "wbr", "input"], .void),
    (names ["param", "source", "track"], .bareVoid),
    (names ["hr"], .rule),
    (names ["image"], .image),
    (names ["textarea"], .textarea),
    (names ["xmp"], .example),
    (names ["select"], .select),
    (names ["optgroup", "option"], .option),
    (names ["rb", "rtc"], .rubyBase),
    (names ["rp", "rt"], .rubyText)]

/-- The kinds of end tags in a body. -/
inductive EndKind where
  | ignored
  | template
  | block
  | form
  | paragraph
  | listItem
  | definition
  | heading
  | formatting
  | scoping
  | lineBreak
  | ordinary
  deriving DecidableEq, Repr

/-- The end tags of each kind. -/
def endKinds : List (List Text × EndKind) :=
  [(names ["body", "html"], .ignored),
    (names ["template"], .template),
    (names ["address", "article", "aside", "blockquote", "button", "center", "details", "dialog", "dir", "div",
      "dl", "fieldset", "figcaption", "figure", "footer", "header", "hgroup", "listing", "main", "menu", "nav",
      "ol", "pre", "section", "summary", "ul"], .block),
    (names ["form"], .form),
    (names ["p"], .paragraph),
    (names ["li"], .listItem),
    (names ["dd", "dt"], .definition),
    (names ["h1", "h2", "h3", "h4", "h5", "h6"], .heading),
    (names ["a", "b", "big", "code", "em", "font", "i", "nobr", "s", "small", "strike", "strong", "tt", "u"],
      .formatting),
    (names ["applet", "marquee", "object"], .scoping),
    (names ["br"], .lineBreak)]

/-- The kind that a table gives to a name. -/
def kindIn {Kind : Type} (table : List (List Text × Kind)) (otherwise : Kind) (name : Text) : Kind :=
  ((table.find? fun entry => entry.1.contains name).map Prod.snd).getD otherwise

/-- The kind of a start tag. -/
def startKind (name : Text) : StartKind := kindIn startKinds .ordinary name

/-- The kind of an end tag. -/
def endKind (name : Text) : EndKind := kindIn endKinds .ordinary name

/-- Elements past which a stray end tag does not reach. -/
def specialNames : List Text :=
  names ["address", "applet", "area", "article", "aside", "base", "basefont", "bgsound", "blockquote", "body",
    "br", "button", "caption", "center", "col", "colgroup", "dd", "details", "dir", "div", "dl", "dt", "embed",
    "fieldset", "figcaption", "figure", "footer", "form", "frame", "frameset", "h1", "h2", "h3", "h4", "h5",
    "h6", "head", "header", "hgroup", "hr", "html", "iframe", "img", "input", "isindex", "li", "link", "listing",
    "main", "marquee", "menu", "meta", "nav", "noembed", "noframes", "noscript", "object", "ol", "p", "param",
    "plaintext", "pre", "script", "section", "select", "source", "style", "summary", "table", "tbody", "td",
    "template", "textarea", "tfoot", "th", "thead", "title", "tr", "track", "ul", "wbr", "xmp"]

/-- Elements at which the ordinary scope ends. -/
def scopeNames : List Text :=
  names ["applet", "caption", "html", "table", "td", "th", "marquee", "object", "template"]

/-- Elements at which the scope of a list item ends. -/
def listScopeNames : List Text := scopeNames ++ names ["ol", "ul"]

/-- Elements at which the scope of a paragraph ends. -/
def buttonScopeNames : List Text := scopeNames ++ names ["button"]

/-- Elements at which the scope of a table part ends. -/
def tableScopeNames : List Text := names ["html", "table", "template"]

/-- Elements that end with what contains them. -/
def impliedEndNames : List Text :=
  names ["dd", "dt", "li", "option", "optgroup", "p", "rb", "rp", "rt", "rtc"]

/-- Elements that end with a template that contains them. -/
def templateEndNames : List Text :=
  impliedEndNames ++ names ["caption", "colgroup", "tbody", "td", "tfoot", "th", "thead", "tr"]

/-- The six headings. -/
def headingNames : List Text := names ["h1", "h2", "h3", "h4", "h5", "h6"]

/-- Parts of a table that hold no text themselves. -/
def tablePartNames : List Text := names ["table", "tbody", "tfoot", "thead", "tr"]

/-- Elements at which the rows of a table stand. -/
def bodyContextNames : List Text := names ["tbody", "tfoot", "thead", "template", "html"]

/-- Elements at which the cells of a row stand. -/
def rowContextNames : List Text := names ["tr", "template", "html"]

/-- The two kinds of cells. -/
def cellNames : List Text := names ["td", "th"]

end MapEmbed.Html
