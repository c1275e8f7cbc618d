import MapEmbed.Html.Forest
import MapEmbed.Html.Element
import MapEmbed.Html.Token

/-!
# The tree builder's state

The builder holds the open elements, innermost first, and the formatting elements that are to be resumed after a
block has cut them off, latest first. This module has the operations on these lists that every insertion mode
uses: scopes, implied ends, places for new nodes, and the resumption of formatting.
-/

namespace MapEmbed.Html

/-- What the tags of a place mean. -/
inductive InsertionMode where
  | inBody
  | inText
  | inTable
  | inTableText
  | inCaption
  | inColumnGroup
  | inTableBody
  | inRow
  | inCell
  | inSelect
  | inSelectInTable
  | inTemplate
  deriving DecidableEq, Repr

/-- An element that is open. -/
structure OpenElement where
  number : Nat
  name : Text
  deriving DecidableEq, Repr

/-- An entry of the list of formatting elements. -/
inductive FormattingEntry where
  /-- Keeps the elements before it from being resumed. -/
  | marker
  | element (number : Nat) (tag : Tag)
  deriving DecidableEq, Repr

/-- The tree builder. -/
structure Builder where
  forest : Forest
  /-- The open elements, innermost first; the root is the last. -/
  stack : List OpenElement
  /-- The formatting elements, latest first. -/
  formatting : List FormattingEntry
  mode : InsertionMode
  /-- The mode to go back to after a text. -/
  returnMode : InsertionMode
  /-- The modes of the open templates, innermost first. -/
  templateModes : List InsertionMode
  /-- The form that is being filled. -/
  form : Option Nat
  /-- Whether nodes that do not belong into a table are put before it. -/
  fostering : Bool
  /-- Text directly in a table, last character first. -/
  tableText : Text
  /-- Whether a line feed that comes next is dropped. -/
  dropsLineFeed : Bool

namespace FormattingEntry

/-- Whether the entry is that of an element. -/
def isNumber (number : Nat) : FormattingEntry → Bool
  | .marker => false
  | .element n _ => n == number

/-- Whether the entry is an element. -/
def isElement : FormattingEntry → Bool
  | .marker => false
  | .element .. => true

end FormattingEntry

namespace Builder

/-- The name of an element that no fragment has below its root. -/
def rootName : Text := "html".toList

/-- The builder at the start of a fragment: only the root is open. -/
def initial : Builder :=
  let (root, forest) := Forest.create ⟨#[]⟩ rootName []
  { forest, stack := [⟨root, rootName⟩], formatting := [], mode := .inBody, returnMode := .inBody,
    templateModes := [], form := none, fostering := false, tableText := [], dropsLineFeed := false }

/-! ### Open elements -/

/-- Whether the innermost open element has one of the given names. -/
def currentIn (b : Builder) (wanted : List Text) : Bool :=
  match b.stack with
  | [] => false
  | current :: _ => wanted.contains current.name

/-- Whether the innermost open element has the given name. -/
def currentIs (b : Builder) (name : Text) : Bool :=
  b.currentIn [name]

/-- Whether an element that fits is reached before one of the given names stops the search. -/
def reaches (fits : OpenElement → Bool) (stops : List Text) : List OpenElement → Bool
  | [] => false
  | element :: rest =>
    if fits element then true else if stops.contains element.name then false else reaches fits stops rest

/-- Whether an element of the given name is in a scope. -/
def inScope (b : Builder) (stops : List Text) (name : Text) : Bool :=
  reaches (fun element => element.name == name) stops b.stack

/-- Whether an element of one of the given names is in a scope. -/
def anyInScope (b : Builder) (stops wanted : List Text) : Bool :=
  reaches (fun element => wanted.contains element.name) stops b.stack

/-- Whether a template is open. -/
def inTemplateElement (b : Builder) : Bool :=
  b.stack.any fun element => element.name == "template".toList

/-- Closes the innermost element. -/
def pop (b : Builder) : Builder :=
  { b with stack := b.stack.drop 1 }

/-- Closes elements up to one that fits, and that one. -/
def popThrough (b : Builder) (fits : OpenElement → Bool) : Builder :=
  { b with stack := (b.stack.dropWhile fun element => !fits element).drop 1 }

/-- Closes elements up to the innermost of the given name, and that one. -/
def popNamed (b : Builder) (name : Text) : Builder :=
  b.popThrough fun element => element.name == name

/-- Closes elements until the innermost has one of the given names. -/
def popUntil (b : Builder) (wanted : List Text) : Builder :=
  { b with stack := b.stack.dropWhile fun element => !wanted.contains element.name }

/-- Closes elements that end by themselves. -/
def endImplied (b : Builder) (implied : List Text) : Builder :=
  { b with stack := b.stack.dropWhile fun element => implied.contains element.name }

/-- Closes elements that end by themselves, but none of the given name. -/
def endImpliedExcept (b : Builder) (name : Text) : Builder :=
  b.endImplied (impliedEndNames.filter (· != name))

/-- Takes an element out of the open ones, wherever it is among them. -/
def closeNumber (b : Builder) (number : Nat) : Builder :=
  { b with stack := b.stack.filter fun element => element.number != number }

/-- Whether an element is open. -/
def isOpen (b : Builder) (number : Nat) : Bool :=
  b.stack.any fun element => element.number == number

/-- Closes the innermost paragraph with everything in it. -/
def closeParagraph (b : Builder) : Builder :=
  (b.endImpliedExcept "p".toList).popNamed "p".toList

/-- Closes a paragraph that a block may not stand in. -/
def closeParagraphInScope (b : Builder) : Builder :=
  if b.inScope buttonScopeNames "p".toList then b.closeParagraph else b

/-! ### Places and insertion -/

/-- The place for a node that does not belong into a table: before the table, or in the element around it if the
table has no parent. -/
def fosterPlace (forest : Forest) : List OpenElement → Place
  | [] => .lastIn 0
  | element :: rest =>
    if element.name = "template".toList then .lastIn element.number
    else if element.name = "table".toList then
      match forest.parent? element.number, rest with
      | none, outer :: _ => .lastIn outer.number
      | _, _ => .before element.number
    else fosterPlace forest rest

/-- The place for a node in an element. -/
def placeIn (b : Builder) (target : OpenElement) : Place :=
  if b.fostering && tablePartNames.contains target.name then fosterPlace b.forest b.stack
  else .lastIn target.number

/-- The place for a node in the innermost element. -/
def place (b : Builder) : Place :=
  match b.stack with
  | [] => .lastIn 0
  | current :: _ => b.placeIn current

/-- Puts a node into the innermost element. -/
def insertChild (b : Builder) (child : Child) : Builder :=
  { b with forest := b.forest.insert b.place child }

/-- Puts a character into the innermost element. -/
def insertChar (b : Builder) (c : Char) : Builder :=
  b.insertChild (.char c)

/-- Puts a comment into the innermost element. -/
def insertComment (b : Builder) (content : Text) : Builder :=
  b.insertChild (.comment content)

/-- Puts a new element into the innermost one and opens it. -/
def openTag (b : Builder) (tag : Tag) : Builder :=
  let (number, forest) := b.forest.create tag.name tag.attributes
  { b with forest := forest.insert b.place (.element number), stack := ⟨number, tag.name⟩ :: b.stack }

/-- Puts a new element into the innermost one, without content. -/
def insertVoid (b : Builder) (tag : Tag) : Builder :=
  (b.openTag tag).pop

/-- Opens an element that the markup leaves out. -/
def openNamed (b : Builder) (name : String) : Builder :=
  b.openTag ⟨name.toList, []⟩

/-! ### Formatting elements -/

/-- The formatting elements since the last marker, latest first. -/
def recentFormatting (b : Builder) : List FormattingEntry :=
  b.formatting.takeWhile FormattingEntry.isElement

/-- Sets a marker. -/
def pushMarker (b : Builder) : Builder :=
  { b with formatting := .marker :: b.formatting }

/-- Forgets the formatting elements since the last marker, and the marker. -/
def clearToMarker (b : Builder) : Builder :=
  { b with formatting := (b.formatting.dropWhile FormattingEntry.isElement).drop 1 }

/-- Forgets a formatting element. -/
def forget (b : Builder) (number : Nat) : Builder :=
  { b with formatting := b.formatting.filter fun entry => !entry.isNumber number }

/-- Whether an entry keeps the ones before it from being resumed. -/
def settled (b : Builder) : FormattingEntry → Bool
  | .marker => true
  | .element number _ => b.isOpen number

/-- Opens the elements of entries again, the last entry first, and puts the new entries in front. -/
def reopen (b : Builder) : List FormattingEntry → Builder
  | [] => b
  | entry :: later =>
    let resumed := b.reopen later
    match entry with
    | .marker => resumed
    | .element _ tag =>
      let opened := resumed.openTag tag
      match opened.stack with
      | [] => opened
      | current :: _ => { opened with formatting := .element current.number tag :: opened.formatting }

/-- Resumes the formatting elements that are no longer open, oldest first. -/
def resumeFormatting (b : Builder) : Builder :=
  let closed := b.formatting.takeWhile fun entry => !b.settled entry
  { b with formatting := b.formatting.drop closed.length }.reopen closed

/-- Whether an entry is for the same tag: the same name and the same attributes in any order. -/
def sameTag (tag : Tag) : FormattingEntry → Bool
  | .marker => false
  | .element _ known => known.name == tag.name && known.attributes.isPerm tag.attributes

/-- Takes out the last entry that fits. -/
def eraseLast (fits : FormattingEntry → Bool) (entries : List FormattingEntry) : List FormattingEntry :=
  (entries.reverse.eraseP fits).reverse

/-- Makes room for a fourth formatting element of the same tag: the oldest of three is forgotten. -/
def limitFormatting (b : Builder) (tag : Tag) : Builder :=
  let recent := b.recentFormatting
  if 3 ≤ (recent.filter (sameTag tag)).length then
    { b with formatting := eraseLast (sameTag tag) recent ++ b.formatting.drop recent.length }
  else b

/-- Opens a formatting element. -/
def openFormatting (b : Builder) (tag : Tag) : Builder :=
  let opened := (b.limitFormatting tag).openTag tag
  match opened.stack with
  | [] => opened
  | current :: _ => { opened with formatting := .element current.number tag :: opened.formatting }

/-! ### Modes -/

/-- The mode of a select element: inside a table some tags close it. -/
def selectMode : List OpenElement → InsertionMode
  | [] => .inSelect
  | element :: rest =>
    if element.name = "template".toList then .inSelect
    else if element.name = "table".toList then .inSelectInTable
    else selectMode rest

/-- The mode that the open elements call for. The fragment stands in a body. -/
def modeFor (templateModes : List InsertionMode) : List OpenElement → InsertionMode
  | [] => .inBody
  | [_] => .inBody
  | element :: rest =>
    if element.name = "select".toList then selectMode rest
    else if cellNames.contains element.name then .inCell
    else if element.name = "tr".toList then .inRow
    else if (names ["tbody", "thead", "tfoot"]).contains element.name then .inTableBody
    else if element.name = "caption".toList then .inCaption
    else if element.name = "colgroup".toList then .inColumnGroup
    else if element.name = "table".toList then .inTable
    else if element.name = "template".toList then templateModes.head?.getD .inBody
    else modeFor templateModes rest

/-- The mode that the builder's open elements call for. -/
def calledMode (b : Builder) : InsertionMode :=
  modeFor b.templateModes b.stack

/-- Sets the mode that the open elements call for. -/
def resetMode (b : Builder) : Builder :=
  { b with mode := b.calledMode }

end Builder
end MapEmbed.Html
