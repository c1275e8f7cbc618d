import MapEmbed.Html.Builder

/-!
# Ending a formatting element

When a formatting element ends while a block inside it is still open, the block is taken out of it and the part
of the formatting that lies in the block is made anew. This happens for at most eight blocks at one end tag, and
for each at most three formatting elements between the two are made anew; the others are forgotten.
-/

namespace MapEmbed.Html.Builder

/-- An end tag without rules of its own: closes the innermost element of its name, unless one that is special is
reached before. -/
def endOrdinary (b : Builder) (name : Text) : Builder :=
  if reaches (fun element => element.name == name) specialNames b.stack then
    (b.endImpliedExcept name).popNamed name
  else b

/-- Where the new formatting element comes in the list of formatting elements. -/
inductive Bookmark where
  /-- In place of the old one. -/
  | inPlace
  /-- Directly after the given element. -/
  | after (number : Nat)
  deriving DecidableEq, Repr

/-- The work on the elements between a block and the formatting element around it. -/
structure Adoption where
  builder : Builder
  /-- The elements that stay open, innermost first, after the ones already passed, last passed first. -/
  kept : List OpenElement
  /-- The outermost node that goes to the new place so far. -/
  last : Nat
  bookmark : Bookmark

/-- The tag of a formatting element. -/
def formattingTag? (b : Builder) (number : Nat) : Option Tag :=
  b.formatting.findSome? fun entry =>
    match entry with
    | .marker => none
    | .element n tag => if n = number then some tag else none

/-- Replaces a formatting element by one made anew. -/
def renew (b : Builder) (old : Nat) (entry : FormattingEntry) : Builder :=
  { b with formatting := b.formatting.map fun known => if known.isNumber old then entry else known }

/-- Puts an entry directly after the given element in time, which is in front of it in the list. -/
def insertAfter (number : Nat) (entry : FormattingEntry) : List FormattingEntry → List FormattingEntry
  | [] => []
  | first :: rest =>
    if first.isNumber number then entry :: first :: rest else first :: insertAfter number entry rest

/-- Passes the elements between a block and the formatting element, from the block outwards, `count` of them
already passed. -/
def passBetween (block : Nat) (count : Nat) (a : Adoption) : List OpenElement → Adoption
  | [] => a
  | element :: rest =>
    match a.builder.formattingTag? element.number with
    | none => passBetween block (count + 1) a rest
    | some tag =>
      if 3 ≤ count then
        passBetween block (count + 1) { a with builder := a.builder.forget element.number } rest
      else
        let (number, forest) := a.builder.forest.create tag.name tag.attributes
        let renewed := { a.builder with forest }.renew element.number (.element number tag)
        let moved := { renewed with
          forest := (renewed.forest.detach a.last).insert (.lastIn number) (.element a.last) }
        passBetween block (count + 1)
          { builder := moved, kept := ⟨number, tag.name⟩ :: a.kept, last := number,
            bookmark := if a.last = block then .after number else a.bookmark } rest

/-- One block is taken out of a formatting element. `inside` are the open elements in the block, `between` those
between it and the formatting element, and `outside` those around that, each innermost first. -/
def adoptBlock (b : Builder) (number : Nat) (tag : Tag) (inside : List OpenElement) (block : OpenElement)
    (between outside : List OpenElement) (ancestor : OpenElement) : Builder :=
  let a := passBetween block.number 0 ⟨b, [], block.number, .inPlace⟩ between
  let detached := { a.builder with forest := a.builder.forest.detach a.last }
  let placed := { detached with
    forest := detached.forest.insert (detached.placeIn ancestor) (.element a.last) }
  let (fresh, created) := placed.forest.create tag.name tag.attributes
  let filled := (created.moveChildren block.number fresh).insert (.lastIn block.number) (.element fresh)
  let entry := FormattingEntry.element fresh tag
  let formatting :=
    match a.bookmark with
    | .inPlace => placed.formatting.map fun known => if known.isNumber number then entry else known
    | .after previous =>
      (insertAfter previous entry placed.formatting).filter fun known => !known.isNumber number
  { placed with
    forest := filled, formatting := formatting,
    stack := inside ++ ⟨fresh, tag.name⟩ :: block :: a.kept.reverse ++ outside }

/-- The innermost part of a list of open elements up to the outermost one that is special, cut there: the
elements inside it, itself, and those outside it. -/
def cutAtOutermostSpecial (elements : List OpenElement) :
    Option (List OpenElement × OpenElement × List OpenElement) :=
  let isSpecial := fun element : OpenElement => specialNames.contains element.name
  let outwards := elements.reverse
  match outwards.dropWhile fun element => !isSpecial element with
  | [] => none
  | block :: inside => some (inside.reverse, block, (outwards.takeWhile fun element => !isSpecial element).reverse)

/-- The rounds of ending a formatting element, at most `rounds` of them. -/
def adopt (name : Text) : Nat → Builder → Builder
  | 0, b => b
  | rounds + 1, b =>
    let entry := b.recentFormatting.findSome? fun entry =>
      match entry with
      | .marker => none
      | .element number tag => if tag.name = name then some (number, tag) else none
    match entry with
    | none => b.endOrdinary name
    | some (number, tag) =>
      if !b.isOpen number then b.forget number
      else if !reaches (fun element => element.number == number) scopeNames b.stack then b
      else
        let isIt := fun element : OpenElement => element.number == number
        let within := b.stack.takeWhile fun element => !isIt element
        let outside := (b.stack.dropWhile fun element => !isIt element).drop 1
        match cutAtOutermostSpecial within, outside with
        | some (inside, block, between), ancestor :: _ =>
          adopt name rounds (b.adoptBlock number tag inside block between outside ancestor)
        | _, _ => { b with stack := outside }.forget number

/-- Ends the formatting element of the given name. -/
def endFormatting (b : Builder) (name : Text) : Builder :=
  let stray :=
    match b.stack with
    | [] => false
    | current :: _ => current.name == name && !b.formatting.any (FormattingEntry.isNumber current.number)
  if stray then b.pop else adopt name 8 b

end MapEmbed.Html.Builder
