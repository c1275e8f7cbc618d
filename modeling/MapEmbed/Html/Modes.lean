import MapEmbed.Html.Adoption
import MapEmbed.Unicode.Letter

/-!
# Insertion modes

What a token does to the builder in each mode. A mode either deals with a token or passes it on to another mode.
A start tag may ask for its content to be read in another way.
-/

namespace MapEmbed.Html

/-- What a mode makes of a token. -/
inductive Outcome where
  /-- The token is dealt with; the following content may be of another kind. -/
  | done (b : Builder) (content : Option ContentMode)
  /-- The token is to be looked at again in another mode. -/
  | again (b : Builder) (mode : InsertionMode)

namespace Builder

/-- The token is dealt with. -/
def finished (b : Builder) : Outcome := .done b none

/-- Opens an element whose content is a text. -/
def openText (b : Builder) (tag : Tag) (content : ContentMode) : Outcome :=
  .done { b.openTag tag with mode := .inText, returnMode := b.mode } (some content)

/-- Opens a template. -/
def openTemplate (b : Builder) (tag : Tag) : Builder :=
  let opened := (b.openTag tag).pushMarker
  { opened with mode := .inTemplate, templateModes := .inTemplate :: opened.templateModes }

/-- Closes the innermost template, if one is open. -/
def closeTemplate (b : Builder) : Builder :=
  if b.inTemplateElement then
    let closed := (((b.endImplied templateEndNames).popNamed "template".toList).clearToMarker)
    { closed with templateModes := closed.templateModes.drop 1 }.resetMode
  else b

/-- Whether an input field is hidden. -/
def isHidden (tag : Tag) : Bool :=
  ((tag.attributes.lookup "type".toList).map fun value =>
    value.map Unicode.asciiLower == "hidden".toList).getD false

/-! ### In the body -/

/-- An item of a list ends the item before it. -/
def startItem (b : Builder) (closes : List Text) (tag : Tag) : Outcome :=
  let stops := specialNames.filter fun name => !(names ["address", "div", "p"]).contains name
  let open? := b.stack.find? fun element => closes.contains element.name || stops.contains element.name
  let closed :=
    match open? with
    | some element =>
      if closes.contains element.name then (b.endImpliedExcept element.name).popNamed element.name else b
    | none => b
  (closed.closeParagraphInScope.openTag tag).finished

/-- A start tag in the body. -/
def startInBody (b : Builder) (tag : Tag) : Outcome :=
  match startKind tag.name with
  | .ignored => b.finished
  | .headVoid => (b.insertVoid tag).finished
  | .escapableText => b.openText tag .escapableText
  | .rawText => b.openText tag .rawText
  | .script => b.openText tag (.script .plain)
  | .template => (b.openTemplate tag).finished
  | .block => (b.closeParagraphInScope.openTag tag).finished
  | .heading =>
    let outer := b.closeParagraphInScope
    ((if outer.currentIn headingNames then outer.pop else outer).openTag tag).finished
  | .preformatted => { b.closeParagraphInScope.openTag tag with dropsLineFeed := true }.finished
  | .form =>
    if b.form.isSome && !b.inTemplateElement then b.finished
    else
      let opened := b.closeParagraphInScope.openTag tag
      if b.inTemplateElement then opened.finished
      else { opened with form := opened.stack.head?.map OpenElement.number }.finished
  | .listItem => b.startItem [tag.name] tag
  | .definition => b.startItem (names ["dd", "dt"]) tag
  | .plaintext => .done (b.closeParagraphInScope.openTag tag) (some .plainText)
  | .button =>
    let outer :=
      if b.inScope scopeNames tag.name then (b.endImplied impliedEndNames).popNamed tag.name else b
    (outer.resumeFormatting.openTag tag).finished
  | .anchor =>
    let open? := b.recentFormatting.findSome? fun entry =>
      match entry with
      | .marker => none
      | .element number known => if known.name = tag.name then some number else none
    let outer :=
      match open? with
      | none => b
      | some number => ((b.endFormatting tag.name).forget number).closeNumber number
    (outer.resumeFormatting.openFormatting tag).finished
  | .formatting => (b.resumeFormatting.openFormatting tag).finished
  | .nobr =>
    let resumed := b.resumeFormatting
    let outer :=
      if resumed.inScope scopeNames tag.name then (resumed.endFormatting tag.name).resumeFormatting else resumed
    (outer.openFormatting tag).finished
  | .scoping => ((b.resumeFormatting.openTag tag).pushMarker).finished
  | .table => { b.closeParagraphInScope.openTag tag with mode := .inTable }.finished
  | .void => (b.resumeFormatting.insertVoid tag).finished
  | .bareVoid => (b.insertVoid tag).finished
  | .rule => (b.closeParagraphInScope.insertVoid tag).finished
  | .image => (b.resumeFormatting.insertVoid { tag with name := "img".toList }).finished
  | .textarea =>
    match b.openText tag .escapableText with
    | .done opened content => .done { opened with dropsLineFeed := true } content
    | outcome => outcome
  | .example => b.closeParagraphInScope.resumeFormatting.openText tag .rawText
  | .select =>
    let opened := b.resumeFormatting.openTag tag
    let inTable : List InsertionMode := [.inTable, .inCaption, .inTableBody, .inRow, .inCell]
    { opened with mode := if inTable.contains b.mode then .inSelectInTable else .inSelect }.finished
  | .option =>
    let outer := if b.currentIs "option".toList then b.pop else b
    (outer.resumeFormatting.openTag tag).finished
  | .rubyBase =>
    let outer := if b.inScope scopeNames "ruby".toList then b.endImplied impliedEndNames else b
    (outer.openTag tag).finished
  | .rubyText =>
    let outer := if b.inScope scopeNames "ruby".toList then b.endImpliedExcept "rtc".toList else b
    (outer.openTag tag).finished
  | .ordinary => (b.resumeFormatting.openTag tag).finished

/-- Closes a block, if one of the given name is in scope. -/
def endBlock (b : Builder) (stops : List Text) (name : Text) : Builder :=
  if b.inScope stops name then (b.endImplied impliedEndNames).popNamed name else b

/-- Closes a list item, if one of the given name is in scope. -/
def endItem (b : Builder) (stops : List Text) (name : Text) : Builder :=
  if b.inScope stops name then (b.endImpliedExcept name).popNamed name else b

/-- The end of a form. Outside templates the form that is being filled is closed, and not what is inside it. -/
def endForm (b : Builder) (name : Text) : Builder :=
  if b.inTemplateElement then b.endBlock scopeNames name
  else
    match b.form with
    | none => b
    | some number =>
      let left := { b with form := none }
      if reaches (fun element => element.number == number) scopeNames b.stack then
        (left.endImplied impliedEndNames).closeNumber number
      else left

/-- An end tag in the body. -/
def endInBody (b : Builder) (name : Text) : Outcome :=
  match endKind name with
  | .ignored => b.finished
  | .template => b.closeTemplate.finished
  | .block => (b.endBlock scopeNames name).finished
  | .form => (b.endForm name).finished
  | .paragraph =>
    ((if b.inScope buttonScopeNames name then b else b.openNamed "p").closeParagraph).finished
  | .listItem => (b.endItem listScopeNames name).finished
  | .definition => (b.endItem scopeNames name).finished
  | .heading =>
    if b.anyInScope scopeNames headingNames then
      ((b.endImplied impliedEndNames).popThrough fun element => headingNames.contains element.name).finished
    else b.finished
  | .formatting => (b.endFormatting name).finished
  | .scoping =>
    if b.inScope scopeNames name then (b.endBlock scopeNames name).clearToMarker.finished else b.finished
  | .lineBreak => (b.resumeFormatting.insertVoid ⟨name, []⟩).finished
  | .ordinary => (b.endOrdinary name).finished

/-- A token in the body. -/
def inBody (b : Builder) (token : Token) : Outcome :=
  match token with
  | .startTag tag => b.startInBody tag
  | .endTag name => b.endInBody name
  | .char c => (b.resumeFormatting.insertChar c).finished
  | .comment content => (b.insertComment content).finished
  | .nul => b.finished
  | .fault => b.finished

/-- A token that belongs into the body but stands in a table: its nodes are put before the table. -/
def foster (b : Builder) (token : Token) : Outcome :=
  match { b with fostering := true }.inBody token with
  | .done after content => .done { after with fostering := false } content
  | .again after mode => .again { after with fostering := false } mode

/-! ### In a text -/

/-- A token in an element whose content is a text. -/
def inText (b : Builder) (token : Token) : Outcome :=
  match token with
  | .char c => (b.insertChar c).finished
  | .endTag _ => { b.pop with mode := b.returnMode }.finished
  | _ => b.finished

/-! ### In tables -/

/-- A character in a table is kept until the next token shows what to do with it. -/
def charInTable (b : Builder) (token : Token) : Outcome :=
  if b.currentIn tablePartNames then .again { b with returnMode := b.mode } .inTableText
  else b.foster token

/-- A start tag in a table. -/
def startInTable (b : Builder) (tag : Tag) : Outcome :=
  let cleared := b.popUntil tableScopeNames
  if tag.name = "caption".toList then
    { cleared.pushMarker.openTag tag with mode := .inCaption }.finished
  else if tag.name = "colgroup".toList then
    { cleared.openTag tag with mode := .inColumnGroup }.finished
  else if tag.name = "col".toList then
    .again (cleared.openNamed "colgroup") .inColumnGroup
  else if (names ["tbody", "tfoot", "thead"]).contains tag.name then
    { cleared.openTag tag with mode := .inTableBody }.finished
  else if (names ["td", "th", "tr"]).contains tag.name then
    .again (cleared.openNamed "tbody") .inTableBody
  else if tag.name = "table".toList then
    if b.inScope tableScopeNames tag.name then
      let closed := b.popNamed tag.name
      .again closed closed.calledMode
    else b.finished
  else if (names ["style", "script", "template"]).contains tag.name then b.startInBody tag
  else if tag.name = "input".toList && isHidden tag then (b.insertVoid tag).finished
  else if tag.name = "form".toList then
    if b.inTemplateElement || b.form.isSome then b.finished
    else
      let opened := b.openTag tag
      { opened.pop with form := opened.stack.head?.map OpenElement.number }.finished
  else b.foster (.startTag tag)

/-- An end tag in a table. -/
def endInTable (b : Builder) (name : Text) : Outcome :=
  if name = "table".toList then
    if b.inScope tableScopeNames name then (b.popNamed name).resetMode.finished else b.finished
  else if (names ["body", "caption", "col", "colgroup", "html", "tbody", "td", "tfoot", "th", "thead",
      "tr"]).contains name then b.finished
  else if name = "template".toList then b.closeTemplate.finished
  else b.foster (.endTag name)

/-- A token in a table. -/
def inTable (b : Builder) (token : Token) : Outcome :=
  match token with
  | .startTag tag => b.startInTable tag
  | .endTag name => b.endInTable name
  | .char _ => b.charInTable token
  | .nul => b.charInTable token
  | .comment content => (b.insertComment content).finished
  | .fault => b.finished

/-- Puts a character before the table. -/
def fosterChar (b : Builder) (c : Char) : Builder :=
  match b.foster (.char c) with
  | .done after _ => after
  | .again after _ => after

/-- The kept text of a table is put in place: blanks stay in the table, anything else goes before it. -/
def flushTableText (b : Builder) : Builder :=
  let text := b.tableText.reverse
  let emptied := { b with tableText := [] }
  if text.all fun c => isMarkupBlank c || c == '\r' then text.foldl insertChar emptied
  else text.foldl fosterChar emptied

/-- A token after a character in a table. -/
def inTableText (b : Builder) (token : Token) : Outcome :=
  match token with
  | .char c => { b with tableText := c :: b.tableText }.finished
  | .nul => b.finished
  | _ =>
    let flushed := b.flushTableText
    .again flushed flushed.returnMode

/-- Closes the caption of a table, if one is in scope. -/
def closeCaption? (b : Builder) : Option Builder :=
  let name := "caption".toList
  if b.inScope tableScopeNames name then
    some ((b.endImplied impliedEndNames).popNamed name).clearToMarker
  else none

/-- A token in a caption. -/
def inCaption (b : Builder) (token : Token) : Outcome :=
  match token with
  | .startTag tag =>
    if (names ["caption", "col", "colgroup", "tbody", "td", "tfoot", "th", "thead", "tr"]).contains tag.name then
      match b.closeCaption? with
      | some closed => .again closed .inTable
      | none => b.finished
    else b.inBody token
  | .endTag name =>
    if name = "table".toList then
      match b.closeCaption? with
      | some closed => .again closed .inTable
      | none => b.finished
    else if name = "caption".toList then
      match b.closeCaption? with
      | some closed => { closed with mode := .inTable }.finished
      | none => b.finished
    else if (names ["body", "col", "colgroup", "html", "tbody", "td", "tfoot", "th", "thead",
        "tr"]).contains name then b.finished
    else b.inBody token
  | _ => b.inBody token

/-- Closes a group of columns and looks at the token again. -/
def leaveColumnGroup (b : Builder) : Outcome :=
  if b.currentIs "colgroup".toList then .again b.pop .inTable else b.finished

/-- A token in a group of columns. -/
def inColumnGroup (b : Builder) (token : Token) : Outcome :=
  match token with
  | .char c => if isMarkupBlank c || c == '\r' then (b.insertChar c).finished else b.leaveColumnGroup
  | .comment content => (b.insertComment content).finished
  | .startTag tag =>
    if tag.name = "html".toList then b.finished
    else if tag.name = "col".toList then (b.insertVoid tag).finished
    else if tag.name = "template".toList then (b.openTemplate tag).finished
    else b.leaveColumnGroup
  | .endTag name =>
    if name = "colgroup".toList then
      if b.currentIs name then { b.pop with mode := .inTable }.finished else b.finished
    else if name = "col".toList then b.finished
    else if name = "template".toList then b.closeTemplate.finished
    else b.leaveColumnGroup
  | .nul => b.leaveColumnGroup
  | .fault => b.finished

/-- Leaves the rows of a table and looks at the token again. -/
def leaveTableBody (b : Builder) : Outcome :=
  if b.anyInScope tableScopeNames (names ["table", "tbody", "tfoot"]) then
    .again (b.popUntil bodyContextNames).pop .inTable
  else b.finished

/-- A token between the rows of a table. -/
def inTableBody (b : Builder) (token : Token) : Outcome :=
  match token with
  | .startTag tag =>
    if tag.name = "tr".toList then
      { (b.popUntil bodyContextNames).openTag tag with mode := .inRow }.finished
    else if cellNames.contains tag.name then
      .again ((b.popUntil bodyContextNames).openNamed "tr") .inRow
    else if (names ["caption", "col", "colgroup", "tbody", "tfoot", "thead"]).contains tag.name then
      b.leaveTableBody
    else b.inTable token
  | .endTag name =>
    if (names ["tbody", "tfoot", "thead"]).contains name then
      if b.inScope tableScopeNames name then
        { (b.popUntil bodyContextNames).pop with mode := .inTable }.finished
      else b.finished
    else if name = "table".toList then b.leaveTableBody
    else if (names ["body", "caption", "col", "colgroup", "html", "td", "th", "tr"]).contains name then
      b.finished
    else b.inTable token
  | _ => b.inTable token

/-- Closes the row of a table, if one is in scope. -/
def closeRow? (b : Builder) : Option Builder :=
  if b.inScope tableScopeNames "tr".toList then some (b.popUntil rowContextNames).pop else none

/-- Leaves a row and looks at the token again. -/
def leaveRow (b : Builder) : Outcome :=
  match b.closeRow? with
  | some closed => .again closed .inTableBody
  | none => b.finished

/-- A token between the cells of a row. -/
def inRow (b : Builder) (token : Token) : Outcome :=
  match token with
  | .startTag tag =>
    if cellNames.contains tag.name then
      { ((b.popUntil rowContextNames).openTag tag).pushMarker with mode := .inCell }.finished
    else if (names ["caption", "col", "colgroup", "tbody", "tfoot", "thead", "tr"]).contains tag.name then
      b.leaveRow
    else b.inTable token
  | .endTag name =>
    if name = "tr".toList then
      match b.closeRow? with
      | some closed => { closed with mode := .inTableBody }.finished
      | none => b.finished
    else if name = "table".toList then b.leaveRow
    else if (names ["tbody", "tfoot", "thead"]).contains name then
      if b.inScope tableScopeNames name then b.leaveRow else b.finished
    else if (names ["body", "caption", "col", "colgroup", "html", "td", "th"]).contains name then b.finished
    else b.inTable token
  | _ => b.inTable token

/-- Closes a cell and looks at the token again. -/
def leaveCell (b : Builder) : Outcome :=
  .again (((b.endImplied impliedEndNames).popThrough fun element =>
    cellNames.contains element.name).clearToMarker) .inRow

/-- A token in a cell. -/
def inCell (b : Builder) (token : Token) : Outcome :=
  match token with
  | .startTag tag =>
    if (names ["caption", "col", "colgroup", "tbody", "td", "tfoot", "th", "thead", "tr"]).contains tag.name then
      if b.anyInScope tableScopeNames cellNames then b.leaveCell else b.finished
    else b.inBody token
  | .endTag name =>
    if cellNames.contains name then
      if b.inScope tableScopeNames name then
        { ((b.endImplied impliedEndNames).popNamed name).clearToMarker with mode := .inRow }.finished
      else b.finished
    else if (names ["body", "caption", "col", "colgroup", "html"]).contains name then b.finished
    else if (names ["table", "tbody", "tfoot", "thead", "tr"]).contains name then
      if b.inScope tableScopeNames name then b.leaveCell else b.finished
    else b.inBody token
  | _ => b.inBody token

/-! ### In lists of choices -/

/-- Whether a list of choices is open, with nothing but choices in it. -/
def inSelectScope : List OpenElement → Bool
  | [] => false
  | element :: rest =>
    if element.name = "select".toList then true
    else if (names ["optgroup", "option"]).contains element.name then inSelectScope rest
    else false

/-- Closes a list of choices. -/
def closeSelect (b : Builder) : Builder := b.popNamed "select".toList

/-- A token in a list of choices. -/
def inSelect (b : Builder) (token : Token) : Outcome :=
  match token with
  | .char c => (b.insertChar c).finished
  | .comment content => (b.insertComment content).finished
  | .startTag tag =>
    if tag.name = "option".toList then
      ((if b.currentIs tag.name then b.pop else b).openTag tag).finished
    else if tag.name = "optgroup".toList then
      let outer := if b.currentIs "option".toList then b.pop else b
      ((if outer.currentIs tag.name then outer.pop else outer).openTag tag).finished
    else if tag.name = "select".toList then
      if inSelectScope b.stack then b.closeSelect.resetMode.finished else b.finished
    else if (names ["input", "keygen", "textarea"]).contains tag.name then
      if inSelectScope b.stack then
        let closed := b.closeSelect
        .again closed closed.calledMode
      else b.finished
    else if (names ["script", "template"]).contains tag.name then b.startInBody tag
    else b.finished
  | .endTag name =>
    if name = "optgroup".toList then
      let inner := b.stack.take 2 |>.map OpenElement.name
      let outer := if inner = names ["option", "optgroup"] then b.pop else b
      (if outer.currentIs name then outer.pop else outer).finished
    else if name = "option".toList then (if b.currentIs name then b.pop else b).finished
    else if name = "select".toList then
      if inSelectScope b.stack then b.closeSelect.resetMode.finished else b.finished
    else if name = "template".toList then b.closeTemplate.finished
    else b.finished
  | .nul => b.finished
  | .fault => b.finished

/-- A token in a list of choices inside a table. -/
def inSelectInTable (b : Builder) (token : Token) : Outcome :=
  let parts := names ["caption", "table", "tbody", "tfoot", "thead", "tr", "td", "th"]
  match token with
  | .startTag tag =>
    if parts.contains tag.name then
      let closed := b.closeSelect
      .again closed closed.calledMode
    else b.inSelect token
  | .endTag name =>
    if parts.contains name then
      if b.inScope tableScopeNames name then
        let closed := b.closeSelect
        .again closed closed.calledMode
      else b.finished
    else b.inSelect token
  | _ => b.inSelect token

/-! ### In templates -/

/-- The template's content is read in another mode from now on. -/
def switchTemplate (b : Builder) (mode : InsertionMode) : Outcome :=
  .again { b with templateModes := mode :: b.templateModes.drop 1 } mode

/-- A token in a template whose content has not shown what it is. -/
def inTemplate (b : Builder) (token : Token) : Outcome :=
  match token with
  | .startTag tag =>
    if (names ["base", "basefont", "bgsound", "link", "meta", "noframes", "script", "style", "template",
        "title"]).contains tag.name then b.startInBody tag
    else if (names ["caption", "colgroup", "tbody", "tfoot", "thead"]).contains tag.name then
      b.switchTemplate .inTable
    else if tag.name = "col".toList then b.switchTemplate .inColumnGroup
    else if tag.name = "tr".toList then b.switchTemplate .inTableBody
    else if cellNames.contains tag.name then b.switchTemplate .inRow
    else b.switchTemplate .inBody
  | .endTag name => if name = "template".toList then b.closeTemplate.finished else b.finished
  | .char _ => b.inBody token
  | .comment _ => b.inBody token
  | .nul => b.finished
  | .fault => b.finished

/-! ### The whole -/

/-- A token in the builder's mode. -/
def inMode (b : Builder) (token : Token) : Outcome :=
  match b.mode with
  | .inBody => b.inBody token
  | .inText => b.inText token
  | .inTable => b.inTable token
  | .inTableText => b.inTableText token
  | .inCaption => b.inCaption token
  | .inColumnGroup => b.inColumnGroup token
  | .inTableBody => b.inTableBody token
  | .inRow => b.inRow token
  | .inCell => b.inCell token
  | .inSelect => b.inSelect token
  | .inSelectInTable => b.inSelectInTable token
  | .inTemplate => b.inTemplate token

/-- Looks at a token in one mode after another, at most `limit` times. -/
def settle (token : Token) : Nat → Builder → Builder × Option ContentMode
  | 0, b => (b, none)
  | limit + 1, b =>
    match b.inMode token with
    | .done after content => (after, content)
    | .again after mode => settle token limit { after with mode }

/-- Deals with a token. Every repetition closes an element or goes from a mode to one that is nearer to the
content it calls for, so the number of open elements bounds them. -/
def accept (b : Builder) (token : Token) : Builder × Option ContentMode :=
  let ready := { b with dropsLineFeed := false }
  if token = .fault ∨ (b.dropsLineFeed = true ∧ token = .char '\n') then (ready, none)
  else settle token (2 * b.stack.length + 8) ready

/-- The builder at the end of the markup: text that is still kept is put in place. -/
def finish (b : Builder) : Builder :=
  if b.mode = .inTableText then b.flushTableText else b

end Builder
end MapEmbed.Html
