import MapEmbed.Html.Token
import MapEmbed.Html.Reference
import MapEmbed.Unicode.Letter

/-!
# Cutting markup into tokens

The lexer reads one character at a time. Its state says where in a tag, a comment or a text it is, and each
character gives the tokens that it completes and the next state. Feeding a text is a fold, so the state after two
texts in a row is that after the second, started in the state after the first.

Whoever consumes the tokens may change the meaning of the following characters after a start tag; the lexer
itself does not know which elements hold raw text.
-/

namespace MapEmbed.Html

/-- A tag of which a part has been read; its name and its attributes are kept last first. -/
structure TagDraft where
  closing : Bool
  name : Text
  attributes : List (Text × Text)
  deriving DecidableEq, Repr

namespace TagDraft

/-- Adds an attribute whose name and value were read last first; a repeated name is dropped. -/
def addAttribute (draft : TagDraft) (name value : Text) : TagDraft :=
  let key := name.reverse
  if draft.attributes.any fun known => known.1 == key then draft
  else { draft with attributes := (key, value.reverse) :: draft.attributes }

/-- The token of a finished tag. -/
def token (draft : TagDraft) : Token :=
  if draft.closing then .endTag draft.name.reverse
  else .startTag ⟨draft.name.reverse, draft.attributes.reverse⟩

end TagDraft

/-- Where the lexer is. Whatever is being collected is kept last character first. -/
inductive LexState where
  | content (mode : ContentMode)
  | tagOpen
  | endTagOpen
  | tagName (draft : TagDraft)
  | beforeAttribute (draft : TagDraft)
  | attributeName (draft : TagDraft) (name : Text)
  | afterAttributeName (draft : TagDraft) (name : Text)
  | beforeValue (draft : TagDraft) (name : Text)
  | quotedValue (draft : TagDraft) (name : Text) (quote : Char) (value : Text)
  | bareValue (draft : TagDraft) (name value : Text)
  | declaration (seen : Text)
  | comment (seen : Text)
  | bogusComment (seen : Text)
  | doctype
  | rawLessThan (mode : ContentMode)
  | rawEndTagOpen (mode : ContentMode)
  | rawEndTagName (mode : ContentMode) (seen : Text)
  /-- After an ampersand in a text. -/
  | textReference (mode : ContentMode) (seen : Text)
  /-- After an ampersand in a value, which is in the given quotes if there are any. -/
  | valueReference (draft : TagDraft) (name : Text) (quote : Option Char) (value seen : Text)
  deriving DecidableEq, Repr

/-- The lexer: where it is, and the name of the last start tag, which alone can end raw text. -/
structure Lexer where
  state : LexState
  lastStart : Text
  deriving DecidableEq, Repr

/-- A NUL character in a name or a value becomes the replacement character. -/
def withoutNul (c : Char) : Char :=
  if c.toNat = 0 then replacementChar else c

/-- A character of a name, in lower case. -/
def nameChar (c : Char) : Char :=
  Unicode.asciiLower (withoutNul c)

namespace Lexer

/-- The outcome of a step: tokens and the next state. -/
abbrev Step := List Token × LexState

/-- The state between tags. -/
def dataState : LexState := .content .data

/-- A text that is no markup after all. -/
def chars (text : Text) : List Token := text.map .char

/-! ### Texts -/

/-- A character of a script outside comments. -/
def scriptPlain (c : Char) : Step :=
  if c = '<' then ([], .rawLessThan (.script .plain))
  else ([.char (withoutNul c)], .content (.script .plain))

/-- A character of a script inside a comment. -/
def scriptEscaped (dashes : Nat) (c : Char) : Step :=
  if c = '-' then ([.char c], .content (.script (.escaped (min 2 (dashes + 1)))))
  else if c = '<' then ([], .rawLessThan (.script (.escaped 0)))
  else if c = '>' ∧ dashes = 2 then ([.char c], .content (.script .plain))
  else ([.char (withoutNul c)], .content (.script (.escaped 0)))

/-- A character of a script inside a script inside a comment. -/
def scriptDoubled (dashes : Nat) (c : Char) : Step :=
  if c = '-' then ([.char c], .content (.script (.doubled (min 2 (dashes + 1)))))
  else if c = '<' then ([.char c], .content (.script .doubledLessThan))
  else if c = '>' ∧ dashes = 2 then ([.char c], .content (.script .plain))
  else ([.char (withoutNul c)], .content (.script (.doubled 0)))

/-- Ends the name of a tag inside a comment. -/
def endsInnerName (c : Char) : Bool :=
  isMarkupBlank c || c == '/' || c == '>'

/-- The name whose tags open and close the inner script. -/
def isScriptName (seen : Text) : Bool :=
  seen.reverse == "script".toList

/-- A character after the start of a tag inside a comment. -/
def scriptDoubleStart (seen : Text) (c : Char) : Step :=
  if endsInnerName c then
    ([.char c], .content (.script (if isScriptName seen then .doubled 0 else .escaped 0)))
  else if Unicode.isAsciiLetter c then
    ([.char c], .content (.script (.doubleStart (Unicode.asciiLower c :: seen))))
  else scriptEscaped 0 c

/-- A character of a script. -/
def scriptStep (phase : ScriptPhase) (c : Char) : Step :=
  match phase with
  | .plain => scriptPlain c
  | .escapeStart =>
    if c = '-' then ([.char c], .content (.script .escapeStartDash)) else scriptPlain c
  | .escapeStartDash =>
    if c = '-' then ([.char c], .content (.script (.escaped 2))) else scriptPlain c
  | .escaped dashes => scriptEscaped dashes c
  | .doubled dashes => scriptDoubled dashes c
  | .doubledLessThan =>
    if c = '/' then ([.char c], .content (.script (.doubleEnd []))) else scriptDoubled 0 c
  | .doubleStart seen => scriptDoubleStart seen c
  | .doubleEnd seen =>
    if endsInnerName c then
      ([.char c], .content (.script (if isScriptName seen then .escaped 0 else .doubled 0)))
    else if Unicode.isAsciiLetter c then
      ([.char c], .content (.script (.doubleEnd (Unicode.asciiLower c :: seen))))
    else scriptDoubled 0 c

/-- A character of a text between tags. -/
def contentStep (mode : ContentMode) (c : Char) : Step :=
  match mode with
  | .data =>
    if c = '&' then ([], .textReference .data [])
    else if c = '<' then ([], .tagOpen)
    else if c.toNat = 0 then ([.nul], dataState)
    else ([.char c], dataState)
  | .escapableText =>
    if c = '&' then ([], .textReference .escapableText [])
    else if c = '<' then ([], .rawLessThan .escapableText)
    else ([.char (withoutNul c)], .content .escapableText)
  | .rawText =>
    if c = '<' then ([], .rawLessThan .rawText)
    else ([.char (withoutNul c)], .content .rawText)
  | .script phase => scriptStep phase c
  | .plainText => ([.char (withoutNul c)], .content .plainText)

/-- Emits characters that turned out to be text, and reads the next one as text. -/
def asText (text : Text) (mode : ContentMode) (c : Char) : Step :=
  let (tokens, next) := contentStep mode c
  (chars text ++ tokens, next)

/-! ### Tags -/

/-- A character where an attribute may start. A slash there says nothing. -/
def beforeAttributeStep (draft : TagDraft) (c : Char) : Step :=
  if isMarkupBlank c = true ∨ c = '/' then ([], .beforeAttribute draft)
  else if c = '>' then ([draft.token], dataState)
  else ([], .attributeName draft [nameChar c])

/-- A character of a tag's name. -/
def tagNameStep (draft : TagDraft) (c : Char) : Step :=
  if isMarkupBlank c = true ∨ c = '/' then ([], .beforeAttribute draft)
  else if c = '>' then ([draft.token], dataState)
  else ([], .tagName { draft with name := nameChar c :: draft.name })

/-- A character of an attribute's name. -/
def attributeNameStep (draft : TagDraft) (name : Text) (c : Char) : Step :=
  if isMarkupBlank c then ([], .afterAttributeName draft name)
  else if c = '/' then ([], .beforeAttribute (draft.addAttribute name []))
  else if c = '=' then ([], .beforeValue draft name)
  else if c = '>' then ([(draft.addAttribute name []).token], dataState)
  else ([], .attributeName draft (nameChar c :: name))

/-- A character after a blank that ended an attribute's name. -/
def afterAttributeNameStep (draft : TagDraft) (name : Text) (c : Char) : Step :=
  if isMarkupBlank c then ([], .afterAttributeName draft name)
  else if c = '/' then ([], .beforeAttribute (draft.addAttribute name []))
  else if c = '=' then ([], .beforeValue draft name)
  else if c = '>' then ([(draft.addAttribute name []).token], dataState)
  else ([], .attributeName (draft.addAttribute name []) [nameChar c])

/-- A character of a value in quotes. -/
def quotedValueStep (draft : TagDraft) (name : Text) (quote : Char) (value : Text) (c : Char) : Step :=
  if c = quote then ([], .beforeAttribute (draft.addAttribute name value))
  else if c = '&' then ([], .valueReference draft name (some quote) value [])
  else ([], .quotedValue draft name quote (withoutNul c :: value))

/-- A character of a value without quotes. -/
def bareValueStep (draft : TagDraft) (name value : Text) (c : Char) : Step :=
  if isMarkupBlank c then ([], .beforeAttribute (draft.addAttribute name value))
  else if c = '&' then ([], .valueReference draft name none value [])
  else if c = '>' then ([(draft.addAttribute name value).token], dataState)
  else ([], .bareValue draft name (withoutNul c :: value))

/-- A character of a value. -/
def valueStep (draft : TagDraft) (name : Text) (quote : Option Char) (value : Text) (c : Char) : Step :=
  match quote with
  | some q => quotedValueStep draft name q value c
  | none => bareValueStep draft name value c

/-- A character after an equals sign. -/
def beforeValueStep (draft : TagDraft) (name : Text) (c : Char) : Step :=
  if isMarkupBlank c then ([], .beforeValue draft name)
  else if c = '"' ∨ c = '\x27' then ([], .quotedValue draft name c [])
  else if c = '>' then ([(draft.addAttribute name []).token], dataState)
  else bareValueStep draft name [] c

/-- A character after a less-than sign. -/
def tagOpenStep (c : Char) : Step :=
  if c = '!' then ([], .declaration [])
  else if c = '/' then ([], .endTagOpen)
  else if c = '?' then ([], .bogusComment ['?'])
  else if Unicode.isAsciiLetter c then ([], .tagName ⟨false, [nameChar c], []⟩)
  else asText ['<'] .data c

/-- A character of a comment that is none by its form. -/
def bogusCommentStep (seen : Text) (c : Char) : Step :=
  if c = '>' then ([.comment seen.reverse], dataState)
  else ([], .bogusComment (withoutNul c :: seen))

/-- A character after the start of an end tag. -/
def endTagOpenStep (c : Char) : Step :=
  if c = '>' then ([.fault], dataState)
  else if Unicode.isAsciiLetter c then ([], .tagName ⟨true, [nameChar c], []⟩)
  else bogusCommentStep [] c

/-! ### Declarations and comments -/

/-- A character after `<!`: two dashes start a comment and a certain word a document type; all else is a comment
that is none by its form. -/
def declarationStep (seen : Text) (c : Char) : Step :=
  let text := (c :: seen).map Unicode.asciiLower
  if text = ['-', '-'] then ([], .comment [])
  else if text.reverse = "doctype".toList then ([], .doctype)
  else if text = ['-'] ∨ text.reverse.isPrefixOf "doctype".toList = true then ([], .declaration (c :: seen))
  else bogusCommentStep seen c

/-- Whether a greater-than sign ends a comment after what was read of it. The dashes that open the comment may
also close it, unless an exclamation mark stands after them. -/
def closesComment : Text → Bool
  | [] => true
  | ['-'] => true
  | '-' :: '-' :: _ => true
  | '!' :: '-' :: '-' :: _ => true
  | _ => false

/-- The content of a comment, without the characters that close it. -/
def commentContent (seen : Text) : Text :=
  match seen with
  | '-' :: '-' :: rest => rest.reverse
  | '!' :: '-' :: '-' :: rest => rest.reverse
  | ['-'] => []
  | rest => rest.reverse

/-- A character of a comment. -/
def commentStep (seen : Text) (c : Char) : Step :=
  if c = '>' ∧ closesComment seen = true then ([.comment (commentContent seen)], dataState)
  else ([], .comment (withoutNul c :: seen))

/-! ### Raw texts -/

/-- A character after a less-than sign in raw text. -/
def rawLessThanStep (mode : ContentMode) (c : Char) : Step :=
  if c = '/' then ([], .rawEndTagOpen mode)
  else if c = '!' ∧ mode = .script .plain then (chars ['<', '!'], .content (.script .escapeStart))
  else if Unicode.isAsciiLetter c = true ∧ mode = .script (.escaped 0) then
    let (tokens, next) := scriptDoubleStart [] c
    (.char '<' :: tokens, next)
  else asText ['<'] mode c

/-- A character after `</` in raw text. -/
def rawEndTagOpenStep (mode : ContentMode) (c : Char) : Step :=
  if Unicode.isAsciiLetter c then ([], .rawEndTagName mode [c]) else asText ['<', '/'] mode c

/-- A character of what may be the end tag of raw text: it is one only with the name of the last start tag. -/
def rawEndTagNameStep (lastStart : Text) (mode : ContentMode) (seen : Text) (c : Char) : Step :=
  let name := seen.map Unicode.asciiLower
  let draft : TagDraft := ⟨true, name, []⟩
  if name.reverse = lastStart ∧ (isMarkupBlank c = true ∨ c = '/') then ([], .beforeAttribute draft)
  else if name.reverse = lastStart ∧ c = '>' then ([draft.token], dataState)
  else if Unicode.isAsciiLetter c then ([], .rawEndTagName mode (c :: seen))
  else asText ('<' :: '/' :: seen.reverse) mode c

/-! ### References -/

/-- The tokens of a decoded reference in a text. -/
def referenceTokens (decoded : Decoded) : List Token :=
  (if decoded.unterminated then [.fault] else []) ++ chars decoded.chars

/-- A character after an ampersand in a text. -/
def textReferenceStep (names : ReferenceTable) (mode : ContentMode) (seen : Text) (c : Char) : Step :=
  if continuesReference names seen.reverse c then ([], .textReference mode (c :: seen))
  else
    let (tokens, next) := contentStep mode c
    (referenceTokens (decodeReference names false seen.reverse (some c)) ++ tokens, next)

/-- A character after an ampersand in a value. -/
def valueReferenceStep (names : ReferenceTable) (draft : TagDraft) (name : Text) (quote : Option Char)
    (value seen : Text) (c : Char) : Step :=
  if continuesReference names seen.reverse c then ([], .valueReference draft name quote value (c :: seen))
  else
    let decoded := decodeReference names true seen.reverse (some c)
    valueStep draft name quote (decoded.chars.reverse ++ value) c

/-! ### The whole -/

/-- A character in any state. -/
def stepState (names : ReferenceTable) (lastStart : Text) (state : LexState) (c : Char) : Step :=
  match state with
  | .content mode => contentStep mode c
  | .tagOpen => tagOpenStep c
  | .endTagOpen => endTagOpenStep c
  | .tagName draft => tagNameStep draft c
  | .beforeAttribute draft => beforeAttributeStep draft c
  | .attributeName draft name => attributeNameStep draft name c
  | .afterAttributeName draft name => afterAttributeNameStep draft name c
  | .beforeValue draft name => beforeValueStep draft name c
  | .quotedValue draft name quote value => quotedValueStep draft name quote value c
  | .bareValue draft name value => bareValueStep draft name value c
  | .declaration seen => declarationStep seen c
  | .comment seen => commentStep seen c
  | .bogusComment seen => bogusCommentStep seen c
  | .doctype => if c = '>' then ([.fault], dataState) else ([], .doctype)
  | .rawLessThan mode => rawLessThanStep mode c
  | .rawEndTagOpen mode => rawEndTagOpenStep mode c
  | .rawEndTagName mode seen => rawEndTagNameStep lastStart mode seen c
  | .textReference mode seen => textReferenceStep names mode seen c
  | .valueReference draft name quote value seen => valueReferenceStep names draft name quote value seen c

/-- The name of the last start tag after some tokens. -/
def lastStartAfter (lastStart : Text) : List Token → Text
  | [] => lastStart
  | .startTag tag :: rest => lastStartAfter tag.name rest
  | _ :: rest => lastStartAfter lastStart rest

/-- The lexer at the start of a text. -/
def initial : Lexer := ⟨dataState, []⟩

/-- Reads a character: the tokens that it completes, and the lexer after it. -/
def step (names : ReferenceTable) (lexer : Lexer) (c : Char) : List Token × Lexer :=
  let (tokens, state) := stepState names lexer.lastStart lexer.state c
  (tokens, ⟨state, lastStartAfter lexer.lastStart tokens⟩)

/-- The tokens that the end of the text completes. A tag that is not finished is lost. -/
def finish (names : ReferenceTable) (lexer : Lexer) : List Token :=
  match lexer.state with
  | .tagOpen => chars ['<']
  | .endTagOpen => chars ['<', '/']
  | .declaration seen => [.comment seen.reverse]
  | .comment seen => [.comment (commentContent seen)]
  | .bogusComment seen => [.comment seen.reverse]
  | .doctype => [.fault]
  | .rawLessThan _ => chars ['<']
  | .rawEndTagOpen _ => chars ['<', '/']
  | .rawEndTagName _ seen => chars ('<' :: '/' :: seen.reverse)
  | .textReference _ seen => referenceTokens (decodeReference names false seen.reverse none)
  | _ => []

end Lexer

/-- Line ends as line feeds: a carriage return with the line feed after it, or alone, is one. -/
def normalizeLines : Text → Text
  | [] => []
  | '\r' :: '\n' :: rest => '\n' :: normalizeLines rest
  | '\r' :: rest => '\n' :: normalizeLines rest
  | c :: rest => c :: normalizeLines rest

/-- The text without a byte order mark in front. -/
def withoutMark : Text → Text
  | [] => []
  | c :: rest => if c.toNat = 0xFEFF then rest else c :: rest

end MapEmbed.Html
