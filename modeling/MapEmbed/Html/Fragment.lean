import MapEmbed.Html.Modes
import MapEmbed.Html.Lexer

/-!
# Reading a fragment of markup

A fragment is read as the content of a body: the lexer cuts it into tokens, and the builder makes nodes of them
and tells the lexer where raw text starts. Every text is a fragment. Which names of references are known is a table
that the reader is given. The elements of embedded drawings and formulas have no rules of their own here: they are
read like any element of unknown name.
-/

namespace MapEmbed.Html

/-- The lexer and the builder while a fragment is read. -/
structure Parser where
  lexer : Lexer
  builder : Builder

namespace Parser

/-- The parser at the start of a fragment. -/
def initial : Parser := ⟨Lexer.initial, Builder.initial⟩

/-- Deals with one token. -/
def accept (p : Parser) (token : Token) : Parser :=
  match p.builder.accept token with
  | (builder, none) => { p with builder }
  | (builder, some mode) => ⟨{ p.lexer with state := .content mode }, builder⟩

/-- Reads one character. -/
def feed (names : ReferenceTable) (p : Parser) (c : Char) : Parser :=
  let (tokens, lexer) := p.lexer.step names c
  tokens.foldl accept { p with lexer }

/-- The nodes at the end of the fragment. -/
def finish (names : ReferenceTable) (p : Parser) : List Node :=
  let ended := (p.lexer.finish names).foldl accept p
  ended.builder.finish.forest.childTrees 0

end Parser

/-- The nodes of a fragment of markup, for a table of names. -/
def parseFragmentWith (names : ReferenceTable) (markup : Text) : List Node :=
  ((normalizeLines (withoutMark markup)).foldl (Parser.feed names) Parser.initial).finish names

/-- The nodes of a fragment of markup. -/
def parseFragment (markup : Text) : List Node :=
  parseFragmentWith namedReferences markup

end MapEmbed.Html
