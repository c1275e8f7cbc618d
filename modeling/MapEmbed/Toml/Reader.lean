import MapEmbed.Toml.Scalar

/-!
# Reading a settings text

A text is a sequence of lines: a key with its value, a header that names a table, a comment, or nothing. Values may
run over several lines inside arrays and long strings. Arrays and tables in braces nest at most 79 deep, and no key
has more parts.
-/

namespace MapEmbed.Toml

/-- How deep arrays and tables in braces may nest. -/
def greatestDepth : Nat := 79

/-- May stand in a key without quotes. -/
def isBareKeyChar (c : Char) : Bool :=
  Unicode.isAsciiAlphanumeric c || c == '_' || c == '-'

/-- Takes one part of a key. -/
def takeKeyPart? (text : Text) : Option (Text × Text) :=
  match text with
  | '"' :: rest => takeBasic? 0 rest
  | '\x27' :: rest => takeLiteral? rest
  | _ =>
    let part := text.takeWhile isBareKeyChar
    if part.isEmpty then none else some (part, text.dropWhile isBareKeyChar)

/-- Takes a key with at most so many parts; blanks may stand around the points. -/
def takeKey? : Nat → Text → Option (List Text × Text)
  | 0, _ => none
  | limit + 1, text =>
    match takeKeyPart? (skipLineBlanks text) with
    | none => none
    | some (part, after) =>
      match skipLineBlanks after with
      | '.' :: rest => (takeKey? limit rest).map fun (parts, left) => (part :: parts, left)
      | left => some ([part], left)

/-- Cuts the last part off a key. -/
def splitLast? : List Text → Option (List Text × Text)
  | [] => none
  | [last] => some ([], last)
  | first :: second :: rest => (splitLast? (second :: rest)).map fun (parts, last) => (first :: parts, last)

/-- Passes over a comment, which must hold plain characters only. -/
def skipComment? : Text → Option Text
  | '#' :: rest =>
    match rest.dropWhile isPlainChar with
    | [] => some []
    | left => if (takeLineEnd? left).isSome then some left else none
  | text => some text

/-- Passes over blanks, line ends and comments between the items of an array. -/
def skipBetween? : Nat → Text → Option Text
  | 0, text => some text
  | fuel + 1, text =>
    match skipLineBlanks text with
    | '#' :: rest => (skipComment? ('#' :: rest)).bind (skipBetween? fuel)
    | left =>
      match takeLineEnd? left with
      | some after => skipBetween? fuel after
      | none => some left

/-- Takes a word. -/
def takeWord? (word : String) (value : Value) (text : Text) : Option (Value × Text) :=
  if word.toList.isPrefixOf text then some (value, text.drop word.length) else none

mutual

/-- Takes a value that nests at most `levels` deep; `fuel` bounds the steps. -/
def takeValue? : Nat → Nat → Text → Option (Value × Text)
  | 0, _, _ => none
  | _ + 1, _, [] => none
  | fuel + 1, levels, c :: rest =>
    if c = '"' ∨ c = '\x27' then
      (takeString? (c :: rest)).map fun (text, after) => (.string text, after)
    else if c = '[' then
      if levels = 0 then none
      else (takeItems? fuel (levels - 1) rest).map fun (items, after) => (.array items, after)
    else if c = '\x7b' then
      if levels = 0 then none
      else
        match skipLineBlanks rest with
        | '\x7d' :: after => some (.table .braces [], after)
        | fields => (takeFields? fuel (levels - 1) [] fields).map fun (entries, after) =>
            (.table .braces entries, after)
    else if c = 't' then takeWord? "true" (.boolean true) (c :: rest)
    else if c = 'f' then takeWord? "false" (.boolean false) (c :: rest)
    else takeDate? (c :: rest) <|> takeNumber? (c :: rest)

/-- Takes the rest of an array. A comma may stand after the last item. -/
def takeItems? : Nat → Nat → Text → Option (List Value × Text)
  | 0, _, _ => none
  | fuel + 1, levels, text =>
    match skipBetween? text.length text with
    | none => none
    | some (']' :: after) => some ([], after)
    | some start =>
      match takeValue? fuel levels start with
      | none => none
      | some (item, afterItem) =>
        match skipBetween? afterItem.length afterItem with
        | some (',' :: more) => (takeItems? fuel levels more).map fun (items, after) => (item :: items, after)
        | some (']' :: after) => some ([item], after)
        | _ => none

/-- Takes the rest of a table in braces that has the given entries and gets at least one more. -/
def takeFields? : Nat → Nat → Entries → Text → Option (Entries × Text)
  | 0, _, _, _ => none
  | fuel + 1, levels, entries, text =>
    match takeKey? greatestDepth text with
    | none => none
    | some (parts, afterKey) =>
      match splitLast? parts, afterKey with
      | some (path, key), '=' :: rest =>
        match takeValue? fuel levels (skipLineBlanks rest) with
        | none => none
        | some (value, afterValue) =>
          match Entries.addDotted key value path true entries with
          | none => none
          | some added =>
            match skipLineBlanks afterValue with
            | ',' :: more => takeFields? fuel levels added more
            | '\x7d' :: after => some (added, after)
            | _ => none
      | _, _ => none

end

/-- What has been read: the entries of the whole, and the path of the table that was named last. -/
structure Document where
  entries : Entries
  current : List Text

/-- Takes what may follow on a line: blanks, a comment, and the line end or the end of the text. -/
def takeLineRest? (text : Text) : Option Text :=
  (skipComment? (skipLineBlanks text)).bind fun left =>
    if left.isEmpty then some [] else takeLineEnd? left

/-- Adds a value to the table that was named last. -/
def Document.add? (d : Document) (key : List Text) (value : Value) : Option Document :=
  (splitLast? key).bind fun (parts, last) =>
    let added :=
      match splitLast? d.current with
      | none => Entries.addDotted last value parts true d.entries
      | some (path, table) => Entries.alterAt (Entries.addTo parts last value) table path d.entries
    added.map fun entries => { d with entries }

/-- Names a table. -/
def Document.open? (d : Document) (key : List Text) (change : Text → Entries → Option Entries) : Option Document :=
  (splitLast? key).bind fun (path, table) =>
    (Entries.alterAt change table path d.entries).map fun entries => ⟨entries, key⟩

/-- Takes a header: the document after it, and the rest of the line. -/
def takeHeader? (d : Document) (text : Text) : Option (Document × Text) :=
  match text with
  | '[' :: '[' :: rest =>
    match takeKey? greatestDepth rest with
    | some (key, ']' :: ']' :: after) => (d.open? key Entries.openItem).map fun opened => (opened, after)
    | _ => none
  | '[' :: rest =>
    match takeKey? greatestDepth rest with
    | some (key, ']' :: after) => (d.open? key Entries.openTable).map fun opened => (opened, after)
    | _ => none
  | _ => none

/-- Takes a key with its value: the document after it, and the rest of the line. -/
def takeAssignment? (d : Document) (text : Text) : Option (Document × Text) :=
  match takeKey? greatestDepth text with
  | some (key, '=' :: rest) =>
    match takeValue? (2 * rest.length + 2) greatestDepth (skipLineBlanks rest) with
    | some (value, after) => (d.add? key value).map fun added => (added, after)
    | none => none
  | _ => none

/-- Reads the lines of a text, at most `limit` of them. -/
def readLines? : Nat → Document → Text → Option Document
  | 0, _, _ => none
  | limit + 1, d, text =>
    match skipLineBlanks text with
    | [] => some d
    | c :: rest =>
      if c = '#' ∨ c = '\n' ∨ c = '\r' then
        (takeLineRest? (c :: rest)).bind (readLines? limit d)
      else
        let taken := if c = '[' then takeHeader? d (c :: rest) else takeAssignment? d (c :: rest)
        taken.bind fun (after, left) => (takeLineRest? left).bind (readLines? limit after)

/-- Reads a whole text. A byte order mark in front is passed over. -/
def parse? (text : Text) : Option Entries :=
  let body :=
    match text with
    | [] => []
    | c :: rest => if c.toNat = 0xFEFF then rest else c :: rest
  (readLines? (body.length + 1) ⟨[], []⟩ body).map Document.entries

end MapEmbed.Toml
