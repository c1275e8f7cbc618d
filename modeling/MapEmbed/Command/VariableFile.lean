import MapEmbed.File.Plan
import MapEmbed.Unicode.Class

/-!
# Variables from a file

Besides its surroundings a program takes variables from a file of assignments, one on a line. What the surroundings
set already stays. A value can be quoted, hold escapes, and refer to variables by name, those of earlier lines
among them. The file is read up to the first line that is no assignment.

The file is looked for in the working directory. Where it is missing there a run would go on to the directories above;
these are outside the files of a plan, so here nothing is loaded then.
-/

namespace MapEmbed.VariableFile

/-- A part of a value. -/
inductive Piece where
  | literal (c : Char)
  /-- The value of a variable; nothing if there is none. -/
  | reference (name : Text)
  deriving DecidableEq, Repr

/-- A line that sets a variable. -/
structure Assignment where
  name : Text
  value : List Piece
  deriving DecidableEq, Repr

/-! ### Values -/

/-- Where in a value a reader stands. -/
inductive Place where
  /-- Outside quotes. -/
  | bare
  /-- Within single quotes, where every character stands for itself. -/
  | single
  /-- Within double quotes. -/
  | double
  /-- After a backslash. -/
  | escape (quoted : Bool)
  /-- Within a name after a dollar sign. -/
  | name (quoted : Bool) (begun : Text)
  /-- Within a name in braces. -/
  | braced (quoted : Bool) (begun : Text)
  /-- After a blank outside quotes, where only a comment may follow. -/
  | ending

/-- Within double quotes or outside all. -/
def Place.back : Bool → Place
  | true => .double
  | false => .bare

/-- The character that an escape stands for. -/
def escaped? (c : Char) : Option Char :=
  if c = 'n' then some '\n'
  else if c = '\\' ∨ c = '\x27' ∨ c = '"' ∨ c = '$' ∨ c = ' ' then some c
  else none

/-- What one character adds to a value, and where the reader stands after it; nothing if it may not stand there. -/
def step? : Place → Char → Option (List Piece × Place)
  | .bare, c =>
    if c = '$' then some ([], .name false [])
    else if c = '\x27' then some ([], .single)
    else if c = '"' then some ([], .double)
    else if c = '\\' then some ([], .escape false)
    else if c = ' ' ∨ c = '\t' then some ([], .ending)
    else some ([.literal c], .bare)
  | .single, c => if c = '\x27' then some ([], .bare) else some ([.literal c], .single)
  | .double, c =>
    if c = '$' then some ([], .name true [])
    else if c = '"' then some ([], .bare)
    else if c = '\\' then some ([], .escape true)
    else some ([.literal c], .double)
  | .escape quoted, c => (escaped? c).map fun meant => ([.literal meant], Place.back quoted)
  | .name quoted begun, c =>
    if Unicode.isAlphanumeric c then some ([], .name quoted (begun ++ [c]))
    else if c = '\x7b' ∧ begun = [] then some ([], .braced quoted [])
    else if c = '$' then some ([.reference begun], .name quoted [])
    else some ([.reference begun, .literal c], Place.back quoted)
  | .braced quoted begun, c =>
    if c = '\x7d' then some ([.reference begun], Place.back quoted)
    else some ([], .braced quoted (begun ++ [c]))
  | .ending, c => if c = ' ' ∨ c = '\t' then some ([], .ending) else none

/-- What the end of the value adds; nothing where the value cannot end. -/
def finish? : Place → Option (List Piece)
  | .bare => some []
  | .ending => some []
  | .escape quoted => if quoted then none else some []
  | .name quoted begun => if quoted then none else some [.reference begun]
  | .single => none
  | .double => none
  | .braced _ _ => none

/-- Whether a comment begins at a character. -/
def beginsComment : Place → Char → Bool
  | .ending, c => c == '#'
  | _, _ => false

/-- Reads the rest of a value. -/
def readValue? (place : Place) : Text → Option (List Piece)
  | [] => finish? place
  | c :: rest =>
    if beginsComment place c then some []
    else (step? place c).bind fun (pieces, next) => (readValue? next rest).map (pieces ++ ·)

/-! ### Lines -/

/-- May stand in a name, of which it is not the first character. -/
def isNameChar (c : Char) : Bool :=
  Unicode.isAsciiAlphanumeric c || c == '_' || c == '.'

/-- Takes a name and the blanks after it. -/
def takeName? : Text → Option (Text × Text)
  | [] => none
  | c :: rest =>
    if isNameChar c && !Unicode.isAsciiDigit c && c != '.' then
      some (c :: rest.takeWhile isNameChar, (rest.dropWhile isNameChar).dropWhile Unicode.isBlank)
    else none

/-- Takes a name and the sign of equality. The word `export` may stand in front; without a name after it, it is
the name. -/
def takeTarget? (line : Text) : Option (Text × Text) :=
  match takeName? line with
  | none => none
  | some (name, '=' :: rest) => some (name, rest)
  | some (name, rest) =>
    if name = "export".toList then
      match takeName? rest with
      | some (exported, '=' :: value) => some (exported, value)
      | _ => none
    else none

/-- What a line holds. -/
inductive Line where
  | blank
  | assignment (assignment : Assignment)
  | malformed
  deriving DecidableEq, Repr

/-- Whether nothing but a comment is there. -/
def isVoid : Text → Bool
  | [] => true
  | c :: _ => c == '#'

/-- Reads an assignment. -/
def assignment? (line : Text) : Option Assignment :=
  (takeTarget? line).bind fun (name, rest) =>
    let value := rest.dropWhile Unicode.isBlank
    if isVoid value then some ⟨name, []⟩ else (readValue? .bare value).map fun pieces => ⟨name, pieces⟩

/-- Reads a line. -/
def Line.ofText (text : Text) : Line :=
  let line := text.trim
  if isVoid line then .blank
  else
    match assignment? line with
    | some found => .assignment found
    | none => .malformed

/-- Reads the bytes of a line. -/
def Line.ofBytes (bytes : List UInt8) : Line :=
  match Utf8.decode? bytes with
  | some text => .ofText text
  | none => .malformed

/-- The lines of a file. -/
def linesOf (bytes : List UInt8) : List (List UInt8) :=
  bytes.splitOn 10

/-! ### Loading -/

/-- The value of a variable, one that the file set or one of the surroundings. -/
def valueOf (loaded : Variables) (name : Text) : Plan (Option Text) :=
  match loaded.get? name with
  | some value => pure (some value)
  | none => Plan.variableValue name

/-- The text that the pieces of a value stand for. -/
def textOf (loaded : Variables) : List Piece → Plan Text
  | [] => pure []
  | .literal c :: rest => do return c :: (← textOf loaded rest)
  | .reference name :: rest => do
    let value ← valueOf loaded name
    return value.getD [] ++ (← textOf loaded rest)

/-- Sets a variable unless it has a value. -/
def assign (loaded : Variables) (assignment : Assignment) : Plan Variables := do
  let text ← textOf loaded assignment.value
  match ← valueOf loaded assignment.name with
  | some _ => return loaded
  | none => return loaded.insert assignment.name text

/-- Loads lines up to the first that is no assignment. -/
def loadLines (loaded : Variables) : List (List UInt8) → Plan Variables
  | [] => pure loaded
  | bytes :: rest =>
    match Line.ofBytes bytes with
    | .blank => loadLines loaded rest
    | .malformed => pure loaded
    | .assignment found => do loadLines (← assign loaded found) rest

/-- The file that variables are taken from. -/
def path : Text :=
  ".env".toList

/-- Loads the file; one that is missing sets nothing. -/
def load : Plan Variables := do
  match ← Plan.readBytes path with
  | .ok bytes => loadLines OrderedMap.empty (linesOf bytes)
  | .error _ => return OrderedMap.empty

end MapEmbed.VariableFile
