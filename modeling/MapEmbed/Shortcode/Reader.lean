import MapEmbed.Shortcode.Basic
import MapEmbed.Unicode.Letter

/-!
# Reading one shortcode

The reader looks at the text after a `[` and either takes a whole occurrence off its front or finds none. The
tag is the first of a given list that stands there with no word character or hyphen after it; the attribute
text ends at the first `]` or `/]`; the content ends at the first closing tag with the same name. Every step
splits its text and loses nothing, so an occurrence and the rest make up the text that was read.
-/

namespace MapEmbed.Shortcode

/-- How names are compared. -/
inductive CaseMode where
  | exact
  /-- Seven-bit letters count as equal in both cases. -/
  | ignoring
  deriving DecidableEq, Repr

/-- Whether a name in the text is the wanted one. -/
def CaseMode.same : CaseMode → Text → Text → Bool
  | .exact, wanted, written => written == wanted
  | .ignoring, wanted, written => written.map Unicode.asciiLower == wanted.map Unicode.asciiLower

/-- A name ends where the text ends or a character follows that cannot continue it. -/
def endsName : Text → Bool
  | [] => true
  | c :: _ => !(Unicode.isAlphanumeric c || c == '_' || c == '-')

/-- Takes one tag off the front of a text. -/
def takeTag? (mode : CaseMode) (text tag : Text) : Option (Text × Text) :=
  let written := text.take tag.length
  let rest := text.drop tag.length
  if mode.same tag written && endsName rest then some (written, rest) else none

/-- Taking a tag loses nothing. -/
theorem takeTag?_append {mode : CaseMode} {text tag written rest : Text}
    (taken : takeTag? mode text tag = some (written, rest)) : text = written ++ rest := by
  simp only [takeTag?, Option.ite_none_right_eq_some, Option.some.injEq, Prod.mk.injEq] at taken
  obtain ⟨-, rfl, rfl⟩ := taken
  simp

/-- Takes the first of several tags that fits off the front of a text. -/
def takeFirstTag? (mode : CaseMode) (tags : List Text) (text : Text) : Option (Text × Text) :=
  tags.findSome? (takeTag? mode text)

/-- Taking the first tag that fits loses nothing. -/
theorem takeFirstTag?_append {mode : CaseMode} {tags : List Text} {text written rest : Text}
    (taken : takeFirstTag? mode tags text = some (written, rest)) : text = written ++ rest := by
  obtain ⟨_, tag, _, _, fits, _⟩ := List.findSome?_eq_some_iff.mp taken
  exact takeTag?_append fits

/-- Takes the attribute text and the end of an opening tag: the raw attributes, whether the tag closes itself,
and the rest. A slash that no `]` follows belongs to the attributes. -/
def takeAttributes? : Text → Option (Text × Bool × Text)
  | [] => none
  | ']' :: rest => some ([], false, rest)
  | '/' :: ']' :: rest => some ([], true, rest)
  | c :: rest => (takeAttributes? rest).map fun (raw, selfClosing, after) => (c :: raw, selfClosing, after)

/-- Taking the attribute text loses nothing. -/
theorem takeAttributes?_append {text raw rest : Text} {selfClosing : Bool}
    (taken : takeAttributes? text = some (raw, selfClosing, rest)) :
    text = raw ++ (if selfClosing then ['/', ']'] else [']']) ++ rest := by
  fun_induction takeAttributes? text generalizing raw with
  | case1 => simp at taken
  | case2 after =>
    simp only [Option.some.injEq, Prod.mk.injEq] at taken
    obtain ⟨rfl, rfl, rfl⟩ := taken
    rfl
  | case3 after =>
    simp only [Option.some.injEq, Prod.mk.injEq] at taken
    obtain ⟨rfl, rfl, rfl⟩ := taken
    rfl
  | case4 c after _ _ ih =>
    obtain ⟨⟨inner, closing, left⟩, found, same⟩ := Option.map_eq_some_iff.mp taken
    simp only [Prod.mk.injEq] at same
    obtain ⟨rfl, rfl, rfl⟩ := same
    simp [ih found]

/-- Takes a closing tag of the given name off the front of a text: its name as written, and the rest. -/
def takeClosing? (mode : CaseMode) (tag : Text) : Text → Option (Text × Text)
  | '[' :: '/' :: rest =>
    match rest.drop tag.length with
    | ']' :: after =>
      let written := rest.take tag.length
      if mode.same tag written then some (written, after) else none
    | _ => none
  | _ => none

/-- Taking a closing tag loses nothing. -/
theorem takeClosing?_append {mode : CaseMode} {tag text written rest : Text}
    (taken : takeClosing? mode tag text = some (written, rest)) :
    text = ['[', '/'] ++ written ++ [']'] ++ rest := by
  unfold takeClosing? at taken
  split at taken
  · rename_i inner
    split at taken
    · rename_i after cut
      simp only [Option.ite_none_right_eq_some, Option.some.injEq, Prod.mk.injEq] at taken
      obtain ⟨-, rfl, rfl⟩ := taken
      simp [← cut]
    · simp at taken
  · simp at taken

/-- Splits a text at the first closing tag of the given name: content, name as written, and the rest. -/
def splitAtClosing? (mode : CaseMode) (tag : Text) : Text → Option (Text × Text × Text)
  | [] => none
  | c :: rest =>
    match takeClosing? mode tag (c :: rest) with
    | some (written, after) => some ([], written, after)
    | none =>
      (splitAtClosing? mode tag rest).map fun (content, written, after) => (c :: content, written, after)

/-- Splitting at a closing tag loses nothing. -/
theorem splitAtClosing?_append {mode : CaseMode} {tag text content written rest : Text}
    (taken : splitAtClosing? mode tag text = some (content, written, rest)) :
    text = content ++ ['[', '/'] ++ written ++ [']'] ++ rest := by
  induction text generalizing content with
  | nil => simp [splitAtClosing?] at taken
  | cons c later ih =>
    unfold splitAtClosing? at taken
    split at taken
    · rename_i closing
      simp only [Option.some.injEq, Prod.mk.injEq] at taken
      obtain ⟨rfl, rfl, rfl⟩ := taken
      simpa using takeClosing?_append closing
    · obtain ⟨⟨inner, name, left⟩, found, same⟩ := Option.map_eq_some_iff.mp taken
      simp only [Prod.mk.injEq] at same
      obtain ⟨rfl, rfl, rfl⟩ := same
      simp [ih found]

/-- Takes the body that follows an opening tag. -/
def takeBody (mode : CaseMode) (tag : Text) (selfClosing : Bool) (text : Text) : Body × Text :=
  if selfClosing then
    (.selfClosing, text)
  else
    match splitAtClosing? mode tag text with
    | some (content, written, after) => (.enclosing content written, after)
    | none => (.unclosed, text)

/-- Taking a body loses nothing. -/
theorem takeBody_append (mode : CaseMode) (tag : Text) (selfClosing : Bool) (text : Text) :
    (takeBody mode tag selfClosing text).1.source ++ (takeBody mode tag selfClosing text).2 = text := by
  unfold takeBody
  split
  · rfl
  · split
    · rename_i closing
      exact (splitAtClosing?_append closing).symm
    · rfl

/-- The body is the self-closing one if and only if the opening tag closes itself. -/
theorem takeBody_selfClosing (mode : CaseMode) (tag : Text) (selfClosing : Bool) (text : Text) :
    (takeBody mode tag selfClosing text).1 = .selfClosing ↔ selfClosing = true := by
  unfold takeBody
  split
  · simp_all
  · split <;> simp_all

/-- Takes an extra bracket off the front of a text. -/
def takeBracket (bracket : Char) : Text → Bool × Text
  | [] => (false, [])
  | c :: rest => if c = bracket then (true, rest) else (false, c :: rest)

/-- Taking a bracket loses nothing. -/
theorem takeBracket_append (bracket : Char) (text : Text) :
    (if (takeBracket bracket text).1 then [bracket] else []) ++ (takeBracket bracket text).2 = text := by
  cases text with
  | nil => rfl
  | cons c rest =>
    by_cases same : c = bracket <;> simp [takeBracket, same]

/-- Takes an occurrence off the front of a text whose first `[` is already taken. -/
def Occurrence.take? (mode : CaseMode) (tags : List Text) (text : Text) : Option (Occurrence × Text) :=
  let (before, inner) := takeBracket '[' text
  match takeFirstTag? mode tags inner with
  | none => none
  | some (tag, afterTag) =>
    match takeAttributes? afterTag with
    | none => none
    | some (raw, selfClosing, afterOpening) =>
      let (body, afterBody) := takeBody mode tag selfClosing afterOpening
      let (after, rest) := takeBracket ']' afterBody
      some (⟨⟨before, after⟩, tag, raw, body⟩, rest)

/-- An occurrence is read from exactly its source text. -/
theorem Occurrence.source_append {mode : CaseMode} {tags : List Text} {text rest : Text} {o : Occurrence}
    (taken : Occurrence.take? mode tags text = some (o, rest)) : '[' :: text = o.source ++ rest := by
  unfold Occurrence.take? at taken
  have split_before := takeBracket_append '[' text
  generalize takeBracket '[' text = bracketed at taken split_before
  obtain ⟨before, inner⟩ := bracketed
  simp only at taken split_before
  split at taken
  · simp at taken
  · rename_i tag afterTag tagged
    split at taken
    · simp at taken
    · rename_i raw selfClosing afterOpening attributed
      simp only [Option.some.injEq, Prod.mk.injEq] at taken
      obtain ⟨rfl, rfl⟩ := taken
      have split_body := takeBody_append mode tag selfClosing afterOpening
      have closes := takeBody_selfClosing mode tag selfClosing afterOpening
      generalize takeBody mode tag selfClosing afterOpening = bodied at split_body closes
      obtain ⟨body, afterBody⟩ := bodied
      have split_after := takeBracket_append ']' afterBody
      generalize takeBracket ']' afterBody = ending at split_after
      obtain ⟨after, rest⟩ := ending
      simp only at split_body split_after closes
      rw [← split_before, takeFirstTag?_append tagged, takeAttributes?_append attributed, ← split_body,
        ← split_after]
      cases before <;> cases selfClosing <;> simp_all [Occurrence.source, Occurrence.opening, Occurrence.afterOpening]

/-- What is left is the text after as many characters as the reader took. -/
theorem Occurrence.drop_source {mode : CaseMode} {tags : List Text} {text rest : Text} {o : Occurrence}
    (taken : Occurrence.take? mode tags text = some (o, rest)) : text.drop (text.length - rest.length) = rest := by
  have whole := Occurrence.source_append taken
  have starts : o.source = '[' :: o.source.tail := by
    simp only [Occurrence.source, Occurrence.opening]
    cases o.brackets.before <;> rfl
  rw [starts, List.cons_append, List.cons.injEq] at whole
  obtain ⟨-, rfl⟩ := whole
  simp

end MapEmbed.Shortcode
