import MapEmbed.Proofs.Shortcode.Closing

/-!
# Where an occurrence stands

Whether an occurrence is read from the front of a text depends on its pieces and on little of what follows: an
unclosed one on there being no closing tag of its name in the whole rest, one without an extra bracket behind it
on the next character, and all others on nothing. `Stands` is that condition, and it is exact: the reader takes
an occurrence if and only if it stands before the rest that the reader leaves.
-/

namespace MapEmbed.Shortcode

/-- The body that a text after an opening tag gives. An unclosed one needs a text in which nothing closes. -/
def Body.Stands (mode : CaseMode) (tag : Text) : Body → Text → Prop
  | .selfClosing, _ => True
  | .unclosed, after => splitAtClosing? mode tag after = none
  | .enclosing content written, _ => splitAtClosing? mode tag content = none ∧ mode.same tag written = true

instance (mode : CaseMode) (tag : Text) (body : Body) (after : Text) : Decidable (body.Stands mode tag after) :=
  match body with
  | .selfClosing => inferInstanceAs (Decidable True)
  | .unclosed => inferInstanceAs (Decidable (_ = _))
  | .enclosing _ _ => inferInstanceAs (Decidable (_ = _ ∧ _ = _))

/-- An occurrence of one of the given tags, as it is read before `rest`. -/
structure Occurrence.Stands (mode : CaseMode) (tags : List Text) (o : Occurrence) (rest : Text) : Prop where
  /-- The name is that of one of the tags. -/
  listed : ∃ tag ∈ tags, mode.same tag o.tag = true
  /-- The attribute text does not continue the name. -/
  apart : endsName o.rawAttributes = true
  /-- The attribute text ends at the first closing bracket. -/
  closed : ']' ∉ o.rawAttributes
  /-- Only a tag that closes itself has a slash before that bracket. -/
  open_ : o.body ≠ .selfClosing → o.rawAttributes.getLast? ≠ some '/'
  /-- The body is the one that follows the opening tag. -/
  body : o.body.Stands mode o.tag ((if o.brackets.after then [']'] else []) ++ rest)
  /-- An extra bracket behind belongs to the occurrence. -/
  ended : o.brackets.after = false → rest.head? ≠ some ']'

/-- Whether an occurrence stands can be found out piece by piece. -/
theorem Occurrence.stands_iff {mode : CaseMode} {tags : List Text} {o : Occurrence} {rest : Text} :
    o.Stands mode tags rest ↔ (∃ tag ∈ tags, mode.same tag o.tag = true) ∧ endsName o.rawAttributes = true ∧
      ']' ∉ o.rawAttributes ∧ (o.body ≠ .selfClosing → o.rawAttributes.getLast? ≠ some '/') ∧
      o.body.Stands mode o.tag ((if o.brackets.after then [']'] else []) ++ rest) ∧
      (o.brackets.after = false → rest.head? ≠ some ']') := by
  constructor
  · intro stands
    exact ⟨stands.listed, stands.apart, stands.closed, stands.open_, stands.body, stands.ended⟩
  · rintro ⟨listed, apart, closed, open_, body, ended⟩
    exact ⟨listed, apart, closed, open_, body, ended⟩

instance (mode : CaseMode) (tags : List Text) (o : Occurrence) (rest : Text) : Decidable (o.Stands mode tags rest) :=
  decidable_of_iff' _ Occurrence.stands_iff

/-- The source text after its first bracket. -/
def Occurrence.inner (o : Occurrence) : Text :=
  (if o.brackets.before then ['['] else []) ++
    (o.tag ++ (o.rawAttributes ++
      ((if o.body = .selfClosing then ['/', ']'] else [']']) ++
        (o.body.source ++ (if o.brackets.after then [']'] else [])))))

/-- Every occurrence starts with a bracket. -/
theorem Occurrence.source_eq (o : Occurrence) : o.source = '[' :: o.inner := by
  unfold Occurrence.source Occurrence.opening Occurrence.afterOpening Occurrence.inner
  cases o.brackets.before <;> simp

/-! ### The reader's steps, forwards -/

/-- Only one reading of a tag fits in front of a text that ends names: a shorter tag would go on in it, and a
longer one would have to continue in that text. -/
theorem takeTag?_unique {mode : CaseMode} {tag written rest first left : Text} (named : IsName tag)
    (continued : ∀ c ∈ written, continuesName c = true) (ends : endsName rest = true)
    (taken : takeTag? mode (written ++ rest) tag = some (first, left)) : first = written ∧ left = rest := by
  simp only [takeTag?, Option.ite_none_right_eq_some, Option.some.injEq, Prod.mk.injEq, Bool.and_eq_true] at taken
  obtain ⟨⟨same, stops⟩, rfl, rfl⟩ := taken
  rcases Nat.lt_trichotomy tag.length written.length with shorter | equal | longer
  · rw [List.drop_append_of_le_length (Nat.le_of_lt shorter), List.drop_eq_getElem_cons shorter, List.cons_append,
      endsName_cons, continued _ (List.getElem_mem shorter)] at stops
    simp at stops
  · rw [equal, List.take_left, List.drop_left]
    exact ⟨rfl, rfl⟩
  · rw [List.take_append, List.take_of_length_le (Nat.le_of_lt longer)] at same
    cases rest with
    | nil =>
      have length := same_length same
      simp at length
      omega
    | cons c after =>
      obtain ⟨n, further⟩ : ∃ n, tag.length - written.length = n + 1 := ⟨tag.length - written.length - 1, by omega⟩
      have inside : continuesName c = true := (same_name same named).2 c (by simp [further])
      rw [endsName_cons, inside] at ends
      simp at ends

/-- A tag that is the same as one of the list is taken, whatever stands before that one in the list. -/
theorem takeFirstTag?_written {mode : CaseMode} {tags : List Text} {tag written rest : Text}
    (named : ∀ tag ∈ tags, IsName tag) (listed : tag ∈ tags) (same : mode.same tag written = true)
    (ends : endsName rest = true) :
    takeFirstTag? mode tags (written ++ rest) = some (written, rest) := by
  have continued := (same_name same (named tag listed)).2
  have fits : takeTag? mode (written ++ rest) tag = some (written, rest) := by
    have length := same_length same
    simp [takeTag?, ← length, same, ends]
  cases found : takeFirstTag? mode tags (written ++ rest) with
  | none =>
    have missed := List.findSome?_eq_none_iff.mp found tag listed
    simp [fits] at missed
  | some reading =>
    obtain ⟨first, left⟩ := reading
    obtain ⟨before, other, after, split, taken, -⟩ := List.findSome?_eq_some_iff.mp found
    have member : other ∈ tags := by simp [split]
    obtain ⟨rfl, rfl⟩ := takeTag?_unique (named other member) continued ends taken
    rfl

/-- A tag that is taken is one of the list, and the rest ends it. -/
theorem takeFirstTag?_listed {mode : CaseMode} {tags : List Text} {text written rest : Text}
    (taken : takeFirstTag? mode tags text = some (written, rest)) :
    (∃ tag ∈ tags, mode.same tag written = true) ∧ endsName rest = true := by
  obtain ⟨before, tag, after, split, fits, -⟩ := List.findSome?_eq_some_iff.mp taken
  simp only [takeTag?, Option.ite_none_right_eq_some, Option.some.injEq, Prod.mk.injEq, Bool.and_eq_true] at fits
  obtain ⟨⟨same, stops⟩, rfl, rfl⟩ := fits
  exact ⟨⟨tag, by simp [split], same⟩, stops⟩

/-- The attribute text runs to the first closing bracket; a slash before that belongs to the end of the tag. -/
theorem takeAttributes?_written {raw : Text} {selfClosing : Bool} (closed : ']' ∉ raw)
    (open_ : selfClosing = false → raw.getLast? ≠ some '/') (rest : Text) :
    takeAttributes? (raw ++ ((if selfClosing then ['/', ']'] else [']']) ++ rest)) =
      some (raw, selfClosing, rest) := by
  induction raw with
  | nil => cases selfClosing <;> simp [takeAttributes?]
  | cons c after ih =>
    simp only [List.mem_cons, not_or] at closed
    have later : selfClosing = false → after.getLast? ≠ some '/' := by
      intro plain slash
      have last : (c :: after).getLast? = some '/' := by
        rw [List.getLast?_cons, slash]
        rfl
      exact open_ plain last
    have inner := ih closed.2 later
    rw [List.cons_append, takeAttributes?]
    · simp [inner]
    · intro equal
      exact closed.1 equal.symm
    · -- a slash that the closing bracket follows would be the last character of the attribute text
      intro left slash bracket
      cases after with
      | nil =>
        cases selfClosing with
        | false => exact open_ rfl (by simp [slash])
        | true => simp at bracket
      | cons d others =>
        simp only [List.cons_append, List.cons.injEq] at bracket
        exact closed.2 (by simp [bracket.1])

/-- The attribute text that is taken holds no closing bracket, and no slash at its end unless the tag closes
itself. -/
theorem takeAttributes?_closed {text raw rest : Text} {selfClosing : Bool}
    (taken : takeAttributes? text = some (raw, selfClosing, rest)) :
    ']' ∉ raw ∧ (selfClosing = false → raw.getLast? ≠ some '/') := by
  fun_induction takeAttributes? text generalizing raw with
  | case1 => simp at taken
  | case2 after =>
    simp only [Option.some.injEq, Prod.mk.injEq] at taken
    obtain ⟨rfl, rfl, rfl⟩ := taken
    simp
  | case3 after =>
    simp only [Option.some.injEq, Prod.mk.injEq] at taken
    obtain ⟨rfl, rfl, rfl⟩ := taken
    simp
  | case4 c after notBracket notSlash ih =>
    obtain ⟨⟨inner, closing, left⟩, found, same⟩ := Option.map_eq_some_iff.mp taken
    simp only [Prod.mk.injEq] at same
    obtain ⟨rfl, rfl, rfl⟩ := same
    obtain ⟨closed, open_⟩ := ih found
    refine ⟨?_, ?_⟩
    · simp only [List.mem_cons, not_or]
      exact ⟨fun equal => notBracket equal.symm, closed⟩
    · intro plain last
      cases inner with
      | nil =>
        -- the slash would stand right before the closing bracket
        have whole := takeAttributes?_append found
        simp only [plain, List.nil_append, Bool.false_eq_true, if_false, List.cons_append] at whole
        simp only [List.getLast?_singleton, Option.some.injEq] at last
        exact notSlash left last whole
      | cons d others =>
        exact open_ plain (by simpa [List.getLast?_cons] using last)

/-- A text without closing bracket has no end of an opening tag, and every other text has. -/
theorem takeAttributes?_eq_none_iff {text : Text} : takeAttributes? text = none ↔ ']' ∉ text := by
  fun_induction takeAttributes? text with
  | case1 => simp
  | case2 after => simp
  | case3 after => simp
  | case4 c after notBracket notSlash ih =>
    rw [Option.map_eq_none_iff, ih, List.mem_cons, not_or]
    exact ⟨fun inner => ⟨fun equal => notBracket equal.symm, inner⟩, And.right⟩

/-- The body that stands before a rest is the one that is taken. -/
theorem takeBody_stands {mode : CaseMode} {tag : Text} (named : IsName tag) (body : Body) {rest : Text}
    (stands : body.Stands mode tag rest) :
    takeBody mode tag (decide (body = .selfClosing)) (body.source ++ rest) = (body, rest) := by
  cases body with
  | selfClosing => simp [takeBody, Body.source]
  | unclosed =>
    simp only [Body.Stands] at stands
    simp [takeBody, Body.source, stands]
  | enclosing content written =>
    obtain ⟨free, same⟩ := stands
    have split := splitAtClosing?_content named free same rest
    simp [takeBody, Body.source, split]

/-- The body that is taken stands before the rest that is left. -/
theorem stands_takeBody (mode : CaseMode) {tag : Text} (named : IsName tag) (selfClosing : Bool) (text : Text) :
    (takeBody mode tag selfClosing text).1.Stands mode tag (takeBody mode tag selfClosing text).2 := by
  unfold takeBody
  split
  · trivial
  · split
    · rename_i content written after split
      exact ⟨splitAtClosing?_free named split, splitAtClosing?_same split⟩
    · rename_i split
      exact split

/-- A bracket is taken exactly where it stands. -/
theorem takeBracket_cons (bracket : Char) (rest : Text) : takeBracket bracket (bracket :: rest) = (true, rest) := by
  simp [takeBracket]

/-- Where another character or nothing stands, no bracket is taken. -/
theorem takeBracket_of_head? {bracket : Char} {text : Text} (other : text.head? ≠ some bracket) :
    takeBracket bracket text = (false, text) := by
  cases text with
  | nil => rfl
  | cons c rest =>
    have different : c ≠ bracket := by
      intro equal
      exact other (by simp [equal])
    simp [takeBracket, different]

/-- What is left after a bracket was not taken does not start with one. -/
theorem head?_takeBracket {bracket : Char} {text : Text} (missed : (takeBracket bracket text).1 = false) :
    (takeBracket bracket text).2.head? ≠ some bracket := by
  cases text with
  | nil => simp [takeBracket]
  | cons c rest =>
    by_cases same : c = bracket
    · simp [takeBracket, same] at missed
    · simp [takeBracket, same]

/-! ### The reader as a whole -/

/-- An occurrence is taken where it stands. -/
theorem Occurrence.take?_stands {mode : CaseMode} {tags : List Text} (named : ∀ tag ∈ tags, IsName tag)
    {o : Occurrence} {rest : Text} (stands : o.Stands mode tags rest) :
    Occurrence.take? mode tags (o.inner ++ rest) = some (o, rest) := by
  obtain ⟨tag, listed, same⟩ := stands.listed
  have ownName : IsName o.tag := same_name same (named tag listed)
  generalize tailed : (if o.brackets.after then [']'] else []) ++ rest = tail
  have body := takeBody_stands ownName o.body (tailed ▸ stands.body)
  have attributes := @takeAttributes?_written _ (decide (o.body = .selfClosing)) stands.closed
    (fun plain => stands.open_ (by simpa using plain)) (o.body.source ++ tail)
  have ends : endsName (o.rawAttributes ++
      ((if o.body = .selfClosing then ['/', ']'] else [']']) ++ (o.body.source ++ tail))) = true := by
    have apart := stands.apart
    cases raw : o.rawAttributes with
    | nil =>
      split
      · exact (by decide : (!continuesName '/') = true)
      · exact (by decide : (!continuesName ']') = true)
    | cons c others =>
      rw [raw] at apart
      exact apart
  have first := takeFirstTag?_written named listed same ends
  have bracket : takeBracket ']' tail = (o.brackets.after, rest) := by
    rw [← tailed]
    cases extra : o.brackets.after with
    | true => simp [takeBracket]
    | false => simpa using takeBracket_of_head? (stands.ended extra)
  have start : takeBracket '[' (o.inner ++ rest) = (o.brackets.before, o.tag ++ (o.rawAttributes ++
      ((if o.body = .selfClosing then ['/', ']'] else [']']) ++ (o.body.source ++ tail)))) := by
    unfold Occurrence.inner
    cases extra : o.brackets.before with
    | true => simp [takeBracket, ← tailed]
    | false =>
      obtain ⟨c, others, split⟩ : ∃ c others, o.tag = c :: others := List.exists_cons_of_ne_nil ownName.1
      have continued : continuesName c = true := ownName.2 c (by simp [split])
      have different : c ≠ '[' := by
        rintro rfl
        exact absurd continued (by decide)
      simp [takeBracket, split, different, ← tailed]
  unfold Occurrence.take?
  simp only [start, first]
  simp only [decide_eq_true_eq] at attributes
  simp only [attributes, body, bracket]

/-- An occurrence that is taken stands before what is left. -/
theorem Occurrence.stands_take? {mode : CaseMode} {tags : List Text} (named : ∀ tag ∈ tags, IsName tag)
    {text rest : Text} {o : Occurrence} (taken : Occurrence.take? mode tags text = some (o, rest)) :
    o.Stands mode tags rest := by
  unfold Occurrence.take? at taken
  generalize takeBracket '[' text = bracketed at taken
  obtain ⟨before, inner⟩ := bracketed
  simp only at taken
  split at taken
  · simp at taken
  · rename_i tag afterTag tagged
    obtain ⟨⟨wanted, listed, same⟩, stops⟩ := takeFirstTag?_listed tagged
    have ownName : IsName tag := same_name same (named wanted listed)
    split at taken
    · simp at taken
    · rename_i raw selfClosing afterOpening attributed
      simp only [Option.some.injEq, Prod.mk.injEq] at taken
      obtain ⟨rfl, rfl⟩ := taken
      obtain ⟨closed, open_⟩ := takeAttributes?_closed attributed
      have closes := takeBody_selfClosing mode tag selfClosing afterOpening
      have follows := stands_takeBody mode ownName selfClosing afterOpening
      generalize takeBody mode tag selfClosing afterOpening = bodied at closes follows
      obtain ⟨body, afterBody⟩ := bodied
      have split_after := takeBracket_append ']' afterBody
      refine ⟨⟨wanted, listed, same⟩, ?_, closed, ?_, ?_, head?_takeBracket⟩
      · cases raw with
        | nil => rfl
        | cons c others =>
          rw [takeAttributes?_append attributed] at stops
          exact stops
      · intro plain
        exact open_ (Bool.eq_false_iff.mpr fun self => plain (closes.mpr self))
      · simp only at follows ⊢
        rwa [split_after]

/-- The tag of an occurrence that stands in the exact mode is one of those looked for. -/
theorem mem_of_stands {tags : List Text} {o : Occurrence} {rest : Text} (stands : o.Stands .exact tags rest) :
    o.tag ∈ tags := by
  obtain ⟨tag, listed, same⟩ := stands.listed
  exact (same_exact tag o.tag).mp same ▸ listed

end MapEmbed.Shortcode
