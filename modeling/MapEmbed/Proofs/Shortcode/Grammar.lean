import MapEmbed.Proofs.Shortcode.Positions

/-!
# The shortcodes of a text

The grammar of shortcodes says where one is written in a text: its pieces one after the other, and what must not
follow or stand inside. Read from left to right, and never inside one another, the places where the grammar matches
are the shortcodes of the text. `FindsFrom` says that a list consists of them: each is written at its position, they
are apart, and at no position outside them does the grammar match. There is exactly one such list, and it is the one
that cutting the text gives and that the search by positions reports.
-/

namespace MapEmbed.Shortcode
open Text

/-! ### Closing tags in a text -/

/-- A closing tag of the given name stands somewhere in a text. -/
def HoldsClosing (mode : CaseMode) (tag text : Text) : Prop :=
  ∃ written, mode.same tag written = true ∧ '[' :: '/' :: (written ++ [']']) <:+: text

/-- The reader finds no closing tag exactly if none stands in the text. -/
theorem splitAtClosing?_eq_none_iff {mode : CaseMode} {tag text : Text} (named : IsName tag) :
    splitAtClosing? mode tag text = none ↔ ¬HoldsClosing mode tag text := by
  constructor
  · rintro free ⟨written, same, before, after, rfl⟩
    rw [List.append_assoc] at free
    have behind := (splitAtClosing?_append_eq_none named free).2
    have closes : splitAtClosing? mode tag ([] ++ '[' :: '/' :: (written ++ ']' :: after)) = some ([], written, after) :=
      splitAtClosing?_content named rfl same after
    have parts : '[' :: '/' :: (written ++ [']']) ++ after = [] ++ '[' :: '/' :: (written ++ ']' :: after) := by simp
    rw [parts, closes] at behind
    simp at behind
  · intro free
    cases split : splitAtClosing? mode tag text with
    | none => rfl
    | some found =>
      obtain ⟨content, written, rest⟩ := found
      obtain ⟨-, same, rfl⟩ := (splitAtClosing?_eq_some_iff named).mp split
      exact absurd ⟨written, same, content, rest, by simp⟩ free

/-! ### The grammar -/

/-- Seven-bit letters, digits and underscores make up a name. -/
theorem isName_of_ascii {tag : Text} (filled : tag ≠ [])
    (words : ∀ c ∈ tag, (Unicode.isAsciiAlphanumeric c || c == '_') = true) : IsName tag := by
  refine ⟨filled, fun c member => ?_⟩
  have word := words c member
  unfold continuesName Unicode.isAlphanumeric
  by_cases small : c.toNat < 128
  · rw [if_pos small, word, Bool.true_or]
  · have bounded : c.toNat ≤ 'z'.toNat := by
      simp only [Unicode.isAsciiAlphanumeric, Unicode.isAsciiLetter, Unicode.isAsciiDigit, Bool.or_eq_true,
        Bool.and_eq_true, decide_eq_true_eq, beq_iff_eq] at word
      rcases word with ((⟨-, most⟩ | ⟨-, most⟩) | ⟨-, most⟩) | rfl
      · exact most
      · exact Nat.le_trans most (by decide)
      · exact Nat.le_trans most (by decide)
      · decide
    exact absurd (Nat.lt_of_le_of_lt bounded (by decide)) small

/-- The body that an opening tag has before what follows: a content runs to the first closing tag of the name, and
only where there is none does an opening tag stand alone. -/
def Body.Fits (mode : CaseMode) (tag : Text) : Body → Text → Prop
  | .selfClosing, _ => True
  | .unclosed, after => ¬HoldsClosing mode tag after
  | .enclosing content written, _ => ¬HoldsClosing mode tag content ∧ mode.same tag written = true

/-- A shortcode of one of the given tags before the rest of a text. Its pieces are those of its source; the grammar
says what else is asked of them. -/
structure Occurrence.Fits (mode : CaseMode) (tags : List Text) (o : Occurrence) (rest : Text) : Prop where
  /-- The name is that of one of the tags. -/
  listed : ∃ tag ∈ tags, mode.same tag o.tag = true
  /-- Behind the name no character continues it. -/
  apart : ∀ c ∈ o.rawAttributes.head?, continuesName c = false
  /-- The attribute text holds no closing bracket. -/
  closed : ']' ∉ o.rawAttributes
  /-- No slash stands before the closing bracket, unless the tag closes itself with it. -/
  open_ : o.body ≠ .selfClosing → o.rawAttributes.getLast? ≠ some '/'
  /-- The body is the one for what follows the opening tag. -/
  body : o.body.Fits mode o.tag ((if o.brackets.after then [']'] else []) ++ rest)
  /-- A bracket behind belongs to the shortcode. -/
  ended : o.brackets.after = false → rest.head? ≠ some ']'

/-- A shortcode is written at a position of a text, and the grammar matches there. -/
def Occurrence.At (mode : CaseMode) (tags : List Text) (text : Text) (start : Nat) (o : Occurrence) : Prop :=
  ∃ front rest, text = front ++ (o.source ++ rest) ∧ front.byteSize = start ∧ o.Fits mode tags rest

/-- The shortcodes of a text from a position on, each with the position where it starts. -/
structure FindsFrom (mode : CaseMode) (tags : List Text) (text : Text) (position : Nat)
    (hits : List (Nat × Occurrence)) : Prop where
  /-- None starts before the position. -/
  within : ∀ hit ∈ hits, position ≤ hit.1
  /-- Each is written where it starts. -/
  sound : ∀ hit ∈ hits, hit.2.At mode tags text hit.1
  /-- Each stops before the next one starts. -/
  apart : hits.Pairwise fun hit later => (hit.2.span hit.1).stop ≤ later.1
  /-- Wherever the grammar matches, one of them stands already. -/
  complete : ∀ start o, position ≤ start → Occurrence.At mode tags text start o →
    ∃ hit ∈ hits, hit.1 ≤ start ∧ start < (hit.2.span hit.1).stop

/-- The body of the grammar is the one that stands. -/
theorem Body.fits_iff_stands {mode : CaseMode} {tag : Text} (named : IsName tag) (body : Body) (after : Text) :
    body.Fits mode tag after ↔ body.Stands mode tag after := by
  cases body with
  | selfClosing => rfl
  | unclosed => exact (splitAtClosing?_eq_none_iff named).symm
  | enclosing content written => exact and_congr_left' (splitAtClosing?_eq_none_iff named).symm

/-- What the grammar asks of a shortcode is what the reader asks of it. -/
theorem Occurrence.fits_iff_stands {mode : CaseMode} {tags : List Text} (named : ∀ tag ∈ tags, IsName tag)
    {o : Occurrence} {rest : Text} : o.Fits mode tags rest ↔ o.Stands mode tags rest := by
  have ends : (∀ c ∈ o.rawAttributes.head?, continuesName c = false) ↔ endsName o.rawAttributes = true := by
    cases o.rawAttributes with
    | nil => simp [endsName]
    | cons c others => simp [endsName_cons]
  constructor
  · rintro ⟨⟨tag, listed, same⟩, apart, closed, open_, body, ended⟩
    have ownName := same_name same (named tag listed)
    exact ⟨⟨tag, listed, same⟩, ends.mp apart, closed, open_, (Body.fits_iff_stands ownName _ _).mp body, ended⟩
  · rintro ⟨⟨tag, listed, same⟩, apart, closed, open_, body, ended⟩
    have ownName := same_name same (named tag listed)
    exact ⟨⟨tag, listed, same⟩, ends.mpr apart, closed, open_, (Body.fits_iff_stands ownName _ _).mpr body, ended⟩

/-! ### One list only -/

section
variable {mode : CaseMode} {tags : List Text} {text : Text}

/-- At a position the grammar matches in one way only. -/
theorem Occurrence.At.unique (named : ∀ tag ∈ tags, IsName tag) {start : Nat} {first second : Occurrence}
    (one : first.At mode tags text start) (other : second.At mode tags text start) : first = second := by
  obtain ⟨front, rest, whole, size, fits⟩ := one
  obtain ⟨before, left, parts, same, stands⟩ := other
  obtain ⟨-, equal⟩ := append_inj_of_byteSize (whole.symm.trans parts) (size.trans same.symm)
  rw [first.source_eq, second.source_eq, List.cons_append, List.cons_append, List.cons.injEq] at equal
  have taken := Occurrence.take?_stands named ((Occurrence.fits_iff_stands named).mp fits)
  have again := Occurrence.take?_stands named ((Occurrence.fits_iff_stands named).mp stands)
  rw [equal.2, again, Option.some.injEq, Prod.mk.injEq] at taken
  exact taken.1.symm

/-- The shortcodes behind the first are those from its end on. -/
theorem FindsFrom.tail {position : Nat} {hit : Nat × Occurrence} {hits : List (Nat × Occurrence)}
    (found : FindsFrom mode tags text position (hit :: hits)) :
    FindsFrom mode tags text (hit.2.span hit.1).stop hits := by
  obtain ⟨first, later⟩ := List.pairwise_cons.mp found.apart
  refine ⟨first, fun other member => found.sound other (List.mem_cons_of_mem _ member), later, ?_⟩
  intro start o behind written
  have starts := found.within hit List.mem_cons_self
  have filled := hit.2.start_lt_stop hit.1
  obtain ⟨other, member, covers⟩ := found.complete start o (by omega) written
  rcases List.mem_cons.mp member with rfl | inside
  · omega
  · exact ⟨other, inside, covers⟩

/-- The first shortcode is the first place where the grammar matches. -/
theorem FindsFrom.first_le {position start : Nat} {hit : Nat × Occurrence} {hits : List (Nat × Occurrence)}
    (found : FindsFrom mode tags text position (hit :: hits)) {o : Occurrence} (behind : position ≤ start)
    (written : o.At mode tags text start) : hit.1 ≤ start := by
  obtain ⟨other, member, starts, -⟩ := found.complete start o behind written
  rcases List.mem_cons.mp member with rfl | inside
  · exact starts
  · have apart := (List.pairwise_cons.mp found.apart).1 other inside
    have filled := hit.2.start_lt_stop hit.1
    omega

/-- Of two shortcodes that are found the first stops before the second starts. -/
theorem FindsFrom.stop_le_of_lt {position : Nat} {hits : List (Nat × Occurrence)}
    (found : FindsFrom mode tags text position hits) {one other : Nat × Occurrence} (first : one ∈ hits)
    (second : other ∈ hits) (before : one.1 < other.1) : (one.2.span one.1).stop ≤ other.1 := by
  have apart := found.apart
  clear found
  induction hits with
  | nil => cases first
  | cons head rest inductionHypothesis =>
    obtain ⟨next, later⟩ := List.pairwise_cons.mp apart
    rcases List.mem_cons.mp first with rfl | firstLater
    · rcases List.mem_cons.mp second with rfl | secondLater
      · omega
      · exact next other secondLater
    · rcases List.mem_cons.mp second with rfl | secondLater
      · have filled := other.2.start_lt_stop other.1
        have behind := next one firstLater
        omega
      · exact inductionHypothesis firstLater secondLater later

/-- A text has one list of shortcodes. -/
theorem FindsFrom.unique (named : ∀ tag ∈ tags, IsName tag) {position : Nat} {hits others : List (Nat × Occurrence)}
    (found : FindsFrom mode tags text position hits) (again : FindsFrom mode tags text position others) :
    hits = others := by
  induction hits generalizing position others with
  | nil =>
    cases others with
    | nil => rfl
    | cons hit rest =>
      obtain ⟨_, member, -⟩ := found.complete hit.1 hit.2 (again.within hit List.mem_cons_self)
        (again.sound hit List.mem_cons_self)
      simp at member
  | cons hit rest inductionHypothesis =>
    cases others with
    | nil =>
      obtain ⟨_, member, -⟩ := again.complete hit.1 hit.2 (found.within hit List.mem_cons_self)
        (found.sound hit List.mem_cons_self)
      simp at member
    | cons other left =>
      have one := found.first_le (again.within other List.mem_cons_self) (again.sound other List.mem_cons_self)
      have two := again.first_le (found.within hit List.mem_cons_self) (found.sound hit List.mem_cons_self)
      obtain ⟨start, o⟩ := hit
      obtain ⟨begin, p⟩ := other
      obtain rfl : start = begin := Nat.le_antisymm one two
      have written := found.sound (start, o) List.mem_cons_self
      have writtenToo := again.sound (start, p) List.mem_cons_self
      obtain rfl : o = p := written.unique named writtenToo
      rw [inductionHypothesis found.tail again.tail]

/-! ### The cut gives the list -/

/-- At no bracket of a vacant text does a shortcode stand. -/
theorem Vacant.not_fits (named : ∀ tag ∈ tags, IsName tag) {before after back rest : Text} {o : Occurrence}
    (vacant : Vacant mode tags (before ++ '[' :: after) back) (whole : after ++ back = o.inner ++ rest) :
    ¬o.Fits mode tags rest := by
  intro fits
  induction before with
  | nil =>
    have missed := vacant.1 rfl
    rw [whole, Occurrence.take?_stands named ((Occurrence.fits_iff_stands named).mp fits)] at missed
    simp at missed
  | cons c others inductionHypothesis => exact inductionHypothesis vacant.2

/-- In front of a vacant text nothing changes: the grammar matches nowhere in it. -/
theorem Vacant.gap_le (named : ∀ tag ∈ tags, IsName tag) {front gap back : Text} {start : Nat} {o : Occurrence}
    (vacant : Vacant mode tags gap back) (behind : front.byteSize ≤ start)
    (written : o.At mode tags (front ++ (gap ++ back)) start) : front.byteSize + gap.byteSize ≤ start := by
  obtain ⟨before, rest, whole, rfl, fits⟩ := written
  refine Nat.le_of_not_lt fun early => ?_
  obtain ⟨skipped, rfl, left⟩ := exists_between whole behind
  rw [byteSize_append] at early
  obtain ⟨inside, rfl, source⟩ := exists_between left.symm (by omega)
  cases inside with
  | nil => simp at early
  | cons c after =>
    rw [o.source_eq, List.cons_append, List.cons_append, List.cons.injEq] at source
    obtain ⟨rfl, inner⟩ := source
    exact vacant.not_fits named inner.symm fits

/-- A gap without shortcodes and a shortcode, and behind it the shortcodes of what follows. -/
theorem FindsFrom.cons (named : ∀ tag ∈ tags, IsName tag) {front gap rest : Text} {o : Occurrence}
    {hits : List (Nat × Occurrence)} (whole : text = front ++ (gap ++ (o.source ++ rest)))
    (vacant : Vacant mode tags gap (o.source ++ rest)) (fits : o.Fits mode tags rest)
    (found : FindsFrom mode tags text (front.byteSize + gap.byteSize + o.source.byteSize) hits) :
    FindsFrom mode tags text front.byteSize ((front.byteSize + gap.byteSize, o) :: hits) where
  within := by
    intro hit member
    rcases List.mem_cons.mp member with rfl | later
    · exact Nat.le_add_right _ _
    · have starts := found.within hit later
      omega
  sound := by
    intro hit member
    rcases List.mem_cons.mp member with rfl | later
    · exact ⟨front ++ gap, rest, by simpa using whole, byteSize_append front gap, fits⟩
    · exact found.sound hit later
  apart := List.pairwise_cons.mpr ⟨found.within, found.apart⟩
  complete := by
    intro start p behind written
    have starts := vacant.gap_le named behind (whole ▸ written)
    by_cases inside : start < (o.span (front.byteSize + gap.byteSize)).stop
    · exact ⟨_, List.mem_cons_self, starts, inside⟩
    · obtain ⟨hit, member, covers⟩ := found.complete start p (Nat.le_of_not_lt inside) written
      exact ⟨hit, List.mem_cons_of_mem _ member, covers⟩

namespace Segmentation

/-- The occurrences of a cut are the shortcodes of the text that its pieces make up. -/
theorem findsFrom_locateFrom (named : ∀ tag ∈ tags, IsName tag) {pieces : List (Text × Occurrence)} {tail : Text}
    (cuts : Cuts mode tags pieces tail) (front : Text) (whole : text = front ++ textOf pieces tail) :
    FindsFrom mode tags text front.byteSize (locateFrom front.byteSize pieces) := by
  induction pieces generalizing front with
  | nil =>
    refine ⟨by simp [locateFrom], by simp [locateFrom], List.Pairwise.nil, ?_⟩
    intro start o behind written
    have vacant : Vacant mode tags tail [] := cuts
    rw [whole, textOf, ← List.append_nil tail] at written
    have starts := vacant.gap_le named behind written
    obtain ⟨before, rest, same, rfl, -⟩ := written
    have sizes := congrArg byteSize same
    have filled : 0 < (o.span 0).stop := o.start_lt_stop 0
    simp only [Occurrence.span, byteSize_append, byteSize_nil] at sizes filled
    omega
  | cons piece others inductionHypothesis =>
    obtain ⟨gap, o⟩ := piece
    obtain ⟨vacant, stands, later⟩ := cuts
    have behind := inductionHypothesis later (front ++ (gap ++ o.source)) (by simpa [textOf] using whole)
    simp only [byteSize_append, ← Nat.add_assoc] at behind
    exact FindsFrom.cons named whole vacant ((Occurrence.fits_iff_stands named).mpr stands) behind

/-- The occurrences of a text, where they start, are its shortcodes. -/
theorem findsFrom_located (named : ∀ tag ∈ tags, IsName tag) (text : Text) :
    FindsFrom mode tags text 0 (ofText mode tags text).located :=
  findsFrom_locateFrom named (cuts_scan named 0 text) [] ((toText_ofText mode tags text).symm.trans (toText_eq _))

end Segmentation

end

namespace Positions

/-- The search of a text succeeds, for all tags that are names (`isName_of_ascii`). It reports the shortcodes of the text
and nothing else: each is written where the report says, fills a part of the text that starts and stops between
characters, and no other list consists of the shortcodes of the text. -/
theorem reports_exactly (mode : CaseMode) {tags : List Text} (named : ∀ tag ∈ tags, IsName tag) (text : Text) :
    reportsFrom? mode tags text 0 =
        some ((Segmentation.ofText mode tags text).located.map fun hit => report hit.1 hit.2) ∧
      (∀ hit ∈ (Segmentation.ofText mode tags text).located,
        hit.1 < (hit.2.span hit.1).stop ∧ slice? text (hit.2.span hit.1) = some hit.2.source ∧
          slice? text (hit.2.openingSpan hit.1) = some hit.2.opening) ∧
      ∀ hits, FindsFrom mode tags text 0 hits ↔ hits = (Segmentation.ofText mode tags text).located := by
  have found : FindsFrom mode tags text 0 _ := Segmentation.findsFrom_located named text
  refine ⟨reportsFrom?_eq tags [] text, ?_, ?_⟩
  · intro hit member
    obtain ⟨front, rest, rfl, start, -⟩ := found.sound hit member
    refine ⟨hit.2.start_lt_stop hit.1, ?_, ?_⟩ <;> rw [← start]
    · exact slice?_append front hit.2.source rest
    · rw [Occurrence.source, List.append_assoc]
      exact slice?_append front hit.2.opening _
  · exact fun hits => ⟨fun again => again.unique named found, fun same => same ▸ found⟩

/-- Behind a letter of two bytes, in capitals: the map whose closing tag stands before the extra bracket. -/
theorem reports_capitals :
    (∀ tag ∈ ["map".toList], IsName tag) ∧
      reportsFrom? .ignoring ["map".toList] "ä[MAP x]y[/Map]]".toList 0 =
        some [⟨⟨2, 17⟩, ⟨2, 9⟩, ⟨false, true⟩, "MAP".toList, " x".toList, false, some "y".toList⟩] ∧
      FindsFrom .ignoring ["map".toList] "ä[MAP x]y[/Map]]".toList 0
        [(2, ⟨⟨false, true⟩, "MAP".toList, " x".toList, .enclosing "y".toList "Map".toList⟩)] := by
  have words : ("map".toList.all fun c => Unicode.isAsciiAlphanumeric c || c == '_') = true := rfl
  have named : ∀ tag ∈ ["map".toList], IsName tag :=
    List.forall_mem_singleton.mpr (isName_of_ascii (by decide) (List.all_eq_true.mp words))
  have exactly := reports_exactly .ignoring named "ä[MAP x]y[/Map]]".toList
  have found : (Segmentation.ofText .ignoring ["map".toList] "ä[MAP x]y[/Map]]".toList).located =
      [(2, ⟨⟨false, true⟩, "MAP".toList, " x".toList, .enclosing "y".toList "Map".toList⟩)] := by
    decide
  rw [found] at exactly
  exact ⟨named, exactly.1, (exactly.2.2 _).mpr rfl⟩

end Positions

end MapEmbed.Shortcode
