import MapEmbed.Proofs.Text.Slices
import MapEmbed.Proofs.Shortcode.Standing
import MapEmbed.Proofs.Shortcode.Cutting

/-!
# The search by byte positions

The search for shortcodes can be written over positions in the UTF-8 form of one text: loops move an index from byte
to byte, single bytes are looked at, and every piece is a slice between two positions. Such a search can go wrong in
ways that readers of a list of characters cannot: a slice can end inside a character or beyond the text, and a loop need
not end. Here both show as `none`, a loop failing as soon as it does not move on. They never do: from every position where
a character starts the search succeeds, and reports what cutting the text reports.
-/

namespace MapEmbed.Shortcode
open Text

/-- Every shortcode takes up some bytes. -/
theorem Occurrence.start_lt_stop (o : Occurrence) (start : Nat) : start < (o.span start).stop := by
  show start < start + o.source.byteSize
  rw [o.source_eq, byteSize_cons]
  have positive := ('[' : Char).utf8Size_pos
  omega

namespace Positions

/-- A shortcode as a search by positions reports it. -/
structure Report where
  span : Text.Span
  opening : Text.Span
  brackets : Brackets
  tag : Text
  rawAttributes : Text
  selfClosing : Bool
  content : Option Text
  deriving DecidableEq, Repr

/-- The report of an occurrence that starts at a position. -/
def report (start : Nat) (o : Occurrence) : Report where
  span := o.span start
  opening := o.openingSpan start
  brackets := o.brackets
  tag := o.tag
  rawAttributes := o.rawAttributes
  selfClosing := decide (o.body = .selfClosing)
  content := o.body.content?

/-! ### The loops -/

/-- The size of the first tag that fits at a position; `some none` if none does. A slice that would end inside a
character is no candidate. -/
def tagSize? (mode : CaseMode) (text : Text) (position : Nat) : List Text → Option (Option Nat)
  | [] => some none
  | tag :: others =>
    match slice? text ⟨position, position + tag.byteSize⟩ with
    | none => tagSize? mode text position others
    | some candidate => do
      let rest ← dropBytes? text (position + tag.byteSize)
      if mode.same tag candidate && endsName rest then return some tag.byteSize
      else tagSize? mode text position others

/-- Where the attribute text that the cursor is in ends, and whether the tag closes itself; `some none` if the text ends
first. -/
def attributesEnd? (text : Text) (cursor : Nat) : Option (Option (Nat × Bool)) :=
  if byteAt? text cursor = none then some none
  else if standsAt text cursor ']' then some (some (cursor, false))
  else if standsAt text cursor '/' && standsAt text (cursor + 1) ']' then some (some (cursor, true))
  else attributesEnd? text (cursor + 1)
termination_by text.byteSize - cursor
decreasing_by
  rename_i inside _ _
  have before : ¬text.byteSize ≤ cursor := fun beyond => inside (byteAt?_eq_none_iff.mpr beyond)
  omega

/-- Whether a tag's name and a closing bracket stand at a position, behind the start of a closing tag. -/
def closesAt (mode : CaseMode) (text tag : Text) (position : Nat) : Bool :=
  (slice? text ⟨position, position + tag.byteSize⟩).any (mode.same tag) &&
    standsAt text (position + tag.byteSize) ']'

/-- Where the first closing tag from a position on starts and stops; `some none` if there is none. From beyond the text
the search fails. -/
def closingTag? (mode : CaseMode) (text tag : Text) (position : Nat) : Option (Option (Nat × Nat)) :=
  if text.byteSize < position then none
  else do
    let rest ← dropBytes? text position
    match offsetOf? ['[', '/'] rest with
    | none => return none
    | some offset =>
      if closesAt mode text tag (position + offset + 2) then
        return some (position + offset, position + offset + (tag.byteSize + 3))
      else closingTag? mode text tag (position + offset + 2)
termination_by text.byteSize + 1 - position

/-- The content that follows an opening tag, and where the closing tag stops. -/
def contentFrom? (mode : CaseMode) (text tag : Text) (opened : Nat) (selfClosing : Bool) :
    Option (Option Text × Nat) := do
  if selfClosing then return (none, opened)
  else
    match ← closingTag? mode text tag opened with
    | none => return (none, opened)
    | some (start, stop) => return (some (← slice? text ⟨opened, start⟩), stop)

/-- The opening tag whose name starts at a position: name, attribute text, whether it closes itself, and where it stops;
`some none` if there is none. -/
def openingAt? (mode : CaseMode) (tags : List Text) (text : Text) (position : Nat) :
    Option (Option (Text × Text × Bool × Nat)) := do
  match ← tagSize? mode text position tags with
  | none => return none
  | some size =>
    let tag ← slice? text ⟨position, position + size⟩
    match ← attributesEnd? text (position + size) with
    | none => return none
    | some (cursor, selfClosing) =>
      let rawAttributes ← slice? text ⟨position + size, cursor⟩
      return some (tag, rawAttributes, selfClosing, if selfClosing then cursor + 2 else cursor + 1)

/-- The shortcode that starts at the bracket at a position; `some none` if none does. -/
def reportAt? (mode : CaseMode) (tags : List Text) (text : Text) (start : Nat) : Option (Option Report) := do
  let before := standsAt text (start + 1) '['
  match ← openingAt? mode tags text (if before then start + 2 else start + 1) with
  | none => return none
  | some (tag, rawAttributes, selfClosing, opened) =>
    let (content, stop) ← contentFrom? mode text tag opened selfClosing
    let after := standsAt text stop ']'
    return some ⟨⟨start, if after then stop + 1 else stop⟩, ⟨start, opened⟩, ⟨before, after⟩, tag, rawAttributes,
      selfClosing, content⟩

/-- The shortcodes from a position on. The search fails from beyond the text, and at a shortcode that stops where it
starts, which would be found again without end. -/
def reportsFrom? (mode : CaseMode) (tags : List Text) (text : Text) (position : Nat) : Option (List Report) :=
  if text.byteSize < position then none
  else do
    let rest ← dropBytes? text position
    match offsetOf? ['['] rest with
    | none => return []
    | some offset =>
      match ← reportAt? mode tags text (position + offset) with
      | some found =>
        if position + offset < found.span.stop then
          return found :: (← reportsFrom? mode tags text found.span.stop)
        else none
      | none => reportsFrom? mode tags text (position + offset + 1)
termination_by text.byteSize + 1 - position

/-! ### Sizes -/

/-- Lowering a seven-bit letter keeps its size. -/
theorem utf8Size_asciiLower (c : Char) : (Unicode.asciiLower c).utf8Size = c.utf8Size :=
  Unicode.asciiLower_congr Char.utf8Size (by decide) c

/-- Lowering the seven-bit letters of a text keeps its size. -/
theorem byteSize_map_asciiLower (text : Text) : byteSize (text.map Unicode.asciiLower) = text.byteSize := by
  simp [byteSize, List.foldr_map, utf8Size_asciiLower]

/-- Names that count as the same take up the same number of bytes. -/
theorem same_byteSize {mode : CaseMode} {tag written : Text} (same : mode.same tag written = true) :
    written.byteSize = tag.byteSize := by
  cases mode with
  | exact => rw [(same_exact tag written).mp same]
  | ignoring =>
    simp only [CaseMode.same, beq_iff_eq] at same
    rw [← byteSize_map_asciiLower written, same, byteSize_map_asciiLower]

/-! ### Each loop against its reader -/

section
variable {mode : CaseMode} {front rest : Text}

/-- What stands at a position is the same as a tag exactly if the reader finds it so. -/
theorem any_slice? (front rest tag : Text) :
    (slice? (front ++ rest) ⟨front.byteSize, front.byteSize + tag.byteSize⟩).any (mode.same tag) =
      mode.same tag (rest.take tag.length) := by
  rw [Bool.eq_iff_iff, Option.any_eq_true]
  constructor
  · rintro ⟨candidate, sliced, same⟩
    obtain ⟨-, left, rfl⟩ := slice?_front_iff.mp sliced
    rwa [← same_length same, List.take_left]
  · intro same
    exact ⟨_, slice?_front_iff.mpr ⟨same_byteSize same, rest.drop tag.length, (List.take_append_drop _ _).symm⟩, same⟩

/-- A tag that is the same as what stands at a position ends as far behind it as the reader says. -/
theorem byteSize_take_of_same {rest tag : Text} (same : mode.same tag (rest.take tag.length) = true) (front : Text) :
    front ++ rest = (front ++ rest.take tag.length) ++ rest.drop tag.length ∧
      front.byteSize + tag.byteSize = byteSize (front ++ rest.take tag.length) := by
  rw [byteSize_append, same_byteSize same, List.append_assoc, List.take_append_drop]
  exact ⟨rfl, rfl⟩

/-- The tag at a position is the one that the reader takes. -/
theorem tagSize?_eq (tags : List Text) :
    tagSize? mode (front ++ rest) front.byteSize tags =
      some ((takeFirstTag? mode tags rest).map fun taken => taken.1.byteSize) := by
  induction tags with
  | nil => rfl
  | cons tag others inductionHypothesis =>
    have compared := @any_slice? mode front rest tag
    have skipped (differs : takeTag? mode rest tag = none) :
        takeFirstTag? mode (tag :: others) rest = takeFirstTag? mode others rest := by
      simp [takeFirstTag?, differs]
    unfold tagSize?
    cases sliced : slice? (front ++ rest) ⟨front.byteSize, front.byteSize + tag.byteSize⟩ with
    | none =>
      rw [sliced, Option.any_none] at compared
      rw [skipped (by simp [takeTag?, ← compared])]
      exact inductionHypothesis
    | some candidate =>
      rw [sliced, Option.any_some] at compared
      obtain ⟨sizes, left, rfl⟩ := slice?_front_iff.mp sliced
      have behind : dropBytes? (front ++ (candidate ++ left)) (front.byteSize + tag.byteSize) = some left := by
        rw [← List.append_assoc, ← sizes, ← byteSize_append, dropBytes?_append]
      simp only [behind, Option.bind_eq_bind, Option.bind_some]
      cases same : mode.same tag candidate with
      | false =>
        rw [same] at compared
        rw [skipped (by simp [takeTag?, ← compared])]
        exact inductionHypothesis
      | true =>
        have taken : takeTag? mode (candidate ++ left) tag = if endsName left then some (candidate, left) else none := by
          simp [takeTag?, ← same_length same, same]
        cases ends : endsName left with
        | false =>
          rw [skipped (by simp [taken, ends])]
          exact inductionHypothesis
        | true => simp [takeFirstTag?, taken, ends, sizes]

/-- The cursor passes over a character byte by byte, unless the attribute text ends at it. -/
theorem attributesEnd?_skip {c : Char} (bracket : c ≠ ']') (slash : ¬(c = '/' ∧ rest.head? = some ']')) :
    attributesEnd? (front ++ c :: rest) front.byteSize =
      attributesEnd? (front ++ c :: rest) (front.byteSize + c.utf8Size) := by
  have size : byteSize (front ++ c :: rest) = front.byteSize + (c.utf8Size + rest.byteSize) := by
    rw [byteSize_append, byteSize_cons]
  have step (position : Nat) (inside : position < c.utf8Size) :
      attributesEnd? (front ++ c :: rest) (front.byteSize + position) =
        attributesEnd? (front ++ c :: rest) (front.byteSize + position + 1) := by
    have present : byteAt? (front ++ c :: rest) (front.byteSize + position) ≠ none := by
      rw [ne_eq, byteAt?_eq_none_iff]
      omega
    have plain : standsAt (front ++ c :: rest) (front.byteSize + position) ']' = false ∧
        (standsAt (front ++ c :: rest) (front.byteSize + position) '/' &&
          standsAt (front ++ c :: rest) (front.byteSize + position + 1) ']') = false := by
      cases position with
      | succ position =>
        rw [standsAt_inside _ _ (by decide) (Nat.succ_pos position) inside,
          standsAt_inside _ _ (by decide) (Nat.succ_pos position) inside]
        exact ⟨rfl, rfl⟩
      | zero =>
        rw [Nat.add_zero, standsAt_front _ _ (by decide), standsAt_front _ _ (by decide)]
        refine ⟨by simpa using bracket, ?_⟩
        by_cases first : c = '/'
        · subst first
          have next : standsAt (front ++ '/' :: rest) (front.byteSize + 1) ']' = (rest.head? == some ']') :=
            standsAt_next front rest '/' (by decide)
          have other : (rest.head? == some ']') = false := by
            simpa using fun head => slash ⟨rfl, head⟩
          rw [next, other, Bool.and_false]
        · simp [first]
    rw [attributesEnd?, if_neg present, plain.1, plain.2]
    rfl
  -- one step for each byte of the character
  have steps (count : Nat) (inside : count ≤ c.utf8Size) :
      attributesEnd? (front ++ c :: rest) front.byteSize =
        attributesEnd? (front ++ c :: rest) (front.byteSize + count) := by
    induction count with
    | zero => rfl
    | succ count inductionHypothesis =>
      rw [inductionHypothesis (Nat.le_of_succ_le inside), step count inside]
      rfl
  exact steps c.utf8Size (Nat.le_refl _)

/-- The attribute text ends where the reader ends it. -/
theorem attributesEnd?_eq (front rest : Text) :
    attributesEnd? (front ++ rest) front.byteSize =
      some ((takeAttributes? rest).map fun taken => (front.byteSize + taken.1.byteSize, taken.2.1)) := by
  fun_induction takeAttributes? rest generalizing front with
  | case1 =>
    have ended : byteAt? (front ++ []) front.byteSize = none := byteAt?_eq_none_iff.mpr (by simp)
    rw [attributesEnd?, if_pos ended]
    rfl
  | case2 after =>
    rw [attributesEnd?, if_neg (byteAt?_front _ _ _), standsAt_front _ _ (by decide)]
    rfl
  | case3 after =>
    have next : standsAt (front ++ '/' :: ']' :: after) (front.byteSize + 1) ']' = true :=
      standsAt_next front (']' :: after) '/' (by decide)
    rw [attributesEnd?, if_neg (byteAt?_front _ _ _), standsAt_front _ _ (by decide), standsAt_front _ _ (by decide),
      next]
    rfl
  | case4 c after notBracket notSlash inductionHypothesis =>
    have slash : ¬(c = '/' ∧ after.head? = some ']') := by
      rintro ⟨rfl, head⟩
      obtain ⟨others, rfl⟩ := List.head?_eq_some_iff.mp head
      exact notSlash others rfl rfl
    have further := inductionHypothesis (front ++ [c])
    rw [List.append_assoc, List.singleton_append, byteSize_concat] at further
    rw [attributesEnd?_skip (fun same => notBracket same) slash, further, Option.map_map]
    congr
    funext taken
    simp only [Function.comp_apply, byteSize_cons, Nat.add_assoc]

/-- Where a part of a text starts, the search for a closing tag looks for the next one that may be. -/
theorem closingTag?_append (tag front rest : Text) :
    closingTag? mode (front ++ rest) tag front.byteSize =
      match offsetOf? ['[', '/'] rest with
      | none => some none
      | some offset =>
        if closesAt mode (front ++ rest) tag (front.byteSize + offset + 2) then
          some (some (front.byteSize + offset, front.byteSize + offset + (tag.byteSize + 3)))
        else closingTag? mode (front ++ rest) tag (front.byteSize + offset + 2) := by
  have inside : ¬(front ++ rest).byteSize < front.byteSize := by
    rw [byteSize_append]
    omega
  rw [closingTag?, if_neg inside, dropBytes?_append]
  rfl

/-- The search for a closing tag passes over a character at which none starts. -/
theorem closingTag?_skip {tag : Text} {c : Char} (other : List.isPrefixOf ['[', '/'] (c :: rest) = false) :
    closingTag? mode (front ++ c :: rest) tag front.byteSize =
      closingTag? mode (front ++ c :: rest) tag (front.byteSize + c.utf8Size) := by
  have next := @closingTag?_append mode tag (front ++ [c]) rest
  rw [List.append_assoc, List.singleton_append, byteSize_concat] at next
  rw [closingTag?_append, next]
  simp only [offsetOf?, other, Bool.false_eq_true, if_false]
  cases offsetOf? ['[', '/'] rest with
  | none => rfl
  | some offset => simp only [Option.map_some, Nat.add_assoc]

/-- Where a closing tag may start, there is one exactly if the reader takes it. -/
theorem closesAt_eq (front rest tag : Text) :
    closesAt mode (front ++ '[' :: '/' :: rest) tag (front.byteSize + 2) =
      (takeClosing? mode tag ('[' :: '/' :: rest)).isSome := by
  have parts : front ++ '[' :: '/' :: rest = (front ++ ['[', '/']) ++ rest := by simp
  have size : front.byteSize + 2 = byteSize (front ++ ['[', '/']) := by
    rw [byteSize_append]
    rfl
  rw [closesAt, parts, size, any_slice?]
  generalize front ++ ['[', '/'] = opened
  simp only [takeClosing?]
  cases same : mode.same tag (rest.take tag.length) with
  | false => split <;> rfl
  | true =>
    obtain ⟨whole, position⟩ := byteSize_take_of_same same opened
    rw [whole, position, standsAt_front _ _ (by decide)]
    split
    · rename_i after bracket
      simp [bracket]
    · rename_i other
      cases left : rest.drop tag.length with
      | nil => rfl
      | cons c others =>
        have different : c ≠ ']' := by
          rintro rfl
          exact other others left
        simp [different]

/-- The first closing tag is the one at which the reader splits. -/
theorem closingTag?_eq (tag front rest : Text) :
    closingTag? mode (front ++ rest) tag front.byteSize =
      some ((splitAtClosing? mode tag rest).map fun parts =>
        (front.byteSize + parts.1.byteSize, front.byteSize + parts.1.byteSize + (tag.byteSize + 3))) := by
  induction length : rest.length using Nat.strongRecOn generalizing front rest with
  | _ n inductionHypothesis =>
    subst length
    cases rest with
    | nil =>
      rw [closingTag?_append]
      rfl
    | cons c more =>
      by_cases starts : List.isPrefixOf ['[', '/'] (c :: more) = true
      · obtain ⟨others, whole⟩ := List.isPrefixOf_iff_prefix.mp starts
        obtain ⟨rfl, rfl⟩ := List.cons.inj whole.symm
        have here := @closesAt_eq mode front others tag
        have first : offsetOf? ['[', '/'] ('[' :: '/' :: others) = some 0 := by simp [offsetOf?]
        rw [closingTag?_append]
        simp only [List.append_eq, List.cons_append, List.nil_append, first, Nat.add_zero, here]
        cases taken : takeClosing? mode tag ('[' :: '/' :: others) with
        | some found =>
          obtain ⟨written, after⟩ := found
          simp [splitAtClosing?, taken]
        | none =>
          have parts : front ++ '[' :: '/' :: others = (front ++ ['[', '/']) ++ others := by simp
          have shorter : others.length < ('[' :: '/' :: others).length := by
            simp only [List.length_cons]
            omega
          have further := inductionHypothesis others.length shorter (front ++ ['[', '/']) others rfl
          have size : byteSize (front ++ ['[', '/']) = front.byteSize + 2 := by
            rw [byteSize_append]
            rfl
          have slash : takeClosing? mode tag ('/' :: others) = none := by simp [takeClosing?]
          rw [← parts, size] at further
          rw [splitAtClosing?_cons taken, splitAtClosing?_cons slash]
          simp only [Option.isSome_none, Bool.false_eq_true, if_false, further, Option.map_map]
          congr
          funext found
          have bracket : ('[' : Char).utf8Size = 1 := rfl
          have slashed : ('/' : Char).utf8Size = 1 := rfl
          simp only [Function.comp_apply, byteSize_cons, bracket, slashed, Prod.mk.injEq]
          omega
      · have other : List.isPrefixOf ['[', '/'] (c :: more) = false := Bool.eq_false_iff.mpr starts
        have free : takeClosing? mode tag (c :: more) = none := by
          unfold takeClosing?
          split
          · rename_i written whole
            rw [whole] at other
            simp at other
          · rfl
        have further := inductionHypothesis more.length (by simp) (front ++ [c]) more rfl
        rw [List.append_assoc, List.singleton_append, byteSize_concat] at further
        rw [closingTag?_skip other, further, splitAtClosing?_cons free, Option.map_map]
        congr
        funext found
        simp only [Function.comp_apply, byteSize_cons, Nat.add_assoc]

/-- The content at a position is the one that the reader takes. -/
theorem contentFrom?_eq (tag : Text) (selfClosing : Bool) (front rest : Text) :
    contentFrom? mode (front ++ rest) tag front.byteSize selfClosing =
      some ((takeBody mode tag selfClosing rest).1.content?,
        front.byteSize + (takeBody mode tag selfClosing rest).1.source.byteSize) := by
  unfold contentFrom? takeBody
  cases selfClosing with
  | true => rfl
  | false =>
    simp only [Bool.false_eq_true, if_false, closingTag?_eq, Option.bind_eq_bind, Option.bind_some]
    cases split : splitAtClosing? mode tag rest with
    | none => rfl
    | some found =>
      obtain ⟨content, written, after⟩ := found
      have whole : rest = content ++ ('[' :: '/' :: (written ++ ']' :: after)) := by
        simpa using splitAtClosing?_append split
      have sliced : slice? (front ++ rest) ⟨front.byteSize, front.byteSize + content.byteSize⟩ = some content := by
        rw [whole, slice?_append]
      have size : byteSize (content ++ ['[', '/'] ++ written ++ [']']) = content.byteSize + (tag.byteSize + 3) := by
        simp only [byteSize_append, ← same_byteSize (splitAtClosing?_same split)]
        have opening : byteSize ['[', '/'] = 2 := rfl
        have closing : byteSize [']'] = 1 := rfl
        omega
      simp only [Option.map_some, sliced, Option.bind_some, Body.content?, Body.source, size, Nat.add_assoc]
      rfl

/-- The end of an opening tag. -/
def closing (selfClosing : Bool) : Text :=
  if selfClosing then ['/', ']'] else [']']

/-- The opening tag at a position is the one that the reader takes. -/
theorem openingAt?_eq (tags : List Text) (front rest : Text) :
    openingAt? mode tags (front ++ rest) front.byteSize =
      some ((takeFirstTag? mode tags rest).bind fun taken => (takeAttributes? taken.2).map fun parts =>
        (taken.1, parts.1, parts.2.1, byteSize (front ++ taken.1 ++ parts.1 ++ closing parts.2.1))) := by
  unfold openingAt?
  simp only [tagSize?_eq, Option.bind_eq_bind, Option.bind_some]
  cases found : takeFirstTag? mode tags rest with
  | none => rfl
  | some taken =>
    obtain ⟨tag, afterTag⟩ := taken
    have split := takeFirstTag?_append found
    subst split
    have attributes := attributesEnd?_eq (front ++ tag) afterTag
    rw [byteSize_append, List.append_assoc] at attributes
    simp only [Option.map_some, slice?_append, attributes, Option.bind_some]
    cases ended : takeAttributes? afterTag with
    | none => rfl
    | some parts =>
      obtain ⟨raw, selfClosing, after⟩ := parts
      have split := takeAttributes?_append ended
      subst split
      have sliced := slice?_append (front ++ tag) raw (closing selfClosing ++ after)
      rw [byteSize_append, List.append_assoc, ← List.append_assoc raw] at sliced
      have stop : (if selfClosing then front.byteSize + tag.byteSize + raw.byteSize + 2
          else front.byteSize + tag.byteSize + raw.byteSize + 1) =
          byteSize (front ++ tag ++ raw ++ closing selfClosing) := by
        simp only [byteSize_append]
        cases selfClosing <;> rfl
      rw [closing] at sliced
      simp only [Option.map_some, sliced, Option.bind_some, stop]
      rfl

/-- The size of an opening tag, piece by piece. -/
theorem byteSize_opening (o : Occurrence) :
    o.opening.byteSize = (if o.brackets.before then 2 else 1) + (o.tag.byteSize +
      (o.rawAttributes.byteSize + (closing (decide (o.body = .selfClosing))).byteSize)) := by
  unfold Occurrence.opening closing
  simp only [decide_eq_true_eq, byteSize_append, Nat.add_assoc]
  cases o.brackets.before <;> rfl

/-- The size of an occurrence is that of its opening tag, its body and the bracket behind. -/
theorem byteSize_source (o : Occurrence) :
    o.source.byteSize = o.opening.byteSize + (o.body.source.byteSize + if o.brackets.after then 1 else 0) := by
  unfold Occurrence.source Occurrence.afterOpening
  simp only [byteSize_append]
  cases o.brackets.after <;> rfl

/-- A bracket is taken if it is the first character. -/
theorem takeBracket_fst (bracket : Char) (text : Text) : (takeBracket bracket text).1 = (text.head? == some bracket) := by
  cases text with
  | nil => rfl
  | cons c others =>
    by_cases same : c = bracket
    · simp [takeBracket, same]
    · simp [takeBracket, same]

/-- The shortcode at the position of a bracket is the one that the reader takes behind the bracket. -/
theorem reportAt?_eq (tags : List Text) (front rest : Text) :
    reportAt? mode tags (front ++ '[' :: rest) front.byteSize =
      some ((Occurrence.take? mode tags rest).map fun taken => report front.byteSize taken.1) := by
  have before : standsAt (front ++ '[' :: rest) (front.byteSize + 1) '[' = (takeBracket '[' rest).1 := by
    rw [takeBracket_fst]
    exact standsAt_next front rest '[' (by decide)
  have split_before := takeBracket_append '[' rest
  unfold reportAt? Occurrence.take?
  generalize takeBracket '[' rest = bracketed at before split_before
  obtain ⟨extra, inner⟩ := bracketed
  simp only at before split_before
  -- the brackets in front of the name
  obtain ⟨start, starts⟩ : ∃ start : Text, start = '[' :: (if extra then ['['] else []) := ⟨_, rfl⟩
  have whole : front ++ '[' :: rest = (front ++ start) ++ inner := by simp [starts, ← split_before]
  have named : (if extra then front.byteSize + 2 else front.byteSize + 1) = byteSize (front ++ start) := by
    rw [byteSize_append, starts]
    cases extra <;> rfl
  rw [whole] at before ⊢
  simp only [before, named, openingAt?_eq, Option.bind_eq_bind, Option.bind_some]
  cases found : takeFirstTag? mode tags inner with
  | none => rfl
  | some taken =>
    obtain ⟨tag, afterTag⟩ := taken
    have split_tag := takeFirstTag?_append found
    simp only [Option.bind_some]
    cases ended : takeAttributes? afterTag with
    | none => rfl
    | some parts =>
      obtain ⟨raw, selfClosing, afterOpening⟩ := parts
      have split_raw : afterTag = raw ++ closing selfClosing ++ afterOpening := takeAttributes?_append ended
      have selfClosed := takeBody_selfClosing mode tag selfClosing afterOpening
      have split_body := takeBody_append mode tag selfClosing afterOpening
      have opening : front ++ start ++ inner = (front ++ start ++ tag ++ raw ++ closing selfClosing) ++ afterOpening := by
        simp [split_tag, split_raw]
      simp only [Option.map_some, opening, contentFrom?_eq, Option.bind_some]
      generalize takeBody mode tag selfClosing afterOpening = bodied at selfClosed split_body
      obtain ⟨body, afterBody⟩ := bodied
      simp only at selfClosed split_body ⊢
      -- the bracket behind
      have behind := @standsAt_front (front ++ start ++ tag ++ raw ++ closing selfClosing ++ body.source) afterBody ']'
        (by decide)
      rw [byteSize_append _ body.source, List.append_assoc _ body.source, split_body, ← takeBracket_fst] at behind
      simp only [behind]
      generalize takeBracket ']' afterBody = ending
      obtain ⟨after, left⟩ := ending
      -- both report the same places
      have flag : decide (body = .selfClosing) = selfClosing := by
        rw [Bool.eq_iff_iff, decide_eq_true_eq, selfClosed]
      have extraSize : byteSize start = if extra then 2 else 1 := by
        rw [starts]
        cases extra <;> rfl
      simp only [report, Occurrence.span, Occurrence.openingSpan, byteSize_source, byteSize_opening, flag, byteSize_append,
        extraSize, Nat.add_assoc]
      cases after <;> rfl

/-- Where a part of a text starts, the search looks for the next bracket. -/
theorem reportsFrom?_append (tags : List Text) (front rest : Text) :
    reportsFrom? mode tags (front ++ rest) front.byteSize =
      match offsetOf? ['['] rest with
      | none => some []
      | some offset =>
        (reportAt? mode tags (front ++ rest) (front.byteSize + offset)).bind fun
          | some found =>
            if front.byteSize + offset < found.span.stop then
              (reportsFrom? mode tags (front ++ rest) found.span.stop).bind fun later => some (found :: later)
            else none
          | none => reportsFrom? mode tags (front ++ rest) (front.byteSize + offset + 1) := by
  have inside : ¬(front ++ rest).byteSize < front.byteSize := by
    rw [byteSize_append]
    omega
  rw [reportsFrom?, if_neg inside, dropBytes?_append]
  simp only [Option.bind_eq_bind, Option.bind_some, Option.pure_def]

/-- Where an occurrence does not start, the search goes on behind the character. -/
theorem reportsFrom?_skip {tags : List Text} {c : Char} (other : c ≠ '[') :
    reportsFrom? mode tags (front ++ c :: rest) front.byteSize =
      reportsFrom? mode tags (front ++ c :: rest) (front.byteSize + c.utf8Size) := by
  have passes : List.isPrefixOf ['['] (c :: rest) = false := by
    simp [List.isPrefixOf, Ne.symm other]
  have next := @reportsFrom?_append mode tags (front ++ [c]) rest
  rw [List.append_assoc, List.singleton_append, byteSize_concat] at next
  rw [reportsFrom?_append, next]
  simp only [offsetOf?, passes, Bool.false_eq_true, if_false]
  cases offsetOf? ['['] rest with
  | none => rfl
  | some offset => simp only [Option.map_some, Nat.add_assoc]

/-- A character in front of a cut moves its occurrences. -/
theorem locateFrom_pushChar (c : Char) (s : Segmentation) (offset : Nat) :
    Segmentation.locateFrom offset (s.pushChar c).pieces = Segmentation.locateFrom (offset + c.utf8Size) s.pieces := by
  obtain ⟨pieces, tail⟩ := s
  cases pieces with
  | nil => rfl
  | cons piece others => simp only [Segmentation.pushChar, Segmentation.locateFrom, byteSize_cons, Nat.add_assoc]

/-- From the position where a part of a text starts, the search succeeds and reports what the part is cut into. -/
theorem reportsFrom?_eq (tags : List Text) (front rest : Text) :
    reportsFrom? mode tags (front ++ rest) front.byteSize =
      some ((Segmentation.locateFrom front.byteSize (Segmentation.ofText mode tags rest).pieces).map fun located =>
        report located.1 located.2) := by
  unfold Segmentation.ofText
  induction length : rest.length using Nat.strongRecOn generalizing front rest with
  | _ n inductionHypothesis =>
    subst length
    cases rest with
    | nil =>
      rw [reportsFrom?_append]
      rfl
    | cons c more =>
      have further := inductionHypothesis more.length (by simp) (front ++ [c]) more rfl
      rw [List.append_assoc, List.singleton_append, byteSize_concat] at further
      by_cases bracket : c = '['
      · subst bracket
        have first : offsetOf? ['['] ('[' :: more) = some 0 := by simp [offsetOf?]
        rw [reportsFrom?_append]
        simp only [first, Nat.add_zero, reportAt?_eq]
        cases taken : Occurrence.take? mode tags more with
        | none =>
          rw [Segmentation.scan_char (fun _ => taken), locateFrom_pushChar]
          exact further
        | some found =>
          obtain ⟨o, after⟩ := found
          have whole := Occurrence.source_append taken
          have shorter : after.length < ('[' :: more).length := by
            have sizes := congrArg List.length whole
            have starts : 0 < o.source.length := by simp [o.source_eq]
            rw [List.length_append] at sizes
            omega
          have later := inductionHypothesis after.length shorter (front ++ o.source) after rfl
          rw [List.append_assoc, ← whole, byteSize_append] at later
          rw [Segmentation.scan_taken taken]
          have grows : front.byteSize < (report front.byteSize o).span.stop := o.start_lt_stop front.byteSize
          simp only [Option.map_some, Option.bind_some, if_pos grows]
          simp only [report, Occurrence.span, later, Option.bind_some, Segmentation.pushOccurrence,
            Segmentation.locateFrom, byteSize_nil, Nat.add_zero, List.map_cons]
      · rw [reportsFrom?_skip bracket, Segmentation.scan_char (fun same => absurd same bracket), locateFrom_pushChar]
        exact further

end

end Positions
end MapEmbed.Shortcode
