import MapEmbed.Block.Tags
import MapEmbed.Shortcode.Reader

/-!
# Closing tags in a text

A closing tag is bracketed, and no name holds a bracket, so a closing tag cannot reach over one. A text can
therefore be searched for closing tags piece by piece, as long as every cut stands before an opening or after a
closing bracket. The search stops at the first closing tag: what it passes over has none.

The laws hold in both case modes and for every tag that is a name. They say nothing of opening tags.
-/

namespace MapEmbed.Shortcode

/-- A character after which a name has not ended. -/
def continuesName (c : Char) : Bool :=
  Unicode.isAlphanumeric c || c == '_' || c == '-'

/-- A tag that ends where the text around it says so: not empty, and of characters that continue a name. -/
def IsName (tag : Text) : Prop :=
  tag ≠ [] ∧ ∀ c ∈ tag, continuesName c = true

instance (tag : Text) : Decidable (IsName tag) :=
  decidable_of_iff (tag ≠ [] ∧ tag.all continuesName = true) (and_congr_right fun _ => List.all_eq_true)

/-- Map tags are names. -/
theorem isName_of_mem_mapTags : ∀ tag ∈ mapTags, IsName tag := by
  decide

/-- Marker tags are names. -/
theorem isName_of_mem_markerTags : ∀ tag ∈ markerTags, IsName tag := by
  decide

/-- A name has ended before a character exactly when that does not continue it. -/
theorem endsName_cons (c : Char) (rest : Text) : endsName (c :: rest) = !continuesName c := rfl

/-- Lowering a seven-bit letter does not change whether it continues a name. -/
theorem continuesName_asciiLower (c : Char) : continuesName (Unicode.asciiLower c) = continuesName c :=
  Unicode.asciiLower_congr continuesName (by decide) c

/-- Names that count as the same have the same number of characters. -/
theorem same_length {mode : CaseMode} {tag written : Text} (same : mode.same tag written = true) :
    written.length = tag.length := by
  cases mode with
  | exact =>
    simp only [CaseMode.same, beq_iff_eq] at same
    rw [same]
  | ignoring =>
    simp only [CaseMode.same, beq_iff_eq] at same
    simpa only [List.length_map] using congrArg List.length same

/-- What counts as the same as a name is a name. -/
theorem same_name {mode : CaseMode} {tag written : Text} (same : mode.same tag written = true)
    (named : IsName tag) : IsName written := by
  have length : written.length = tag.length := same_length same
  refine ⟨?_, ?_⟩
  · intro empty
    exact named.1 (List.eq_nil_of_length_eq_zero (by simpa [empty] using length.symm))
  · intro c member
    cases mode with
    | exact =>
      simp only [CaseMode.same, beq_iff_eq] at same
      exact named.2 c (same ▸ member)
    | ignoring =>
      simp only [CaseMode.same, beq_iff_eq] at same
      have lowered : Unicode.asciiLower c ∈ tag.map Unicode.asciiLower := by
        rw [← same]
        exact List.mem_map_of_mem member
      obtain ⟨d, listed, equal⟩ := List.mem_map.mp lowered
      rw [← continuesName_asciiLower, ← equal, continuesName_asciiLower]
      exact named.2 d listed

/-- In the exact mode a name is the same as itself alone. -/
@[simp] theorem same_exact (tag written : Text) : CaseMode.exact.same tag written = true ↔ written = tag := by
  simp [CaseMode.same]

/-- A name is the same as itself. -/
theorem same_self (mode : CaseMode) (name : Text) : mode.same name name = true := by
  cases mode with
  | exact => exact (same_exact name name).mpr rfl
  | ignoring => simp [CaseMode.same]

/-- A character that ends names stands in none. -/
theorem not_mem_name {tag : Text} {c : Char} (named : IsName tag) (ends : continuesName c = false) : c ∉ tag := by
  intro member
  simp [named.2 c member] at ends

/-- A closing tag that is read is one of the wanted name. -/
theorem takeClosing?_same {mode : CaseMode} {tag text written rest : Text}
    (taken : takeClosing? mode tag text = some (written, rest)) : mode.same tag written = true := by
  unfold takeClosing? at taken
  split at taken
  · split at taken
    · simp only [Option.ite_none_right_eq_some, Option.some.injEq, Prod.mk.injEq] at taken
      exact taken.2.1 ▸ taken.1
    · simp at taken
  · simp at taken

/-- Names of different lengths do not count as the same. -/
theorem same_of_length {mode : CaseMode} {tag written : Text} (different : written.length ≠ tag.length) :
    mode.same tag written = false :=
  Bool.eq_false_iff.mpr fun same => different (same_length same)

/-- A text with a character that ends names does not count as the same as a name. -/
theorem same_of_mem {mode : CaseMode} {tag written : Text} {c : Char} (named : IsName tag)
    (ends : continuesName c = false) (member : c ∈ written) : mode.same tag written = false :=
  Bool.eq_false_iff.mpr fun same => not_mem_name (same_name same named) ends member

/-- A bracketed name is a closing tag exactly for the tags that it is the same as. Where the two differ in
length, either the name goes on where the tag is over, or the tag would have to hold the bracket. -/
theorem takeClosing?_written {mode : CaseMode} {tag name : Text} (rest : Text) (named : IsName tag)
    (closed : ']' ∉ name) :
    takeClosing? mode tag ('[' :: '/' :: (name ++ ']' :: rest)) =
      if mode.same tag name then some (name, rest) else none := by
  simp only [takeClosing?]
  rcases Nat.lt_trichotomy name.length tag.length with shorter | equal | longer
  · have different : mode.same tag name = false := same_of_length (by omega)
    have reaches : ']' ∈ (name ++ ']' :: rest).take tag.length := by
      rw [List.take_append, List.take_of_length_le (Nat.le_of_lt shorter)]
      obtain ⟨further, left⟩ : ∃ n, tag.length - name.length = n + 1 := ⟨tag.length - name.length - 1, by omega⟩
      simp [left]
    have unlike : mode.same tag ((name ++ ']' :: rest).take tag.length) = false :=
      same_of_mem named (by decide) reaches
    split
    · simp [different, unlike]
    · simp [different]
  · simp only [← equal, List.drop_left, List.take_left]
  · have different : mode.same tag name = false := same_of_length (by omega)
    have goes : (name ++ ']' :: rest).drop tag.length =
        name[tag.length] :: (name ++ ']' :: rest).drop (tag.length + 1) := by
      rw [List.drop_eq_getElem_cons (by simp; omega), List.getElem_append_left]
    have other : name[tag.length] ≠ ']' := by
      intro bracket
      exact closed (bracket ▸ List.getElem_mem longer)
    rw [goes]
    split
    · rename_i after equal
      simp only [List.cons.injEq] at equal
      exact absurd equal.1 other
    · simp [different]

/-- A closing tag is read exactly where one of the wanted name is written. -/
theorem takeClosing?_eq_some_iff {mode : CaseMode} {tag text written rest : Text} (named : IsName tag) :
    takeClosing? mode tag text = some (written, rest) ↔
      mode.same tag written = true ∧ text = '[' :: '/' :: (written ++ ']' :: rest) := by
  constructor
  · intro taken
    exact ⟨takeClosing?_same taken, by simpa using takeClosing?_append taken⟩
  · rintro ⟨same, rfl⟩
    have closed : ']' ∉ written := not_mem_name (same_name same named) (by decide)
    rw [takeClosing?_written rest named closed, if_pos same]

/-- No closing tag starts where none is read. -/
theorem takeClosing?_eq_none_iff {mode : CaseMode} {tag text : Text} (named : IsName tag) :
    takeClosing? mode tag text = none ↔
      ∀ written rest, mode.same tag written = true → text ≠ '[' :: '/' :: (written ++ ']' :: rest) := by
  rw [Option.eq_none_iff_forall_ne_some]
  constructor
  · intro none written rest same equal
    exact none (written, rest) ((takeClosing?_eq_some_iff named).mpr ⟨same, equal⟩)
  · rintro none ⟨written, rest⟩ taken
    obtain ⟨same, equal⟩ := (takeClosing?_eq_some_iff named).mp taken
    exact none written rest same equal

/-- A closing tag that is read stays one whatever follows. -/
theorem takeClosing?_append_right {mode : CaseMode} {tag text written rest : Text} (named : IsName tag)
    (taken : takeClosing? mode tag text = some (written, rest)) (back : Text) :
    takeClosing? mode tag (text ++ back) = some (written, rest ++ back) := by
  obtain ⟨same, rfl⟩ := (takeClosing?_eq_some_iff named).mp taken
  exact (takeClosing?_eq_some_iff named).mpr ⟨same, by simp⟩

/-- No closing tag reaches over an opening bracket. -/
theorem takeClosing?_before_bracket {mode : CaseMode} {tag : Text} (named : IsName tag) {c : Char} {front : Text}
    (free : takeClosing? mode tag (c :: front) = none) (back : Text) :
    takeClosing? mode tag (c :: (front ++ '[' :: back)) = none := by
  rw [takeClosing?_eq_none_iff named] at free ⊢
  intro written rest same equal
  simp only [List.cons.injEq] at equal
  obtain ⟨rfl, equal⟩ := equal
  have opened : '[' ∉ written := not_mem_name (same_name same named) (by decide)
  have cut : front ++ '[' :: back = ('/' :: (written ++ [']'])) ++ rest := by simpa using equal
  rcases List.append_eq_append_iff.mp cut with ⟨beyond, whole, left⟩ | ⟨inner, whole, left⟩
  · cases beyond with
    | nil => exact free written [] same (by simpa using whole.symm)
    | cons d after =>
      simp only [List.cons_append, List.cons.injEq] at left
      have inside : '[' ∈ '/' :: (written ++ [']']) := by simp [whole, ← left.1]
      simp [opened] at inside
  · exact free written inner same (by simp [whole])

/-- No closing tag reaches over a closing bracket. -/
theorem takeClosing?_after_bracket {mode : CaseMode} {tag : Text} (named : IsName tag) {front : Text}
    (free : takeClosing? mode tag (front ++ [']']) = none) (back : Text) :
    takeClosing? mode tag (front ++ ']' :: back) = none := by
  rw [takeClosing?_eq_none_iff named] at free ⊢
  intro written rest same equal
  have closed : ']' ∉ written := not_mem_name (same_name same named) (by decide)
  have cut : (front ++ [']']) ++ back = ('[' :: '/' :: (written ++ [']'])) ++ rest := by simpa using equal
  rcases List.append_eq_append_iff.mp cut with ⟨beyond, whole, left⟩ | ⟨inner, whole, left⟩
  · rcases List.eq_nil_or_concat beyond with rfl | ⟨before, last, rfl⟩
    · exact free written [] same (by simpa using whole.symm)
    · have shorter : '[' :: '/' :: written = front ++ ']' :: before := by
        have ends : ('[' :: '/' :: written) ++ [']'] = (front ++ ']' :: before) ++ [last] := by simpa using whole
        exact (List.append_inj' ends rfl).1
      have inside : ']' ∈ '[' :: '/' :: written := by simp [shorter]
      simp [closed] at inside
  · exact free written inner same (by simp [whole])

/-! ### The first closing tag -/

/-- A text without one of the characters of every closing tag has no closing tag. -/
theorem splitAtClosing?_of_not_mem {mode : CaseMode} {tag text : Text} {c : Char} (needed : c ∈ ['[', '/', ']'])
    (absent : c ∉ text) : splitAtClosing? mode tag text = none := by
  cases split : splitAtClosing? mode tag text with
  | none => rfl
  | some found =>
    obtain ⟨content, written, rest⟩ := found
    rw [splitAtClosing?_append split] at absent
    simp only [List.mem_cons, List.not_mem_nil, or_false] at needed
    rcases needed with rfl | rfl | rfl
    · simp at absent
    · simp at absent
    · simp at absent

/-- The search passes over a character where no closing tag starts. -/
theorem splitAtClosing?_cons {mode : CaseMode} {tag rest : Text} {c : Char}
    (free : takeClosing? mode tag (c :: rest) = none) :
    splitAtClosing? mode tag (c :: rest) =
      (splitAtClosing? mode tag rest).map fun (content, written, after) => (c :: content, written, after) := by
  rw [splitAtClosing?, free]

/-- Where nothing closes, nothing closes at the first character or after it. -/
theorem splitAtClosing?_cons_eq_none {mode : CaseMode} {tag rest : Text} {c : Char} :
    splitAtClosing? mode tag (c :: rest) = none ↔
      takeClosing? mode tag (c :: rest) = none ∧ splitAtClosing? mode tag rest = none := by
  cases taken : takeClosing? mode tag (c :: rest) with
  | none => simp [splitAtClosing?_cons taken]
  | some found => simp [splitAtClosing?, taken]

/-- The search goes over a piece without closing tags that an opening bracket follows. -/
theorem splitAtClosing?_before_bracket {mode : CaseMode} {tag : Text} (named : IsName tag) {front : Text}
    (free : splitAtClosing? mode tag front = none) (back : Text) :
    splitAtClosing? mode tag (front ++ '[' :: back) =
      (splitAtClosing? mode tag ('[' :: back)).map
        fun (content, written, after) => (front ++ content, written, after) := by
  induction front with
  | nil => simp
  | cons c rest ih =>
    obtain ⟨here, later⟩ := splitAtClosing?_cons_eq_none.mp free
    rw [List.cons_append, splitAtClosing?_cons (takeClosing?_before_bracket named here back), ih later,
      Option.map_map]
    rfl

/-- The search goes over a piece without closing tags that ends in a closing bracket. -/
theorem splitAtClosing?_after_bracket {mode : CaseMode} {tag : Text} (named : IsName tag) {front : Text}
    (free : splitAtClosing? mode tag (front ++ [']']) = none) (back : Text) :
    splitAtClosing? mode tag (front ++ ']' :: back) =
      (splitAtClosing? mode tag back).map
        fun (content, written, after) => (front ++ ']' :: content, written, after) := by
  induction front with
  | nil =>
    have here : takeClosing? mode tag (']' :: back) = none := by simp [takeClosing?]
    simp [splitAtClosing?_cons here]
  | cons c rest ih =>
    obtain ⟨here, later⟩ := splitAtClosing?_cons_eq_none.mp free
    have free : takeClosing? mode tag (c :: (rest ++ ']' :: back)) = none :=
      @takeClosing?_after_bracket _ _ named (c :: rest) here back
    rw [List.cons_append, splitAtClosing?_cons free, ih later, Option.map_map]
    rfl

/-- Nothing closes in the parts of a text in which nothing closes. -/
theorem splitAtClosing?_append_eq_none {mode : CaseMode} {tag : Text} (named : IsName tag) {front back : Text}
    (free : splitAtClosing? mode tag (front ++ back) = none) :
    splitAtClosing? mode tag front = none ∧ splitAtClosing? mode tag back = none := by
  induction front with
  | nil => exact ⟨rfl, free⟩
  | cons c rest ih =>
    obtain ⟨here, later⟩ := splitAtClosing?_cons_eq_none.mp free
    refine ⟨splitAtClosing?_cons_eq_none.mpr ⟨?_, (ih later).1⟩, (ih later).2⟩
    cases taken : takeClosing? mode tag (c :: rest) with
    | none => rfl
    | some found =>
      have stays := takeClosing?_append_right named taken back
      simp only [List.cons_append] at stays
      simp [stays] at here

/-- A content without closing tags ends at the closing tag that follows it. -/
theorem splitAtClosing?_content {mode : CaseMode} {tag content written : Text} (named : IsName tag)
    (free : splitAtClosing? mode tag content = none) (same : mode.same tag written = true) (rest : Text) :
    splitAtClosing? mode tag (content ++ '[' :: '/' :: (written ++ ']' :: rest)) =
      some (content, written, rest) := by
  have closes := (@takeClosing?_eq_some_iff mode _ _ _ rest named).mpr ⟨same, rfl⟩
  rw [splitAtClosing?_before_bracket named free, splitAtClosing?, closes]
  simp

/-- The closing tag at which a text is split has the wanted name. -/
theorem splitAtClosing?_same {mode : CaseMode} {tag text content written rest : Text}
    (split : splitAtClosing? mode tag text = some (content, written, rest)) : mode.same tag written = true := by
  induction text generalizing content with
  | nil => simp [splitAtClosing?] at split
  | cons c later ih =>
    cases taken : takeClosing? mode tag (c :: later) with
    | some found =>
      simp only [splitAtClosing?, taken, Option.some.injEq, Prod.mk.injEq] at split
      obtain ⟨rfl, rfl, rfl⟩ := split
      exact takeClosing?_same taken
    | none =>
      rw [splitAtClosing?_cons taken] at split
      obtain ⟨⟨inner, name, after⟩, found, equal⟩ := Option.map_eq_some_iff.mp split
      simp only [Prod.mk.injEq] at equal
      obtain ⟨rfl, rfl, rfl⟩ := equal
      exact ih found

/-- Nothing closes before the closing tag at which a text is split: the search would have stopped there. -/
theorem splitAtClosing?_free {mode : CaseMode} {tag text content written rest : Text} (named : IsName tag)
    (split : splitAtClosing? mode tag text = some (content, written, rest)) :
    splitAtClosing? mode tag content = none := by
  induction text generalizing content with
  | nil => simp [splitAtClosing?] at split
  | cons c later ih =>
    cases taken : takeClosing? mode tag (c :: later) with
    | some found =>
      simp only [splitAtClosing?, taken, Option.some.injEq, Prod.mk.injEq] at split
      obtain ⟨rfl, rfl, rfl⟩ := split
      rfl
    | none =>
      rw [splitAtClosing?_cons taken] at split
      obtain ⟨⟨inner, name, after⟩, found, equal⟩ := Option.map_eq_some_iff.mp split
      simp only [Prod.mk.injEq] at equal
      obtain ⟨rfl, rfl, rfl⟩ := equal
      refine splitAtClosing?_cons_eq_none.mpr ⟨?_, ih found⟩
      cases earlier : takeClosing? mode tag (c :: inner) with
      | none => rfl
      | some closing =>
        have stays := takeClosing?_append_right named earlier (['[', '/'] ++ name ++ [']'] ++ after)
        have whole : later = inner ++ (['[', '/'] ++ name ++ [']'] ++ after) := by
          simpa using splitAtClosing?_append found
        rw [List.cons_append, ← whole, taken] at stays
        simp at stays

/-- A text is split at the first closing tag of the wanted name. -/
theorem splitAtClosing?_eq_some_iff {mode : CaseMode} {tag text content written rest : Text} (named : IsName tag) :
    splitAtClosing? mode tag text = some (content, written, rest) ↔
      splitAtClosing? mode tag content = none ∧ mode.same tag written = true ∧
        text = content ++ '[' :: '/' :: (written ++ ']' :: rest) := by
  constructor
  · intro split
    exact ⟨splitAtClosing?_free named split, splitAtClosing?_same split, by simpa using splitAtClosing?_append split⟩
  · rintro ⟨free, same, rfl⟩
    exact splitAtClosing?_content named free same rest

/-- Nothing closes in a text whose only closing bracket is its last character, if no closing tag of the name ends
there. -/
theorem splitAtClosing?_of_last {mode : CaseMode} {tag front : Text} (named : IsName tag) (closed : ']' ∉ front)
    (apart : ∀ written, mode.same tag written = true → ¬('[' :: '/' :: written <:+ front)) :
    splitAtClosing? mode tag (front ++ [']']) = none := by
  cases split : splitAtClosing? mode tag (front ++ [']']) with
  | none => rfl
  | some found =>
    obtain ⟨content, written, rest⟩ := found
    obtain ⟨-, same, whole⟩ := (splitAtClosing?_eq_some_iff named).mp split
    rcases List.eq_nil_or_concat rest with rfl | ⟨before, final, rfl⟩
    · have ending : front ++ [']'] = (content ++ '[' :: '/' :: written) ++ [']'] := by simpa using whole
      exact absurd ⟨content, (List.append_inj' ending rfl).1.symm⟩ (apart written same)
    · have ending : front ++ [']'] = (content ++ '[' :: '/' :: (written ++ ']' :: before)) ++ [final] := by
        simpa using whole
      have equal := (List.append_inj' ending rfl).1
      exact absurd (by simp [equal]) closed

/-- The closing tag of a name closes no other. -/
theorem splitAtClosing?_other {mode : CaseMode} {tag name : Text} (named : IsName tag) (nameNamed : IsName name)
    (other : mode.same tag name = false) : splitAtClosing? mode tag ('[' :: '/' :: (name ++ [']'])) = none := by
  have closed : ']' ∉ name := not_mem_name nameNamed (by decide)
  have opened : '[' ∉ name := not_mem_name nameNamed (by decide)
  apply splitAtClosing?_cons_eq_none.mpr
  constructor
  · have written := @takeClosing?_written mode _ _ [] named closed
    rwa [other] at written
  · exact splitAtClosing?_of_not_mem (by decide : '[' ∈ ['[', '/', ']']) (by simp [opened])

end MapEmbed.Shortcode
