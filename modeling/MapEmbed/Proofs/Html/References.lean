import MapEmbed.Html.Reference
import MapEmbed.Proofs.Text.Escaping
import MapEmbed.Proofs.Lookup

/-!
# Decoding complete references

What a reader makes of a complete reference, whatever table of names it is given, as long as the table is `Sound`:
names are letters and digits, a semicolon stands at most at their end, a name that needs none is there with one too,
and what is decoded is no longer than the name. Of a complete reference either everything is decoded or nothing.
-/

namespace MapEmbed.Html

/-- What holds of every table of names that readers of markup are given. -/
structure Sound (names : ReferenceTable) : Prop where
  /-- A name is made of letters and digits, and may end in a semicolon. -/
  shaped : ∀ entry ∈ names, ∃ letters, letters ≠ [] ∧ letters.all Unicode.isAsciiAlphanumeric = true ∧
    (entry.1 = letters ∨ entry.1 = letters ++ [';'])
  /-- No name occurs twice. -/
  distinct : (names.map Prod.fst).Nodup
  /-- A name that needs no semicolon means the same with one. -/
  terminated : ∀ entry ∈ names, entry.1.getLast? ≠ some ';' → (entry.1 ++ [';'], entry.2) ∈ names
  /-- No name stands for more characters than it has. -/
  short : ∀ entry ∈ names, entry.2.length ≤ entry.1.length
  /-- The names of four reserved characters are among them. -/
  reserved : ("amp;".toList, ['&']) ∈ names ∧ ("lt;".toList, ['<']) ∈ names ∧ ("gt;".toList, ['>']) ∈ names ∧
    ("quot;".toList, ['"']) ∈ names

/-- What stands between the hash sign of a number and its digits, by its base. -/
inductive NumberMark : Bool → Text → Prop where
  | decimal : NumberMark false []
  | small : NumberMark true ['x']
  | capital : NumberMark true ['X']

/-- What a complete reference is read as, its ampersand included. A name that is not known stays as it is. -/
def decodedWord (names : ReferenceTable) (word : Text) : Text :=
  match numericParts? word with
  | some (hexadecimal, digits, _) => [charOfNumber (Text.valueInBase (if hexadecimal then 16 else 10) digits)]
  | none => (names.lookup word).getD ('&' :: word)

/-- A complete reference that is decoded: a number, or a name that is known. -/
def Decodes (names : ReferenceTable) (word : Text) : Prop :=
  Text.ReferenceWord word ∧ (word.head? = some '#' ∨ word ∈ names.map Prod.fst)

/-- Whether a reference that is decoded stands in a text. -/
def HoldsReference (names : ReferenceTable) (text : Text) : Prop :=
  ∃ word, Decodes names word ∧ '&' :: word <:+: text

/-- The names that are used here are such a table. -/
theorem sound_namedReferences : Sound namedReferences where
  shaped := by
    have checked : (namedReferences.all fun entry =>
        let letters := if entry.1.getLast? = some ';' then entry.1.dropLast else entry.1
        !letters.isEmpty && letters.all Unicode.isAsciiAlphanumeric) = true := by decide
    intro entry listed
    have here := List.all_eq_true.mp checked entry listed
    simp only [Bool.and_eq_true, Bool.not_eq_true', List.isEmpty_eq_false_iff] at here
    by_cases closed : entry.1.getLast? = some ';'
    · obtain ⟨letters, split⟩ := List.getLast?_eq_some_iff.mp closed
      rw [if_pos closed, split, List.dropLast_concat] at here
      exact ⟨letters, here.1, here.2, Or.inr split⟩
    · rw [if_neg closed] at here
      exact ⟨entry.1, here.1, here.2, Or.inl rfl⟩
  distinct := by decide
  terminated := by decide
  short := by decide
  reserved := by decide

/-! ### Names -/

section
variable {names : ReferenceTable}

/-- A name is not empty. -/
theorem Sound.name_ne_nil (sound : Sound names) {entry : Text × Text} (listed : entry ∈ names) : entry.1 ≠ [] := by
  obtain ⟨letters, some_, -, plain | closed⟩ := sound.shaped entry listed
  · exact plain ▸ some_
  · simp [closed]

/-- Every character of a name but the last is a letter or a digit. -/
theorem Sound.alphanumeric (sound : Sound names) {entry : Text × Text} (listed : entry ∈ names) {front back : Text}
    {c d : Char} (split : entry.1 = front ++ c :: d :: back) : Unicode.isAsciiAlphanumeric c = true := by
  obtain ⟨letters, -, all, plain | closed⟩ := sound.shaped entry listed
  · exact List.all_eq_true.mp all c (by simp [← plain, split])
  · have whole : letters ++ [';'] = (front ++ [c]) ++ d :: back := by rw [← closed, split]; simp
    rcases List.append_eq_append_iff.mp whole with ⟨beyond, left, right⟩ | ⟨inner, left, right⟩
    · cases beyond with
      | nil => exact List.all_eq_true.mp all c (by simp [← (by simpa using left : front ++ [c] = letters)])
      | cons e others => simp at right
    · exact List.all_eq_true.mp all c (by simp [left])

/-- A character of a name is a letter, a digit or a semicolon. -/
theorem Sound.mem_name (sound : Sound names) {entry : Text × Text} (listed : entry ∈ names) {c : Char}
    (member : c ∈ entry.1) : Unicode.isAsciiAlphanumeric c = true ∨ c = ';' := by
  obtain ⟨letters, -, all, plain | closed⟩ := sound.shaped entry listed
  · exact Or.inl (List.all_eq_true.mp all c (plain ▸ member))
  · rw [closed, List.mem_append, List.mem_singleton] at member
    exact member.imp_left (List.all_eq_true.mp all c)

/-- Nothing stands behind the semicolon of a name. -/
theorem Sound.name_of_prefix (sound : Sound names) {entry : Text × Text} (listed : entry ∈ names) {front : Text}
    (starts : front ++ [';'] <+: entry.1) : entry.1 = front ++ [';'] := by
  obtain ⟨back, split⟩ := starts
  cases back with
  | nil => simpa using split.symm
  | cons d others =>
    have letter := sound.alphanumeric listed (c := ';') (by simpa using split.symm)
    exact absurd letter (by decide)

/-- The longest name that starts a text is a name, starts the text, and no other is longer. -/
theorem longestName?_spec (sound : Sound names) (seen : Text) :
    (longestName? names seen = none ∧ ∀ entry ∈ names, ¬entry.1 <+: seen) ∨
      ∃ entry ∈ names, longestName? names seen = some entry ∧ entry.1 <+: seen ∧
        ∀ other ∈ names, other.1 <+: seen → other.1.length ≤ entry.1.length := by
  -- the best entry so far is the longest of those that were tried
  have folded (tried left : ReferenceTable) (best : Option (Text × Text)) (all : names = tried ++ left)
      (invariant : (best = none ∧ ∀ entry ∈ tried, ¬entry.1 <+: seen) ∨ ∃ entry ∈ tried, best = some entry ∧
        entry.1 <+: seen ∧ ∀ other ∈ tried, other.1 <+: seen → other.1.length ≤ entry.1.length) :
      let result := left.foldl (fun best entry =>
        if entry.1.isPrefixOf seen && (best.map fun b => b.1.length).getD 0 < entry.1.length then some entry
        else best) best
      (result = none ∧ ∀ entry ∈ names, ¬entry.1 <+: seen) ∨ ∃ entry ∈ names, result = some entry ∧
        entry.1 <+: seen ∧ ∀ other ∈ names, other.1 <+: seen → other.1.length ≤ entry.1.length := by
    induction left generalizing tried best with
    | nil =>
      rw [List.append_nil] at all
      subst all
      exact invariant
    | cons entry rest inductionHypothesis =>
      apply inductionHypothesis (tried ++ [entry])
      · simp [all]
      · have listed : entry ∈ names := by simp [all]
        have positive : 0 < entry.1.length := List.length_pos_iff.mpr (sound.name_ne_nil listed)
        simp only [Bool.and_eq_true, List.isPrefixOf_iff_prefix, decide_eq_true_eq]
        rcases invariant with ⟨rfl, missed⟩ | ⟨longest, found, rfl, starts, bound⟩
        · by_cases fits : entry.1 <+: seen
          · rw [if_pos ⟨fits, by simpa using positive⟩]
            refine Or.inr ⟨entry, by simp, rfl, fits, ?_⟩
            intro other member also
            rcases List.mem_append.mp member with before | here
            · exact absurd also (missed other before)
            · exact Nat.le_of_eq (by rw [List.mem_singleton.mp here])
          · rw [if_neg fun both => fits both.1]
            refine Or.inl ⟨rfl, ?_⟩
            intro other member
            rcases List.mem_append.mp member with before | here
            · exact missed other before
            · rw [List.mem_singleton.mp here]
              exact fits
        · by_cases longer : entry.1 <+: seen ∧ longest.1.length < entry.1.length
          · rw [if_pos (by simpa using longer)]
            refine Or.inr ⟨entry, by simp, rfl, longer.1, ?_⟩
            intro other member also
            rcases List.mem_append.mp member with before | here
            · have least := bound other before also
              omega
            · exact Nat.le_of_eq (by rw [List.mem_singleton.mp here])
          · rw [if_neg (by simpa using longer)]
            refine Or.inr ⟨longest, List.mem_append_left _ found, rfl, starts, ?_⟩
            intro other member also
            rcases List.mem_append.mp member with before | here
            · exact bound other before also
            · rw [List.mem_singleton.mp here] at also ⊢
              exact Nat.le_of_not_lt fun less => longer ⟨also, less⟩
  exact folded [] names none rfl (Or.inl ⟨rfl, by simp⟩)

/-! ### Numbers -/

/-- A complete reference with a hash sign is a number. -/
theorem exists_of_hash {word : Text} (complete : Text.ReferenceWord word) (hash : word.head? = some '#') :
    ∃ hexadecimal mark digits, NumberMark hexadecimal mark ∧ digits ≠ [] ∧
      (∀ c ∈ digits, isReferenceDigit hexadecimal c = true) ∧ word = '#' :: (mark ++ (digits ++ [';'])) := by
  cases complete with
  | @decimal digits some_ all => exact ⟨false, [], digits, .decimal, some_, all, rfl⟩
  | @hexadecimal mark digits marked some_ all =>
    rcases marked with rfl | rfl
    · exact ⟨true, ['x'], digits, .small, some_, all, rfl⟩
    · exact ⟨true, ['X'], digits, .capital, some_, all, rfl⟩
  | @name first others letter all =>
    obtain rfl : first = '#' := by simpa using hash
    exact absurd letter (by decide)

/-- A text that does not start with a hash sign is no number. -/
theorem numericParts?_of_head? {text : Text} (name : text.head? ≠ some '#') : numericParts? text = none := by
  unfold numericParts?
  split <;> simp_all

/-- The parts of a number, with or without its semicolon. -/
theorem numericParts?_number {hexadecimal : Bool} {mark digits after : Text} (marked : NumberMark hexadecimal mark)
    (all : ∀ c ∈ digits, isReferenceDigit hexadecimal c = true) (ends : after = [] ∨ after = [';']) :
    numericParts? ('#' :: (mark ++ (digits ++ after))) = some (hexadecimal, digits, after) := by
  have taken : (digits ++ after).takeWhile (isReferenceDigit hexadecimal) = digits := by
    rw [List.takeWhile_append_of_pos all]
    rcases ends with rfl | rfl
    · simp
    · cases hexadecimal <;> simp +decide
  have dropped : (digits ++ after).dropWhile (isReferenceDigit hexadecimal) = after := by
    rw [List.dropWhile_append_of_pos all]
    rcases ends with rfl | rfl
    · simp
    · cases hexadecimal <;> simp +decide
  cases marked with
  | small => simp only [List.cons_append, List.nil_append, numericParts?, numericParts?.parts, taken, dropped]
  | capital => simp only [List.cons_append, List.nil_append, numericParts?, numericParts?.parts, taken, dropped]
  | decimal =>
    have other {c : Char} (letter : isReferenceDigit false c = false) (semicolon : c ≠ ';') (rest : Text) :
        digits ++ after ≠ c :: rest := by
      intro start
      cases digits with
      | nil =>
        rcases ends with rfl | rfl
        · simp at start
        · simp [Ne.symm semicolon] at start
      | cons d others =>
        obtain ⟨rfl, -⟩ := List.cons.inj start
        simp [all d (by simp)] at letter
    rw [List.nil_append]
    unfold numericParts?
    split
    · rename_i rest same
      exact absurd (List.cons.inj same).2 (other (by decide) (by decide) rest)
    · rename_i rest same
      exact absurd (List.cons.inj same).2 (other (by decide) (by decide) rest)
    · rename_i rest _ _ same
      rw [← (List.cons.inj same).2, numericParts?.parts, taken, dropped]
    · rename_i none_
      exact absurd rfl (none_ _)

/-- A number goes on up to its semicolon. -/
theorem continuesReference_number {hexadecimal : Bool} {mark digits : Text} (marked : NumberMark hexadecimal mark)
    (some_ : digits ≠ []) (all : ∀ c ∈ digits, isReferenceDigit hexadecimal c = true) {front back : Text} {c : Char}
    (split : '#' :: (mark ++ (digits ++ [';'])) = front ++ c :: back) : continuesReference names front c = true := by
  -- a part of the digits, and then a digit or the semicolon
  have inDigits {some' : Text} (rest : Text) (cut : digits ++ [';'] = some' ++ c :: rest) :
      continuesReference names ('#' :: (mark ++ some')) c = true := by
    have parts (inside : ∀ d ∈ some', isReferenceDigit hexadecimal d = true) :
        numericParts? ('#' :: (mark ++ some')) = some (hexadecimal, some', []) := by
      simpa using numericParts?_number marked inside (Or.inl rfl)
    rcases List.append_eq_append_iff.mp cut with ⟨beyond, left, right⟩ | ⟨inner, left, right⟩
    · cases beyond with
      | nil =>
        obtain ⟨rfl, -⟩ := List.cons.inj right
        rw [List.append_nil] at left
        subst left
        simp [continuesReference, parts all, some_]
      | cons e others => simp at right
    · cases inner with
      | nil =>
        obtain ⟨rfl, -⟩ := List.cons.inj right
        rw [List.append_nil] at left
        subst left
        simp [continuesReference, parts all, some_]
      | cons d others =>
        obtain ⟨rfl, -⟩ := List.cons.inj right
        have here := all c (by simp [left])
        have inside : ∀ d ∈ some', isReferenceDigit hexadecimal d = true := fun d member => all d (by simp [left, member])
        simp [continuesReference, parts inside, here]
  cases front with
  | nil =>
    obtain ⟨rfl, -⟩ := List.cons.inj split
    simp [continuesReference, numericParts?]
  | cons h front =>
    obtain ⟨rfl, afterHash⟩ := List.cons.inj split
    -- the mark itself goes on from the hash sign alone
    have withMark {m : Char} (cross : m = 'x' ∨ m = 'X') (written : mark = [m]) :
        continuesReference names ('#' :: front) c = true := by
      subst written
      cases front with
      | nil =>
        obtain ⟨rfl, -⟩ := List.cons.inj afterHash
        rcases cross with rfl | rfl <;> simp [continuesReference, numericParts?, numericParts?.parts]
      | cons d front =>
        obtain ⟨rfl, afterMark⟩ := List.cons.inj afterHash
        exact inDigits back afterMark
    cases marked with
    | decimal => exact inDigits back afterHash
    | small => exact withMark (Or.inl rfl) rfl
    | capital => exact withMark (Or.inr rfl) rfl

/-- A number with its semicolon does not go on. -/
theorem continuesReference_after_number {hexadecimal : Bool} {mark digits : Text}
    (marked : NumberMark hexadecimal mark) (all : ∀ c ∈ digits, isReferenceDigit hexadecimal c = true) (c : Char) :
    continuesReference names ('#' :: (mark ++ (digits ++ [';']))) c = false := by
  simp [continuesReference, numericParts?_number marked all (Or.inr rfl)]

/-! ### Names and what follows them -/

/-- A known name goes on up to its end. -/
theorem continuesReference_name {entry : Text × Text} (listed : entry ∈ names) {front back : Text} {c : Char}
    (split : entry.1 = front ++ c :: back) (name : front.head? ≠ some '#') : continuesReference names front c = true := by
  have starts : front ++ [c] <+: entry.1 := ⟨back, by simp [split]⟩
  have found : (names.any fun known => (front ++ [c]).isPrefixOf known.1) = true :=
    List.any_eq_true.mpr ⟨entry, listed, List.isPrefixOf_iff_prefix.mpr starts⟩
  simp only [continuesReference, numericParts?_of_head? name]
  rw [Bool.or_eq_true]
  exact Or.inr found

/-- What goes on and is no number is the start of a known name. -/
theorem exists_of_continuesReference {front : Text} {c : Char} (name : (front ++ [c]).head? ≠ some '#')
    (continues : continuesReference names front c = true) : ∃ entry ∈ names, front ++ [c] <+: entry.1 := by
  have ordinary : front.head? ≠ some '#' := by
    cases front with
    | nil => simp
    | cons d rest => simpa using name
  simp only [continuesReference, numericParts?_of_head? ordinary, Bool.or_eq_true, Bool.and_eq_true] at continues
  rcases continues with ⟨empty, hash⟩ | known
  · rw [List.isEmpty_iff] at empty
    subst empty
    simp [beq_iff_eq.mp hash] at name
  · obtain ⟨entry, listed, starts⟩ := List.any_eq_true.mp known
    exact ⟨entry, listed, List.isPrefixOf_iff_prefix.mp starts⟩

/-- A name with its semicolon does not go on. -/
theorem continuesReference_after_name (sound : Sound names) {front : Text} (name : front.head? ≠ some '#')
    (some_ : front ≠ []) (c : Char) : continuesReference names (front ++ [';']) c = false := by
  apply Bool.eq_false_iff.mpr
  intro continues
  obtain ⟨d, rest, rfl⟩ := List.exists_cons_of_ne_nil some_
  obtain ⟨entry, listed, starts⟩ := exists_of_continuesReference (by simpa using name) continues
  have whole := sound.name_of_prefix listed ((List.prefix_append _ _).trans starts)
  rw [whole] at starts
  have bound := starts.length_le
  simp at bound

/-! ### Decoding -/

/-- A number with its semicolon is decoded whatever follows, in a text as in an attribute. -/
theorem decodeReference_number {hexadecimal : Bool} {mark digits : Text} (marked : NumberMark hexadecimal mark)
    (some_ : digits ≠ []) (all : ∀ c ∈ digits, isReferenceDigit hexadecimal c = true) (inAttribute : Bool)
    (next : Option Char) : decodeReference names inAttribute ('#' :: (mark ++ (digits ++ [';']))) next =
      ⟨decodedWord names ('#' :: (mark ++ (digits ++ [';']))), false⟩ := by
  simp [decodeReference, decodedWord, numericParts?_number marked all (Or.inr rfl), some_]

/-- What a known name is read as. -/
theorem decodedWord_known (sound : Sound names) {entry : Text × Text} (listed : entry ∈ names)
    (name : entry.1.head? ≠ some '#') : decodedWord names entry.1 = entry.2 := by
  have found : names.lookup entry.1 = some entry.2 := Entries.lookup_of_mem sound.distinct listed
  simp [decodedWord, numericParts?_of_head? name, found]

/-- A name that is not known stays. -/
theorem decodedWord_unknown {word : Text} (unknown : word ∉ names.map Prod.fst) (name : word.head? ≠ some '#') :
    decodedWord names word = '&' :: word := by
  have missing : names.lookup word = none := by
    apply List.lookup_eq_none_iff.mpr
    intro entry listed
    simp only [bne_iff_ne]
    intro same
    exact unknown (List.mem_map.mpr ⟨entry, listed, same.symm⟩)
  simp [decodedWord, numericParts?_of_head? name, missing]

/-- A known name with its semicolon is decoded whatever follows, in a text as in an attribute. -/
theorem decodeReference_known (sound : Sound names) {entry : Text × Text} (listed : entry ∈ names) {front : Text}
    (closed : entry.1 = front ++ [';']) (name : entry.1.head? ≠ some '#') (inAttribute : Bool)
    (next : Option Char) : decodeReference names inAttribute entry.1 next = ⟨entry.2, false⟩ := by
  rcases longestName?_spec sound entry.1 with ⟨-, none_⟩ | ⟨longest, also, found, starts, bound⟩
  · exact absurd (List.prefix_refl _) (none_ entry listed)
  · have whole : longest.1 = entry.1 := starts.eq_of_length_le (bound entry listed (List.prefix_refl _))
    have same : longest = entry := by
      have first := Entries.lookup_of_mem sound.distinct also
      have second := Entries.lookup_of_mem sound.distinct listed
      rw [whole, second] at first
      exact Prod.ext whole (Option.some.inj first).symm
    subst same
    have last : longest.1.getLast? = some ';' := by simp [closed]
    simp [decodeReference, numericParts?_of_head? name, found, last]

/-- A name that needs no semicolon is left alone where a letter, a digit or the semicolon of another name follows. -/
theorem decodeReference_kept (sound : Sound names) {front : Text} {c : Char}
    (letters : ∀ d ∈ front, Unicode.isAsciiAlphanumeric d = true)
    (follower : Unicode.isAsciiAlphanumeric c = true ∨ c = ';') (stops : continuesReference names front c = false) :
    (decodeReference names true front (some c)).chars = '&' :: front := by
  have name : front.head? ≠ some '#' := by
    intro hash
    exact absurd (letters '#' (List.mem_of_head? hash)) (by decide)
  rcases longestName?_spec sound front with ⟨missing, -⟩ | ⟨entry, listed, found, ⟨left, split⟩, -⟩
  · simp [decodeReference, numericParts?_of_head? name, missing]
  · have open_ : entry.1.getLast? ≠ some ';' := by
      intro closed
      have inside : ';' ∈ front := by
        rw [← split]
        exact List.mem_append_left _ (List.mem_of_getLast? closed)
      exact absurd (letters ';' inside) (by decide)
    have kept : (((front.drop entry.1.length).head?.or (some c)).map fun d =>
        d == '=' || Unicode.isAsciiAlphanumeric d).getD false = true := by
      rw [← split, List.drop_left]
      cases left with
      | cons d others => simp [letters d (by simp [← split])]
      | nil =>
        rcases follower with letter | rfl
        · simp [letter]
        · -- with the semicolon it would be a name, and go on
          exfalso
          rw [List.append_nil] at split
          have terminated := sound.terminated entry listed open_
          have continues := @continuesReference_name names _ terminated front [] ';' (by rw [split]) name
          simp [stops] at continues
    simp only [decodeReference, numericParts?_of_head? name, found]
    rw [if_pos]
    simp only [Bool.and_eq_true, bne_iff_ne, ne_eq, true_and]
    exact ⟨open_, kept⟩

/-! ### Texts that hold references -/

/-- The semicolon of a complete reference is its last character, and its only one. -/
theorem exists_of_referenceWord {word : Text} (complete : Text.ReferenceWord word) :
    ∃ body, word = body ++ [';'] ∧ ';' ∉ body := by
  have absent {member : Char → Bool} (stops : member ';' = false) {run : Text} (all : ∀ c ∈ run, member c = true) :
      ';' ∉ run := by
    intro inside
    simp [all ';' inside] at stops
  cases complete with
  | @decimal digits some_ all =>
    exact ⟨'#' :: digits, by simp, by simpa using absent (by decide) all⟩
  | @hexadecimal mark digits marked some_ all =>
    refine ⟨'#' :: mark :: digits, by simp, ?_⟩
    rcases marked with rfl | rfl
    · simpa using absent (by decide) all
    · simpa using absent (by decide) all
  | @name first others letter all =>
    refine ⟨first :: others, by simp, ?_⟩
    rw [List.mem_cons, not_or]
    constructor
    · rintro rfl
      exact absurd letter (by decide)
    · exact absent (by decide) all

/-- The name of a complete reference has letters before its semicolon, if it is known. -/
theorem Sound.body_ne_nil (sound : Sound names) {entry : Text × Text} (listed : entry ∈ names) {body : Text}
    (closed : entry.1 = body ++ [';']) : body ≠ [] := by
  rintro rfl
  obtain ⟨letters, some_, all, plain | semicolon⟩ := sound.shaped entry listed
  · rw [closed] at plain
    exact absurd (List.all_eq_true.mp all ';' (by simp [← plain])) (by decide)
  · rw [closed] at semicolon
    exact some_ (by simpa using semicolon)

/-- A complete reference that is decoded goes on up to its end and no further, and is decoded whatever follows. -/
theorem Decodes.spec (sound : Sound names) {word : Text} (decodes : Decodes names word) :
    (∀ front c back, word = front ++ c :: back → continuesReference names front c = true) ∧
      (∀ c, continuesReference names word c = false) ∧
      ∀ inAttribute next, decodeReference names inAttribute word next = ⟨decodedWord names word, false⟩ := by
  by_cases hash : word.head? = some '#'
  · obtain ⟨hexadecimal, mark, digits, marked, some_, all, rfl⟩ := exists_of_hash decodes.1 hash
    exact ⟨fun front c back split => continuesReference_number marked some_ all split,
      continuesReference_after_number marked all, decodeReference_number marked some_ all⟩
  · obtain ⟨entry, listed, rfl⟩ := List.mem_map.mp (decodes.2.resolve_left hash)
    obtain ⟨body, closed, -⟩ := exists_of_referenceWord decodes.1
    have some_ := sound.body_ne_nil listed closed
    have ordinary : body.head? ≠ some '#' := by
      intro hash'
      apply hash
      rw [closed, List.head?_append, hash']
      rfl
    refine ⟨?_, ?_, ?_⟩
    · intro front c back split
      apply continuesReference_name listed split
      intro hash'
      apply hash
      rw [split, List.head?_append, hash']
      rfl
    · rw [closed]
      exact continuesReference_after_name sound ordinary some_
    · intro inAttribute next
      rw [decodedWord_known sound listed hash]
      exact decodeReference_known sound listed closed hash inAttribute next

/-- At most one complete reference starts a text. -/
theorem referenceWord_unique {first second text : Text} (one : Text.ReferenceWord first)
    (two : Text.ReferenceWord second) (starts : first <+: text) (also : second <+: text) : first = second := by
  have least {shorter longer : Text} (some_ : Text.ReferenceWord shorter) (other : Text.ReferenceWord longer)
      (within : shorter <+: longer) : shorter = longer := by
    obtain ⟨body, rfl, -⟩ := exists_of_referenceWord some_
    obtain ⟨whole, rfl, absent⟩ := exists_of_referenceWord other
    rcases List.prefix_concat_iff.mp within with same | inside
    · exact same
    · obtain ⟨rest, split⟩ := inside
      exact absurd (by simp [← split]) absent
  rcases List.prefix_or_prefix_of_prefix starts also with within | within
  · exact least one two within
  · exact (least two one within).symm

/-- A reference stands at the front of a text or further on. -/
theorem holdsReference_cons_iff {c : Char} {rest : Text} :
    HoldsReference names (c :: rest) ↔ (c = '&' ∧ ∃ word, Decodes names word ∧ word <+: rest) ∨
      HoldsReference names rest := by
  constructor
  · rintro ⟨word, decodes, inside⟩
    rcases List.infix_cons_iff.mp inside with front | later
    · obtain ⟨same, starts⟩ := List.cons_prefix_cons.mp front
      exact Or.inl ⟨same.symm, word, decodes, starts⟩
    · exact Or.inr ⟨word, decodes, later⟩
  · rintro (⟨rfl, word, decodes, front⟩ | ⟨word, decodes, later⟩)
    · exact ⟨word, decodes, (List.cons_prefix_cons.mpr ⟨rfl, front⟩).isInfix⟩
    · exact ⟨word, decodes, List.infix_cons later⟩

/-- Only an ampersand starts a reference. -/
theorem holdsReference_cons_of_ne {c : Char} (other : c ≠ '&') {rest : Text} :
    HoldsReference names (c :: rest) ↔ HoldsReference names rest := by
  rw [holdsReference_cons_iff]
  simp [other]

/-- Characters in front that are no ampersands start no reference. -/
theorem holdsReference_append_of_not_mem {front : Text} (absent : '&' ∉ front) {back : Text} :
    HoldsReference names (front ++ back) ↔ HoldsReference names back := by
  induction front with
  | nil => rfl
  | cons c rest inductionHypothesis =>
    rw [List.mem_cons, not_or] at absent
    rw [List.cons_append, holdsReference_cons_of_ne (Ne.symm absent.1), inductionHypothesis absent.2]

/-- The empty text holds no reference. -/
theorem not_holdsReference_nil : ¬HoldsReference names [] := by
  rintro ⟨word, -, inside⟩
  simpa using inside.length_le

/-- A reference does not reach over a character that stands in none. -/
theorem referenceWord_prefix_of_separated {word front back : Text} {c : Char} (complete : Text.ReferenceWord word)
    (outside : Text.isReferenceChar c = false) (starts : word <+: front ++ c :: back) : word <+: front := by
  obtain ⟨rest, split⟩ := starts
  have same := Text.takeWhile_separated outside front back
  rw [← split, List.takeWhile_append_of_pos complete.isReferenceChar] at same
  exact (List.prefix_append _ _).trans (same ▸ List.takeWhile_prefix _)

/-- Texts between which a character stands that is in no reference hold their references each on its own. -/
theorem holdsReference_separated {c : Char} (outside : Text.isReferenceChar c = false) (other : c ≠ '&')
    (front back : Text) :
    HoldsReference names (front ++ c :: back) ↔ HoldsReference names front ∨ HoldsReference names back := by
  induction front with
  | nil => simp [holdsReference_cons_of_ne other, not_holdsReference_nil]
  | cons d rest inductionHypothesis =>
    rw [List.cons_append, holdsReference_cons_iff, holdsReference_cons_iff, inductionHypothesis, or_assoc]
    have here : (∃ word, Decodes names word ∧ word <+: rest ++ c :: back) ↔
        ∃ word, Decodes names word ∧ word <+: rest := by
      constructor
      · rintro ⟨word, decodes, starts⟩
        exact ⟨word, decodes, referenceWord_prefix_of_separated decodes.1 outside starts⟩
      · rintro ⟨word, decodes, starts⟩
        exact ⟨word, decodes, starts.trans (List.prefix_append _ _)⟩
    rw [here]

/-- Without an ampersand there is no reference. -/
theorem not_holdsReference_of_not_mem {text : Text} (absent : '&' ∉ text) : ¬HoldsReference names text := by
  rintro ⟨word, -, inside⟩
  exact absent (inside.subset (by simp))

/-- Nor is there one without a semicolon. -/
theorem not_holdsReference_of_open {text : Text} (absent : ';' ∉ text) : ¬HoldsReference names text := by
  rintro ⟨word, decodes, inside⟩
  obtain ⟨body, rfl, -⟩ := exists_of_referenceWord decodes.1
  exact absent (inside.subset (by simp))

/-- After a complete reference it is known whether one is decoded there. -/
theorem holdsReference_word_iff {word : Text} (complete : Text.ReferenceWord word) {back : Text} :
    HoldsReference names ('&' :: (word ++ back)) ↔ Decodes names word ∨ HoldsReference names back := by
  have absent : '&' ∉ word := by
    intro inside
    exact absurd (complete.isReferenceChar '&' inside) (by decide)
  rw [holdsReference_cons_iff, holdsReference_append_of_not_mem absent]
  constructor
  · rintro (⟨-, other, decodes, front⟩ | later)
    · have same := referenceWord_unique decodes.1 complete front (List.prefix_append _ _)
      exact Or.inl (same ▸ decodes)
    · exact Or.inr later
  · rintro (decodes | later)
    · exact Or.inl ⟨rfl, word, decodes, List.prefix_append _ _⟩
    · exact Or.inr later

/-- What is decoded is shorter than the reference. -/
theorem length_decodedWord_of_decodes (sound : Sound names) {word : Text} (decodes : Decodes names word) :
    (decodedWord names word).length ≤ word.length := by
  by_cases hash : word.head? = some '#'
  · obtain ⟨hexadecimal, mark, digits, marked, -, all, rfl⟩ := exists_of_hash decodes.1 hash
    simp [decodedWord, numericParts?_number marked all (Or.inr rfl)]
  · obtain ⟨entry, listed, rfl⟩ := List.mem_map.mp (decodes.2.resolve_left hash)
    rw [decodedWord_known sound listed hash]
    exact sound.short entry listed

/-! ### Texts that stay the same -/

/-- The characters as which a text is read are the text if none of its references is decoded; else they are others,
and no more of them. -/
structure RereadAs (names : ReferenceTable) (text chars : Text) : Prop where
  bound : chars.length ≤ text.length
  same : chars = text ↔ ¬HoldsReference names text

/-- Nothing is read as nothing. -/
theorem rereadAs_nil : RereadAs names [] [] :=
  ⟨Nat.le_refl _, by simp [not_holdsReference_nil]⟩

/-- A character that starts no reference is read as itself. -/
theorem RereadAs.cons {c : Char} {rest chars : Text} (later : RereadAs names rest chars)
    (open_ : c = '&' → Text.completesReference rest = false) : RereadAs names (c :: rest) (c :: chars) := by
  have alone : HoldsReference names (c :: rest) ↔ HoldsReference names rest := by
    rw [holdsReference_cons_iff, or_iff_right_iff_imp]
    rintro ⟨ampersand, word, decodes, front⟩
    have completes := Text.completesReference_iff.mpr ⟨word, decodes.1, front⟩
    simp [open_ ampersand] at completes
  refine ⟨Nat.succ_le_succ later.bound, ?_⟩
  rw [alone, ← later.same, List.cons.injEq]
  simp

/-- A complete reference stays, or is read as something shorter. -/
theorem RereadAs.word (sound : Sound names) {word back chars : Text} (complete : Text.ReferenceWord word)
    (later : RereadAs names back chars) :
    RereadAs names ('&' :: (word ++ back)) (decodedWord names word ++ chars) := by
  have bound := later.bound
  by_cases decodes : Decodes names word
  · have less := length_decodedWord_of_decodes sound decodes
    have lengths : (decodedWord names word ++ chars).length < ('&' :: (word ++ back)).length := by
      simp only [List.length_cons, List.length_append]
      omega
    refine ⟨Nat.le_of_lt lengths, ?_⟩
    rw [holdsReference_word_iff complete]
    simp only [decodes, true_or, not_true_eq_false, iff_false]
    intro equal
    rw [equal] at lengths
    omega
  · have kept : decodedWord names word = '&' :: word := by
      apply decodedWord_unknown
      · exact fun known => decodes ⟨complete, Or.inr known⟩
      · exact fun hash => decodes ⟨complete, Or.inl hash⟩
    rw [kept]
    constructor
    · simp only [List.length_cons, List.length_append]
      omega
    · rw [holdsReference_word_iff complete]
      simp [decodes, later.same]

end
end MapEmbed.Html
