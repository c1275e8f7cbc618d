import MapEmbed.Proofs.Migration.Report

/-!
# The looks before the migration

Migration looks at the raw text of a map before it reads the attributes, and reads nothing where it sees none of the old
words. Keys are lowered when they are read, the raw text is looked at as it is written. Of a map whose keys are written in
small letters nothing is missed. A map that has an old key in capitals only is overlooked: it stays as it is, although
reading it would move something. The migrated document is the one that reading every map gives exactly if no map is
overlooked.
-/

namespace MapEmbed

/-- A word that a text holds stands in one piece in it. -/
theorem Text.holds_iff_infix {word text : Text} : Text.holds word text = true ↔ word <:+: text := by
  induction text with
  | nil => simp [Text.holds]
  | cons c rest inductionHypothesis =>
    rw [Text.holds, Bool.or_eq_true, inductionHypothesis, List.isPrefixOf_iff_prefix, List.infix_cons_iff]

/-! ### Keys as they are written -/

namespace AttributeToken

/-- Every token of a text is taken where a lexeme starts. -/
theorem exists_take_of_mem_scan {text : Text} {token : AttributeToken} (member : token ∈ scan 0 text) :
    ∃ front back, text = front ++ back ∧ token = (take back).1 := by
  induction length : text.length using Nat.strongRecOn generalizing text with
  | _ n inductionHypothesis =>
    cases text with
    | nil => simp [scan] at member
    | cons c rest =>
      simp only [List.length_cons] at length
      cases blank : Unicode.isBlank c with
      | true =>
        rw [scan_blank blank] at member
        obtain ⟨front, back, rfl, taken⟩ := inductionHypothesis rest.length (by omega) member rfl
        exact ⟨c :: front, back, rfl, taken⟩
      | false =>
        rw [scan_take rest blank, List.mem_cons] at member
        rcases member with rfl | later
        · exact ⟨[], c :: rest, rfl, rfl⟩
        · obtain ⟨⟨lexeme, some_, whole, -⟩, -⟩ := take_eq rest blank
          have shorter : (take (c :: rest)).2.length < n := by
            have sizes := congrArg List.length whole
            have positive := List.length_pos_iff.mpr some_
            simp only [List.length_cons, List.length_append] at sizes
            omega
          obtain ⟨front, back, split, taken⟩ := inductionHypothesis _ shorter later rfl
          exact ⟨lexeme ++ front, back, by rw [whole, split, List.append_assoc], taken⟩

/-- A key stands at the front of its lexeme. -/
theorem prefix_of_take {text key value : Text} (taken : (take text).1 = .named key value) : key <+: text := by
  simp only [take, Option.orElse_eq_orElse, Option.orElse_eq_or] at taken
  cases named : takeNamed? text with
  | some found =>
    rw [named, Option.some_or, Option.getD_some] at taken
    obtain ⟨token, after⟩ := found
    simp only at taken
    subst taken
    simp only [takeNamed?] at named
    split at named
    · simp only [Option.ite_none_left_eq_some] at named
      obtain ⟨-, named⟩ := named
      obtain ⟨⟨other, left⟩, -, same⟩ := Option.map_eq_some_iff.mp named
      simp only [Prod.mk.injEq, AttributeToken.named.injEq] at same
      rw [← same.1.1]
      exact List.takeWhile_prefix isKeyChar
    · simp at named
  | none =>
    rw [named, Option.none_or] at taken
    cases positional : takePositional? text with
    | some found =>
      obtain ⟨⟨_, _⟩, -, rfl⟩ := Option.map_eq_some_iff.mp positional
      simp [positional] at taken
    | none =>
      rw [positional, Option.getD_none, takeWord] at taken
      simp only at taken
      split at taken <;> simp at taken

/-- A text without spaces that stands in a normalized text stands in the text itself. -/
theorem infix_of_infix_normalize {word text : Text} (spaceless : ' ' ∉ word) (inside : word <:+: normalize text) :
    word <:+: text := by
  obtain ⟨front, back, split⟩ := inside
  obtain ⟨most, third, rfl, same, -⟩ := List.append_eq_map_iff.mp split
  obtain ⟨first, second, rfl, -, image⟩ := List.append_eq_map_iff.mp same.symm
  have kept : second.map (fun c => if c.toNat = 0xA0 ∨ c.toNat = 0x200B then ' ' else c) = second := by
    rw [List.map_congr_left (g := id) ?_, List.map_id]
    intro c member
    refine if_neg fun invisible => spaceless ?_
    rw [← image]
    exact List.mem_map.mpr ⟨c, member, if_pos invisible⟩
  rw [← image, kept]
  exact ⟨first, third, rfl⟩

/-- A key of attribute text stands in one piece in it. -/
theorem key_infix {text key value : Text} (member : .named key value ∈ ofText text) : key <:+: text := by
  have letters := (writtenIn_ofText member).1.2
  obtain ⟨front, back, split, taken⟩ := exists_take_of_mem_scan member
  obtain ⟨rest, rfl⟩ := prefix_of_take taken.symm
  apply infix_of_infix_normalize
  · intro space
    exact absurd (letters ' ' space) (by decide)
  · exact ⟨front, rest, by rw [split, List.append_assoc]⟩

end AttributeToken

namespace Attributes
open AttributeToken

/-- The keys of what tokens are added to are those that were there, those of the tokens, lowered, and numbers. -/
theorem exists_of_mem_keys_addTokens {tokens : List AttributeToken} {attributes : Attributes} {count : Nat} {key : Text}
    (member : key ∈ (addTokens attributes count tokens).keys) :
    key ∈ attributes.keys ∨ (∃ word value, .named word value ∈ tokens ∧ key = Unicode.lower word) ∨
      isPositionalKey key = true := by
  induction tokens generalizing attributes count with
  | nil => exact .inl member
  | cons token rest inductionHypothesis =>
    cases token with
    | named word value =>
      rcases inductionHypothesis member with here | ⟨later, other, listed, same⟩ | number
      · rcases OrderedMap.mem_keys_insert.mp here with same | before
        · exact .inr (.inl ⟨word, value, by simp, same⟩)
        · exact .inl before
      · exact .inr (.inl ⟨later, other, by simp [listed], same⟩)
      · exact .inr (.inr number)
    | positional value =>
      rcases inductionHypothesis member with here | ⟨later, other, listed, same⟩ | number
      · rcases OrderedMap.mem_keys_insert.mp here with same | before
        · exact .inr (.inr (same ▸ isPositionalKey_ofNat count))
        · exact .inl before
      · exact .inr (.inl ⟨later, other, by simp [listed], same⟩)
      · exact .inr (.inr number)
    | malformed written =>
      rcases inductionHypothesis member with here | ⟨later, other, listed, same⟩ | number
      · exact .inl here
      · exact .inr (.inl ⟨later, other, by simp [listed], same⟩)
      · exact .inr (.inr number)

/-- A key that is no number stands in the text, if the keys of the text are written in small letters. -/
theorem infix_of_mem_keys {text key : Text}
    (small : ∀ word value, .named word value ∈ ofText text → Unicode.lower word = word)
    (member : key ∈ (parseLenient text).keys) (named : isPositionalKey key = false) : key <:+: text := by
  rcases exists_of_mem_keys_addTokens member with nothing | ⟨word, value, listed, rfl⟩ | number
  · simp [OrderedMap.keys] at nothing
  · rw [small word value listed]
    exact key_infix listed
  · simp [named] at number

end Attributes

namespace Migration
open Shortcode Segmentation

/-! ### Migration that reads every map -/

/-- The current form of an old map, found by reading its attributes; nothing if it stays as it is. -/
def readOccurrence? (catalog : Catalog) (o : Occurrence) : Option Text :=
  if o.escaped then none
  else
    match Attributes.parse o.rawAttributes with
    | .error _ => none
    | .ok attributes => currentForm? catalog o attributes

/-- The document after a migration that looks at nothing but the attributes of each map. -/
def migrateByReading (catalog : Catalog) (document : Text) : Text :=
  (ofText .exact mapTags document).replace fun _ o => (readOccurrence? catalog o).getD o.source

/-- Something of a map would be moved, but nothing old is seen in its raw text. -/
structure Overlooked (catalog : Catalog) (o : Occurrence) : Prop where
  /-- The map is not escaped. -/
  visible : o.escaped = false
  /-- The raw text holds none of the old words. -/
  unseen : mayBeOld o.rawAttributes = false
  /-- The attributes can be read, and the passes change them. -/
  old : ∃ attributes moved, Attributes.parse o.rawAttributes = .ok attributes ∧ move? catalog attributes = some moved

/-- What is not overlooked is treated as if it was read. -/
theorem migrateOccurrence?_eq_readOccurrence? {catalog : Catalog} {o : Occurrence} (noticed : ¬Overlooked catalog o) :
    migrateOccurrence? catalog o = readOccurrence? catalog o := by
  unfold migrateOccurrence? readOccurrence?
  cases visible : o.escaped with
  | true => rfl
  | false =>
    cases seen : mayBeOld o.rawAttributes with
    | true => rfl
    | false =>
      cases read : Attributes.parse o.rawAttributes with
      | error fault => rfl
      | ok attributes =>
        cases moves : move? catalog attributes with
        | none => simp [currentForm?, moves]
        | some moved => exact absurd ⟨visible, seen, attributes, moved, read, moves⟩ noticed

/-- What the passes change has a key of a marker or the key of an old credential. -/
theorem exists_oldKey_of_move {catalog : Catalog} {attributes : Attributes} {moved : Moved}
    (moves : move? catalog attributes = some moved) :
    ∃ key ∈ attributes.keys, isMarkerKey key = true ∨ ∃ kind : Dependency, key = kind.legacyAttribute := by
  unfold move? at moves
  split at moves
  · rename_i map marker split
    have marked := (Option.ite_none_right_eq_some.mp split).1
    obtain ⟨key, listed, old⟩ := List.any_eq_true.mp marked
    exact ⟨key, listed, .inl old⟩
  · obtain ⟨changed, credential, -⟩ := Option.map_eq_some_iff.mp moves
    simp only [moveCredential?, Option.ite_none_left_eq_some, Option.map_eq_some_iff] at credential
    obtain ⟨-, ⟨key, value⟩, found, -⟩ := credential
    obtain ⟨kind, -, present⟩ := Option.bind_eq_some_iff.mp found
    obtain ⟨text, nonEmpty, -⟩ := Option.map_eq_some_iff.mp present
    have listed := Entries.mem_of_lookup (Option.filter_eq_some_iff.mp nonEmpty).1
    exact ⟨kind.legacyAttribute, List.mem_map_of_mem listed, .inr ⟨kind, rfl⟩⟩

/-- A map whose keys are written in small letters is not overlooked. -/
theorem not_overlooked_of_small {catalog : Catalog} {o : Occurrence}
    (small : ∀ word value, .named word value ∈ AttributeToken.ofText o.rawAttributes → Unicode.lower word = word) :
    ¬Overlooked catalog o := by
  rintro ⟨-, unseen, attributes, moved, read, moves⟩
  obtain ⟨-, rfl, -⟩ := Attributes.parse_eq_ok_iff.mp read
  have absent {word key : Text} (starts : word <+: key) (listed : key ∈ (Attributes.parseLenient o.rawAttributes).keys)
      (named : isPositionalKey key = false) : Text.holds word o.rawAttributes = true :=
    Text.holds_iff_infix.mpr (starts.isInfix.trans (Attributes.infix_of_mem_keys small listed named))
  simp only [mayBeOld, Bool.or_eq_false_iff] at unseen
  obtain ⟨⟨noMarker, noKey⟩, noToken⟩ := unseen
  obtain ⟨key, listed, marker | ⟨kind, rfl⟩⟩ := exists_oldKey_of_move moves
  · have named : isPositionalKey key = false := by
      apply Bool.eq_false_iff.mpr
      intro number
      simp [isMarkerKey_of_isPositionalKey number] at marker
    have seen := absent (List.isPrefixOf_iff_prefix.mp marker) listed named
    simp [noMarker] at seen
  · cases kind with
    | apiKey =>
      have seen : Text.holds "api_".toList o.rawAttributes = true := absent ⟨"key".toList, rfl⟩ listed (by decide)
      exact Bool.false_ne_true (noKey.symm.trans seen)
    | accessToken =>
      have seen : Text.holds "access_".toList o.rawAttributes = true := absent ⟨"token".toList, rfl⟩ listed (by decide)
      exact Bool.false_ne_true (noToken.symm.trans seen)

/-! ### An overlooked map shows -/

/-- An overlooked map does not begin with what reading it gives. -/
theorem source_append_ne_of_overlooked {catalog : Catalog} {o : Occurrence} {rest : Text}
    (stands : o.Stands .exact mapTags rest) (overlooked : Overlooked catalog o) (back other : Text) :
    o.source ++ back ≠ (readOccurrence? catalog o).getD o.source ++ other := by
  obtain ⟨visible, -, attributes, moved, read, moves⟩ := overlooked
  have becomes : readOccurrence? catalog o = some (rewritten o moved).source := by
    rw [rewritten, source_printed]
    simp [readOccurrence?, visible, read, currentForm?, moves]
  rw [becomes, Option.getD_some]
  exact source_append_ne_rewritten stands read moves back other

/-! ### The documents -/

/-- Looking first changes nothing exactly if no map of the document is overlooked. -/
theorem migrate_eq_migrateByReading_iff (catalog : Catalog) (document : Text) :
    migrate catalog document = migrateByReading catalog document ↔
      ∀ o ∈ (ofText .exact mapTags document).occurrences, ¬Overlooked catalog o := by
  have cuts : Cuts .exact mapTags (ofText .exact mapTags document).pieces (ofText .exact mapTags document).tail :=
    cuts_scan isName_of_mem_mapTags 0 document
  have agree (o : Occurrence) (noticed : ¬Overlooked catalog o) :
      (migrateOccurrence? catalog o).getD o.source = (readOccurrence? catalog o).getD o.source := by
    rw [migrateOccurrence?_eq_readOccurrence? noticed]
  have differ (piece : Text × Occurrence) (member : piece ∈ (ofText .exact mapTags document).pieces)
      (overlooked : Overlooked catalog piece.2) (back other : Text) :
      (migrateOccurrence? catalog piece.2).getD piece.2.source ++ back ≠
        (readOccurrence? catalog piece.2).getD piece.2.source ++ other := by
    obtain ⟨rest, stands⟩ := exists_stands_of_mem cuts piece member
    have kept : migrateOccurrence? catalog piece.2 = none := by simp [migrateOccurrence?, overlooked.unseen]
    rw [kept]
    exact source_append_ne_of_overlooked stands overlooked back other
  rw [migrate_eq_replace, migrateByReading, replace, replace, replaceFrom_eq_iff, occurrences, List.forall_mem_map]
  · refine forall₂_congr fun piece member => ⟨fun same overlooked => ?_, agree piece.2⟩
    exact differ piece member overlooked [] [] (congrArg (· ++ []) same)
  · intro piece member
    by_cases overlooked : Overlooked catalog piece.2
    · exact .inr (differ piece member overlooked)
    · exact .inl (agree piece.2 overlooked)

/-- A map that names the colour of its marker in capitals. -/
def capitalColor : Text := "[sbs_openstreetmap MARKER_COLOR=\"red\"]".toList

/-- The map stays, although reading it would take the marker out. -/
theorem not_migrateByReading_capitalColor :
    ¬∀ catalog document, migrate catalog document = migrateByReading catalog document := by
  intro same
  have here := same Catalog.builtin capitalColor
  revert here
  decide

end Migration
end MapEmbed
