import Mathlib.Data.Finset.Card
import MapEmbed.Proofs.Attribute.Reading

/-!
# Values with keys and values without

Attribute text may give a value with a key or without one. Values without key are counted, and their numbers are keys
like all others: the attributes of a text are what its tokens write one after another, and a key that is written twice
keeps its place and the last value. Lowered keys that are no such number never meet one, so nothing is lost. A key that
is the number of a value without key does meet it, and then one of the two is lost.
-/

namespace MapEmbed

namespace AttributeToken

/-- The value of a token without key. -/
def unkeyed? : AttributeToken → Option Text
  | .positional value => some value
  | _ => none

/-- The key of a token, lowered, with its value. -/
def keyed? : AttributeToken → Option (Text × Text)
  | .named key value => some (Unicode.lower key, value)
  | _ => none

/-- The values without key in order. -/
def unkeyed (tokens : List AttributeToken) : List Text :=
  tokens.filterMap unkeyed?

/-- The values with their keys in order. -/
def keyed (tokens : List AttributeToken) : List (Text × Text) :=
  tokens.filterMap keyed?

end AttributeToken

namespace Attributes
open AttributeToken

/-- What tokens write, each value with its key or, when `count` values without key came before, with its number. -/
def writings (count : Nat) : List AttributeToken → List (Text × Text)
  | [] => []
  | .named key value :: rest => (Unicode.lower key, value) :: writings count rest
  | .positional value :: rest => (Text.ofNat count, value) :: writings (count + 1) rest
  | .malformed _ :: rest => writings count rest

/-- Adding tokens is writing what they write. -/
theorem addTokens_eq_insertAll (attributes : Attributes) (count : Nat) (tokens : List AttributeToken) :
    addTokens attributes count tokens = attributes.insertAll (writings count tokens) := by
  induction tokens generalizing attributes count with
  | nil => rfl
  | cons token rest inductionHypothesis =>
    cases token with
    | named key value => exact inductionHypothesis (attributes.insert (Unicode.lower key) value) count
    | positional value => exact inductionHypothesis (attributes.insert (Text.ofNat count) value) (count + 1)
    | malformed written => exact inductionHypothesis attributes count

/-- The attributes of a text are what its tokens write. -/
theorem parseLenient_eq_ofList (text : Text) : parseLenient text = OrderedMap.ofList (writings 0 (ofText text)) :=
  addTokens_eq_insertAll OrderedMap.empty 0 (ofText text)

section
variable {tokens : List AttributeToken} {count : Nat}

/-- What is written is written under the numbers of values without key, and under the keys of the others. -/
theorem mem_keys_writings {key : Text} :
    key ∈ (writings count tokens).map Prod.fst ↔
      (∃ i < (unkeyed tokens).length, key = Text.ofNat (count + i)) ∨ key ∈ (keyed tokens).map Prod.fst := by
  induction tokens generalizing count with
  | nil => simp [writings, unkeyed, keyed]
  | cons token rest inductionHypothesis =>
    cases token with
    | named name value =>
      have others : unkeyed (.named name value :: rest) = unkeyed rest := rfl
      have own : keyed (.named name value :: rest) = (Unicode.lower name, value) :: keyed rest := rfl
      rw [writings, others, own, List.map_cons, List.map_cons, List.mem_cons, List.mem_cons, inductionHypothesis]
      exact or_left_comm
    | positional value =>
      have own : unkeyed (.positional value :: rest) = value :: unkeyed rest := rfl
      have others : keyed (.positional value :: rest) = keyed rest := rfl
      rw [writings, others, own, List.map_cons, List.mem_cons, inductionHypothesis, ← or_assoc]
      apply or_congr_left
      constructor
      · rintro (rfl | ⟨i, below, rfl⟩)
        · exact ⟨0, Nat.succ_pos _, rfl⟩
        · exact ⟨i + 1, Nat.succ_lt_succ below, by rw [Nat.add_right_comm, Nat.add_assoc]⟩
      · rintro ⟨i, below, rfl⟩
        cases i with
        | zero => exact Or.inl rfl
        | succ i => exact Or.inr ⟨i, Nat.lt_of_succ_lt_succ below, by rw [Nat.add_right_comm, Nat.add_assoc]⟩
    | malformed written => exact inductionHypothesis

/-- No key is the number of a value without key. -/
def Apart (count : Nat) (tokens : List AttributeToken) : Prop :=
  ∀ i < (unkeyed tokens).length, Text.ofNat (count + i) ∉ (keyed tokens).map Prod.fst

/-- Keys stay apart from numbers when one counts on behind a value without key. -/
theorem Apart.behind_positional {value : Text} (apart : Apart count (.positional value :: tokens)) :
    Apart (count + 1) tokens := by
  intro i below
  rw [Nat.add_right_comm, Nat.add_assoc]
  exact apart (i + 1) (Nat.succ_lt_succ below)

/-- They stay apart behind a value with a key too. -/
theorem Apart.behind_named {key value : Text} (apart : Apart count (.named key value :: tokens)) : Apart count tokens :=
  fun i below member => apart i below (List.mem_cons_of_mem _ member)

/-- Where keys and numbers are apart, each value without key is written under its number, and nothing is written there
later. -/
theorem exists_writings_of_unkeyed (apart : Apart count tokens) {i : Nat} {value : Text}
    (given : (unkeyed tokens)[i]? = some value) :
    ∃ before after, writings count tokens = before ++ (Text.ofNat (count + i), value) :: after ∧
      Text.ofNat (count + i) ∉ after.map Prod.fst := by
  induction tokens generalizing count i with
  | nil => simp [unkeyed] at given
  | cons token rest inductionHypothesis =>
    cases token with
    | named key other =>
      obtain ⟨before, after, split, absent⟩ := inductionHypothesis apart.behind_named given
      exact ⟨(Unicode.lower key, other) :: before, after, by rw [writings, split, List.cons_append], absent⟩
    | positional other =>
      cases i with
      | zero =>
        obtain rfl : other = value := Option.some.inj given
        refine ⟨[], writings (count + 1) rest, rfl, ?_⟩
        rw [mem_keys_writings, not_or]
        refine ⟨?_, apart 0 (Nat.succ_pos _)⟩
        rintro ⟨j, -, same⟩
        have equal := Text.ofNat_inj same
        omega
      | succ i =>
        obtain ⟨before, after, split, absent⟩ := inductionHypothesis apart.behind_positional given
        rw [Nat.add_right_comm, Nat.add_assoc] at split absent
        exact ⟨(Text.ofNat count, other) :: before, after, by rw [writings, split, List.cons_append], absent⟩
    | malformed written => exact inductionHypothesis apart given

/-- There, the last value with a key is the last that is written under the key. -/
theorem exists_writings_of_keyed (apart : Apart count tokens) {before after : List (Text × Text)} {key value : Text}
    (last : keyed tokens = before ++ (key, value) :: after) (absent : key ∉ after.map Prod.fst) :
    ∃ earlier later, writings count tokens = earlier ++ (key, value) :: later ∧ key ∉ later.map Prod.fst := by
  induction tokens generalizing count before with
  | nil => simp [keyed] at last
  | cons token rest inductionHypothesis =>
    cases token with
    | named name other =>
      have own : keyed (.named name other :: rest) = (Unicode.lower name, other) :: keyed rest := rfl
      rw [own] at last
      cases before with
      | nil =>
        obtain ⟨same, rfl⟩ := List.cons.inj last
        obtain ⟨rfl, rfl⟩ := Prod.mk.inj same
        refine ⟨[], writings count rest, rfl, ?_⟩
        rw [mem_keys_writings, not_or]
        refine ⟨?_, absent⟩
        rintro ⟨i, below, number⟩
        exact apart i below (number ▸ List.mem_cons_self)
      | cons first before =>
        obtain ⟨-, others⟩ := List.cons.inj last
        obtain ⟨earlier, later, split, unwritten⟩ := inductionHypothesis apart.behind_named others
        exact ⟨(Unicode.lower name, other) :: earlier, later, by rw [writings, split, List.cons_append], unwritten⟩
    | positional other =>
      obtain ⟨earlier, later, split, unwritten⟩ := inductionHypothesis apart.behind_positional last
      exact ⟨(Text.ofNat count, other) :: earlier, later, by rw [writings, split, List.cons_append], unwritten⟩
    | malformed written => exact inductionHypothesis apart last

/-- There are as many entries as values without key and distinct keys just when the two are apart. -/
theorem length_entries_iff :
    (OrderedMap.ofList (writings 0 tokens)).entries.length =
        (unkeyed tokens).length + ((keyed tokens).map Prod.fst).toFinset.card ↔
      Apart 0 tokens := by
  have numbers : ((Finset.range (unkeyed tokens).length).image Text.ofNat).card = (unkeyed tokens).length := by
    rw [Finset.card_image_of_injective _ fun _ _ => Text.ofNat_inj, Finset.card_range]
  have written : (OrderedMap.ofList (writings 0 tokens)).keys.toFinset =
      (Finset.range (unkeyed tokens).length).image Text.ofNat ∪ ((keyed tokens).map Prod.fst).toFinset := by
    ext key
    have member := @mem_keys_writings tokens 0 key
    simp only [OrderedMap.keys_ofList, List.mem_toFinset, List.mem_eraseDups, Finset.mem_union, Finset.mem_image,
      Finset.mem_range, member, Nat.zero_add, eq_comm]
  have size : (OrderedMap.ofList (writings 0 tokens)).entries.length =
      (OrderedMap.ofList (writings 0 tokens)).keys.toFinset.card := by
    rw [OrderedMap.keys, List.toFinset_card_of_nodup (OrderedMap.ofList (writings 0 tokens)).nodup, List.length_map]
  have sum := @Finset.card_union_eq_card_add_card _ ((Finset.range (unkeyed tokens).length).image Text.ofNat)
    ((keyed tokens).map Prod.fst).toFinset
  rw [numbers] at sum
  rw [size, written, sum, Finset.disjoint_left]
  constructor
  · intro disjoint i below member
    rw [Nat.zero_add] at member
    exact disjoint (Finset.mem_image_of_mem _ (Finset.mem_range.mpr below)) (List.mem_toFinset.mpr member)
  · rintro apart key number member
    obtain ⟨i, below, rfl⟩ := Finset.mem_image.mp number
    have absent := apart i (Finset.mem_range.mp below)
    rw [Nat.zero_add] at absent
    exact absent (List.mem_toFinset.mp member)

end

/-! ### Nothing is lost -/

/-- Attributes hold everything that is well formed in given tokens. -/
structure Keeps (attributes : Attributes) (tokens : List AttributeToken) : Prop where
  /-- Each value without key stands under its number. -/
  numbered : ∀ i value, (unkeyed tokens)[i]? = some value → attributes.get? (Text.ofNat i) = some value
  /-- Each key has the last value that was given for it. -/
  last : ∀ before key value after, keyed tokens = before ++ (key, value) :: after → key ∉ after.map Prod.fst →
    attributes.get? key = some value
  /-- There are as many entries as values without key and distinct keys. -/
  size : attributes.entries.length = (unkeyed tokens).length + ((keyed tokens).map Prod.fst).toFinset.card

/-- The attributes of a text are what its tokens write in order: keys stand in the order in which they are first
written, and each has the value that is written last. They hold every well-formed token exactly when no key is the
number of a value without key. -/
theorem keeps_parseLenient_iff (text : Text) :
    (parseLenient text).keys = ((writings 0 (ofText text)).map Prod.fst).eraseDups ∧
      (∀ key value, (parseLenient text).get? key = some value ↔
        ∃ before after, writings 0 (ofText text) = before ++ (key, value) :: after ∧ key ∉ after.map Prod.fst) ∧
      ((parseLenient text).Keeps (ofText text) ↔
        ∀ i < (unkeyed (ofText text)).length, Text.ofNat i ∉ (keyed (ofText text)).map Prod.fst) := by
  have counted : Apart 0 (ofText text) ↔
      ∀ i < (unkeyed (ofText text)).length, Text.ofNat i ∉ (keyed (ofText text)).map Prod.fst := by
    simp only [Apart, Nat.zero_add]
  rw [parseLenient_eq_ofList, ← counted]
  refine ⟨OrderedMap.keys_ofList _, fun key value => OrderedMap.get?_ofList_iff, ?_⟩
  constructor
  · intro keeps
    exact length_entries_iff.mp keeps.size
  · intro apart
    constructor
    case numbered =>
      intro i value given
      rw [OrderedMap.get?_ofList_iff]
      simpa only [Nat.zero_add] using exists_writings_of_unkeyed apart given
    case last =>
      intro before key value after split absent
      rw [OrderedMap.get?_ofList_iff]
      exact exists_writings_of_keyed apart split absent
    case size => exact length_entries_iff.mpr apart

/-- A key that is the number of a value without key takes its place. -/
theorem not_keeps_numberKey :
    ¬(parseLenient "flag 0=\"x\"".toList).Keeps (ofText "flag 0=\"x\"".toList) := by
  intro keeps
  have first := keeps.numbered 0 "flag".toList (by decide)
  have taken : (parseLenient "flag 0=\"x\"".toList).get? (Text.ofNat 0) = some "x".toList := by decide
  rw [taken] at first
  exact absurd first (by decide)

end Attributes
end MapEmbed
