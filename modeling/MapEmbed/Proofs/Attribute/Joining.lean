import MapEmbed.Proofs.Attribute.Reading

/-!
# Attribute texts one after another

Tokens of which the first ones give keys of one kind and the others keys of another kind give the attributes of both,
and a test that tells the kinds apart takes them apart again. A number counts the values without key before it, so
only tokens with keys can stand second without a change.
-/

namespace MapEmbed

/-- A token with a key that passes a test. -/
def AttributeToken.Passes (keep : Text → Bool) (token : AttributeToken) : Prop :=
  ∃ key value, token = .named key value ∧ keep (Unicode.lower key) = true

namespace Attributes
open AttributeToken

/-- Tokens in a row are added one part after the other. -/
theorem addTokens_append (attributes : Attributes) (count : Nat) (first : List AttributeToken) :
    ∃ further, ∀ second, addTokens attributes count (first ++ second) =
      addTokens (addTokens attributes count first) further second := by
  induction first generalizing attributes count with
  | nil => exact ⟨count, fun _ => rfl⟩
  | cons token rest inductionHypothesis =>
    cases token with
    | named key value => exact inductionHypothesis (attributes.insert (Unicode.lower key) value) count
    | positional value => exact inductionHypothesis (attributes.insert (Text.ofNat count) value) (count + 1)
    | malformed written => exact inductionHypothesis attributes count

/-- Keys stay when tokens are added. -/
theorem mem_keys_addTokens {attributes : Attributes} {key : Text} (member : key ∈ attributes.keys) (count : Nat)
    (tokens : List AttributeToken) : key ∈ (addTokens attributes count tokens).keys := by
  induction tokens generalizing attributes count with
  | nil => exact member
  | cons token rest inductionHypothesis =>
    cases token with
    | named name value => exact inductionHypothesis (OrderedMap.mem_keys_insert.mpr (Or.inr member)) count
    | positional value => exact inductionHypothesis (OrderedMap.mem_keys_insert.mpr (Or.inr member)) (count + 1)
    | malformed written => exact inductionHypothesis member count

section
variable {keep : Text → Bool} {tokens : List AttributeToken}

/-- If every key of some tokens passes a test that no number passes, every token has a key that passes it. -/
theorem passes_of_keys {attributes : Attributes} {count : Nat} (unnumbered : ∀ n, keep (Text.ofNat n) = false)
    (wellFormed : ∀ token ∈ tokens, token.malformed? = none)
    (all : ∀ key ∈ (addTokens attributes count tokens).keys, keep key = true) :
    ∀ token ∈ tokens, token.Passes keep := by
  induction tokens generalizing attributes count with
  | nil => simp
  | cons token rest inductionHypothesis =>
    have later : ∀ other ∈ rest, other.malformed? = none := fun other member => wellFormed other (by simp [member])
    intro other member
    cases token with
    | named key value =>
      rcases List.mem_cons.mp member with rfl | inside
      · refine ⟨key, value, rfl, all _ ?_⟩
        exact mem_keys_addTokens (OrderedMap.mem_keys_insert.mpr (Or.inl rfl)) count rest
      · exact inductionHypothesis later all other inside
    | positional value =>
      have counted : Text.ofNat count ∈ (addTokens attributes count (.positional value :: rest)).keys :=
        mem_keys_addTokens (OrderedMap.mem_keys_insert.mpr (Or.inl rfl)) (count + 1) rest
      have passed := all _ counted
      simp [unnumbered count] at passed
    | malformed written =>
      have refused := wellFormed (.malformed written) (by simp)
      simp [malformed?] at refused

/-- Tokens whose keys pass a test add to what passes it, and how many values without key came before is the same. -/
theorem filterKeys_addTokens_of_passes (passes : ∀ token ∈ tokens, token.Passes keep) (attributes : Attributes)
    (count other : Nat) :
    (addTokens attributes count tokens).filterKeys keep = addTokens (attributes.filterKeys keep) other tokens := by
  induction tokens generalizing attributes with
  | nil => rfl
  | cons token rest inductionHypothesis =>
    obtain ⟨key, value, rfl, kept⟩ := passes token (by simp)
    have later := inductionHypothesis fun other member => passes other (by simp [member])
    rw [addTokens, addTokens, later, OrderedMap.filterKeys_insert, if_pos kept]

/-- Tokens whose keys fail a test add nothing to what passes it. -/
theorem filterKeys_addTokens_of_fails (fails : ∀ token ∈ tokens, token.Passes fun key => !keep key)
    (attributes : Attributes) (count : Nat) :
    (addTokens attributes count tokens).filterKeys keep = attributes.filterKeys keep := by
  induction tokens generalizing attributes with
  | nil => rfl
  | cons token rest inductionHypothesis =>
    obtain ⟨key, value, rfl, dropped⟩ := fails token (by simp)
    have other : ¬keep (Unicode.lower key) = true := by simpa using dropped
    have later := inductionHypothesis fun other member => fails other (by simp [member])
    rw [addTokens, later, OrderedMap.filterKeys_insert, if_neg other]

/-- Behind tokens without a key that passes a test, those with such keys are what passes it, and the others are the
rest. -/
theorem filterKeys_ofTokens_append {front : List AttributeToken}
    (fails : ∀ key ∈ (ofTokens front).keys, keep key = false) (passes : ∀ token ∈ tokens, token.Passes keep) :
    (ofTokens (front ++ tokens)).filterKeys keep = ofTokens tokens ∧
      (ofTokens (front ++ tokens)).filterKeys (fun key => !keep key) = ofTokens front := by
  obtain ⟨further, split⟩ := addTokens_append OrderedMap.empty 0 front
  have whole : ofTokens (front ++ tokens) = addTokens (ofTokens front) further tokens := split tokens
  rw [whole]
  constructor
  · rw [filterKeys_addTokens_of_passes passes _ further 0, OrderedMap.filterKeys_eq_empty fails]
    rfl
  · rw [filterKeys_addTokens_of_fails, OrderedMap.filterKeys_eq_self]
    · intro key member
      simp [fails key member]
    · intro token member
      obtain ⟨key, value, same, kept⟩ := passes token member
      exact ⟨key, value, same, by simpa using kept⟩

end
end Attributes
end MapEmbed
