import MapEmbed.Proofs.Text.Escaping

/-!
# Safe texts

A text can stand between the quotes of a value as it is if no character in it is reserved but the ampersand, and every
ampersand starts a complete reference. Escaping makes every text such a one, and the texts that it leaves alone are
exactly these. What stands behind an ampersand is escaped as well, but not as far as the reference goes.
-/

namespace MapEmbed.Text

/-- No character that is reserved stands in a text, save ampersands that start complete references. -/
structure Safe (text : Text) : Prop where
  unmarked : ∀ mark ∈ ['<', '>', '"', '\x27'], mark ∉ text
  complete : ∀ front back, text = front ++ '&' :: back → ∃ word, ReferenceWord word ∧ word <+: back

/-- Nothing is reserved in the empty text. -/
theorem safe_nil : Safe [] where
  unmarked := fun _ _ => List.not_mem_nil
  complete := by simp

/-- A character in front of a text must not be reserved, or it is an ampersand and the text completes its reference. -/
theorem safe_cons_iff {c : Char} {rest : Text} :
    Safe (c :: rest) ↔ (reserved? c = none ∨ c = '&' ∧ completesReference rest = true) ∧ Safe rest := by
  constructor
  · rintro ⟨unmarked, complete⟩
    refine ⟨?_, fun mark marks inside => unmarked mark marks (List.mem_cons_of_mem c inside), ?_⟩
    · by_cases ampersand : c = '&'
      · subst ampersand
        exact Or.inr ⟨rfl, completesReference_iff.mpr (complete [] rest rfl)⟩
      · refine Or.inl (Option.not_isSome_iff_eq_none.mp fun reserved => ?_)
        rcases List.mem_cons.mp (mem_of_reserved? reserved) with same | marks
        · exact ampersand same
        · exact unmarked c marks List.mem_cons_self
    · rintro front back rfl
      exact complete (c :: front) back rfl
  · rintro ⟨first, unmarked, complete⟩
    constructor
    · intro mark marks member
      rcases List.mem_cons.mp member with rfl | inside
      · rcases first with plain | ⟨rfl, -⟩
        · have reserved : ∀ mark ∈ ['<', '>', '"', '\x27'], (reserved? mark).isSome := List.all_eq_true.mp rfl
          exact absurd plain (Option.isSome_iff_ne_none.mp (reserved mark marks))
        · exact absurd marks (by decide)
      · exact unmarked mark marks inside
    · intro front back split
      cases front with
      | nil =>
        obtain ⟨rfl, rfl⟩ := List.cons.inj split
        rcases first with plain | ⟨-, completes⟩
        · exact absurd plain (by decide)
        · exact completesReference_iff.mp completes
      | cons d others => exact complete others back (List.cons.inj split).2

/-- Characters that are not reserved keep a text safe. -/
theorem safe_append_plain {front back : Text} (plain : ∀ c ∈ front, reserved? c = none) (safe : Safe back) :
    Safe (front ++ back) := by
  induction front with
  | nil => exact safe
  | cons c rest inductionHypothesis =>
    obtain ⟨here, later⟩ := List.forall_mem_cons.mp plain
    exact safe_cons_iff.mpr ⟨Or.inl here, inductionHypothesis later⟩

/-- A complete reference keeps a text safe. -/
theorem safe_append_reference {word back : Text} (complete : ReferenceWord word) (safe : Safe back) :
    Safe ('&' :: (word ++ back)) := by
  refine safe_cons_iff.mpr ⟨Or.inr ⟨rfl, completesReference_iff.mpr ⟨word, complete, List.prefix_append _ _⟩⟩, ?_⟩
  exact safe_append_plain (fun c member => reserved?_of_isReferenceChar (complete.isReferenceChar c member)) safe

/-- What is escaped is safe. -/
theorem safe_escape (text : Text) : Safe (escape text) := by
  induction text using escape_induction with
  | nil => exact safe_nil
  | reference word back complete inductionHypothesis =>
    rw [escape_append_reference complete]
    exact safe_append_reference complete inductionHypothesis
  | reserved c word rest complete reserved open_ inductionHypothesis =>
    rw [escape_reserved reserved open_]
    exact safe_append_reference complete inductionHypothesis
  | plain c rest plain inductionHypothesis =>
    rw [escape_plain plain]
    exact safe_cons_iff.mpr ⟨Or.inl plain, inductionHypothesis⟩

/-- A safe text is left alone. -/
theorem Safe.escape_eq {text : Text} (safe : Safe text) : escape text = text := by
  induction text with
  | nil => rfl
  | cons c rest inductionHypothesis =>
    obtain ⟨first, later⟩ := safe_cons_iff.mp safe
    rcases first with plain | ⟨rfl, completes⟩
    · rw [escape_plain plain, inductionHypothesis later]
    · rw [escape_reference completes, inductionHypothesis later]

/-- What was escaped is escaped already. -/
theorem escape_escape (text : Text) : escape (escape text) = escape text :=
  (safe_escape text).escape_eq

/-- Escaping makes every text safe and leaves exactly the safe texts alone, so it does nothing the second time. -/
theorem escape_projects (text : Text) :
    Safe (escape text) ∧ (escape text = text ↔ Safe text) ∧ escape (escape text) = escape text :=
  ⟨safe_escape text, ⟨fun same => same ▸ safe_escape text, Safe.escape_eq⟩, escape_escape text⟩

end MapEmbed.Text
