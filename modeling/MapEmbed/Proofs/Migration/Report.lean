import MapEmbed.Command.Program
import MapEmbed.Proofs.Migration.Current
import MapEmbed.Proofs.Migration.Regrouping

/-!
# What migration reports

Migration says whether it changed a document: it returns a text or nothing. Whoever called it trusts this, and writes a
file or replaces a stored body exactly if there is a text. That a text was returned only if it differs from the document
is shown at the first map that was rewritten. What it became is read like the map itself, up to the first closing
bracket, so if both begin alike their attributes do; but the attributes that were written would not be moved once more.
-/

namespace MapEmbed.Migration
open Shortcode Segmentation

/-! ### A rewritten map differs from what it was -/

/-- What the passes made of attributes, written and read again, is something else than the attributes. -/
theorem parseLenient_toText_ne_of_move {catalog : Catalog} {attributes : Attributes} {moved : Moved}
    (moves : move? catalog attributes = some moved) (readable : moved.attributes.Readable) :
    Attributes.parseLenient moved.attributes.toText ≠ attributes := by
  intro same
  have unmarked : splitMarker? attributes = none := by
    rw [← same]
    exact isMarkerKey_reprint readable (settled_move moves).1
  rw [move?, unmarked] at moves
  obtain ⟨changed, credential, rfl⟩ := Option.map_eq_some_iff.mp moves
  obtain ⟨before, after⟩ := styleKey_of_moveCredential credential
  rw [← same, readable.escapedFrom.nonEmpty? (by decide), Option.isSome_map, after] at before
  simp at before

/-- Where two occurrences with the same bracket and tag begin alike, so do their attribute texts: each is what stands
before the first closing bracket, unless a slash there makes the tag close itself. -/
theorem rawAttributes_of_source_append {first second : Occurrence} {rest other : Text}
    (same : first.source ++ rest = second.source ++ other)
    (brackets : first.brackets.before = second.brackets.before) (tag : first.tag = second.tag)
    (closed : ']' ∉ first.rawAttributes) (closedToo : ']' ∉ second.rawAttributes)
    (long : second.body ≠ .selfClosing) (open_ : second.rawAttributes.getLast? ≠ some '/') :
    first.rawAttributes = second.rawAttributes := by
  have shape (o : Occurrence) (more : Text) : o.source ++ more =
      (if o.brackets.before then ['[', '['] else ['[']) ++ (o.tag ++
        ((o.rawAttributes ++ if o.body = .selfClosing then ['/'] else []) ++ ']' :: (o.afterOpening ++ more))) := by
    unfold Occurrence.source Occurrence.opening
    by_cases short : o.body = .selfClosing <;> simp [short]
  rw [shape, shape, brackets, tag, List.append_cancel_left_eq, List.append_cancel_left_eq, if_neg long,
    List.append_nil] at same
  have unslashed : ']' ∉ first.rawAttributes ++ if first.body = .selfClosing then ['/'] else [] := by
    split <;> simp [closed]
  have read := congrArg (List.takeWhile (· != ']')) same
  rw [Text.takeWhile_ne_append unslashed, Text.takeWhile_ne_append closedToo] at read
  split at read
  · rw [← read] at open_
    simp at open_
  · simpa using read

/-- A map does not begin with what it is rewritten to. -/
theorem source_append_ne_rewritten {catalog : Catalog} {o : Occurrence} {rest : Text} {attributes : Attributes}
    {moved : Moved} (stands : o.Stands .exact mapTags rest) (read : Attributes.parse o.rawAttributes = .ok attributes)
    (moves : move? catalog attributes = some moved) (back other : Text) :
    o.source ++ back ≠ (rewritten o moved).source ++ other := by
  have printable : Printable o.tag moved.attributes := by
    obtain ⟨-, rfl, -⟩ := Attributes.parse_eq_ok_iff.mp read
    exact printable_move moves (printable_parseLenient (isName_of_mem_mapTags _ (mem_of_stands stands)) stands.closed)
  have ends : (rewritten o moved).rawAttributes.getLast? ≠ some '/' := by
    rcases Printable.getLast?_rawAttributes o.tag moved.attributes (movedContent o.tag moved o.contentText) o.brackets with
      nothing | quote
    · simp [rewritten, nothing]
    · simp [rewritten, quote]
  intro same
  have raw : o.rawAttributes = (rewritten o moved).rawAttributes :=
    rawAttributes_of_source_append same rfl rfl stands.closed (printable.closed_rawAttributes _ _)
      (by simp [rewritten, printed]) ends
  rw [raw] at read
  exact parseLenient_toText_ne_of_move moves printable.readable (parseLenient_rewritten read).symm

/-- A map does not begin with its current form if it has one. -/
theorem source_append_ne_of_migrateOccurrence {catalog : Catalog} {o : Occurrence} {rest written : Text}
    (stands : o.Stands .exact mapTags rest) (old : migrateOccurrence? catalog o = some written) (back other : Text) :
    o.source ++ back ≠ written ++ other := by
  rw [migrateOccurrence?_eq] at old
  obtain ⟨moved, result, rfl⟩ := Option.map_eq_some_iff.mp old
  obtain ⟨-, attributes, read, moves⟩ := moved?_eq_some result
  exact source_append_ne_rewritten stands read moves back other

/-! ### A changed document -/

/-- Two ways to replace the occurrences of a text agree on the text exactly if they agree on each occurrence, if no
occurrence on which they differ is replaced by texts that begin alike. -/
theorem replaceFrom_eq_iff {first second : Occurrence → Text} {pieces : List (Text × Occurrence)} (tail : Text)
    (apart : ∀ piece ∈ pieces, first piece.2 = second piece.2 ∨
      ∀ back other, first piece.2 ++ back ≠ second piece.2 ++ other) (number : Nat) :
    replaceFrom (fun _ o => first o) number pieces tail = replaceFrom (fun _ o => second o) number pieces tail ↔
      ∀ piece ∈ pieces, first piece.2 = second piece.2 := by
  induction pieces generalizing number with
  | nil => simp [replaceFrom]
  | cons piece rest inductionHypothesis =>
    have later := inductionHypothesis (fun other member => apart other (List.mem_cons_of_mem _ member)) (number + 1)
    rw [List.forall_mem_cons, ← later, replaceFrom, replaceFrom, List.append_cancel_left_eq]
    rcases apart piece List.mem_cons_self with same | differs
    · rw [same, List.append_cancel_left_eq, eq_self, true_and]
    · refine ⟨fun equal => absurd equal (differs _ _), fun equal => absurd equal.1 fun same => ?_⟩
      exact differs [] [] (congrArg (· ++ []) same)

/-- A document stays the same exactly if none of its maps is old. -/
theorem migrate_eq_self_iff (catalog : Catalog) (document : Text) :
    migrate catalog document = document ↔
      ∀ o ∈ (ofText .exact mapTags document).occurrences, migrateOccurrence? catalog o = none := by
  have cuts : Cuts .exact mapTags (ofText .exact mapTags document).pieces (ofText .exact mapTags document).tail :=
    cuts_scan isName_of_mem_mapTags 0 document
  have differs (piece : Text × Occurrence) (member : piece ∈ (ofText .exact mapTags document).pieces)
      (written : Text) (old : migrateOccurrence? catalog piece.2 = some written) (back other : Text) :
      (migrateOccurrence? catalog piece.2).getD piece.2.source ++ back ≠ piece.2.source ++ other := by
    obtain ⟨rest, stands⟩ := exists_stands_of_mem cuts piece member
    rw [old]
    exact fun same => source_append_ne_of_migrateOccurrence stands old other back same.symm
  have whole := toText_ofText .exact mapTags document
  rw [migrate_eq_replace]
  conv_lhs => rhs; rw [← whole]
  rw [toText, replace, replace, replaceFrom_eq_iff, occurrences, List.forall_mem_map]
  · refine forall₂_congr fun piece member => ?_
    cases old : migrateOccurrence? catalog piece.2 with
    | none => simp
    | some written =>
      simp only [Option.getD_some, reduceCtorEq, iff_false]
      intro same
      exact differs piece member written old [] [] (by rw [old, Option.getD_some, same])
  · intro piece member
    cases old : migrateOccurrence? catalog piece.2 with
    | none => exact .inl rfl
    | some written => exact .inr (old ▸ differs piece member written old)

/-- Migration returns a text exactly if the text is another one. -/
theorem migrate?_eq_ite (catalog : Catalog) (document : Text) :
    migrate? catalog document = if migrate catalog document = document then none else some (migrate catalog document) := by
  have unchanged := migrate_eq_self_iff catalog document
  split
  · rename_i same
    rw [migrate?_eq, if_neg]
    simpa using unchanged.mp same
  · rename_i differs
    rw [unchanged] at differs
    obtain ⟨o, old⟩ := not_forall.mp differs
    obtain ⟨member, old⟩ := Classical.not_imp.mp old
    rw [migrate_eq_replace, migrate?_eq, if_pos]
    exact List.any_eq_true.mpr ⟨o, member, Option.isSome_iff_ne_none.mpr old⟩

/-! ### Who is told -/

/-- Not in place, the migrated document is printed. -/
theorem migrateDocument_printed (catalog : Catalog) (file document : Text) :
    Command.migrateDocument catalog file false document = pure (.printed (migrate catalog document)) := by
  unfold Command.migrateDocument migrate
  cases migrate? catalog document <;> rfl

/-- In place, the migrated document is written if it is another one, and nothing is printed. -/
theorem migrateDocument_written (catalog : Catalog) (file document : Text) :
    Command.migrateDocument catalog file true document =
      if migrate catalog document = document then pure (.printed [])
      else do
        Plan.writeText file (migrate catalog document)
        return .printed [] := by
  unfold Command.migrateDocument
  rw [migrate?_eq_ite]
  by_cases same : migrate catalog document = document
  · rw [if_pos same, if_pos same]
  · rw [if_neg same, if_neg same]

/-- What is returned, what is written to a file and what replaces a body, each exactly if the document changes. -/
structure ReportsExactly (catalog : Catalog) (document : Text) : Prop where
  /-- A text is returned exactly if it differs from the document. -/
  returned : (∃ text, migrate? catalog document = some text) ↔ migrate catalog document ≠ document
  /-- The text that is returned is none but the migrated document. -/
  exact : ∀ text, migrate? catalog document = some text → text ≠ document ∧ text = migrate catalog document
  /-- In place, the file is written if the document changes, and else nothing is done. -/
  written : ∀ file, Command.migrateDocument catalog file true document =
    if migrate catalog document = document then pure (.printed [])
    else do
      Plan.writeText file (migrate catalog document)
      return .printed []
  /-- A stored body is replaced if it changes. -/
  replaced : migrateBody? catalog document =
    if migrate catalog document = document then none else some (migrate catalog document)

/-- Migration reports exactly. -/
theorem reportsExactly (catalog : Catalog) (document : Text) : ReportsExactly catalog document := by
  have report := migrate?_eq_ite catalog document
  refine ⟨?_, ?_, ?_, ?_⟩
  · rw [report]
    split <;> simp [*]
  · intro text result
    rw [report] at result
    split at result
    · simp at result
    · rename_i differs
      obtain rfl := Option.some.inj result
      exact ⟨differs, rfl⟩
  · exact fun file => migrateDocument_written catalog file document
  · rw [migrateBody?, ← report]
    split
    · rename_i empty
      rw [List.isEmpty_iff.mp empty]
      rfl
    · rfl

end MapEmbed.Migration
