import MapEmbed.Proofs.Shortcode.Printing
import MapEmbed.Migration.Document

/-!
# One map rewritten

A rewritten map is again an occurrence, with the tag and the brackets of the old one, and it stands where that
stood. What the two passes leave in its attributes was there before or is written by them, so it can be printed;
and its content closes no map that the old content did not close.
-/

namespace MapEmbed.Migration
open Shortcode

/-! ### What the passes leave -/

/-- An entry of the map's part was there before, or says that the map is centred elsewhere. -/
theorem mem_mapPart {attributes : Attributes} {entry : Text × Text} (member : entry ∈ (mapPart attributes).entries) :
    entry ∈ attributes.entries ∨ entry = (centerMarkerKey, ['0']) := by
  unfold mapPart at member
  simp only at member
  split at member
  · rcases Entries.mem_insert member with written | kept
    · exact Or.inr written
    · exact Or.inl (List.mem_filter.mp kept).1
  · exact Or.inl (List.mem_filter.mp member).1

/-- An entry after the credential is moved was there before, or is the credential under the style's key. -/
theorem mem_moveCredential {catalog : Catalog} {attributes moved : Attributes}
    (result : moveCredential? catalog attributes = some moved) {entry : Text × Text} (member : entry ∈ moved.entries) :
    entry ∈ attributes.entries ∨ entry.1 = styleKeyKey ∧ ∃ key, (key, entry.2) ∈ attributes.entries := by
  simp only [moveCredential?, Option.ite_none_left_eq_some, Option.map_eq_some_iff] at result
  obtain ⟨-, ⟨key, value⟩, found, rfl⟩ := result
  rcases Entries.mem_insert member with rfl | kept
  · refine Or.inr ⟨rfl, key, ?_⟩
    obtain ⟨dependency, -, credential⟩ := Option.bind_eq_some_iff.mp found
    obtain ⟨text, nonEmpty, same⟩ := Option.map_eq_some_iff.mp credential
    simp only [Prod.mk.injEq] at same
    obtain ⟨rfl, rfl⟩ := same
    exact Entries.mem_of_lookup (Option.filter_eq_some_iff.mp nonEmpty).1
  · exact Or.inl (List.mem_filter.mp kept).1

/-- An entry of a moved map was there before, or is written by one of the passes. -/
theorem mem_move {catalog : Catalog} {attributes : Attributes} {moved : Moved}
    (result : move? catalog attributes = some moved) {entry : Text × Text}
    (member : entry ∈ moved.attributes.entries) :
    entry ∈ attributes.entries ∨ entry = (centerMarkerKey, ['0']) ∨
      entry.1 = styleKeyKey ∧ (entry.2 = ['0'] ∨ ∃ key, (key, entry.2) ∈ attributes.entries) := by
  unfold move? at result
  split at result
  · rename_i map marker split
    simp only [Option.some.injEq] at result
    subst result
    simp only [splitMarker?, Option.ite_none_right_eq_some, Option.some.injEq, Prod.mk.injEq] at split
    obtain ⟨-, rfl, -⟩ := split
    cases credential : moveCredential? catalog (mapPart attributes) with
    | none =>
      rw [credential] at member
      rcases mem_mapPart member with kept | centred
      · exact Or.inl kept
      · exact Or.inr (Or.inl centred)
    | some changed =>
      rw [credential] at member
      rcases mem_moveCredential credential member with kept | ⟨styled, key, old⟩
      · rcases mem_mapPart kept with before | centred
        · exact Or.inl before
        · exact Or.inr (Or.inl centred)
      · refine Or.inr (Or.inr ⟨styled, ?_⟩)
        rcases mem_mapPart old with before | centred
        · exact Or.inr ⟨key, before⟩
        · exact Or.inl (congrArg Prod.snd centred)
  · obtain ⟨changed, credential, rfl⟩ := Option.map_eq_some_iff.mp result
    rcases mem_moveCredential credential member with kept | ⟨styled, key, old⟩
    · exact Or.inl kept
    · exact Or.inr (Or.inr ⟨styled, Or.inr ⟨key, old⟩⟩)

/-- An entry of the marker that was taken out was there before. -/
theorem mem_move_marker {catalog : Catalog} {attributes marker : Attributes} {moved : Moved}
    (result : move? catalog attributes = some moved) (taken : moved.marker = some marker) {entry : Text × Text}
    (member : entry ∈ marker.entries) : entry ∈ attributes.entries := by
  unfold move? at result
  split at result
  · rename_i map part split
    simp only [Option.some.injEq] at result
    subst result
    simp only [Option.some.injEq] at taken
    subst taken
    simp only [splitMarker?, Option.ite_none_right_eq_some, Option.some.injEq, Prod.mk.injEq] at split
    obtain ⟨-, -, rfl⟩ := split
    exact (List.mem_filter.mp member).1
  · obtain ⟨changed, -, rfl⟩ := Option.map_eq_some_iff.mp result
    simp at taken

/-- What is moved can be printed if what was there could. -/
theorem printable_move {catalog : Catalog} {attributes : Attributes} {moved : Moved} {name : Text}
    (result : move? catalog attributes = some moved) (printable : Printable name attributes) :
    Printable name moved.attributes := by
  have center : Attributes.IsKey centerMarkerKey := by decide
  have style : Attributes.IsKey styleKeyKey := by decide
  have visible : ∀ c ∈ ['0'], ¬AttributeToken.isInvisible c := by
    intro c member
    rw [List.mem_singleton.mp member, AttributeToken.isInvisible]
    decide
  refine ⟨printable.named, ?_, ?_⟩
  · intro entry member
    rcases mem_move result member with kept | rfl | ⟨styled, zero | ⟨key, old⟩⟩
    · exact printable.readable entry kept
    · exact ⟨center, visible⟩
    · exact ⟨styled ▸ style, zero ▸ visible⟩
    · exact ⟨styled ▸ style, (printable.readable _ old).2⟩
  · intro entry member
    rcases mem_move result member with kept | rfl | ⟨-, zero | ⟨key, old⟩⟩
    · exact printable.closed entry kept
    · decide
    · rw [zero]
      decide
    · exact printable.closed (key, entry.2) old

/-! ### The current form of an occurrence -/

/-- What the passes make of the attributes of a map; nothing if the map stays as it is. -/
def moved? (catalog : Catalog) (o : Occurrence) : Option Moved :=
  if o.escaped || !mayBeOld o.rawAttributes then none
  else
    match Attributes.parse o.rawAttributes with
    | .error _ => none
    | .ok attributes => move? catalog attributes

/-- The occurrence that a map becomes. -/
def rewritten (o : Occurrence) (moved : Moved) : Occurrence :=
  printed o.tag moved.attributes (movedContent o.tag moved o.contentText) o.brackets

/-- The occurrence that a map is after migration: rewritten or as it was. -/
def currentOccurrence (catalog : Catalog) (o : Occurrence) : Occurrence :=
  ((moved? catalog o).map (rewritten o)).getD o

/-- The current form of a map is the source of the occurrence that it becomes. -/
theorem migrateOccurrence?_eq (catalog : Catalog) (o : Occurrence) :
    migrateOccurrence? catalog o = (moved? catalog o).map fun moved => (rewritten o moved).source := by
  unfold migrateOccurrence? moved?
  split
  · rfl
  · cases Attributes.parse o.rawAttributes with
    | error fault => rfl
    | ok attributes => simp only [currentForm?, rewritten, source_printed]

/-- A map is replaced by the source of what it becomes. -/
theorem migrateOccurrence?_getD (catalog : Catalog) (o : Occurrence) :
    (migrateOccurrence? catalog o).getD o.source = (currentOccurrence catalog o).source := by
  rw [migrateOccurrence?_eq, currentOccurrence]
  cases moved? catalog o <;> rfl

/-- Migration keeps the tag of a map. -/
@[simp] theorem tag_currentOccurrence (catalog : Catalog) (o : Occurrence) :
    (currentOccurrence catalog o).tag = o.tag := by
  unfold currentOccurrence
  cases moved? catalog o <;> rfl

/-- Migration keeps the brackets around a map. -/
@[simp] theorem brackets_currentOccurrence (catalog : Catalog) (o : Occurrence) :
    (currentOccurrence catalog o).brackets = o.brackets := by
  unfold currentOccurrence
  cases moved? catalog o <;> rfl

/-- A map whose passes do something is not escaped, and the passes run on its attributes. -/
theorem moved?_eq_some {catalog : Catalog} {o : Occurrence} {moved : Moved} (result : moved? catalog o = some moved) :
    o.escaped = false ∧ mayBeOld o.rawAttributes = true ∧
      Attributes.parse o.rawAttributes = .ok (Attributes.parseLenient o.rawAttributes) ∧
      move? catalog (Attributes.parseLenient o.rawAttributes) = some moved := by
  simp only [moved?, Option.ite_none_left_eq_some, Bool.or_eq_true, Bool.not_eq_true', not_or, Bool.not_eq_true,
    Bool.not_eq_false] at result
  obtain ⟨⟨visible, old⟩, result⟩ := result
  split at result
  · simp at result
  · rename_i attributes read
    have same := (Attributes.parse_eq_ok_iff.mp read).2.1
    subst same
    exact ⟨visible, old, read, result⟩

/-! ### Where the current form stands -/

/-- The marker tag of a map tag is a name, and no map tag. -/
theorem markerTag_of_mem_mapTags : ∀ tag ∈ mapTags, IsName ((markerTagFor? tag).getD tag) ∧
    (markerTagFor? tag).getD tag ∉ mapTags := by
  decide

/-- The content of a migrated map closes no map that the old content did not close. -/
theorem free_movedContent {tag wanted content : Text} {moved : Moved} (listed : tag ∈ mapTags)
    (closes : wanted ∈ mapTags) (free : splitAtClosing? .exact wanted content = none)
    (printable : ∀ marker, moved.marker = some marker → Printable ((markerTagFor? tag).getD tag) marker) :
    splitAtClosing? .exact wanted (movedContent tag moved content) = none := by
  unfold movedContent
  cases taken : moved.marker with
  | none => exact free
  | some marker =>
    simp only
    rw [← source_printed]
    apply (printable marker taken).free_source Brackets.none (isName_of_mem_mapTags wanted closes) free
    apply Bool.eq_false_iff.mpr
    intro same
    exact (markerTag_of_mem_mapTags tag listed).2 ((same_exact wanted _).mp same ▸ closes)

section
variable {catalog : Catalog} {o : Occurrence} {moved : Moved} {rest : Text}

/-- The new attributes of a map can be printed. -/
theorem printable_moved (stands : o.Stands .exact mapTags rest) (result : moved? catalog o = some moved) :
    Printable o.tag moved.attributes := by
  obtain ⟨-, -, -, moves⟩ := moved?_eq_some result
  exact printable_move moves
    (printable_parseLenient (isName_of_mem_mapTags _ (mem_of_stands stands)) stands.closed)

/-- The attributes of the marker that was taken out of a map can be printed. -/
theorem printable_moved_marker (stands : o.Stands .exact mapTags rest) (result : moved? catalog o = some moved)
    (marker : Attributes) (taken : moved.marker = some marker) :
    Printable ((markerTagFor? o.tag).getD o.tag) marker := by
  obtain ⟨-, -, -, moves⟩ := moved?_eq_some result
  have named := (markerTag_of_mem_mapTags o.tag (mem_of_stands stands)).1
  have whole : Printable o.tag (Attributes.parseLenient o.rawAttributes) :=
    printable_parseLenient (isName_of_mem_mapTags _ (mem_of_stands stands)) stands.closed
  exact ⟨named, fun entry member => whole.readable entry (mem_move_marker moves taken member),
    fun entry member => whole.closed entry (mem_move_marker moves taken member)⟩

/-- Up to its closing tag, a rewritten map closes no more than the old content did. -/
theorem free_rewritten (stands : o.Stands .exact mapTags rest) (result : moved? catalog o = some moved) {wanted : Text}
    (closes : wanted ∈ mapTags) (free : splitAtClosing? .exact wanted o.contentText = none) :
    splitAtClosing? .exact wanted
      ((rewritten o moved).opening ++ movedContent o.tag moved o.contentText) = none :=
  (printable_moved stands result).free_content o.brackets (isName_of_mem_mapTags wanted closes)
    (free_movedContent (mem_of_stands stands) closes free (printable_moved_marker stands result))

/-- The content of an occurrence closes nothing of its name. -/
theorem free_contentText (stands : o.Stands .exact mapTags rest) :
    splitAtClosing? .exact o.tag o.contentText = none := by
  have body := stands.body
  unfold Occurrence.contentText Body.content?
  cases bodied : o.body with
  | selfClosing => rfl
  | unclosed => rfl
  | enclosing content written =>
    rw [bodied] at body
    exact body.1

/-- A rewritten map stands wherever no bracket that follows would be taken for its own. -/
theorem rewritten_stands (stands : o.Stands .exact mapTags rest) (result : moved? catalog o = some moved)
    {other : Text} (ended : o.brackets.after = false → other.head? ≠ some ']') :
    (rewritten o moved).Stands .exact mapTags other := by
  have listed := mem_of_stands stands
  exact (printable_moved stands result).stands ⟨o.tag, listed, (same_exact _ _).mpr rfl⟩
    (free_movedContent listed listed (free_contentText stands) (printable_moved_marker stands result)) ended

end
end MapEmbed.Migration
