import MapEmbed.Proofs.Shortcode.Grammar
import MapEmbed.Proofs.Page.SingleMap

/-!
# Documents as edited texts

Migration and the two renderers do the same thing to a text: they search it for shortcodes, make an edit for each one
that is to change, and apply the edits in one pass. Done with positions and slices, every slice lies between characters
of the text, and what comes out is the text with the shortcodes replaced one by one and the gaps copied. What is put in
the place of a shortcode is a matter of that shortcode alone, so a map that cannot be read changes nothing elsewhere.
-/

namespace MapEmbed.Shortcode
open Text

/-! ### The slice of an escaped shortcode -/

/-- An escaped shortcode is shown without its first and its last character, which are brackets. -/
theorem Occurrence.source_of_escaped {o : Occurrence} (escaped : o.escaped = true) :
    o.source = '[' :: (o.unescaped ++ [']']) := by
  have after : o.brackets.after = true := (Bool.and_eq_true_iff.mp escaped).2
  obtain ⟨inside, ends⟩ : ∃ inside, o.inner = inside ++ [']'] := by
    have whole := o.source_eq
    rw [Occurrence.source, Occurrence.afterOpening, if_pos after, ← List.append_assoc] at whole
    cases front : o.opening ++ o.body.source with
    | nil => simp [Occurrence.opening] at front; split at front <;> simp at front
    | cons c inside =>
      rw [front, List.cons_append, List.cons.injEq] at whole
      exact ⟨inside, whole.2.symm⟩
  rw [Occurrence.unescaped, o.source_eq, ends]
  simp

/-- The bytes of an escaped shortcode without the first and the last one are a slice of the text. -/
theorem Occurrence.slice?_unescaped {o : Occurrence} (escaped : o.escaped = true) (front rest : Text) :
    slice? (front ++ (o.source ++ rest)) ⟨front.byteSize + 1, (o.span front.byteSize).stop - 1⟩ = some o.unescaped := by
  have whole : front ++ (o.source ++ rest) = (front ++ ['[']) ++ (o.unescaped ++ (']' :: rest)) := by
    rw [o.source_of_escaped escaped]
    simp
  have first : (front ++ ['[']).byteSize = front.byteSize + 1 := byteSize_concat front '['
  have last : (o.span front.byteSize).stop - 1 = (front ++ ['[']).byteSize + o.unescaped.byteSize := by
    have bracket : (']' : Char).utf8Size = 1 := rfl
    have opens : ('[' : Char).utf8Size = 1 := rfl
    rw [first]
    show front.byteSize + o.source.byteSize - 1 = _
    rw [o.source_of_escaped escaped, byteSize_cons, byteSize_concat]
    omega
  rw [whole, last, ← first]
  exact slice?_append (front ++ ['[']) o.unescaped (']' :: rest)

/-! ### Edits at shortcodes -/

/-- The edits that put new texts in the place of shortcodes, counted from a number. A shortcode without a new text is
not edited. -/
def editsFrom (change : Nat → Occurrence → Option Text) (number : Nat) (hits : List (Nat × Occurrence)) : List Edit :=
  (hits.zipIdx number).filterMap fun (hit, number) => (change number hit.2).map (Edit.mk (hit.2.span hit.1))

/-- A shortcode that stays makes no edit. -/
theorem editsFrom_stays {change : Nat → Occurrence → Option Text} {number start : Nat} {o : Occurrence}
    (stays : change number o = none) (hits : List (Nat × Occurrence)) :
    editsFrom change number ((start, o) :: hits) = editsFrom change (number + 1) hits := by
  simp [editsFrom, List.zipIdx_cons, stays]

/-- A shortcode that changes makes one edit, before those of the later ones. -/
theorem editsFrom_changes {change : Nat → Occurrence → Option Text} {number start : Nat} {o : Occurrence} {new : Text}
    (changes : change number o = some new) (hits : List (Nat × Occurrence)) :
    editsFrom change number ((start, o) :: hits) = ⟨o.span start, new⟩ :: editsFrom change (number + 1) hits := by
  simp [editsFrom, List.zipIdx_cons, changes]

/-- No edit ends before it starts. -/
theorem start_le_stop_of_mem_editsFrom {change : Nat → Occurrence → Option Text} {number : Nat}
    {hits : List (Nat × Occurrence)} : ∀ edit ∈ editsFrom change number hits, edit.span.start ≤ edit.span.stop := by
  intro edit member
  obtain ⟨⟨hit, place⟩, -, made⟩ := List.mem_filterMap.mp member
  obtain ⟨new, -, rfl⟩ := Option.map_eq_some_iff.mp made
  exact Nat.le_add_right _ _

namespace Segmentation

/-- Behind what has been copied, the edits copy what was skipped and each gap, and replace the occurrences. -/
theorem applyEditsFrom?_editsFrom (change : Nat → Occurrence → Option Text) (number : Nat) (front skipped : Text)
    (pieces : List (Text × Occurrence)) (tail : Text) :
    applyEditsFrom? (front ++ (skipped ++ textOf pieces tail)) front.byteSize
        (editsFrom change number (locateFrom (front ++ skipped).byteSize pieces)) =
      some (skipped ++ replaceFrom (fun number o => (change number o).getD o.source) number pieces tail) := by
  induction pieces generalizing number front skipped with
  | nil => exact dropBytes?_append front (skipped ++ tail)
  | cons piece others inductionHypothesis =>
    obtain ⟨gap, o⟩ := piece
    simp only [locateFrom, textOf, replaceFrom, ← byteSize_append]
    cases changed : change number o with
    | none =>
      have further := inductionHypothesis (number + 1) front (skipped ++ (gap ++ o.source))
      rw [editsFrom_stays changed]
      simpa using further
    | some new =>
      have further := inductionHypothesis (number + 1) (front ++ (skipped ++ (gap ++ o.source))) []
      have copied := slice?_append front (skipped ++ gap) (o.source ++ textOf others tail)
      simp only [List.append_assoc, List.nil_append, List.append_nil] at further copied
      rw [editsFrom_changes changed, applyEditsFrom?]
      simp only [List.append_assoc, Occurrence.span, byteSize_append, Nat.add_assoc] at further copied ⊢
      simp [further, copied]

/-- The edits at the occurrences of a cut replace these in the text. -/
theorem applyEdits?_located (change : Nat → Occurrence → Option Text) (s : Segmentation) :
    applyEdits? s.toText (editsFrom change 0 s.located) =
      some (s.replace fun number o => (change number o).getD o.source) := by
  rw [toText_eq]
  exact applyEditsFrom?_editsFrom change 0 [] [] s.pieces s.tail

end Segmentation

/-- A text comes from another one by changes of shortcodes: all that stands between them is copied. -/
structure Rewrites (tags : List Text) (text : Text) (change : Nat → Occurrence → Option Text) (result : Text) :
    Prop where
  /-- The shortcodes are those that the search by positions reports. -/
  reported : Positions.reportsFrom? .exact tags text 0 =
    some ((Segmentation.ofText .exact tags text).located.map fun hit => Positions.report hit.1 hit.2)
  /-- The gaps and the sources of the shortcodes make up the text. -/
  before : (Segmentation.ofText .exact tags text).replace (fun _ o => o.source) = text
  /-- The same gaps and what is put in the place of the shortcodes make up the result. -/
  after : (Segmentation.ofText .exact tags text).replace (fun number o => (change number o).getD o.source) = result
  /-- Edits of the text at the shortcodes give the result, and no slice between them fails. -/
  edited : applyEdits? text (editsFrom change 0 (Segmentation.ofText .exact tags text).located) = some result
  /-- So do the edits where cuts are made anywhere. -/
  applied : applyEdits text (editsFrom change 0 (Segmentation.ofText .exact tags text).located) = result
  /-- Nor does the slice that takes the outer brackets off an escaped shortcode. -/
  unescaped : ∀ hit ∈ (Segmentation.ofText .exact tags text).located, hit.2.escaped = true →
    slice? text ⟨hit.1 + 1, (hit.2.span hit.1).stop - 1⟩ = some hit.2.unescaped

/-- Replacing the shortcodes of a text rewrites it. -/
theorem rewrites_replace {tags : List Text} (named : ∀ tag ∈ tags, IsName tag) (text : Text)
    (change : Nat → Occurrence → Option Text) :
    Rewrites tags text change
      ((Segmentation.ofText .exact tags text).replace fun number o => (change number o).getD o.source) := by
  have edited := Segmentation.applyEdits?_located change (Segmentation.ofText .exact tags text)
  rw [Segmentation.toText_ofText] at edited
  refine ⟨Positions.reportsFrom?_eq tags [] text, Segmentation.toText_ofText .exact tags text, rfl, edited,
    applyEdits_of_applyEdits? start_le_stop_of_mem_editsFrom edited, ?_⟩
  intro hit member escaped
  obtain ⟨front, rest, rfl, start, -⟩ := (Segmentation.findsFrom_located named text).sound hit member
  rw [← start]
  exact hit.2.slice?_unescaped escaped front rest

end MapEmbed.Shortcode

/-! ### Migration -/

namespace MapEmbed.Migration
open Shortcode

/-- A map is current: its raw text shows none of the old words, or its attributes leave nothing to move. -/
def Current (catalog : Catalog) (o : Occurrence) (attributes : Attributes) : Prop :=
  mayBeOld o.rawAttributes = false ∨ move? catalog attributes = none

/-- What a map is in the migrated document, which is a matter of that map alone. -/
inductive Migrated (catalog : Catalog) (o : Occurrence) : Text → Prop where
  /-- An escaped map stays as it is. -/
  | escaped (literal : o.escaped = true) : Migrated catalog o o.source
  /-- A map whose attributes cannot be read stays as it is. -/
  | malformed {fault : AttributeError} (failed : Attributes.parse o.rawAttributes = .error fault) : Migrated catalog o o.source
  /-- A current map stays as it is. -/
  | current {attributes : Attributes} (parsed : Attributes.parse o.rawAttributes = .ok attributes)
      (settled : Current catalog o attributes) : Migrated catalog o o.source
  /-- Every other map is printed with what moves in its new place. -/
  | rewritten {attributes : Attributes} {moved : Moved} (visible : o.escaped = false)
      (parsed : Attributes.parse o.rawAttributes = .ok attributes) (old : ¬Current catalog o attributes)
      (moves : move? catalog attributes = some moved) :
      Migrated catalog o (print o.tag moved.attributes (movedContent o.tag moved o.contentText) o.brackets)

/-- Migration makes of each map what it is to become. -/
theorem migrated_migrateOccurrence? (catalog : Catalog) (o : Occurrence) :
    Migrated catalog o ((migrateOccurrence? catalog o).getD o.source) := by
  unfold migrateOccurrence?
  cases literal : o.escaped with
  | true => exact .escaped literal
  | false =>
    cases parsed : Attributes.parse o.rawAttributes with
    | error fault => simpa using .malformed parsed
    | ok attributes =>
      cases marked : mayBeOld o.rawAttributes with
      | false => exact .current parsed (.inl marked)
      | true =>
        cases moves : move? catalog attributes with
        | none => simpa [currentForm?, moves] using .current parsed (.inr moves)
        | some moved =>
          have old : ¬Current catalog o attributes := by simp [Current, marked, moves]
          simpa [currentForm?, moves] using .rewritten literal parsed old moves

end MapEmbed.Migration

/-! ### Rendering -/

namespace MapEmbed.Page
open Shortcode Migration

/-- What is shown in the place of a shortcode: a literal one without its outer brackets, and what another one is
rendered as, with the extra bracket that it has on one side. -/
def shown (rendered : Occurrence → Text) (o : Occurrence) : Text :=
  if o.escaped then o.unescaped else o.brackets.wrap (rendered o)

/-- The element of a map. -/
def mapShown (names : Html.ReferenceTable) (freshId : Text) (o : Occurrence) : Text :=
  shown (fun o => renderMapWith names freshId (Attributes.parseLenient o.rawAttributes) o.body.content?) o

/-- The element of a marker. -/
def markerShown (o : Occurrence) : Text :=
  shown (fun o => markerElement (Marker.ofAttributes (Attributes.parseLenient o.rawAttributes)) o.contentText) o

/-- A fresh identifier is of no importance to a map that has one of its own. -/
theorem mapShown_of_blockId {names : Html.ReferenceTable} {o : Occurrence} {id : Text}
    (own : (Attributes.parseLenient o.rawAttributes).get? "block_id".toList = some id) (filled : id ≠ [])
    (first second : Text) : mapShown names first o = mapShown names second o := by
  have named (fresh content : Text) :
      renderedBlock fresh (Attributes.parseLenient o.rawAttributes) content =
        renderedBlock [] (Attributes.parseLenient o.rawAttributes) content := by
    have nonempty : id.isEmpty = false := by simpa using filled
    simp only [renderedBlock, MapBlock.ofAttributes, own, Option.getD_some, nonempty, Bool.false_eq_true, if_false]
  simp only [mapShown, shown, renderMapWith, named first, named second]

/-- Migration, rendering without it, and the rendering of the markers of a content each rewrite their text: the gaps
are copied, and what is put in the place of a shortcode is a matter of that shortcode, and of the fresh identifier of a
map that has none. -/
theorem rewrites_documents (names : Html.ReferenceTable) (catalog : Catalog) (freshIds : Nat → Text)
    (document content : Text) :
    Rewrites mapTags document (fun _ o => migrateOccurrence? catalog o) (migrate catalog document) ∧
      (∀ o, Migrated catalog o ((migrateOccurrence? catalog o).getD o.source)) ∧
      Rewrites mapTags document (fun number o => some (mapShown names (freshIds number) o))
        (renderDocumentWith names catalog false freshIds document) ∧
      (∀ o id, (Attributes.parseLenient o.rawAttributes).get? "block_id".toList = some id → id ≠ [] →
        ∀ first second, mapShown names first o = mapShown names second o) ∧
      Rewrites markerTags content (fun _ o => some (markerShown o)) (expandMarkers content) := by
  refine ⟨?_, migrated_migrateOccurrence? catalog, ?_, fun o id => mapShown_of_blockId, ?_⟩
  · rw [migrate_eq_replace]
    exact rewrites_replace isName_of_mem_mapTags document _
  · exact rewrites_replace isName_of_mem_mapTags document fun number o => some (mapShown names (freshIds number) o)
  · exact rewrites_replace isName_of_mem_markerTags content fun _ o => some (markerShown o)

end MapEmbed.Page
