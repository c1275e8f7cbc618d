import MapEmbed.Proofs.Shortcode.Literal
import MapEmbed.Proofs.Page.Edits

/-!
# Literal tags in documents and contents

A tag in double brackets that is not closed anywhere behind is left alone by migration, shown with one pair of brackets
when the document or the content is rendered, and no marker. A closing tag of its name behind it, of whatever shortcode,
takes that away.
-/

namespace MapEmbed.Page
open Shortcode Migration

/-- A tag in double brackets is shown in single ones. -/
theorem unescaped_doubled (tag raw : Text) : (doubled tag raw).unescaped = '[' :: (tag ++ (raw ++ [']'])) := by
  have whole := (doubled tag raw).source_of_escaped rfl
  rw [source_doubled] at whole
  have inside : '[' :: (tag ++ (raw ++ [']'])) ++ [']'] = (doubled tag raw).unescaped ++ [']'] := by
    simpa using whole
  exact (List.append_cancel_right inside).symm

section
variable {front raw back : Text} {family : TagFamily}

/-- A map tag in double brackets stands as long as nothing closes it. -/
theorem stands_doubledMap (mode : CaseMode) (enclosable : Enclosable raw)
    (free : ¬HoldsClosing mode family.mapTag back) : (doubled family.mapTag raw).Stands mode mapTags back := by
  have listed : family.mapTag ∈ mapTags := by cases family <;> decide
  exact (stands_doubled_iff (isName_of_mem_mapTags _ listed) listed enclosable).mpr free

/-- A marker tag in double brackets stands as long as nothing closes it. -/
theorem stands_doubledMarker (mode : CaseMode) (enclosable : Enclosable raw)
    (free : ¬HoldsClosing mode family.markerTag back) : (doubled family.markerTag raw).Stands mode markerTags back := by
  have listed : family.markerTag ∈ markerTags := by cases family <;> decide
  exact (stands_doubled_iff (isName_of_mem_markerTags _ listed) listed enclosable).mpr free

/-- Migration leaves a literal map alone. -/
theorem migrate_doubled (catalog : Catalog) (plain : '[' ∉ front) (enclosable : Enclosable raw)
    (free : ¬HoldsClosing .exact family.mapTag back) :
    migrate catalog (front ++ ((doubled family.mapTag raw).source ++ back)) =
      front ++ ((doubled family.mapTag raw).source ++ migrate catalog back) := by
  have stands := stands_doubledMap .exact enclosable free
  rw [migrate_eq_replace, Segmentation.replace_plain_source isName_of_mem_mapTags plain stands, migrate_eq_replace]
  rfl

/-- A literal map is shown in single brackets. -/
theorem renderMaps_doubled (names : Html.ReferenceTable) (freshIds : Nat → Text) (plain : '[' ∉ front)
    (enclosable : Enclosable raw) (free : ¬HoldsClosing .exact family.mapTag back) :
    renderMaps names freshIds (front ++ ((doubled family.mapTag raw).source ++ back)) =
      front ++ ('[' :: (family.mapTag ++ (raw ++ [']'])) ++
        renderMaps names (fun number => freshIds (number + 1)) back) := by
  have stands := stands_doubledMap .exact enclosable free
  rw [renderMaps, Segmentation.replace_plain_source isName_of_mem_mapTags plain stands, ← unescaped_doubled]
  rfl

/-- What migration and rendering make of a document with a literal map behind plain text. -/
structure MapLiteral (names : Html.ReferenceTable) (catalog : Catalog) (freshIds : Nat → Text)
    (front tag raw back : Text) : Prop where
  /-- Migration keeps it, in double brackets. -/
  migrated : migrate catalog (front ++ ((doubled tag raw).source ++ back)) =
    front ++ ((doubled tag raw).source ++ migrate catalog back)
  /-- Rendering shows it in single brackets, after migration as well if that has not brought in a closing tag. -/
  rendered : ∀ migrates, (migrates = true → ¬HoldsClosing .exact tag (migrate catalog back)) →
    renderDocumentWith names catalog migrates freshIds (front ++ ((doubled tag raw).source ++ back)) =
      front ++ ('[' :: (tag ++ (raw ++ [']'])) ++
        renderDocumentWith names catalog migrates (fun number => freshIds (number + 1)) back)

/-- A map in double brackets that nothing closes is literal. -/
theorem mapLiteral (names : Html.ReferenceTable) (catalog : Catalog) (freshIds : Nat → Text) (plain : '[' ∉ front)
    (enclosable : Enclosable raw) (free : ¬HoldsClosing .exact family.mapTag back) :
    MapLiteral names catalog freshIds front family.mapTag raw back := by
  have migrated := migrate_doubled catalog plain enclosable free
  refine ⟨migrated, fun migrates still => ?_⟩
  cases migrates with
  | false => exact renderMaps_doubled names freshIds plain enclosable free
  | true =>
    simp only [renderDocumentWith, if_true, migrated]
    exact renderMaps_doubled names freshIds plain enclosable (still rfl)

/-- A literal marker is shown in single brackets. -/
theorem expandMarkers_doubled (plain : '[' ∉ front) (enclosable : Enclosable raw)
    (free : ¬HoldsClosing .exact family.markerTag back) :
    expandMarkers (front ++ ((doubled family.markerTag raw).source ++ back)) =
      front ++ ('[' :: (family.markerTag ++ (raw ++ [']'])) ++ expandMarkers back) := by
  have stands := stands_doubledMarker .exact enclosable free
  rw [expandMarkers, Segmentation.replace_plain_source isName_of_mem_markerTags plain stands, ← unescaped_doubled]
  rfl

/-- A literal marker is no marker. -/
theorem readings_doubled (plain : '[' ∉ front) (enclosable : Enclosable raw)
    (free : ¬HoldsClosing .ignoring family.markerTag back) :
    Marker.readings (front ++ ((doubled family.markerTag raw).source ++ back)) = Marker.readings back := by
  have stands := stands_doubledMarker .ignoring enclosable free
  rw [Marker.readings, Segmentation.ofText_plain_source isName_of_mem_markerTags plain stands]
  rfl

end

/-- A tag in double brackets is literal exactly if no closing tag of it stands anywhere behind: only then is it the first
shortcode reported, escaped and in its brackets; and then migration keeps it, rendering takes one pair of brackets off,
and it is no marker. -/
theorem reportsDoubled_documents (names : Html.ReferenceTable) (catalog : Catalog) (freshIds : Nat → Text)
    (mode : CaseMode) (family : TagFamily) {front raw : Text} (plain : '[' ∉ front) (enclosable : Enclosable raw) (back : Text) :
    (ReportsDoubled mode mapTags front family.mapTag raw back ↔ ¬HoldsClosing mode family.mapTag back) ∧
      (ReportsDoubled mode markerTags front family.markerTag raw back ↔ ¬HoldsClosing mode family.markerTag back) ∧
      (¬HoldsClosing .exact family.mapTag back → MapLiteral names catalog freshIds front family.mapTag raw back) ∧
      (¬HoldsClosing .exact family.markerTag back →
        expandMarkers (front ++ ((doubled family.markerTag raw).source ++ back)) =
          front ++ ('[' :: (family.markerTag ++ (raw ++ [']'])) ++ expandMarkers back)) ∧
      (¬HoldsClosing .ignoring family.markerTag back →
        Marker.readings (front ++ ((doubled family.markerTag raw).source ++ back)) = Marker.readings back) := by
  refine ⟨?_, ?_, fun free => ?_, fun free => ?_, fun free => ?_⟩
  · exact reportsDoubled_iff isName_of_mem_mapTags (by cases family <;> decide) plain enclosable
  · exact reportsDoubled_iff isName_of_mem_markerTags (by cases family <;> decide) plain enclosable
  · exact mapLiteral names catalog freshIds plain enclosable free
  · exact expandMarkers_doubled plain enclosable free
  · exact readings_doubled plain enclosable free

/-- The plainest case: no bracket stands behind. -/
theorem reportsDoubled_alone :
    '[' ∉ "See ".toList ∧ Enclosable " zoom=3".toList ∧
      ReportsDoubled .exact mapTags "See ".toList TagFamily.plain.mapTag " zoom=3".toList " here".toList ∧
      MapLiteral Html.namedReferences Catalog.builtin (fun _ => []) "See ".toList TagFamily.plain.mapTag
        " zoom=3".toList " here".toList := by
  have plain : '[' ∉ "See ".toList := by decide
  have blank : Unicode.isBlank ' ' = true := by decide
  have enclosable : Enclosable " zoom=3".toList :=
    ⟨fun c first => (Option.some.inj first : ' ' = c) ▸ blank, by decide, by decide⟩
  have free : ¬HoldsClosing .exact TagFamily.plain.mapTag " here".toList :=
    (splitAtClosing?_eq_none_iff (by decide)).mp (by decide)
  have literal := reportsDoubled_documents Html.namedReferences Catalog.builtin (fun _ => []) .exact .plain plain
    enclosable " here".toList
  exact ⟨plain, enclosable, literal.1.mpr free, literal.2.2.1 free⟩

/-- A map in double brackets, and behind it a closing tag. -/
def closedBehind : Text := "[[sbs_openstreetmap]] [/sbs_openstreetmap]".toList

/-- The closing bracket of the first is taken for content. -/
theorem not_reportsDoubled_closedBehind :
    ¬∀ front raw back, '[' ∉ front → Enclosable raw →
      ReportsDoubled .exact mapTags front TagFamily.plain.mapTag raw back := by
  intro reports
  have empty : Enclosable [] := ⟨by simp, by simp, by simp⟩
  obtain ⟨hit, first, escaped, -⟩ := reports [] [] " [/sbs_openstreetmap]".toList (by simp) empty
  have found : (Segmentation.ofText .exact mapTags closedBehind).located.head? =
      some (0, ⟨⟨true, false⟩, TagFamily.plain.mapTag, [], .enclosing "] ".toList TagFamily.plain.mapTag⟩) := by
    decide
  have same := first.symm.trans found
  rw [Option.some.injEq] at same
  simp [same, Occurrence.escaped, Brackets.escaped] at escaped

end MapEmbed.Page
