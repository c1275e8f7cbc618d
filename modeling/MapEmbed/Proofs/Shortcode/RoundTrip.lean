import MapEmbed.Proofs.Shortcode.Enclosing
import MapEmbed.Proofs.Shortcode.Grammar

/-!
# Printed shortcodes found again

A shortcode that is put together from attributes and a content is all that a search for its name finds in it. The
search stops where the writer did: the values of the attributes may hold brackets that open, slashes, quotes and names
of tags, but none of them ends the opening tag, and the content ends at the closing tag that was written, since none
stands in it.
-/

namespace MapEmbed.Shortcode
open Text

/-- In the exact mode a closing tag is a fixed text. -/
theorem holdsClosing_exact {tag text : Text} :
    HoldsClosing .exact tag text ↔ '[' :: '/' :: (tag ++ [']']) <:+: text := by
  constructor
  · rintro ⟨written, same, inside⟩
    rwa [(same_exact tag written).mp same] at inside
  · exact fun inside => ⟨tag, (same_exact tag tag).mpr rfl, inside⟩

/-- The one occurrence that is found in a printed shortcode. -/
structure FoundAs (name : Text) (attributes : Attributes) (content : Text) (brackets : Brackets) (o : Occurrence) :
    Prop where
  /-- Nothing else is found, and it starts at the first byte. -/
  located : (Segmentation.ofText .exact [name] (print name attributes content brackets)).located = [(0, o)]
  /-- The search by positions reports it and no other. -/
  reported : Positions.reportsFrom? .exact [name] (print name attributes content brackets) 0 =
    some [Positions.report 0 o]
  /-- It takes up the whole text. -/
  span : o.span 0 = ⟨0, (print name attributes content brackets).byteSize⟩
  tag : o.tag = name
  brackets : o.brackets = brackets
  /-- It does not close itself, and it has the content that was written. -/
  body : o.body = .enclosing content name
  /-- Its attribute text is read as the attributes, with their values escaped and their numbers counted anew. -/
  attributes : (Attributes.parseLenient o.rawAttributes).entries = Attributes.renumber 0 attributes.entries

/-- The attribute text of a printed shortcode is read as the attributes in print. -/
theorem parseLenient_printed (name : Text) (attributes : Attributes) (content : Text) (brackets : Brackets) :
    Attributes.parseLenient (printed name attributes content brackets).rawAttributes =
      Attributes.parseLenient attributes.toText := by
  unfold printed
  cases empty : attributes.isEmpty with
  | false => exact Attributes.parseLenient_space attributes.toText
  | true =>
    have none_ : attributes.entries = [] := by simpa [OrderedMap.isEmpty] using empty
    simp [Attributes.toText, none_]

/-- A printed shortcode is found as the occurrence that it is, if nothing closes in its content. -/
theorem Printable.foundAs {name content : Text} {attributes : Attributes} (printable : Printable name attributes)
    (free : ¬HoldsClosing .exact name content) (brackets : Brackets) :
    FoundAs name attributes content brackets (printed name attributes content brackets) := by
  have named : ∀ tag ∈ [name], IsName tag := List.forall_mem_singleton.mpr printable.named
  have stands : (printed name attributes content brackets).Stands .exact [name] [] :=
    printable.stands ⟨name, List.mem_singleton_self name, same_self .exact name⟩
      ((splitAtClosing?_eq_none_iff printable.named).mpr free) (by simp)
  have located : (Segmentation.ofText .exact [name] (print name attributes content brackets)).located =
      [(0, printed name attributes content brackets)] := by
    rw [← source_printed, ofText_source named stands]
    rfl
  refine ⟨located, ?_, ?_, rfl, rfl, rfl, ?_⟩
  · have reports : Positions.reportsFrom? .exact [name] (print name attributes content brackets) 0 =
        some ((Segmentation.ofText .exact [name] (print name attributes content brackets)).located.map fun hit =>
          Positions.report hit.1 hit.2) := Positions.reportsFrom?_eq [name] [] _
    rw [reports, located]
    rfl
  · rw [Occurrence.span, source_printed, Nat.zero_add]
  · rw [parseLenient_printed, Attributes.entries_parseLenient_toText printable.readable]

/-- Every shortcode of a map or a marker that is written with attributes that were read is found again: the search for
its name finds it as one occurrence that fills the text. -/
theorem exists_foundAs {name raw content : Text} {attributes : Attributes} (listed : name ∈ mapTags ++ markerTags)
    (closed : ']' ∉ raw) (read : Attributes.parse raw = .ok attributes ∨ Attributes.parseLenient raw = attributes)
    (brackets : Brackets) (free : ¬('[' :: '/' :: (name ++ [']']) <:+: content)) :
    ∃ o, FoundAs name attributes content brackets o := by
  have named : IsName name := by
    cases List.mem_append.mp listed with
    | inl map => exact isName_of_mem_mapTags name map
    | inr marker => exact isName_of_mem_markerTags name marker
  have source : Attributes.parseLenient raw = attributes := by
    cases read with
    | inl strict => exact (Attributes.parse_eq_ok_iff.mp strict).2.1
    | inr lenient => exact lenient
  have printable : Printable name attributes := source ▸ printable_parseLenient named closed
  exact ⟨_, printable.foundAs (fun holds => free (holdsClosing_exact.mp holds)) brackets⟩

/-- A marker after an extra bracket, with the start of a closing tag in a value and in its content. -/
theorem foundAs_halfClosed :
    TagFamily.plain.markerTag ∈ mapTags ++ markerTags ∧ ']' ∉ "5='[/sbs_marker' a&b".toList ∧
      ¬('[' :: '/' :: (TagFamily.plain.markerTag ++ [']']) <:+: "[/sbs_marker".toList) ∧
      ∃ o, FoundAs TagFamily.plain.markerTag (Attributes.parseLenient "5='[/sbs_marker' a&b".toList)
          "[/sbs_marker".toList ⟨true, false⟩ o ∧
        (Attributes.parseLenient o.rawAttributes).entries =
          [("0".toList, "[/sbs_marker".toList), ("1".toList, "a&amp;b".toList)] := by
  have named : IsName TagFamily.plain.markerTag := by decide
  have listed : TagFamily.plain.markerTag ∈ mapTags ++ markerTags := by decide
  have closed : ']' ∉ "5='[/sbs_marker' a&b".toList := by decide
  have free : ¬('[' :: '/' :: (TagFamily.plain.markerTag ++ [']']) <:+: "[/sbs_marker".toList) := fun inside =>
    (splitAtClosing?_eq_none_iff named).mp (by decide) (holdsClosing_exact.mpr inside)
  obtain ⟨o, found⟩ := exists_foundAs listed closed (Or.inr rfl) ⟨true, false⟩ free
  refine ⟨listed, closed, free, o, found, ?_⟩
  rw [found.attributes]
  decide

end MapEmbed.Shortcode
