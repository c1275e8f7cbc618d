import MapEmbed.Proofs.Attribute.EscapedValue
import MapEmbed.Proofs.Migration.Rewriting
import MapEmbed.Style.Builtin

/-!
# A rewritten map is current

The two passes leave nothing for themselves to do, and writing the attributes and reading them again does not bring
anything back: no key becomes one of a marker, and a style needs a credential after escaping only if escaping did
not change it, since no style of the built-in catalogue has an ampersand in its key.
-/

namespace MapEmbed.Migration
open Shortcode

/-! ### What the passes leave to do -/

/-- A number in print describes no marker. -/
theorem isMarkerKey_of_isPositionalKey {key : Text} (positional : isPositionalKey key = true) :
    isMarkerKey key = false := by
  simp only [isPositionalKey, Bool.and_eq_true, List.all_eq_true] at positional
  apply Bool.eq_false_iff.mpr
  intro marker
  obtain ⟨rest, split⟩ := List.isPrefixOf_iff_prefix.mp marker
  have inside : 'm' ∈ key := split ▸ List.mem_append_left rest (by decide)
  have digit := positional.2 'm' inside
  exact absurd digit (by decide)

/-- There is no marker to take out exactly if no key is one of a marker. -/
theorem splitMarker?_eq_none_iff {attributes : Attributes} :
    splitMarker? attributes = none ↔ ∀ key ∈ attributes.keys, isMarkerKey key = false := by
  simp only [splitMarker?, ite_eq_right_iff, reduceCtorEq, imp_false, Bool.not_eq_true, List.any_eq_false]

/-- The map's part holds no key of a marker. -/
theorem isMarkerKey_mapPart {attributes : Attributes} {entry : Text × Text}
    (member : entry ∈ (mapPart attributes).entries) : isMarkerKey entry.1 = false := by
  have kept {entry : Text × Text} (member : entry ∈ (attributes.filterKeys fun key => !isMarkerKey key).entries) :
      isMarkerKey entry.1 = false := by
    simpa using (List.mem_filter.mp member).2
  unfold mapPart at member
  simp only at member
  split at member
  · rcases Entries.mem_insert member with rfl | old
    · decide
    · exact kept old
  · exact kept member

/-- Moving a credential adds no key of a marker. -/
theorem isMarkerKey_moveCredential {catalog : Catalog} {attributes moved : Attributes}
    (plain : ∀ entry ∈ attributes.entries, isMarkerKey entry.1 = false)
    (result : moveCredential? catalog attributes = some moved) {entry : Text × Text} (member : entry ∈ moved.entries) :
    isMarkerKey entry.1 = false := by
  rcases mem_moveCredential result member with kept | ⟨styled, -⟩
  · exact plain entry kept
  · rw [styled]
    decide

/-- A credential is moved to the style's key, which has none before. -/
theorem styleKey_of_moveCredential {catalog : Catalog} {attributes moved : Attributes}
    (result : moveCredential? catalog attributes = some moved) :
    (MapBlock.nonEmpty? attributes styleKeyKey).isSome = false ∧ (MapBlock.nonEmpty? moved styleKeyKey).isSome = true := by
  simp only [moveCredential?, Option.ite_none_left_eq_some, Option.map_eq_some_iff] at result
  obtain ⟨keyless, ⟨key, value⟩, found, rfl⟩ := result
  obtain ⟨dependency, -, credential⟩ := Option.bind_eq_some_iff.mp found
  obtain ⟨text, nonEmpty, same⟩ := Option.map_eq_some_iff.mp credential
  simp only [Prod.mk.injEq] at same
  obtain ⟨-, rfl⟩ := same
  have written : (!text.isEmpty) = true := (Option.filter_eq_some_iff.mp nonEmpty).2
  have present : MapBlock.nonEmpty? ((attributes.erase key).insert styleKeyKey text) styleKeyKey = some text := by
    rw [MapBlock.nonEmpty?, OrderedMap.get?_insert, if_pos rfl, Option.filter_eq_some_iff]
    exact ⟨rfl, written⟩
  exact ⟨Bool.eq_false_iff.mpr keyless, by rw [present]; rfl⟩

/-- A credential that was moved is not moved again: the style's key has it. -/
theorem moveCredential?_moved {catalog : Catalog} {attributes moved : Attributes}
    (result : moveCredential? catalog attributes = some moved) : moveCredential? catalog moved = none := by
  rw [moveCredential?, if_pos (styleKey_of_moveCredential result).2]

/-- After both passes neither has anything to do. -/
theorem settled_move {catalog : Catalog} {attributes : Attributes} {moved : Moved}
    (result : move? catalog attributes = some moved) :
    (∀ entry ∈ moved.attributes.entries, isMarkerKey entry.1 = false) ∧
      moveCredential? catalog moved.attributes = none := by
  unfold move? at result
  split at result
  · rename_i map marker split
    simp only [Option.some.injEq] at result
    subst result
    simp only [splitMarker?, Option.ite_none_right_eq_some, Option.some.injEq, Prod.mk.injEq] at split
    obtain ⟨-, rfl, -⟩ := split
    cases credential : moveCredential? catalog (mapPart attributes) with
    | none => exact ⟨fun entry member => isMarkerKey_mapPart member, credential⟩
    | some changed =>
      exact ⟨fun entry member => isMarkerKey_moveCredential (fun _ kept => isMarkerKey_mapPart kept) credential member,
        moveCredential?_moved credential⟩
  · rename_i unsplit
    have plain : ∀ entry ∈ attributes.entries, isMarkerKey entry.1 = false := by
      intro entry member
      exact splitMarker?_eq_none_iff.mp unsplit entry.1 (List.mem_map_of_mem member)
    obtain ⟨changed, credential, rfl⟩ := Option.map_eq_some_iff.mp result
    exact ⟨fun entry member => isMarkerKey_moveCredential plain credential member, moveCredential?_moved credential⟩

/-! ### Written and read again -/

/-- No key of a marker comes back. -/
theorem isMarkerKey_reprint {attributes : Attributes} (readable : attributes.Readable)
    (plain : ∀ entry ∈ attributes.entries, isMarkerKey entry.1 = false) :
    splitMarker? (Attributes.parseLenient attributes.toText) = none := by
  apply splitMarker?_eq_none_iff.mpr
  intro key member
  rw [OrderedMap.keys, Attributes.entries_parseLenient_toText readable] at member
  rcases Attributes.mem_renumber member with ⟨-, listed⟩ | ⟨n, -, rfl⟩
  · obtain ⟨entry, inside, rfl⟩ := List.mem_map.mp listed
    exact plain entry inside
  · exact isMarkerKey_of_isPositionalKey (isPositionalKey_ofNat n)

/-- A style that needs a credential has no ampersand in its name. -/
theorem ampersand_not_mem_dependent {style : Text} {dependency : Dependency}
    (needs : Catalog.builtin.dependencyOf (currentStyle style) = some dependency) : '&' ∉ style := by
  have retired : ∀ pair ∈ retiredStyles, '&' ∉ pair.1 := by decide
  have keys : ∀ key ∈ Catalog.builtin.styles.keys, '&' ∉ key := by decide
  cases found : retiredStyles.lookup style with
  | some replacement => exact retired _ (Entries.mem_of_lookup found)
  | none =>
    have current : currentStyle style = style := by rw [currentStyle, found, Option.getD_none]
    rw [current] at needs
    obtain ⟨known, listed, -⟩ := Option.bind_eq_some_iff.mp needs
    exact keys style (List.mem_map_of_mem (f := Prod.fst) (Entries.mem_of_lookup listed))

/-- Escaping makes no style need a credential that did not need it. -/
theorem dependencyOf_escape {style : Text} {dependency : Dependency}
    (needs : Catalog.builtin.dependencyOf (currentStyle (Text.escape style)) = some dependency) :
    Catalog.builtin.dependencyOf (currentStyle style) = some dependency := by
  rwa [← Text.eq_of_escape_eq (ampersand_not_mem_dependent needs) rfl] at needs

/-- No credential comes back. -/
theorem moveCredential?_reprint {attributes : Attributes} (readable : attributes.Readable)
    (settled : moveCredential? Catalog.builtin attributes = none) :
    moveCredential? Catalog.builtin (Attributes.parseLenient attributes.toText) = none := by
  have key : isPositionalKey styleKeyKey = false := by decide
  have style : isPositionalKey "map_style".toList = false := by decide
  have legacy (dependency : Dependency) : isPositionalKey dependency.legacyAttribute = false := by
    cases dependency <;> decide
  unfold moveCredential? at settled ⊢
  rw [readable.escapedFrom.nonEmpty? key, Option.isSome_map]
  split
  · rfl
  · rename_i absent
    rw [if_neg absent, Option.map_eq_none_iff] at settled
    rw [Option.map_eq_none_iff]
    cases again : oldCredential? Catalog.builtin (Attributes.parseLenient attributes.toText) with
    | none => rfl
    | some credential =>
      obtain ⟨dependency, needs, found⟩ := Option.bind_eq_some_iff.mp again
      rw [readable.escapedFrom _ style] at needs
      rw [readable.escapedFrom.nonEmpty? (legacy dependency), Option.map_map, Option.map_eq_some_iff] at found
      obtain ⟨value, old, -⟩ := found
      have needed : Catalog.builtin.dependencyOf
          (currentStyle ((attributes.get? "map_style".toList).getD defaultStyle)) = some dependency := by
        cases styled : attributes.get? "map_style".toList with
        | none =>
          rw [styled] at needs
          exact needs
        | some name =>
          rw [styled] at needs
          exact dependencyOf_escape needs
      rw [oldCredential?, needed, Option.bind_some, old] at settled
      exact absurd settled (by simp)

/-- The attribute text of a rewritten map reads as the attributes that it was printed from, or not at all. -/
theorem parseLenient_rewritten {o : Occurrence} {moved : Moved} {attributes : Attributes}
    (read : Attributes.parse (rewritten o moved).rawAttributes = .ok attributes) :
    attributes = Attributes.parseLenient moved.attributes.toText := by
  obtain ⟨-, rfl, some_⟩ := Attributes.parse_eq_ok_iff.mp read
  cases empty : moved.attributes.isEmpty with
  | true =>
    have nothing : (rewritten o moved).rawAttributes = [] := by simp [rewritten, printed, empty]
    rw [nothing] at some_
    exact absurd some_ (by decide)
  | false =>
    have spaced : (rewritten o moved).rawAttributes = ' ' :: moved.attributes.toText := by
      simp [rewritten, printed, empty]
    rw [spaced, Attributes.parseLenient_space]

/-- A rewritten map is not rewritten again. -/
theorem moved?_rewritten {o : Occurrence} {moved : Moved} {rest : Text} (stands : o.Stands .exact mapTags rest)
    (result : moved? Catalog.builtin o = some moved) : moved? Catalog.builtin (rewritten o moved) = none := by
  cases again : moved? Catalog.builtin (rewritten o moved) with
  | none => rfl
  | some twice =>
    obtain ⟨-, -, -, moves⟩ := moved?_eq_some result
    obtain ⟨-, -, read, movesAgain⟩ := moved?_eq_some again
    obtain ⟨plain, settled⟩ := settled_move moves
    have readable := (printable_moved stands result).readable
    rw [parseLenient_rewritten read] at movesAgain
    simp only [move?, isMarkerKey_reprint readable plain, moveCredential?_reprint readable settled, Option.map_none,
      reduceCtorEq] at movesAgain

end MapEmbed.Migration
