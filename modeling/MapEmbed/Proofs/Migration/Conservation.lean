import MapEmbed.Proofs.Migration.Current

/-!
# What the passes conserve

The two passes lose none of a map's attributes and double none. The marker gets its entries in their order. On the map
only two keys are written: that of the marker it is centred on, and that of its style's credential. All other entries
stay as they were and in their order, but for the one credential that was copied. Which one that is, is said without
regard to the passes: a style has at most one kind of credential.
-/

namespace MapEmbed.Migration

/-- What the passes leave of a map's attributes, whether they change these or not. -/
def afterPasses (catalog : Catalog) (attributes : Attributes) : Moved :=
  (move? catalog attributes).getD ⟨attributes, none⟩

/-- The style that a map's credential is for. -/
def styleOf (attributes : Attributes) : Text :=
  currentStyle ((attributes.get? "map_style".toList).getD defaultStyle)

/-- A map has a credential under an old name that its style needs, and none under the style's key. -/
structure Copies (catalog : Catalog) (attributes : Attributes) (kind : Dependency) (value : Text) : Prop where
  keyless : ∀ key, attributes.get? styleKeyKey = some key → key = []
  needed : catalog.dependencyOf (styleOf attributes) = some kind
  present : attributes.get? kind.legacyAttribute = some value
  filled : value ≠ []

/-- The two keys that the passes write to a map. -/
def isWrittenKey (key : Text) : Bool :=
  key == centerMarkerKey || key == styleKeyKey

/-- What the passes leave has everything that was there, given the credential that is copied. -/
structure Conserves (catalog : Catalog) (attributes : Attributes) (copied : Option (Dependency × Text)) (after : Moved) :
    Prop where
  /-- A marker is taken out exactly if there is a key of one. -/
  marker : after.marker = none ↔ ∀ key ∈ attributes.keys, isMarkerKey key = false
  /-- The marker has the map's entries of a marker, in their order, but not that the map is centred elsewhere. -/
  taken : ∀ marker, after.marker = some marker → marker.entries = attributes.entries.filter fun entry =>
    isMarkerKey entry.1 && !(entry.1 == markerCenterKey && !Coercion.truth entry.2)
  /-- Besides the keys that are written the map has all other entries but the credential, in their order. -/
  others : after.attributes.filterKeys (!isWrittenKey ·) = attributes.filterKeys fun key =>
    !isWrittenKey key && !isMarkerKey key && !copied.any fun credential => key == credential.1.legacyAttribute
  /-- A map that was centred elsewhere is centred on no marker. -/
  center : after.attributes.get? centerMarkerKey =
    if (attributes.get? markerCenterKey).any (!Coercion.truth ·) then some ['0'] else attributes.get? centerMarkerKey
  /-- The credential is the style's. -/
  style : after.attributes.get? styleKeyKey = (copied.map Prod.snd).or (attributes.get? styleKeyKey)
  /-- The passes do nothing more. -/
  settled : move? catalog after.attributes = none

section
variable {catalog : Catalog} {attributes : Attributes} {key : Text}

/-! ### The marker -/

/-- A map is centred elsewhere if it has the key and a value for no. -/
theorem centersElsewhere_eq (attributes : Attributes) :
    centersElsewhere attributes = (attributes.get? markerCenterKey).any (!Coercion.truth ·) := by
  rw [centersElsewhere]
  cases attributes.get? markerCenterKey <;> rfl

/-- The marker's part, entry by entry. -/
theorem entries_markerPart (attributes : Attributes) :
    (markerPart attributes).entries = attributes.entries.filter fun entry =>
      isMarkerKey entry.1 && !(entry.1 == markerCenterKey && !Coercion.truth entry.2) := by
  refine List.filter_congr fun entry member => ?_
  have found : attributes.get? entry.1 = some entry.2 := Entries.lookup_of_mem attributes.nodup member
  by_cases center : entry.1 = markerCenterKey
  · rw [center] at found ⊢
    simp [centersElsewhere, found]
  · simp only [beq_eq_false_iff_ne.mpr center, Bool.and_false, Bool.false_and, Bool.not_false, Bool.and_true]

/-- A map without a marker is its own part. -/
theorem mapPart_of_unmarked (unmarked : ∀ key ∈ attributes.keys, isMarkerKey key = false) :
    mapPart attributes = attributes := by
  have absent : attributes.get? markerCenterKey = none := by
    refine Option.eq_none_iff_forall_not_mem.mpr fun value found => ?_
    have listed := unmarked markerCenterKey (List.mem_map_of_mem (f := Prod.fst) (Entries.mem_of_lookup found))
    exact absurd listed (by decide)
  have here : centersElsewhere attributes = false := by rw [centersElsewhere, absent]; rfl
  have kept : attributes.filterKeys (fun key => !isMarkerKey key) = attributes :=
    OrderedMap.filterKeys_eq_self fun key member => by rw [unmarked key member]; rfl
  rw [mapPart, here]
  exact kept

/-- The value of a key on the map, after the marker is taken out. -/
theorem get?_mapPart (plain : isMarkerKey key = false) : (mapPart attributes).get? key =
    if key = centerMarkerKey ∧ centersElsewhere attributes = true then some ['0'] else attributes.get? key := by
  rw [mapPart]
  cases elsewhere : centersElsewhere attributes with
  | false => simp [OrderedMap.get?_filterKeys, plain]
  | true => simp [OrderedMap.get?_insert, OrderedMap.get?_filterKeys, plain]

/-- What the map has under other keys, after the marker is taken out. -/
theorem filterKeys_mapPart {keep : Text → Bool} (other : keep centerMarkerKey = false) :
    (mapPart attributes).filterKeys keep = attributes.filterKeys fun key => keep key && !isMarkerKey key := by
  rw [mapPart]
  split
  · rw [OrderedMap.filterKeys_insert, other, if_neg Bool.false_ne_true, OrderedMap.filterKeys_filterKeys]
  · rw [OrderedMap.filterKeys_filterKeys]

/-! ### The credential -/

/-- The credential that is copied, with its kind. -/
def copied? (catalog : Catalog) (attributes : Attributes) : Option (Dependency × Text) :=
  if (MapBlock.nonEmpty? attributes styleKeyKey).isSome then none
  else (catalog.dependencyOf (styleOf attributes)).bind fun kind =>
    (MapBlock.nonEmpty? attributes kind.legacyAttribute).map fun value => (kind, value)

/-- The credential is copied whose kind the style needs. -/
theorem copied?_eq_some_iff {kind : Dependency} {value : Text} :
    copied? catalog attributes = some (kind, value) ↔ Copies catalog attributes kind value := by
  have keyless : ¬(MapBlock.nonEmpty? attributes styleKeyKey).isSome = true ↔
      ∀ key, attributes.get? styleKeyKey = some key → key = [] := by
    rw [MapBlock.nonEmpty?]
    cases attributes.get? styleKeyKey <;> simp
  have present (kind : Dependency) (value : Text) : MapBlock.nonEmpty? attributes kind.legacyAttribute = some value ↔
      attributes.get? kind.legacyAttribute = some value ∧ value ≠ [] := by
    rw [MapBlock.nonEmpty?, Option.filter_eq_some_iff]
    simp
  simp only [copied?, Option.ite_none_left_eq_some, keyless, Option.bind_eq_some_iff, Option.map_eq_some_iff,
    Prod.mk.injEq]
  constructor
  · rintro ⟨keyless, kind, needed, value, found, rfl, rfl⟩
    obtain ⟨present, filled⟩ := (present kind value).mp found
    exact ⟨keyless, needed, present, filled⟩
  · rintro ⟨keyless, needed, here, filled⟩
    exact ⟨keyless, kind, needed, value, (present kind value).mpr ⟨here, filled⟩, rfl, rfl⟩

/-- Moving a credential takes its entry out and writes the style's key. -/
theorem moveCredential?_eq (catalog : Catalog) (attributes : Attributes) :
    moveCredential? catalog attributes = (copied? catalog attributes).map fun (kind, value) =>
      (attributes.erase kind.legacyAttribute).insert styleKeyKey value := by
  rw [moveCredential?, copied?, oldCredential?, styleOf]
  split
  · rfl
  · simp only [Option.map_bind, Function.comp_def, Option.map_map]

/-- Taking the marker out does not change which credential is copied. -/
theorem copied?_mapPart (catalog : Catalog) (attributes : Attributes) :
    copied? catalog (mapPart attributes) = copied? catalog attributes := by
  have same {key : Text} (plain : isMarkerKey key = false) (other : key ≠ centerMarkerKey) :
      (mapPart attributes).get? key = attributes.get? key := by
    rw [get?_mapPart plain, if_neg fun center => other center.1]
  have legacy (kind : Dependency) : (mapPart attributes).get? kind.legacyAttribute =
      attributes.get? kind.legacyAttribute := by
    cases kind <;> exact same (by decide) (by decide)
  have style := @same styleKeyKey (by decide) (by decide)
  have named := @same "map_style".toList (by decide) (by decide)
  unfold copied? MapBlock.nonEmpty? styleOf
  rw [style, named]
  simp only [legacy]

/-! ### Both passes -/

/-- Both passes, one after the other. -/
theorem afterPasses_eq (catalog : Catalog) (attributes : Attributes) : afterPasses catalog attributes =
    ⟨(moveCredential? catalog (mapPart attributes)).getD (mapPart attributes),
      if attributes.keys.any isMarkerKey then some (markerPart attributes) else none⟩ := by
  rw [afterPasses, move?, splitMarker?]
  cases marked : attributes.keys.any isMarkerKey with
  | true => rfl
  | false =>
    rw [mapPart_of_unmarked fun key member => by simpa using List.any_eq_false.mp marked key member]
    cases moveCredential? catalog attributes <;> rfl

/-- The map has what the first pass left, and the credential under the style's key if there is one to copy. -/
theorem attributes_afterPasses (catalog : Catalog) (attributes : Attributes) :
    (afterPasses catalog attributes).attributes = match copied? catalog attributes with
      | none => mapPart attributes
      | some (kind, value) => ((mapPart attributes).erase kind.legacyAttribute).insert styleKeyKey value := by
  rw [afterPasses_eq, moveCredential?_eq, copied?_mapPart]
  cases copied? catalog attributes <;> rfl

/-- Of the other entries only the credential's is taken out. -/
theorem others_afterPasses (catalog : Catalog) (attributes : Attributes) :
    (afterPasses catalog attributes).attributes.filterKeys (!isWrittenKey ·) = attributes.filterKeys fun key =>
      !isWrittenKey key && !isMarkerKey key &&
        !(copied? catalog attributes).any fun credential => key == credential.1.legacyAttribute := by
  have center : (!isWrittenKey centerMarkerKey) = false := by decide
  have style : (!isWrittenKey styleKeyKey) = false := by decide
  rw [attributes_afterPasses]
  cases copied? catalog attributes with
  | none => simpa using @filterKeys_mapPart attributes (!isWrittenKey ·) center
  | some credential =>
    dsimp only
    rw [OrderedMap.filterKeys_insert, style, if_neg Bool.false_ne_true, OrderedMap.erase,
      OrderedMap.filterKeys_filterKeys, filterKeys_mapPart (by rw [center, Bool.false_and])]
    refine congrArg attributes.filterKeys (funext fun key => ?_)
    rw [Option.any_some, Bool.and_right_comm]
    rfl

/-- The second pass does not touch the key of the marker that a map is centred on. -/
theorem center_afterPasses (catalog : Catalog) (attributes : Attributes) :
    (afterPasses catalog attributes).attributes.get? centerMarkerKey =
      if (attributes.get? markerCenterKey).any (!Coercion.truth ·) then some ['0']
      else attributes.get? centerMarkerKey := by
  have first : (mapPart attributes).get? centerMarkerKey = if (attributes.get? markerCenterKey).any (!Coercion.truth ·)
      then some ['0'] else attributes.get? centerMarkerKey := by
    rw [get?_mapPart (by decide), centersElsewhere_eq]
    simp
  rw [attributes_afterPasses]
  cases copied? catalog attributes with
  | none => exact first
  | some credential =>
    obtain ⟨kind, value⟩ := credential
    have style : centerMarkerKey ≠ styleKeyKey := by decide
    have legacy : centerMarkerKey ≠ kind.legacyAttribute := by cases kind <;> decide
    dsimp only
    rw [OrderedMap.get?_insert, if_neg style, OrderedMap.get?_erase, if_neg legacy]
    exact first

/-- The style's key has the credential that was copied, or what it had before. -/
theorem style_afterPasses (catalog : Catalog) (attributes : Attributes) :
    (afterPasses catalog attributes).attributes.get? styleKeyKey =
      ((copied? catalog attributes).map Prod.snd).or (attributes.get? styleKeyKey) := by
  rw [attributes_afterPasses]
  cases copied? catalog attributes with
  | none =>
    have other : ¬(styleKeyKey = centerMarkerKey ∧ centersElsewhere attributes = true) :=
      fun same => absurd same.1 (by decide)
    dsimp only
    rw [get?_mapPart (by decide), if_neg other]
    rfl
  | some credential =>
    dsimp only
    rw [OrderedMap.get?_insert, if_pos rfl]
    rfl

/-- The passes find nothing to do after they ran. -/
theorem move?_afterPasses (catalog : Catalog) (attributes : Attributes) :
    move? catalog (afterPasses catalog attributes).attributes = none := by
  rw [afterPasses]
  cases moves : move? catalog attributes with
  | none => exact moves
  | some moved =>
    obtain ⟨plain, keyed⟩ := settled_move moves
    have unmarked : splitMarker? moved.attributes = none := splitMarker?_eq_none_iff.mpr fun key member => by
      obtain ⟨entry, listed, rfl⟩ := List.mem_map.mp member
      exact plain entry listed
    rw [Option.getD_some, move?, unmarked, keyed]
    rfl

/-- The passes conserve the attributes of every map: what they take out they put in its new place, and the rest they
leave. -/
theorem conserves_afterPasses (catalog : Catalog) (attributes : Attributes) :
    ∃ copied, (∀ kind value, copied = some (kind, value) ↔ Copies catalog attributes kind value) ∧
      Conserves catalog attributes copied (afterPasses catalog attributes) := by
  refine ⟨copied? catalog attributes, fun kind value => copied?_eq_some_iff, ?_, fun marker taken => ?_,
    others_afterPasses catalog attributes, center_afterPasses catalog attributes, style_afterPasses catalog attributes,
    move?_afterPasses catalog attributes⟩
  · rw [afterPasses_eq]
    simp
  · rw [afterPasses_eq] at taken
    rw [← Option.some.inj (Option.ite_none_right_eq_some.mp taken).2]
    exact entries_markerPart attributes

end
end MapEmbed.Migration
