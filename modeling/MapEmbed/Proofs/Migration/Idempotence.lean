import MapEmbed.Proofs.Migration.Structure
import MapEmbed.Proofs.Migration.Current

/-!
# Migrating twice

A second migration finds every rewritten map current. What it can still find is an escaped map that is not escaped
any longer: one that was unclosed, had the closing bracket of its escape right behind its tag, and now ends at the
closing tag of a map behind it, where no second bracket stands. `exposes` looks for such a map, and migration is
idempotent on exactly the documents that have none.
-/

namespace MapEmbed.Migration
open Shortcode Segmentation

/-- The first map of the given tag that is rewritten, and the maps behind it. -/
def firstRewritten? (catalog : Catalog) (tag : Text) : List Occurrence → Option (Occurrence × List Occurrence)
  | [] => none
  | o :: rest =>
    if (migrateOccurrence? catalog o).isSome ∧ o.tag = tag then some (o, rest)
    else firstRewritten? catalog tag rest

/-- There are fewer maps behind the first one that is rewritten. -/
theorem length_firstRewritten? {catalog : Catalog} {tag : Text} {maps left : List Occurrence} {closer : Occurrence}
    (found : firstRewritten? catalog tag maps = some (closer, left)) : left.length < maps.length := by
  induction maps with
  | nil => simp [firstRewritten?] at found
  | cons o rest inductionHypothesis =>
    simp only [firstRewritten?] at found
    split at found
    · simp only [Option.some.injEq, Prod.mk.injEq] at found
      simp [found.2]
    · have shorter := inductionHypothesis found
      simp only [List.length_cons]
      omega

/-- A map without the brackets around it. -/
def bare (o : Occurrence) : Occurrence :=
  { o with brackets := Brackets.none }

/-- Whether migration takes the escape off a map that has old attributes. An unclosed map that stays ends at the
first closing tag that its name gets behind it. It is exposed if it was escaped and no bracket follows there; the maps
in between are gone, and the search goes on after them. -/
def exposes (catalog : Catalog) : List Occurrence → Bool
  | [] => false
  | o :: rest =>
    if o.body = .unclosed ∧ migrateOccurrence? catalog o = none then
      match _found : firstRewritten? catalog o.tag rest with
      | some (closer, left) =>
        (o.escaped && !closer.brackets.after && (migrateOccurrence? catalog (bare o)).isSome) || exposes catalog left
      | none => exposes catalog rest
    else
      exposes catalog rest
termination_by maps => maps.length
decreasing_by
  · have shorter := length_firstRewritten? _found
    simp only [List.length_cons]
    omega
  · simp
  · simp

/-- A capture ends at the first map of the name that is rewritten. -/
theorem firstRewritten?_eq (catalog : Catalog) (tag : Text) (pieces : List (Text × Occurrence)) :
    (firstRewritten? catalog tag (pieces.map Prod.snd)).map (fun found => (found.1.brackets.after, found.2)) =
      (capture? catalog tag pieces).map fun c => (c.after, c.rest.map Prod.snd) := by
  induction pieces with
  | nil => rfl
  | cons piece rest inductionHypothesis =>
    obtain ⟨gap, o⟩ := piece
    have same : (migrateOccurrence? catalog o).isSome = (moved? catalog o).isSome := by
      rw [migrateOccurrence?_eq, Option.isSome_map]
    simp only [List.map_cons, firstRewritten?, capture?, same]
    split
    · rfl
    · rw [inductionHypothesis, Option.map_map]
      rfl

/-- Whether the passes do something to a map depends on its brackets only by the escape. -/
theorem moved?_bare (catalog : Catalog) (o : Occurrence) :
    moved? catalog o = if o.escaped then none else moved? catalog (bare o) := by
  have visible : (bare o).escaped = false := rfl
  have raw : (bare o).rawAttributes = o.rawAttributes := rfl
  unfold moved?
  rw [visible, raw]
  cases o.escaped with
  | true => simp
  | false => simp

/-- A map that stays and takes up what it captures is old exactly if it was escaped and is not any longer. -/
theorem moved?_enclose {catalog : Catalog} {o : Occurrence} {c : Capture} (stays : moved? catalog o = none) :
    (moved? catalog (enclose o c)).isSome = (o.escaped && !c.after && (moved? catalog (bare o)).isSome) := by
  have same : moved? catalog (bare (enclose o c)) = moved? catalog (bare o) := rfl
  have escaped : (enclose o c).escaped = (o.brackets.before && c.after) := rfl
  rw [moved?_bare, same, escaped]
  rw [moved?_bare] at stays
  cases hidden : o.escaped with
  | true =>
    have before : o.brackets.before = true := by
      simp only [Occurrence.escaped, Brackets.escaped, Bool.and_eq_true] at hidden
      exact hidden.1
    cases c.after with
    | true => simp [before]
    | false => simp [before]
  | false =>
    rw [hidden] at stays
    simp only [Bool.false_eq_true, if_false] at stays
    simp [stays]

/-- The pieces of the migrated text hold an old map exactly if one was exposed: those that were rewritten are current
now, and those that stay are not old. -/
theorem exposes_iff {pieces : List (Text × Occurrence)} {tail : Text} (cuts : Cuts .exact mapTags pieces tail) :
    exposes Catalog.builtin (pieces.map Prod.snd) = true ↔
      ∃ piece ∈ regroup Catalog.builtin pieces, (moved? Catalog.builtin piece.2).isSome = true := by
  fun_induction regroup Catalog.builtin pieces with
  | case1 => simp [exposes]
  | case2 gap o rest stays c found inductionHypothesis =>
    obtain ⟨-, -, later⟩ := cuts
    have kept := migrateOccurrence?_eq_none_iff.mpr stays.2
    have first := firstRewritten?_eq Catalog.builtin o.tag rest
    rw [found, Option.map_some] at first
    obtain ⟨⟨closer, left⟩, closes, parts⟩ := Option.map_eq_some_iff.mp first
    simp only [Prod.mk.injEq] at parts
    obtain ⟨after, behind⟩ := parts
    have old : (migrateOccurrence? Catalog.builtin (bare o)).isSome = (moved? Catalog.builtin (bare o)).isSome := by
      rw [migrateOccurrence?_eq, Option.isSome_map]
    have head : exposes Catalog.builtin (List.map Prod.snd ((gap, o) :: rest)) =
        ((moved? Catalog.builtin (enclose o c)).isSome || exposes Catalog.builtin (c.rest.map Prod.snd)) := by
      rw [List.map_cons, exposes, if_pos ⟨stays.1, kept⟩, moved?_enclose stays.2, ← after, ← behind, old]
      split
      · rename_i other others again
        rw [closes] at again
        simp only [Option.some.injEq, Prod.mk.injEq] at again
        rw [again.1, again.2]
      · rename_i missed
        rw [closes] at missed
        exact absurd missed (by simp)
    rw [head, Bool.or_eq_true, inductionHypothesis (cuts_capture? found later).1]
    simp
  | case3 gap o rest stays missed inductionHypothesis =>
    obtain ⟨-, -, later⟩ := cuts
    have kept := migrateOccurrence?_eq_none_iff.mpr stays.2
    have first := firstRewritten?_eq Catalog.builtin o.tag rest
    rw [missed, Option.map_none, Option.map_eq_none_iff] at first
    have head : exposes Catalog.builtin (List.map Prod.snd ((gap, o) :: rest)) =
        exposes Catalog.builtin (rest.map Prod.snd) := by
      rw [List.map_cons, exposes, if_pos ⟨stays.1, kept⟩]
      split
      · rename_i other others again
        rw [first] at again
        exact absurd again (by simp)
      · rfl
    rw [head, inductionHypothesis later]
    simp [stays.2]
  | case4 gap o rest changes inductionHypothesis =>
    obtain ⟨-, stands, later⟩ := cuts
    have head : exposes Catalog.builtin (List.map Prod.snd ((gap, o) :: rest)) =
        exposes Catalog.builtin (rest.map Prod.snd) := by
      rw [List.map_cons, exposes, if_neg]
      intro both
      exact changes ⟨both.1, migrateOccurrence?_eq_none_iff.mp both.2⟩
    have current : moved? Catalog.builtin (currentOccurrence Catalog.builtin o) = none := by
      unfold currentOccurrence
      cases result : moved? Catalog.builtin o with
      | none => exact result
      | some moved => exact moved?_rewritten stands result
    rw [head, inductionHypothesis later]
    simp [current]

/-- Pieces that regrouping keeps hold nothing old: what is rewritten is not what it was. -/
theorem moved?_of_regroup_eq {pieces : List (Text × Occurrence)} {tail : Text}
    (cuts : Cuts .exact mapTags pieces tail) (same : regroup Catalog.builtin pieces = pieces) :
    ∀ piece ∈ pieces, moved? Catalog.builtin piece.2 = none := by
  have separate : ClosesNothing Catalog.builtin (pieces.map Prod.snd) := by
    apply length_regroup_iff.mp
    rw [same]
  rw [regroup_of_closesNothing separate] at same
  clear separate
  induction pieces with
  | nil => simp
  | cons piece rest inductionHypothesis =>
    obtain ⟨gap, o⟩ := piece
    obtain ⟨-, stands, later⟩ := cuts
    simp only [currentPieces, List.map_cons, List.cons.injEq, Prod.mk.injEq, true_and] at same
    intro piece member
    rcases List.mem_cons.mp member with rfl | inside
    · cases result : moved? Catalog.builtin o with
      | none => rfl
      | some moved =>
        have unchanged : rewritten o moved = o := by
          have current := same.1
          rw [currentOccurrence, result] at current
          exact current
        have again := moved?_rewritten stands result
        rw [unchanged, result] at again
        exact absurd again (by simp)
    · exact inductionHypothesis later same.2 piece inside

/-- Migration is idempotent on exactly the documents in which it exposes no map. -/
theorem migrate_migrate_iff (document : Text) :
    migrate Catalog.builtin (migrate Catalog.builtin document) = migrate Catalog.builtin document ↔
      exposes Catalog.builtin (ofText .exact mapTags document).occurrences = false := by
  have cuts : Cuts .exact mapTags (ofText .exact mapTags document).pieces (ofText .exact mapTags document).tail :=
    cuts_scan isName_of_mem_mapTags 0 document
  have again := @cuts_regroup Catalog.builtin _ _ cuts
  have once := ofText_migrate Catalog.builtin document
  have twice := ofText_migrate Catalog.builtin (migrate Catalog.builtin document)
  have text := migrate_eq_textOf Catalog.builtin (migrate Catalog.builtin document)
  have before : textOf (regroup Catalog.builtin (ofText .exact mapTags document).pieces)
      (ofText .exact mapTags document).tail = migrate Catalog.builtin document := by
    rw [textOf_regroup, migrate_eq_textOf]
  rw [once] at twice text
  simp only at twice text
  rw [Bool.eq_false_iff, ne_eq, occurrences, exposes_iff cuts]
  constructor
  · rintro same ⟨piece, member, old⟩
    rw [same, once] at twice
    simp only [Segmentation.mk.injEq, and_true] at twice
    have current := moved?_of_regroup_eq again twice.symm piece member
    simp [current] at old
  · intro nothing
    rw [text]
    conv => rhs; rw [← before]
    congr 1
    unfold currentPieces
    rw [List.map_congr_left (g := id) ?_, List.map_id]
    intro piece member
    have current : moved? Catalog.builtin piece.2 = none := by
      cases result : moved? Catalog.builtin piece.2 with
      | none => rfl
      | some moved => exact absurd ⟨piece, member, by simp [result]⟩ nothing
    simp [currentOccurrence, current]

/-- An escaped old map without closing tag, and behind it an old map. -/
def escapedThenOld : Text :=
  "[[sbs_openstreetmap marker_address=\"X\"]] [sbs_openstreetmap marker_address=\"Y\"]".toList

/-- The second migration rewrites the map that was escaped. -/
theorem not_idempotent_escapedThenOld :
    ¬∀ document, migrate Catalog.builtin (migrate Catalog.builtin document) = migrate Catalog.builtin document := by
  intro idempotent
  have same := idempotent escapedThenOld
  revert same
  decide

end MapEmbed.Migration
