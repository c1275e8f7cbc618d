import MapEmbed.Proofs.Migration.Regrouping
import MapEmbed.Style.Builtin

/-!
# What migration does to the structure of a document

Migration means to change each map on its own. It does so exactly in the documents where no unclosed map that stays
is followed by a map of its tag that is rewritten; in every other document a map disappears into the one before it.
-/

namespace MapEmbed.Migration
open Shortcode Segmentation

/-- The maps of a migrated document correspond to those of the old one: there are as many, each has the tag and the
brackets that it had, and what was not rewritten has the same source. -/
structure PreservesStructure (catalog : Catalog) (old new : List Occurrence) : Prop where
  sameLength : new.length = old.length
  sameTag : ∀ i (before : i < old.length) (after : i < new.length), new[i].tag = old[i].tag
  sameBrackets : ∀ i (before : i < old.length) (after : i < new.length), new[i].brackets = old[i].brackets
  sameSource : ∀ i (before : i < old.length) (after : i < new.length),
    migrateOccurrence? catalog old[i] = none → new[i].source = old[i].source

/-- No map that stays unclosed has a map of its tag behind it that is rewritten. -/
def ClosesNothing (catalog : Catalog) (maps : List Occurrence) : Prop :=
  maps.Pairwise fun o later =>
    o.body = .unclosed → migrateOccurrence? catalog o = none → later.tag = o.tag →
      migrateOccurrence? catalog later = none

/-- A map stays exactly if the passes do nothing to it. -/
theorem migrateOccurrence?_eq_none_iff {catalog : Catalog} {o : Occurrence} :
    migrateOccurrence? catalog o = none ↔ moved? catalog o = none := by
  rw [migrateOccurrence?_eq, Option.map_eq_none_iff]

/-- Nothing is captured exactly if no map of the name is rewritten. -/
theorem capture?_eq_none_iff {catalog : Catalog} {tag : Text} {pieces : List (Text × Occurrence)} :
    capture? catalog tag pieces = none ↔
      ∀ later ∈ pieces.map Prod.snd, later.tag = tag → migrateOccurrence? catalog later = none := by
  induction pieces with
  | nil => simp [capture?]
  | cons piece rest inductionHypothesis =>
    obtain ⟨gap, o⟩ := piece
    simp only [capture?, List.map_cons, List.mem_cons, forall_eq_or_imp, migrateOccurrence?_eq_none_iff]
    simp only [migrateOccurrence?_eq_none_iff] at inductionHypothesis
    split
    · rename_i closes
      obtain ⟨moved, result⟩ := Option.isSome_iff_exists.mp closes.1
      simp [closes.2, result]
    · rename_i passes
      rw [Option.map_eq_none_iff, inductionHypothesis]
      constructor
      · intro later
        refine ⟨fun same => ?_, later⟩
        cases result : moved? catalog o with
        | none => rfl
        | some moved => exact absurd ⟨by simp [result], same⟩ passes
      · exact And.right

/-- Regrouping never adds a piece. -/
theorem length_regroup_le (catalog : Catalog) (pieces : List (Text × Occurrence)) :
    (regroup catalog pieces).length ≤ pieces.length := by
  fun_induction regroup catalog pieces with
  | case1 => simp
  | case2 gap o rest stays c found inductionHypothesis =>
    have shorter := length_capture? found
    simp only [List.length_cons]
    omega
  | case3 gap o rest stays missed inductionHypothesis => simpa using inductionHypothesis
  | case4 gap o rest changes inductionHypothesis => simpa using inductionHypothesis

/-- Regrouping keeps the number of pieces exactly if nothing is captured. -/
theorem length_regroup_iff {catalog : Catalog} {pieces : List (Text × Occurrence)} :
    (regroup catalog pieces).length = pieces.length ↔ ClosesNothing catalog (pieces.map Prod.snd) := by
  unfold ClosesNothing
  fun_induction regroup catalog pieces with
  | case1 => simp
  | case2 gap o rest stays c found inductionHypothesis =>
    have fewer := length_regroup_le catalog c.rest
    have shorter := length_capture? found
    have captured : ¬∀ later ∈ rest.map Prod.snd, later.tag = o.tag → migrateOccurrence? catalog later = none := by
      rw [← capture?_eq_none_iff, found]
      simp
    rw [List.map_cons, List.pairwise_cons]
    constructor
    · intro same
      simp only [List.length_cons] at same
      omega
    · intro separate
      exact absurd (fun later member => separate.1 later member stays.1
        (migrateOccurrence?_eq_none_iff.mpr stays.2)) captured
  | case3 gap o rest stays missed inductionHypothesis =>
    rw [List.map_cons, List.pairwise_cons, ← inductionHypothesis, List.length_cons, List.length_cons, Nat.add_right_cancel_iff]
    constructor
    · intro same
      exact ⟨fun later member _ _ => capture?_eq_none_iff.mp missed later member, same⟩
    · exact And.right
  | case4 gap o rest changes inductionHypothesis =>
    rw [List.map_cons, List.pairwise_cons, ← inductionHypothesis, List.length_cons, List.length_cons, Nat.add_right_cancel_iff]
    constructor
    · intro same
      refine ⟨fun later _ unclosed stays => ?_, same⟩
      exact absurd ⟨unclosed, migrateOccurrence?_eq_none_iff.mp stays⟩ changes
    · exact And.right

/-- Where nothing is captured, every map takes its current form in its place. -/
theorem regroup_of_closesNothing {catalog : Catalog} {pieces : List (Text × Occurrence)}
    (separate : ClosesNothing catalog (pieces.map Prod.snd)) :
    regroup catalog pieces = currentPieces catalog pieces := by
  unfold ClosesNothing at separate
  fun_induction regroup catalog pieces with
  | case1 => rfl
  | case2 gap o rest stays c found inductionHypothesis =>
    rw [List.map_cons, List.pairwise_cons] at separate
    have missed : capture? catalog o.tag rest = none :=
      capture?_eq_none_iff.mpr fun later member =>
        separate.1 later member stays.1 (migrateOccurrence?_eq_none_iff.mpr stays.2)
    rw [missed] at found
    exact absurd found (by simp)
  | case3 gap o rest stays missed inductionHypothesis =>
    rw [List.map_cons, List.pairwise_cons] at separate
    have current : currentOccurrence catalog o = o := by simp [currentOccurrence, stays.2]
    rw [inductionHypothesis separate.2]
    simp [currentPieces, current]
  | case4 gap o rest changes inductionHypothesis =>
    rw [List.map_cons, List.pairwise_cons] at separate
    rw [inductionHypothesis separate.2]
    rfl

/-- The maps of a migrated document, where nothing is captured. -/
theorem preservesStructure_currentPieces (catalog : Catalog) (pieces : List (Text × Occurrence)) :
    PreservesStructure catalog (pieces.map Prod.snd) ((currentPieces catalog pieces).map Prod.snd) := by
  have current : (currentPieces catalog pieces).map Prod.snd =
      (pieces.map Prod.snd).map (currentOccurrence catalog) := by
    simp [currentPieces, Function.comp_def]
  rw [current]
  refine ⟨by simp, ?_, ?_, ?_⟩
  · intro i before after
    simp
  · intro i before after
    simp
  · intro i before after stays
    rw [migrateOccurrence?_eq_none_iff] at stays
    rw [List.getElem_map, currentOccurrence, stays]
    rfl

/-- Migration preserves the structure of a document exactly if no unclosed map that stays has a map of its tag behind
it that is rewritten: the rewritten one gets a closing tag, and the first one ends there. -/
theorem preservesStructure_migrate_iff (catalog : Catalog) (document : Text) :
    PreservesStructure catalog (ofText .exact mapTags document).occurrences
        (ofText .exact mapTags (migrate catalog document)).occurrences ↔
      ClosesNothing catalog (ofText .exact mapTags document).occurrences := by
  rw [ofText_migrate]
  unfold occurrences
  simp only
  generalize (ofText .exact mapTags document).pieces = pieces
  constructor
  · intro preserved
    apply length_regroup_iff.mp
    simpa using preserved.sameLength
  · intro separate
    rw [regroup_of_closesNothing separate]
    exact preservesStructure_currentPieces catalog pieces

/-- A bare opening tag, and behind it an old map that closes itself. -/
def bareThenOld : Text := "[sbs_openstreetmap][sbs_openstreetmap marker_address=\"Y\"/]".toList

/-- The old map disappears: of the two maps one is left. -/
theorem not_preservesStructure_bareThenOld :
    ¬∀ catalog document, PreservesStructure catalog (ofText .exact mapTags document).occurrences
      (ofText .exact mapTags (migrate catalog document)).occurrences := by
  intro preserved
  have same := (preserved Catalog.builtin bareThenOld).sameLength
  revert same
  decide

end MapEmbed.Migration
