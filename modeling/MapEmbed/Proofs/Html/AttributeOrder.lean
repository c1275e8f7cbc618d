import MapEmbed.Proofs.Html.Emitting

/-!
# The order of attributes

A reader of markup may keep the attributes of an element in any order. Cleaning sorts the ones it keeps, and attributes
of distinct names can be sorted in one way only. So two trees with the same attributes at every element have the same
clean markup, however the attributes are arranged.
-/

namespace MapEmbed.Html

/-- A node whose attributes have distinct names, at every depth. -/
def Node.DistinctNames (node : Node) : Prop :=
  node.MadeOf (fun attributes => (attributes.map Prod.fst).Nodup) fun _ => True

mutual

/-- Two nodes that differ in nothing but the order of attributes, at any depth. -/
inductive Node.Rearranged : Node → Node → Prop where
  | text (content : Text) : Node.Rearranged (.text content) (.text content)
  | comment (content : Text) : Node.Rearranged (.comment content) (.comment content)
  | element (name : Text) {attributes others : List (Text × Text)} {children inner : List Node}
      (order : attributes.Perm others) (inside : NodesRearranged children inner) :
      Node.Rearranged (.element name attributes children) (.element name others inner)

/-- Two rows of nodes that differ in nothing but the order of attributes, at any depth. -/
inductive NodesRearranged : List Node → List Node → Prop where
  | nil : NodesRearranged [] []
  | cons {node other : Node} {rest later : List Node} (first : Node.Rearranged node other)
      (behind : NodesRearranged rest later) : NodesRearranged (node :: rest) (other :: later)

end

section
variable {attributes others : List (Text × Text)} {node : Node} {nodes : List Node}

/-! ### One way to sort distinct names -/

/-- The order of names carries over. -/
theorem nameLe_trans {first second third : Text} (before : nameLe first second = true)
    (later : nameLe second third = true) : nameLe first third = true := by
  fun_induction nameLe first second generalizing third with
  | case1 second => rfl
  | case2 c rest => cases before
  | case3 c rest d more less =>
    cases third with
    | nil => cases later
    | cons e more' =>
      rw [nameLe] at later ⊢
      split at later
      · rw [if_pos (by omega)]
      · split at later
        · cases later
        · rw [if_pos (by omega)]
  | case4 c rest d more less greater => cases before
  | case5 c rest d more less greater inductionHypothesis =>
    have same : c.toNat = d.toNat := by omega
    cases third with
    | nil => cases later
    | cons e more' =>
      rw [nameLe] at later ⊢
      rw [same]
      split at later
      · rw [if_pos ‹_›]
      · split at later
        · cases later
        · rw [if_neg ‹_›, if_neg ‹_›]
          exact inductionHypothesis before later

/-- Names that stand before each other are one. -/
theorem nameLe_antisymm {first second : Text} (before : nameLe first second = true)
    (behind : nameLe second first = true) : first = second := by
  fun_induction nameLe first second with
  | case1 second =>
    cases second with
    | nil => rfl
    | cons d more => cases behind
  | case2 c rest => cases before
  | case3 c rest d more less =>
    rw [nameLe, if_neg (by omega), if_pos less] at behind
    cases behind
  | case4 c rest d more less greater => cases before
  | case5 c rest d more less greater inductionHypothesis =>
    rw [nameLe, if_neg greater, if_neg less] at behind
    rw [inductionHypothesis before behind, Char.toNat_inj.mp (show c.toNat = d.toNat by omega)]

/-- In attributes that stand in order, each stands before all later ones. -/
theorem Ordered.pairwise (ordered : Ordered attributes) :
    attributes.Pairwise fun one other => nameLe one.1 other.1 = true := by
  have carries : IsTrans (Text × Text) fun one other => nameLe one.1 other.1 = true := ⟨fun _ _ _ => nameLe_trans⟩
  exact List.isChain_iff_pairwise.mp ordered

/-- Attributes of distinct names are sorted in one way, in whichever order they come. -/
theorem sortByName_eq_of_perm (order : attributes.Perm others) (distinct : (attributes.map Prod.fst).Nodup) :
    sortByName attributes = sortByName others := by
  have sorted : (sortByName attributes).Perm (sortByName others) :=
    ((sortByName_perm attributes).trans order).trans (sortByName_perm others).symm
  refine sorted.eq_of_pairwise ?_ (ordered_sortByName attributes).pairwise (ordered_sortByName others).pairwise
  intro one another first second before behind
  have listed := (sortByName_perm attributes).mem_iff.mp first
  have listed' := order.mem_iff.mpr ((sortByName_perm others).mem_iff.mp second)
  exact List.inj_on_of_nodup_map distinct listed listed' (nameLe_antisymm before behind)

/-- What an element keeps does not depend on the order of its attributes. -/
theorem keptAttributes_eq_of_perm (own : List Text) (order : attributes.Perm others)
    (distinct : (attributes.map Prod.fst).Nodup) : keptAttributes own attributes = keptAttributes own others :=
  congrArg (List.map _) (sortByName_eq_of_perm (order.filter _) (distinct.sublist (List.filter_sublist.map _)))

/-! ### Trees -/

/-- Distinct names at an element, and in all that it holds. -/
theorem Node.DistinctNames.element_iff {name : Text} : (Node.element name attributes nodes).DistinctNames ↔
    (attributes.map Prod.fst).Nodup ∧ ∀ child ∈ nodes, child.DistinctNames := by
  constructor
  · rintro (_ | _ | ⟨own, inside⟩)
    exact ⟨own, inside⟩
  · rintro ⟨own, inside⟩
    exact .element own inside

/-- Nodes that markup gives have attributes of distinct names. -/
theorem Node.Named.distinctNames (named : node.Named) : node.DistinctNames := by
  induction named with
  | text chars => exact .text chars
  | comment content => exact .comment content
  | element own inside inductionHypothesis => exact .element own.1 inductionHypothesis

mutual

/-- The clean markup of a node does not depend on the order of attributes. -/
theorem Node.Rearranged.cleanNode_eq : ∀ {node other : Node}, node.Rearranged other → node.DistinctNames →
    cleanNode node = cleanNode other
  | _, _, .text content, _ => rfl
  | _, _, .comment content, _ => rfl
  | _, _, .element name order inside, distinct => by
    obtain ⟨here, below⟩ := Node.DistinctNames.element_iff.mp distinct
    have content := inside.cleanNodes_eq below
    rw [cleanNode, cleanNode, content]
    cases ownAttributes? name with
    | none => rfl
    | some own =>
      have kept := keptAttributes_eq_of_perm own order here
      dsimp only
      rw [kept]

/-- The clean markup of nodes in a row does not depend on the order of attributes. -/
theorem NodesRearranged.cleanNodes_eq : ∀ {nodes others : List Node}, NodesRearranged nodes others →
    (∀ node ∈ nodes, node.DistinctNames) → cleanNodes nodes = cleanNodes others
  | _, _, .nil, _ => rfl
  | _, _, .cons first behind, distinct => by
    obtain ⟨here, later⟩ := List.forall_mem_cons.mp distinct
    rw [cleanNodes, cleanNodes, first.cleanNode_eq here, behind.cleanNodes_eq later]

end

/-! ### Every arrangement gives the same markup -/

/-- Two rows of nodes that differ in nothing but the order of attributes, where no element has two attributes of one
name, have the same clean markup. The nodes of a fragment are such, so that it is of no importance in which order its
attributes were stored. -/
theorem cleanNodes_arrangements :
    (∀ nodes others : List Node, NodesRearranged nodes others → (∀ node ∈ nodes, node.DistinctNames) →
      cleanNodes nodes = cleanNodes others) ∧
    ∀ (names : ReferenceTable) (markup : Text) (others : List Node),
      NodesRearranged (parseFragmentWith names markup) others → sanitizeWith names markup = cleanNodes others := by
  constructor
  · intro nodes others rearranged distinct
    exact rearranged.cleanNodes_eq distinct
  · intro names markup others rearranged
    exact rearranged.cleanNodes_eq fun node member => (named_of_mem_parseFragmentWith node member).distinctNames

/-- Attributes change places in a kept element, in one that is left out around its content, and in a link in it. -/
theorem cleanNodes_arrangements_nested :
    let before : List Node :=
      [.element "p".toList [("title".toList, "A & B".toList), ("class".toList, "x".toList)]
        [.element "font".toList [("size".toList, "1".toList), ("color".toList, "red".toList)]
          [.element "a".toList [("target".toList, "_top".toList), ("href".toList, "/m".toList)] [.text "map".toList]]]]
    let after : List Node :=
      [.element "p".toList [("class".toList, "x".toList), ("title".toList, "A & B".toList)]
        [.element "font".toList [("color".toList, "red".toList), ("size".toList, "1".toList)]
          [.element "a".toList [("href".toList, "/m".toList), ("target".toList, "_top".toList)] [.text "map".toList]]]]
    NodesRearranged before after ∧ (∀ node ∈ before, node.DistinctNames) ∧ cleanNodes before = cleanNodes after := by
  intro before after
  have rearranged : NodesRearranged before after :=
    .cons (.element _ (.swap ..) (.cons (.element _ (.swap ..) (.cons (.element _ (.swap ..)
      (.cons (.text _) .nil)) .nil)) .nil)) .nil
  have distinct : ∀ node ∈ before, node.DistinctNames := by
    simp only [before, List.forall_mem_singleton, Node.DistinctNames.element_iff]
    refine ⟨by decide, by decide, by decide, ?_⟩
    exact .text fun _ _ => trivial
  exact ⟨rearranged, distinct, cleanNodes_arrangements.1 before after rearranged distinct⟩

/-- Attributes of one name keep their order, so that there the arrangement would show. -/
example : cleanNodes [.element "p".toList [("class".toList, "x".toList), ("class".toList, "y".toList)] []] ≠
    cleanNodes [.element "p".toList [("class".toList, "y".toList), ("class".toList, "x".toList)] []] := by
  decide

end
end MapEmbed.Html
