import MapEmbed.Proofs.Html.Tracking

/-!
# Taking a block out of a formatting element

A block that is taken out of a formatting element leaves with all that is open in it. While the formatting around it
is made anew it hangs apart from the tree; then it is put into the element around the formatting element, and what it
held is put into a new formatting element. No element is lost, and at least one is new.
-/

namespace MapEmbed.Html

/-- What an element around frames has as its last child, or else some more children. -/
def linkOf : List Frame → List Child → List Child
  | [], more => more
  | frame :: rest, _ => linkOf rest [.element frame.number]

/-- Some frames hang apart from the others. The outermost of them, with the given number, has no parent. -/
structure Forest.Parted (forest : Forest) (hanging : List Frame) (last : Nat) (standing : List Frame) : Prop where
  holds : forest.Holds [] none hanging
  outermost : (hanging.map Frame.number).getLast? = some last
  chain : forest.Chain standing
  distinct : (numbersIn (hanging ++ standing)).Nodup
  known : ∀ number ∈ numbersIn hanging, number < forest.drafts.size

section
variable {forest later : Forest} {number last other : Nat} {parent : Option Nat} {tag : Tag} {child : Child}
  {children more : List Child} {given content : List Token} {used : List Nat} {frame block : Frame}
  {frames front back hanging standing : List Frame}

namespace Forest

/-- Frames can be cut at each of them. -/
theorem holds_cut : forest.Holds more parent (front ++ frame :: back) ↔
    forest.Holds more (some frame.number) front ∧ frame.Held forest (linkOf front more) ((innermost? back).or parent) ∧
      forest.Holds [.element frame.number] parent back := by
  induction front generalizing more with
  | nil => simp [Holds, linkOf]
  | cons first rest inductionHypothesis =>
    have next : (innermost? (rest ++ frame :: back)).or parent = (innermost? rest).or (some frame.number) := by
      cases rest with
      | nil => rfl
      | cons second others => rfl
    rw [List.cons_append, Holds, inductionHypothesis, Holds, next, and_assoc]
    rfl

/-- The innermost element in frames that end in another is in that. -/
theorem linkOf_append (front : List Frame) (frame : Frame) (more : List Child) :
    linkOf (front ++ [frame]) more = [.element frame.number] := by
  induction front generalizing more with
  | nil => rfl
  | cons first rest inductionHypothesis => exact inductionHypothesis _

/-- Frames get another parent. -/
theorem Holds.reparent {adopter : Option Nat} (holds : forest.Holds more parent (front ++ [frame]))
    (distinct : (numbersIn (front ++ [frame])).Nodup)
    (same : ∀ number ∈ numbersIn (front ++ [frame]), frame.number ≠ number →
      later.drafts[number]? = forest.drafts[number]?)
    (moved : later.drafts[frame.number]? =
      (forest.drafts[frame.number]?).map fun draft => { draft with parent := adopter }) :
    later.Holds more adopter (front ++ [frame]) := by
  rw [numbersIn_append, numbersIn_cons] at distinct same
  obtain ⟨inside, held, -⟩ := holds_cut.mp holds
  refine holds_cut.mpr ⟨inside.congr fun number member => same number (by simp [member]) (by grind), ⟨?_, ?_, held.proper⟩,
    trivial⟩
  · rw [moved, held.draft]
    rfl
  · exact held.row.congr fun number member _ _ parent _ found =>
      ⟨parent, (same number (by simp [member]) (by grind)).trans found⟩

/-- Hanging frames with the outermost one apart. -/
theorem Parted.cut (parted : forest.Parted hanging last standing) : ∃ front frame, hanging = front ++ [frame] ∧
    frame.number = last := by
  obtain ⟨numbers, split⟩ := List.getLast?_eq_some_iff.mp parted.outermost
  obtain ⟨front, outermost, rfl, -, same⟩ := List.map_eq_append_iff.mp split
  obtain ⟨frame, rfl, rfl⟩ := List.map_eq_singleton_iff.mp same
  exact ⟨front, frame, rfl, rfl⟩

/-- An element with another parent. -/
theorem drafts_detach {outer : Nat} (found : forest.parent? number = some outer) (apart : outer ≠ number) :
    (forest.detach number).drafts[other]? =
      if number = other then (forest.drafts[other]?).map fun draft => { draft with parent := none }
      else if outer = other then (forest.drafts[other]?).map fun draft =>
        { draft with children := draft.children.filter (· != .element number) }
      else forest.drafts[other]? := by
  rw [detach, found]
  simp only [drafts_setParent, drafts_modifyChildren]
  by_cases here : number = other
  · rw [if_pos here, if_pos here, if_neg (here ▸ apart)]
  · rw [if_neg here, if_neg here]

/-- An element is put into another. -/
theorem drafts_insert {inner : Nat} (apart : number ≠ inner) :
    (forest.insert (.lastIn number) (.element inner)).drafts[other]? =
      if inner = other then (forest.drafts[other]?).map fun draft => { draft with parent := some number }
      else if number = other then (forest.drafts[other]?).map fun draft =>
        { draft with children := .element inner :: draft.children }
      else forest.drafts[other]? := by
  rw [insert]
  simp only [drafts_setParent, drafts_modifyChildren]
  by_cases here : inner = other
  · rw [if_pos here, if_pos here, if_neg (here ▸ apart)]
  · rw [if_neg here, if_neg here]

/-- There are as many elements as before. -/
theorem size_insert {inner : Nat} :
    (forest.insert (.lastIn number) (.element inner)).drafts.size = forest.drafts.size := by
  rw [insert, size_setParent, size_modifyChildren]

/-- There are as many elements as before. -/
theorem size_detach (number : Nat) : (forest.detach number).drafts.size = forest.drafts.size := by
  rw [detach]
  split
  · rfl
  · rw [size_setParent, size_modifyChildren]

/-- The outer part of a chain, without what the inner part left in it. -/
theorem Chain.outer (chain : forest.Chain (front ++ frame :: back)) (held : frame.Held later [] (innermost? back))
    (same : ∀ number ∈ numbersIn back, later.drafts[number]? = forest.drafts[number]?)
    (size : later.drafts.size = forest.drafts.size) : later.Chain (frame :: back) := by
  obtain ⟨-, -, outside⟩ := holds_cut.mp chain.holds
  have distinct := chain.distinct
  rw [numbersIn_append, List.nodup_append] at distinct
  refine ⟨⟨Option.or_none ▸ held, outside.congr same⟩, ?_, distinct.2.1, fun number member => ?_⟩
  · have last : ((front ++ frame :: back).map Frame.element).getLast? = ((frame :: back).map Frame.element).getLast? := by
      rw [List.map_append, List.getLast?_append, List.map_cons, List.getLast?_cons, Option.some_or]
    rw [← last, chain.rooted]
  · rw [size]
    exact chain.known number (by rw [numbersIn_append]; exact List.mem_append_right _ member)

/-- A frame is taken out of the one around it, with all frames in it. -/
theorem Chain.part (chain : forest.Chain (front ++ block :: frame :: back)) :
    (forest.detach block.number).Parted (front ++ [block]) block.number (frame :: back) := by
  have whole : front ++ block :: frame :: back = (front ++ [block]) ++ frame :: back := by simp
  rw [whole] at chain
  obtain ⟨hanging, around, -⟩ := holds_cut.mp chain.holds
  obtain ⟨-, held, -⟩ := holds_cut.mp hanging
  rw [linkOf_append] at around
  have distinct := chain.distinct
  rw [numbersIn_append, numbersIn_cons] at distinct
  have listed : block.number ∈ numbersIn (front ++ [block]) := number_mem_numbersIn (by simp)
  have different : frame.number ≠ block.number := by grind
  have drafts (other : Nat) : (forest.detach block.number).drafts[other]? = _ :=
    drafts_detach (by rw [parent?, held.draft]; rfl) different
  have same {number : Nat} (block_ : block.number ≠ number) (frame_ : frame.number ≠ number) :
      (forest.detach block.number).drafts[number]? = forest.drafts[number]? := by
    rw [drafts, if_neg block_, if_neg frame_]
  refine ⟨?_, by simp, chain.outer ⟨?_, ?_, around.proper⟩ ?_ (size_detach _), numbersIn_append _ _ ▸ chain.distinct, ?_⟩
  · refine hanging.reparent (distinct.sublist (List.sublist_append_left _ _)) ?_ (by rw [drafts, if_pos rfl])
    exact fun number member other => same other (by grind)
  · -- the block is the last child of the frame, and no other child
    have others : frame.children.filter (· != .element block.number) = frame.children := by
      refine List.filter_eq_self.mpr fun child member => ?_
      have other : .element block.number ∉ frame.children := fun twice => by
        have used := around.row.mem twice
        grind
      simpa using fun same : child = .element block.number => other (same ▸ member)
    rw [drafts, if_neg (Ne.symm different), if_pos rfl, around.draft, Option.or_none]
    simp [others]
  · exact around.row.congr fun number member _ _ parent _ found =>
      ⟨parent, (same (by grind) (by grind)).trans found⟩
  · exact fun number member => same (by grind) (by grind)
  · intro number member
    rw [size_detach]
    refine chain.known number ?_
    rw [numbersIn_append]
    exact List.mem_append_left _ member

/-- An element without a parent is not taken out of any. -/
theorem detach_orphan (orphan : forest.parent? number = none) : forest.detach number = forest := by
  rw [detach, orphan]

/-- Whether a new element comes before or after another is taken out of its parent makes no difference. -/
theorem detach_create (name : Text) (attributes : List (Text × Text)) (known : number < forest.drafts.size)
    (outer : ∀ outer, forest.parent? number = some outer → outer < forest.drafts.size) :
    (forest.create name attributes).2.detach number = ((forest.detach number).create name attributes).2 := by
  have same : (forest.create name attributes).2.parent? number = forest.parent? number := by
    rw [parent?, drafts_create, if_neg (Nat.ne_of_lt known)]
    rfl
  rw [detach, detach, same]
  cases found : forest.parent? number with
  | none => rfl
  | some parent =>
    have parentKnown := outer parent found
    have ext {one two : Forest} (same : ∀ other : Nat, one.drafts[other]? = two.drafts[other]?) : one = two :=
      congrArg Forest.mk (Array.ext_getElem? same)
    apply ext
    intro other
    simp only [drafts_setParent, drafts_modifyChildren, drafts_create, size_setParent, size_modifyChildren]
    by_cases fresh : other = forest.drafts.size
    · rw [if_pos fresh, if_neg (by omega), if_neg (by omega), if_pos fresh]
    · rw [if_neg fresh, if_neg fresh]

/-- The outermost of the hanging frames is put into a new element. -/
theorem Parted.wrap (parted : forest.Parted hanging last standing) (kept : KeptTag tag)
    (full : tag.name ∉ voidElements) :
    let after := (forest.create tag.name tag.attributes).2.insert (.lastIn forest.drafts.size) (.element last)
    after.Parted (hanging ++ [⟨forest.drafts.size, tag, [], [], []⟩]) forest.drafts.size standing ∧
      after.parent? forest.drafts.size = none := by
  intro after
  obtain ⟨front, outermost, rfl, rfl⟩ := parted.cut
  have distinct := parted.distinct
  have known (number : Nat) (member : number ∈ numbersIn (front ++ [outermost]) ++ numbersIn standing) :
      forest.drafts.size ≠ number := by
    rcases List.mem_append.mp member with hanging | standing
    · exact Ne.symm (Nat.ne_of_lt (parted.known number hanging))
    · exact Ne.symm (Nat.ne_of_lt (parted.chain.known number standing))
  have listed : outermost.number ∈ numbersIn (front ++ [outermost]) := number_mem_numbersIn (by simp)
  have fresh := known outermost.number (List.mem_append_left _ listed)
  have drafts (other : Nat) := @drafts_insert (forest.create tag.name tag.attributes).2 _ other _ fresh
  have same {number : Nat} (member : number ∈ numbersIn (front ++ [outermost]) ++ numbersIn standing)
      (other : outermost.number ≠ number) : after.drafts[number]? = forest.drafts[number]? := by
    rw [drafts, if_neg other, if_neg (known number member), drafts_create, if_neg (Ne.symm (known number member))]
  have new : after.drafts[forest.drafts.size]? =
      some ⟨tag.name, tag.attributes, none, [.element outermost.number]⟩ := by
    rw [drafts, if_neg (Ne.symm fresh), if_pos rfl, drafts_create, if_pos rfl]
    rfl
  rw [numbersIn_append] at distinct
  refine ⟨⟨holds_cut.mpr ⟨?_, ⟨?_, .nil, fun _ => ⟨kept, full⟩⟩, trivial⟩, ?_, ?_, ?_, ?_⟩, ?_⟩
  · refine parted.holds.reparent (distinct.sublist (List.sublist_append_left _ _))
      (fun number member => same (List.mem_append_left _ member)) ?_
    rw [drafts, if_pos rfl, drafts_create, if_neg (Ne.symm fresh)]
  · rw [new, linkOf_append]
    rfl
  · simp
  · refine parted.chain.congr (fun number member => same (List.mem_append_right _ member) ?_) ?_
    · rintro rfl
      exact (List.nodup_append.mp distinct).2.2 _ listed _ member rfl
    · exact Nat.le_of_lt (by rw [size_insert, size_create]; exact Nat.lt_succ_self _)
  · have moved : (numbersIn ((front ++ [outermost]) ++ [⟨forest.drafts.size, tag, [], [], []⟩] ++ standing)).Perm
        (forest.drafts.size :: (numbersIn (front ++ [outermost]) ++ numbersIn standing)) := by
      rw [numbersIn_append, numbersIn_append _ [_], numbersIn_cons, List.append_assoc]
      exact List.perm_middle
    rw [moved.nodup_iff, List.nodup_cons]
    exact ⟨fun member => known _ member rfl, distinct⟩
  · intro number member
    rw [size_insert, size_create]
    rw [numbersIn_append, numbersIn_cons, List.mem_append, List.mem_cons] at member
    rcases member with hanging | rfl | none_
    · exact Nat.lt_succ_of_lt (parted.known number hanging)
    · exact Nat.lt_succ_self _
    · simp [numbersIn] at none_
  · rw [parent?, new]
    rfl

/-- The hanging frames are put into one of the others, once what is inside of it is closed. -/
theorem Parted.put (parted : forest.Parted hanging last standing) {ancestor : OpenElement}
    (member : ancestor ∈ standing.map Frame.element) : ∃ closed top outer,
      (forest.insert (.lastIn ancestor.number) (.element last)).Chain (hanging ++ top :: outer) ∧
      top.element = ancestor ∧ standing.map Frame.element = closed ++ (top :: outer).map Frame.element ∧
      weigh (writtenIn (top :: outer)) = weigh (writtenIn standing) := by
  obtain ⟨front, outermost, rfl, rfl⟩ := parted.cut
  obtain ⟨inner, rest, rfl⟩ : ∃ inner rest, standing = inner :: rest := by
    cases standing with
    | nil => simp at member
    | cons inner rest => exact ⟨inner, rest, rfl⟩
  obtain ⟨closed, top, outer, chain, rfl, split, numbers, written⟩ := parted.chain.closeTo member
  refine ⟨closed, top, outer, ?_, rfl, split, by rw [written, weigh_append, weigh_endTags, Nat.add_zero]⟩
  change (forest.insert (.lastIn top.number) (.element outermost.number)).Chain _
  have moved : (numbersIn ((front ++ [outermost]) ++ top :: outer)).Perm
      (numbersIn ((front ++ [outermost]) ++ inner :: rest)) := by
    rw [numbersIn_append, numbersIn_append _ (inner :: rest)]
    exact numbers.append_left _
  have distinct := moved.nodup_iff.mpr parted.distinct
  have listed : outermost.number ∈ numbersIn (front ++ [outermost]) := number_mem_numbersIn (by simp)
  rw [numbersIn_append] at distinct
  have apart : top.number ≠ outermost.number := by
    rw [numbersIn_cons] at distinct
    grind
  have drafts (other : Nat) := @drafts_insert forest top.number other _ apart
  have same {number : Nat} (outermost_ : outermost.number ≠ number) (top_ : top.number ≠ number) :
      (forest.insert (.lastIn top.number) (.element outermost.number)).drafts[number]? = forest.drafts[number]? := by
    rw [drafts, if_neg outermost_, if_neg top_]
  obtain ⟨held, outside⟩ := chain.holds
  refine ⟨holds_cut.mpr ⟨?_, ⟨?_, ?_, held.proper⟩, ?_⟩, ?_, numbersIn_append _ _ ▸ distinct, ?_⟩
  · refine parted.holds.reparent (distinct.sublist (List.sublist_append_left _ _)) ?_ (by rw [drafts, if_pos rfl])
    rw [numbersIn_cons] at distinct
    exact fun number member other => same other (by grind)
  · rw [drafts, if_neg (Ne.symm apart), if_pos rfl, held.draft, linkOf_append]
    rfl
  · rw [numbersIn_cons] at distinct
    exact held.row.congr fun number member _ _ parent _ found => ⟨parent, (same (by grind) (by grind)).trans found⟩
  · rw [numbersIn_cons] at distinct
    exact outside.congr fun number member => same (by grind) (by grind)
  · rw [List.map_append, List.getLast?_append, chain.rooted, Option.some_or]
  · intro number member
    rw [size_insert]
    rw [numbersIn_append, List.mem_append] at member
    rcases member with hanging | standing
    · exact parted.known number hanging
    · exact chain.known number standing

/-- Elements among children get another parent. -/
theorem drafts_setParents (target : Nat) (children : List Child) :
    (children.foldl (fun done child => done.setParent (some target) child) forest).drafts[other]? =
      if .element other ∈ children then (forest.drafts[other]?).map fun draft => { draft with parent := some target }
      else forest.drafts[other]? := by
  induction children generalizing forest with
  | nil => simp
  | cons child rest inductionHypothesis =>
    rw [List.foldl_cons, inductionHypothesis]
    cases child with
    | element number =>
      rw [drafts_setParent]
      by_cases here : number = other
      · simp [here, Function.comp_def]
      · have apart : Child.element other ≠ .element number := fun same => here (Child.element.inj same).symm
        simp [here, apart]
    | char c => simp [setParent]
    | comment content => simp [setParent]

/-- There are as many elements as before. -/
theorem size_setParents (target : Nat) (children : List Child) :
    (children.foldl (fun done child => done.setParent (some target) child) forest).drafts.size =
      forest.drafts.size := by
  induction children generalizing forest with
  | nil => rfl
  | cons child rest inductionHypothesis => rw [List.foldl_cons, inductionHypothesis, size_setParent]

/-- The children of one element go to another that is new, which is put into the first. -/
theorem drafts_refill {name : Text} {attributes : List (Text × Text)} (tag : Tag)
    (found : forest.drafts[number]? = some ⟨name, attributes, parent, children⟩)
    (known : ∀ other, .element other ∈ children → other ≠ number ∧ other ≠ forest.drafts.size) :
    let after := ((forest.create tag.name tag.attributes).2.moveChildren number forest.drafts.size).insert
      (.lastIn number) (.element forest.drafts.size)
    after.drafts[forest.drafts.size]? = some ⟨tag.name, tag.attributes, some number, children⟩ ∧
      after.drafts[number]? = some ⟨name, attributes, parent, [.element forest.drafts.size]⟩ ∧
      after.drafts.size = forest.drafts.size + 1 ∧
      ∀ other, number ≠ other → forest.drafts.size ≠ other → after.drafts[other]? =
        if .element other ∈ children then
          (forest.drafts[other]?).map fun draft => { draft with parent := some forest.drafts.size }
        else forest.drafts[other]? := by
  intro after
  have apart : number ≠ forest.drafts.size := by
    rintro rfl
    simp at found
  have created : (forest.create tag.name tag.attributes).2.drafts[number]? =
      some ⟨name, attributes, parent, children⟩ := by
    rw [drafts_create, if_neg apart, found]
  have numberFree : Child.element number ∉ children := fun member => (known number member).1 rfl
  have freshFree : Child.element forest.drafts.size ∉ children := fun member => (known _ member).2 rfl
  have drafts (other : Nat) : after.drafts[other]? = _ := drafts_insert apart
  simp only [moveChildren, created, drafts_setParents, drafts_modifyChildren, drafts_create] at drafts
  refine ⟨?_, ?_, ?_, fun other number_ fresh_ => ?_⟩
  · rw [drafts]
    simp [freshFree, apart]
  · rw [drafts]
    simp [numberFree, apart, Ne.symm apart, found]
  · simp only [after, size_insert, moveChildren, created, size_setParents, size_modifyChildren, size_create]
  · rw [drafts, if_neg fresh_, if_neg number_, if_neg fresh_, if_neg number_, if_neg (Ne.symm fresh_)]

/-- What a frame holds is put into a new element, which is its only child then. -/
theorem Chain.refill (chain : forest.Chain (front ++ block :: back)) (kept : KeptTag tag)
    (full : tag.name ∉ voidElements) :
    (((forest.create tag.name tag.attributes).2.moveChildren block.number forest.drafts.size).insert
        (.lastIn block.number) (.element forest.drafts.size)).Chain
      (front ++ ⟨forest.drafts.size, tag, block.content, block.children, block.used⟩ ::
        ⟨block.number, block.tag, [], [], []⟩ :: back) := by
  obtain ⟨inside, held, around⟩ := holds_cut.mp chain.holds
  have distinct := chain.distinct
  have below := chain.known
  rw [numbersIn_append, numbersIn_cons] at distinct below
  have linked {other : Nat} (member : .element other ∈ linkOf front [] ++ block.children) :
      (front.map Frame.number).getLast? = some other ∨ other ∈ block.used := by
    rcases List.mem_append.mp member with link | own
    · rcases List.eq_nil_or_concat front with rfl | ⟨rest, outermost, rfl⟩
      · simp [linkOf] at link
      · rw [List.concat_eq_append, linkOf_append, List.mem_singleton, Child.element.injEq] at link
        simp [link]
    · exact Or.inr (held.row.mem own)
  have linkedFront {other : Nat} (link : (front.map Frame.number).getLast? = some other) : other ∈ numbersIn front := by
    obtain ⟨outermost, listed, rfl⟩ := List.mem_map.mp (List.mem_of_getLast? link)
    exact number_mem_numbersIn listed
  obtain ⟨fresh, emptied, size, others⟩ := drafts_refill tag held.draft fun other member => by
    rcases linked member with link | own
    · have listed := linkedFront link
      exact ⟨by grind, Nat.ne_of_lt (below other (by grind))⟩
    · exact ⟨by grind, Nat.ne_of_lt (below other (by grind))⟩
  refine ⟨holds_cut.mpr ⟨?_, ⟨fresh, ?_, fun _ => ⟨kept, full⟩⟩, ⟨emptied, .nil, held.proper⟩, ?_⟩, ?_, ?_, ?_⟩
  · rcases List.eq_nil_or_concat front with rfl | ⟨rest, outermost, rfl⟩
    · trivial
    · rw [List.concat_eq_append] at inside distinct below linked linkedFront others ⊢
      have listed : outermost.number ∈ numbersIn (rest ++ [outermost]) := number_mem_numbersIn (by simp)
      refine inside.reparent (distinct.sublist (List.sublist_append_left _ _)) (fun number member other => ?_) ?_
      · have fresh_ := Nat.ne_of_gt (below number (by grind))
        rw [others number (by grind) fresh_, if_neg]
        intro link
        rcases linked link with link | own
        · exact other (by simpa using link)
        · grind
      · have fresh_ := Nat.ne_of_gt (below outermost.number (by grind))
        rw [others outermost.number (by grind) fresh_, if_pos]
        rw [linkOf_append]
        simp
  · refine held.row.congr fun number member _ _ parent _ found => ?_
    have fresh_ := Nat.ne_of_gt (below number (by grind))
    rw [others number (by grind) fresh_, found]
    split
    · exact ⟨_, rfl⟩
    · exact ⟨_, rfl⟩
  · refine around.congr fun number member => ?_
    have fresh_ := Nat.ne_of_gt (below number (by grind))
    rw [others number (by grind) fresh_, if_neg]
    intro link
    rcases linked link with link | own
    · have listed := linkedFront link
      grind
    · grind
  · have last := chain.rooted
    simp only [List.map_append, List.map_cons, List.getLast?_append, List.getLast?_cons] at last ⊢
    exact last
  · rw [numbersIn_append, numbersIn_cons, numbersIn_cons]
    have new : forest.drafts.size ∉ numbersIn front ++ block.number :: (block.used ++ numbersIn back) :=
      fun member => Nat.lt_irrefl _ (below _ member)
    grind
  · intro number member
    rw [numbersIn_append, numbersIn_cons, numbersIn_cons] at member
    rw [size]
    by_cases fresh_ : number = forest.drafts.size
    · exact fresh_ ▸ Nat.lt_succ_self _
    · exact Nat.lt_succ_of_lt (below number (by grind))

end Forest

namespace Builder

variable {b later : Builder} {a : Adoption} {clones : List Frame} {entries : List FormattingEntry}
  {entry : FormattingEntry} {name : Text}

/-- A block hangs apart from the tree with the formatting around it that was made anew. -/
structure Adoption.Hangs (a : Adoption) (hanging clones standing : List Frame) : Prop where
  parted : (a.builder.forest.detach a.last).Parted (hanging ++ clones) a.last standing
  outer : ∀ outer, a.builder.forest.parent? a.last = some outer → outer < a.builder.forest.drafts.size
  open_ : clones.map Frame.element = a.kept.reverse
  formatting : ∀ entry ∈ a.builder.formatting, entry.Kept
  inBody : a.builder.mode = .inBody
  settled : a.builder.fostering = false
  ready : a.builder.dropsLineFeed = false

/-- The tag of a formatting element can be written. -/
theorem kept_of_formattingTag? (kept : ∀ entry ∈ b.formatting, entry.Kept) {number : Nat}
    (found : b.formattingTag? number = some tag) : KeptTag tag ∧ tag.name ∉ voidElements := by
  obtain ⟨entry, member, same⟩ := List.exists_of_findSome?_eq_some found
  have here := kept entry member
  cases entry with
  | marker => exact absurd here id
  | element other known =>
    simp only [Option.ite_none_right_eq_some, Option.some.injEq] at same
    exact same.2 ▸ here.2

/-- An entry may be replaced by one that can be made anew. -/
theorem kept_renewed (kept : ∀ entry ∈ entries, entry.Kept) (new : entry.Kept) (number : Nat) :
    ∀ known ∈ entries.map fun known => if known.isNumber number then entry else known, known.Kept := by
  intro known member
  obtain ⟨old, listed, rfl⟩ := List.mem_map.mp member
  split
  · exact new
  · exact kept old listed

/-- Formatting is made anew around what hangs apart. -/
theorem Adoption.Hangs.passBetween (hangs : a.Hangs hanging clones standing) (block count : Nat)
    (between : List OpenElement) :
    ∃ clones, (Builder.passBetween block count a between).Hangs hanging clones standing := by
  induction between generalizing count a clones with
  | nil => exact ⟨clones, hangs⟩
  | cons element rest inductionHypothesis =>
    rw [Builder.passBetween]
    cases found : a.builder.formattingTag? element.number with
    | none => exact inductionHypothesis hangs (count + 1)
    | some tag =>
      dsimp only
      split
      · have forgotten : Hangs { a with builder := a.builder.forget element.number } hanging clones standing :=
          { hangs with formatting := fun entry member => hangs.formatting entry (List.mem_of_mem_filter member) }
        exact inductionHypothesis forgotten (count + 1)
      · obtain ⟨kept, full⟩ := kept_of_formattingTag? hangs.formatting found
        obtain ⟨front, outermost, split_, number⟩ := hangs.parted.cut
        have size := hangs.parted.known a.last (number ▸ number_mem_numbersIn (by simp [split_]))
        have positive := Nat.ne_zero_of_lt size
        obtain ⟨parted, orphan⟩ := hangs.parted.wrap kept full
        rw [Forest.size_detach] at size positive parted orphan
        rw [← Forest.detach_create _ _ size hangs.outer] at parted orphan
        refine @inductionHypothesis _ (clones ++ [⟨a.builder.forest.drafts.size, tag, [], [], []⟩]) ?_ (count + 1)
        refine ⟨?_, ?_, ?_, ?_, hangs.inBody, hangs.settled, hangs.ready⟩
        · rw [← List.append_assoc]
          exact (Forest.detach_orphan orphan).symm ▸ parted
        · intro outer found
          exact absurd (found.symm.trans orphan) (by simp)
        · simp [hangs.open_, Frame.element, Forest.create]
        · have new : FormattingEntry.Kept (.element a.builder.forest.drafts.size tag) := ⟨positive, kept, full⟩
          exact kept_renewed hangs.formatting new _

/-- An entry may come in after another. -/
theorem kept_insertAfter (kept : ∀ entry ∈ entries, entry.Kept) (new : entry.Kept) (number : Nat) :
    ∀ known ∈ insertAfter number entry entries, known.Kept := by
  induction entries with
  | nil => simp [insertAfter]
  | cons first rest inductionHypothesis =>
    obtain ⟨here, later⟩ := List.forall_mem_cons.mp kept
    rw [insertAfter]
    split
    · exact List.forall_mem_cons.mpr ⟨new, kept⟩
    · exact List.forall_mem_cons.mpr ⟨here, inductionHypothesis later⟩

/-- Where an element is open with others outside of it, its frame is one of the frames, and theirs are outside of it. -/
theorem exists_cut {inside outside : List OpenElement} {element : OpenElement}
    (listed : (inside ++ element :: outside).Sublist (frames.map Frame.element)) :
    ∃ front frame back, frames = front ++ frame :: back ∧ frame.element = element ∧
      inside.Sublist (front.map Frame.element) ∧ outside.Sublist (back.map Frame.element) := by
  obtain ⟨first, second, split, within, listed⟩ := List.append_sublist_iff.mp listed
  obtain ⟨third, fourth, rfl, member, beyond⟩ := List.cons_sublist_iff.mp listed
  obtain ⟨before, behind, rfl⟩ := List.append_of_mem member
  have whole : frames.map Frame.element = (first ++ before) ++ element :: (behind ++ fourth) := by simp [split]
  obtain ⟨front, rest, rfl, frontSame, restSame⟩ := List.map_eq_append_iff.mp whole
  obtain ⟨frame, back, rfl, same, backSame⟩ := List.map_eq_cons_iff.mp restSame
  refine ⟨front, frame, back, rfl, same, ?_, ?_⟩
  · exact frontSame ▸ within.trans (List.sublist_append_left _ _)
  · exact backSame ▸ beyond.trans (List.sublist_append_right _ _)

/-- An element whose content goes to a new element in it has more in it by that element. -/
theorem weigh_refilled (block : Frame) (inner : number ≠ 0) (tag : Tag) :
    weigh block.written + 2 ≤ weigh (Frame.written ⟨block.number, block.tag, [], [], []⟩) +
      weigh (Frame.written ⟨number, tag, block.content, block.children, block.used⟩) := by
  by_cases root : block.number = 0
  · simp [Frame.written, root, inner, weigh, Token.weight, Nat.add_comm]
  · simp [Frame.written, root, inner, weigh, Token.weight, Nat.add_comm]

/-- A block is taken out of a formatting element: there is at least one element more. -/
theorem Tracks.adoptBlock (tracks : b.Tracks frames) (number : Nat) (kept : KeptTag tag)
    (full : tag.name ∉ voidElements) {inside between rest : List OpenElement} {block outer ancestor : OpenElement}
    (opened : b.stack = inside ++ block :: (between ++ outer :: ancestor :: rest)) :
    ∃ after, (b.adoptBlock number tag inside block between (ancestor :: rest) ancestor).Tracks after ∧
      weigh (writtenIn frames) + 2 ≤ weigh (writtenIn after) := by
  have listed := tracks.listed
  rw [opened] at listed
  obtain ⟨front, blockFrame, back, rfl, rfl, within, beyond⟩ := exists_cut listed
  obtain ⟨frame, standing, rfl⟩ : ∃ frame standing, back = frame :: standing := by
    cases back with
    | nil => simp at beyond
    | cons frame standing => exact ⟨frame, standing, rfl⟩
  have start : Adoption.Hangs ⟨b, [], blockFrame.element.number, .inPlace⟩ (front ++ [blockFrame]) []
      (frame :: standing) := by
    refine ⟨by rw [List.append_nil]; exact tracks.chain.part, fun outer found => ?_, rfl, tracks.formatting, tracks.inBody,
      tracks.settled, tracks.ready⟩
    obtain ⟨-, held, -⟩ := Forest.holds_cut.mp tracks.chain.holds
    have parent : b.forest.parent? blockFrame.number = some frame.number := by
      rw [Forest.parent?, held.draft]
      rfl
    obtain rfl : frame.number = outer := Option.some.inj (parent.symm.trans found)
    exact tracks.chain.known _ (number_mem_numbersIn (by simp))
  obtain ⟨clones, hangs⟩ := start.passBetween blockFrame.element.number 0 between
  rw [Builder.adoptBlock]
  generalize passBetween blockFrame.element.number 0 ⟨b, [], blockFrame.element.number, .inPlace⟩ between = a at hangs ⊢
  have around : (ancestor :: rest).Sublist ((frame :: standing).map Frame.element) :=
    (((List.sublist_cons_self _ _).trans (List.sublist_append_right _ _))).trans beyond
  obtain ⟨closed, top, others, chain, rfl, split, weight⟩ := hangs.parted.put (around.subset List.mem_cons_self)
  have outside : (top.element :: rest).Sublist ((top :: others).map Frame.element) := by
    have distinct := hangs.parted.chain.nodup_elements
    rw [split] at around distinct
    refine sublist_of_append (fun inside => ?_) around
    exact (List.nodup_append.mp distinct).2.2 _ inside _ List.mem_cons_self rfl
  have whole : (front ++ [blockFrame]) ++ clones ++ top :: others = front ++ blockFrame :: (clones ++ top :: others) := by
    simp
  have refilled := (whole ▸ chain).refill kept full
  have place : placeIn { a.builder with forest := a.builder.forest.detach a.last } top.element = .lastIn top.number := by
    simp [placeIn, hangs.settled, Frame.element]
  dsimp only
  rw [place]
  refine ⟨_, ⟨refilled, ?_, ?_, hangs.inBody, hangs.settled, hangs.ready, ?_⟩, ?_⟩
  · rw [List.map_append, List.map_cons, List.map_cons, List.map_append, hangs.open_, List.append_assoc, List.cons_append,
      List.cons_append]
    exact within.append (((outside.append_left _).cons_cons _).cons_cons _)
  · have ends : (top.element :: rest) <:+ b.stack := ⟨inside ++ blockFrame.element :: (between ++ [outer]), by simp [opened]⟩
    rw [List.getLast?_append, getLast?_of_suffix ends (by simp), tracks.rooted, Option.some_or]
  · have positive := Nat.ne_zero_of_lt (chain.known top.number (number_mem_numbersIn (by simp)))
    have new : FormattingEntry.Kept (.element _ tag) := ⟨positive, kept, full⟩
    cases a.bookmark with
    | inPlace => exact kept_renewed hangs.formatting new number
    | after previous =>
      intro entry member
      exact kept_insertAfter hangs.formatting new previous entry (List.mem_of_mem_filter member)
  · have positive := Nat.ne_zero_of_lt (chain.known top.number (number_mem_numbersIn (by simp)))
    have moved := weigh_refilled blockFrame positive tag
    simp only [writtenIn_append, writtenIn, weigh_append] at weight ⊢
    omega

/-- A row that is cut at an element is the parts in a row. -/
theorem eq_of_cutAtOutermostSpecial {elements inside between : List OpenElement} {block : OpenElement}
    (cut : cutAtOutermostSpecial elements = some (inside, block, between)) :
    elements = inside ++ block :: between := by
  simp only [cutAtOutermostSpecial] at cut
  split at cut
  · simp at cut
  · rename_i found rest split_
    simp only [Option.some.injEq, Prod.mk.injEq] at cut
    obtain ⟨rfl, rfl, rfl⟩ := cut
    have whole := congrArg List.reverse (List.takeWhile_append_dropWhile
      (p := fun element : OpenElement => !specialNames.contains element.name) (l := elements.reverse))
    rw [split_, List.reverse_append, List.reverse_cons, List.append_assoc, List.reverse_reverse] at whole
    exact whole.symm

/-- The open elements around one of them that fits. -/
theorem exists_of_dropWhile {fits : OpenElement → Bool} {stack : List OpenElement}
    (found : ∃ element ∈ stack, fits element = true) :
    ∃ outer, stack = (stack.takeWhile fun element => !fits element) ++
      outer :: (stack.dropWhile fun element => !fits element).drop 1 := by
  obtain ⟨element, member, fit⟩ := found
  have reached : element ∈ stack.dropWhile fun element => !fits element := mem_dropWhile member (by simp [fit])
  have whole := List.takeWhile_append_dropWhile (p := fun element => !fits element) (l := stack)
  cases rest : stack.dropWhile fun element => !fits element with
  | nil => simp [rest] at reached
  | cons outer others => exact ⟨outer, by rw [rest] at whole; exact whole.symm⟩

/-- An end tag without rules of its own only closes elements. -/
theorem advances_endOrdinary (inner : name ≠ rootName) : b.Advances 0 (b.endOrdinary name) := by
  refine advances_ite (fun found => ?_) fun _ => .refl b
  refine advances_of_tracks fun _ tracks => tracks.closeThrough (exists_of_reaches found) ?_ (fun element fit => ?_) ?_
  · simpa [rootElement] using Ne.symm inner
  · simp [beq_iff_eq.mp fit]
  · have checked : rootName ∉ impliedEndNames := by decide
    simp [checked]

/-- Without the innermost of fewer elements there are fewer than without the innermost. -/
theorem suffix_drop_one {fewer stack : List OpenElement} (ends : fewer <:+ stack) : fewer.drop 1 <:+ stack.drop 1 := by
  obtain ⟨front, rfl⟩ := ends
  cases front with
  | nil => exact List.suffix_refl _
  | cons first rest => exact (List.drop_suffix 1 fewer).trans (List.suffix_append rest fewer)

/-- In a round in which a formatting element is found that is open, it is closed, or a block is taken out of it. -/
theorem Tracks.adopt_found (tracks : b.Tracks frames) {rounds number : Nat}
    (further : ∀ b : Builder, b.Advances 0 (adopt name rounds b)) (found : (b.recentFormatting.findSome? fun entry =>
      match entry with
      | .marker => none
      | .element number tag => if tag.name = name then some (number, tag) else none) = some (number, tag))
    (open_ : b.isOpen number = true)
    (reached : reaches (fun element => element.number == number) scopeNames b.stack = true) :
    (∃ after, (adopt name (rounds + 1) b).Tracks after ∧ weigh (writtenIn frames) + 2 ≤ weigh (writtenIn after)) ∨
      (adopt name (rounds + 1) b).Tracks frames ∧ (adopt name (rounds + 1) b).stack <:+ b.stack.drop 1 := by
  obtain ⟨known, member, same⟩ := List.exists_of_findSome?_eq_some found
  have here := tracks.formatting known ((List.takeWhile_sublist _).subset member)
  obtain rfl : known = .element number tag := by
    cases known with
    | marker => simp at same
    | element other found => grind
  obtain ⟨positive, kept, full⟩ := here
  have listed : ∃ element ∈ b.stack, (element.number == number) = true := by simpa [isOpen] using open_
  obtain ⟨outer, opened⟩ := exists_of_dropWhile listed
  generalize round : adopt name (rounds + 1) b = later
  rw [adopt] at round
  split at round
  · rename_i none_
    exact absurd (none_.symm.trans found) (by simp)
  · rename_i other known entry
    obtain ⟨rfl, rfl⟩ := Prod.mk.inj (Option.some.inj (entry.symm.trans found))
    rw [if_neg (by simp [open_]), if_neg (by simp [reached])] at round
    dsimp only at round
    split at round
    · rename_i inside block between ancestor rest cut outside
      rw [eq_of_cutAtOutermostSpecial cut, outside, List.append_assoc] at opened
      obtain ⟨adopted, tracks, much⟩ := tracks.adoptBlock other kept full opened
      obtain ⟨after, tracks, grows⟩ := further _ adopted tracks
      refine Or.inl ⟨after, round ▸ outside ▸ tracks, ?_⟩
      rcases grows with ⟨weight, -⟩ | more
      · omega
      · omega
    · obtain ⟨element, member, fit⟩ := listed
      subst round
      refine Or.inr ⟨Tracks.reformat (tracks.restack ?_ ?_) fun entry member => ?_, suffix_drop_one (List.dropWhile_suffix _)⟩
      · exact (List.drop_sublist _ _).trans (List.dropWhile_sublist _)
      · exact rooted_drop_dropWhile tracks.rooted member fit (by simpa [rootElement] using Ne.symm positive)
      · exact tracks.formatting entry (List.mem_of_mem_filter member)

/-- Ending a formatting element closes it, or takes blocks out of it. -/
theorem advances_adopt (inner : name ≠ rootName) (rounds : Nat) (b : Builder) :
    b.Advances 0 (adopt name rounds b) := by
  induction rounds generalizing b with
  | zero => exact .refl b
  | succ rounds inductionHypothesis =>
    intro frames tracks
    generalize round : adopt name (rounds + 1) b = later
    have unfolded := round
    rw [adopt] at unfolded
    split at unfolded
    · exact unfolded ▸ advances_endOrdinary inner frames tracks
    · rename_i number tag entry
      split at unfolded
      · exact unfolded ▸ advances_forget number frames tracks
      · split at unfolded
        · exact unfolded ▸ Advances.refl b frames tracks
        · rename_i open_ reached
          rcases tracks.adopt_found inductionHypothesis entry (by simpa using open_) (by simpa using reached) with
            ⟨after, adopted, much⟩ | ⟨closed, -⟩
          · exact ⟨after, round ▸ adopted, Or.inr much⟩
          · exact ⟨frames, round ▸ closed, .refl _⟩

/-- The end tag of a formatting element closes it, or takes blocks out of it. -/
theorem advances_endFormatting (inner : name ≠ rootName) : b.Advances 0 (b.endFormatting name) := by
  intro frames tracks
  rw [endFormatting]
  cases opened : b.stack with
  | nil => simpa [opened] using tracks.rooted
  | cons current rest =>
    refine advances_ite (fun stray => advances_of_tracks fun _ tracks => tracks.pop opened ?_)
      (fun _ => advances_adopt inner 8 b) frames tracks
    rintro rfl
    simp [rootElement, Ne.symm inner] at stray

end Builder

end
end MapEmbed.Html
