import Mathlib.Data.List.Induction
import MapEmbed.OrderedMap

/-!
# Looking up what was written

How the operations of a map in insertion order change the value of a key, and which entries they leave. A map
whose values are all changed by one function keeps its keys, so a look-up changes by that function.
-/

namespace MapEmbed

variable {α : Type}

namespace Entries

/-- The first entry is found under its key, and the others under other keys. -/
theorem lookup_cons (wanted head : Text) (value : α) (rest : List (Text × α)) :
    ((head, value) :: rest).lookup wanted = if wanted = head then some value else rest.lookup wanted := by
  by_cases first : wanted = head
  · simp [first]
  · have differs : (wanted == head) = false := by simpa using first
    simp [List.lookup_cons, differs, first]

/-- Where all values are changed by one function, so is the value that is found. -/
theorem lookup_map (change : α → α) (wanted : Text) (entries : List (Text × α)) :
    (entries.map fun entry => (entry.1, change entry.2)).lookup wanted = (entries.lookup wanted).map change := by
  induction entries with
  | nil => rfl
  | cons entry rest inductionHypothesis =>
    obtain ⟨head, value⟩ := entry
    rw [List.map_cons, lookup_cons, lookup_cons, inductionHypothesis]
    split <;> rfl

/-- The value that was written is found, and every other key keeps its own. -/
theorem lookup_insert (key wanted : Text) (value : α) (entries : List (Text × α)) :
    (insert key value entries).lookup wanted = if wanted = key then some value else entries.lookup wanted := by
  induction entries with
  | nil => simp only [insert, lookup_cons]
  | cons entry rest inductionHypothesis =>
    obtain ⟨head, old⟩ := entry
    by_cases here : head = key
    · subst here
      simp only [insert, if_true, lookup_cons]
      split <;> rfl
    · simp only [insert, here, if_false, lookup_cons, inductionHypothesis]
      by_cases first : wanted = head
      · have other : wanted ≠ key := fun same => here (first ▸ same)
        simp only [first, if_true, here, if_false]
      · simp only [first, if_false]

/-- An entry after writing is the written one or was there before. -/
theorem mem_insert {key : Text} {value : α} {entries : List (Text × α)} {entry : Text × α}
    (member : entry ∈ insert key value entries) : entry = (key, value) ∨ entry ∈ entries := by
  induction entries with
  | nil =>
    simp only [insert, List.mem_singleton] at member
    exact Or.inl member
  | cons first rest inductionHypothesis =>
    obtain ⟨head, old⟩ := first
    by_cases same : head = key
    · simp only [insert, same, if_true, List.mem_cons] at member
      rcases member with written | kept
      · exact Or.inl written
      · exact Or.inr (List.mem_cons_of_mem _ kept)
    · simp only [insert, same, if_false, List.mem_cons] at member
      rcases member with kept | later
      · exact Or.inr (kept ▸ List.mem_cons_self)
      · rcases inductionHypothesis later with written | kept
        · exact Or.inl written
        · exact Or.inr (List.mem_cons_of_mem _ kept)

/-- A new key goes to the end. -/
theorem insert_of_not_mem {key : Text} {value : α} {entries : List (Text × α)}
    (new : key ∉ entries.map Prod.fst) : insert key value entries = entries ++ [(key, value)] := by
  induction entries with
  | nil => rfl
  | cons entry rest inductionHypothesis =>
    obtain ⟨head, old⟩ := entry
    simp only [List.map_cons, List.mem_cons, not_or] at new
    have other : head ≠ key := fun same => new.1 same.symm
    simp [insert, other, inductionHypothesis new.2]

/-- Writing to a key that is present changes no key. -/
theorem keys_insert_of_mem {key : Text} {value : α} {entries : List (Text × α)}
    (known : key ∈ entries.map Prod.fst) :
    (insert key value entries).map Prod.fst = entries.map Prod.fst := by
  induction entries with
  | nil => simp at known
  | cons entry rest inductionHypothesis =>
    obtain ⟨head, old⟩ := entry
    by_cases same : head = key
    · simp [insert, same]
    · have later : key ∈ rest.map Prod.fst := by
        rcases List.mem_cons.mp known with here | there
        · exact absurd here.symm same
        · exact there
      simp [insert, same, inductionHypothesis later]

/-- A written entry passes a test on keys or not; all others are as they were. -/
theorem filter_insert (keep : Text → Bool) (key : Text) (value : α) (entries : List (Text × α)) :
    (insert key value entries).filter (fun entry => keep entry.1) =
      if keep key then insert key value (entries.filter fun entry => keep entry.1)
      else entries.filter fun entry => keep entry.1 := by
  induction entries with
  | nil =>
    simp only [insert, List.filter_cons, List.filter_nil]
  | cons entry rest inductionHypothesis =>
    obtain ⟨head, old⟩ := entry
    by_cases same : head = key
    · subst same
      by_cases kept : keep head = true
      · simp [insert, kept]
      · simp [insert, kept]
    · by_cases first : keep head = true
      · simp only [insert, same, if_false, List.filter_cons, first, if_true, inductionHypothesis]
        split <;> rfl
      · simp only [insert, same, if_false, List.filter_cons, first, inductionHypothesis, Bool.false_eq_true]

/-- Only keys that pass a test are found among those that pass it. -/
theorem lookup_filter (keep : Text → Bool) (wanted : Text) (entries : List (Text × α)) :
    (entries.filter fun entry => keep entry.1).lookup wanted =
      if keep wanted then entries.lookup wanted else none := by
  induction entries with
  | nil => simp
  | cons entry rest inductionHypothesis =>
    obtain ⟨head, value⟩ := entry
    by_cases kept : keep head = true
    · simp only [List.filter_cons, kept, if_true, lookup_cons, inductionHypothesis]
      by_cases first : wanted = head
      · simp [first, kept]
      · simp [first]
    · rw [List.filter_cons, if_neg kept, inductionHypothesis, lookup_cons]
      by_cases first : wanted = head
      · simp [first, kept]
      · simp [first]

/-- What is found is an entry. -/
theorem mem_of_lookup {wanted : Text} {value : α} {entries : List (Text × α)}
    (found : entries.lookup wanted = some value) : (wanted, value) ∈ entries := by
  obtain ⟨before, after, split, -⟩ := List.lookup_eq_some_iff.mp found
  simp [split]

/-- An entry is found if no key occurs twice. -/
theorem lookup_of_mem {key : Text} {value : α} {entries : List (Text × α)}
    (distinct : (entries.map Prod.fst).Nodup) (member : (key, value) ∈ entries) :
    entries.lookup key = some value := by
  induction entries with
  | nil => simp at member
  | cons entry rest inductionHypothesis =>
    obtain ⟨head, first⟩ := entry
    simp only [List.map_cons, List.nodup_cons] at distinct
    rw [lookup_cons]
    rcases List.mem_cons.mp member with here | later
    · obtain ⟨rfl, rfl⟩ := Prod.mk.inj here
      simp
    · have other : key ≠ head := by
        rintro rfl
        exact distinct.1 (List.mem_map.mpr ⟨_, later, rfl⟩)
      rw [if_neg other]
      exact inductionHypothesis distinct.2 later

end Entries

namespace OrderedMap

/-- The map with all values changed by one function. -/
def mapValues (change : α → α) (map : OrderedMap α) : OrderedMap α :=
  ⟨map.entries.map fun entry => (entry.1, change entry.2), by
    simpa only [List.map_map, Function.comp_def] using map.nodup⟩

/-- A look-up in it finds the changed value. -/
theorem get?_mapValues (change : α → α) (map : OrderedMap α) (wanted : Text) :
    (map.mapValues change).get? wanted = (map.get? wanted).map change :=
  Entries.lookup_map change wanted map.entries

/-- The value that was written is found, and every other key keeps its own. -/
theorem get?_insert (map : OrderedMap α) (key wanted : Text) (value : α) :
    (map.insert key value).get? wanted = if wanted = key then some value else map.get? wanted :=
  Entries.lookup_insert key wanted value map.entries

/-- Only keys that pass a test are kept. -/
theorem get?_filterKeys (map : OrderedMap α) (keep : Text → Bool) (wanted : Text) :
    (map.filterKeys keep).get? wanted = if keep wanted then map.get? wanted else none :=
  Entries.lookup_filter keep wanted map.entries

/-- A written key passes a test or not; all others are as they were. -/
theorem filterKeys_insert (map : OrderedMap α) (keep : Text → Bool) (key : Text) (value : α) :
    (map.insert key value).filterKeys keep =
      if keep key then (map.filterKeys keep).insert key value else map.filterKeys keep := by
  apply ext_entries
  rw [entries_filterKeys, entries_insert, Entries.filter_insert]
  split <;> rfl

/-- Two tests one after the other are one test. -/
theorem filterKeys_filterKeys (map : OrderedMap α) (first second : Text → Bool) :
    (map.filterKeys first).filterKeys second = map.filterKeys fun key => second key && first key := by
  apply ext_entries
  rw [entries_filterKeys, entries_filterKeys, entries_filterKeys, List.filter_filter]

/-- A test that every key passes keeps the map. -/
theorem filterKeys_eq_self {map : OrderedMap α} {keep : Text → Bool} (all : ∀ key ∈ map.keys, keep key = true) :
    map.filterKeys keep = map := by
  apply ext_entries
  rw [entries_filterKeys, List.filter_eq_self]
  intro entry member
  exact all entry.1 (List.mem_map_of_mem member)

/-- A test that no key passes leaves nothing. -/
theorem filterKeys_eq_empty {map : OrderedMap α} {keep : Text → Bool} (none_ : ∀ key ∈ map.keys, keep key = false) :
    map.filterKeys keep = empty := by
  apply ext_entries
  rw [entries_filterKeys, entries_empty, List.filter_eq_nil_iff]
  intro entry member
  simp [none_ entry.1 (List.mem_map_of_mem member)]

/-- A written key keeps its place, or comes last if it is new. -/
theorem keys_insert (map : OrderedMap α) (key : Text) (value : α) :
    (map.insert key value).keys = if key ∈ map.keys then map.keys else map.keys ++ [key] := by
  rw [keys, entries_insert]
  split
  · next known => exact Entries.keys_insert_of_mem known
  · next new => rw [Entries.insert_of_not_mem new, List.map_append, List.map_singleton, keys]

/-- The keys after writing are the written one and those before. -/
theorem mem_keys_insert {map : OrderedMap α} {key wanted : Text} {value : α} :
    wanted ∈ (map.insert key value).keys ↔ wanted = key ∨ wanted ∈ map.keys :=
  Entries.mem_keys_insert

/-- An erased key is gone, and every other keeps its value. -/
theorem get?_erase (map : OrderedMap α) (key wanted : Text) :
    (map.erase key).get? wanted = if wanted = key then none else map.get? wanted := by
  rw [erase, get?_filterKeys]
  by_cases same : wanted = key
  · simp [same]
  · simp [same]

/-! ### Writing one after another -/

/-- The last pair is written last. -/
theorem ofList_concat (pairs : List (Text × α)) (key : Text) (value : α) :
    ofList (pairs ++ [(key, value)]) = (ofList pairs).insert key value := by
  simp [ofList, insertAll]

/-- The keys stand in the order in which they first came. -/
theorem keys_ofList (pairs : List (Text × α)) : (ofList pairs).keys = (pairs.map Prod.fst).eraseDups := by
  induction pairs using List.reverseRecOn with
  | nil => rfl
  | append_singleton pairs pair inductionHypothesis =>
    obtain ⟨key, value⟩ := pair
    rw [ofList_concat, keys_insert, inductionHypothesis, List.map_append, List.eraseDups_append]
    by_cases known : key ∈ pairs.map Prod.fst
    · have repeated : [key].removeAll (pairs.map Prod.fst) = [] := by
        simpa [List.removeAll, List.filter_eq_nil_iff] using known
      rw [if_pos (List.mem_eraseDups.mpr known), List.map_singleton, repeated, List.eraseDups_nil, List.append_nil]
    · have new : [key].removeAll (pairs.map Prod.fst) = [key] := by
        simpa [List.removeAll, List.filter_eq_self] using known
      rw [if_neg fun member => known (List.mem_eraseDups.mp member), List.map_singleton, new, List.eraseDups_cons]
      rfl

/-- The value of a key is the last that was written to it. -/
theorem get?_ofList_iff {pairs : List (Text × α)} {key : Text} {value : α} :
    (ofList pairs).get? key = some value ↔
      ∃ before after, pairs = before ++ (key, value) :: after ∧ key ∉ after.map Prod.fst := by
  induction pairs using List.reverseRecOn with
  | nil => simp [ofList, insertAll, get?]
  | append_singleton pairs pair inductionHypothesis =>
    obtain ⟨last, written⟩ := pair
    rw [ofList_concat, get?_insert]
    by_cases same : key = last
    · subst same
      rw [if_pos rfl, Option.some.injEq]
      constructor
      · rintro rfl
        exact ⟨pairs, [], rfl, by simp⟩
      · rintro ⟨before, after, split, absent⟩
        rcases List.eq_nil_or_concat after with rfl | ⟨others, other, rfl⟩
        · have ends := (List.append_inj' split rfl).2
          simpa using ends
        · have whole : pairs ++ [(key, written)] = (before ++ (key, value) :: others) ++ [other] := by
            simpa using split
          obtain rfl : (key, written) = other := by simpa using (List.append_inj' whole rfl).2
          simp at absent
    · rw [if_neg same, inductionHypothesis]
      constructor
      · rintro ⟨before, after, rfl, absent⟩
        exact ⟨before, after ++ [(last, written)], by simp, by simpa [same] using absent⟩
      · rintro ⟨before, after, split, absent⟩
        rcases List.eq_nil_or_concat after with rfl | ⟨others, other, rfl⟩
        · have ends := (List.append_inj' split rfl).2
          simp only [List.cons.injEq, Prod.mk.injEq, and_true] at ends
          exact absurd ends.1.symm same
        · have whole : pairs ++ [(last, written)] = (before ++ (key, value) :: others) ++ [other] := by
            simpa using split
          refine ⟨before, others, (List.append_inj' whole rfl).1, ?_⟩
          intro member
          exact absent (by simpa using Or.inl member)

/-- Every entry was written. -/
theorem mem_of_mem_ofList {pairs : List (Text × α)} {entry : Text × α}
    (member : entry ∈ (ofList pairs).entries) : entry ∈ pairs := by
  have found : (ofList pairs).get? entry.1 = some entry.2 := Entries.lookup_of_mem (ofList pairs).nodup member
  obtain ⟨before, after, split, -⟩ := get?_ofList_iff.mp found
  simp [split]

end OrderedMap
end MapEmbed
