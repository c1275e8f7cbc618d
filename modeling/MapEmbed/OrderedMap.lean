import MapEmbed.Text.Basic

/-!
# Maps in insertion order

A map from texts that remembers the order in which its keys first came. Writing to a key that is present keeps
the key's place and replaces its value; a new key goes to the end. Keys occur once, which the type records.
-/

namespace MapEmbed

variable {α : Type}

namespace Entries

/-- Writes a value: in place if the key is present, at the end if it is not. -/
def insert (key : Text) (value : α) : List (Text × α) → List (Text × α)
  | [] => [(key, value)]
  | (k, v) :: rest => if k = key then (k, value) :: rest else (k, v) :: insert key value rest

/-- A written key is a key, and every other key was one before. -/
theorem mem_keys_insert {key : Text} {value : α} {entries : List (Text × α)} {k : Text} :
    k ∈ (insert key value entries).map Prod.fst ↔ k = key ∨ k ∈ entries.map Prod.fst := by
  induction entries with
  | nil => simp [insert]
  | cons entry rest ih =>
    obtain ⟨head, v⟩ := entry
    by_cases same : head = key
    · simp [insert, same]
    · simp only [insert, same, if_false, List.map_cons, List.mem_cons, ih]
      grind

/-- Writing keeps the keys distinct. -/
theorem nodup_insert {key : Text} {value : α} {entries : List (Text × α)}
    (distinct : (entries.map Prod.fst).Nodup) : ((insert key value entries).map Prod.fst).Nodup := by
  induction entries with
  | nil => simp [insert]
  | cons entry rest ih =>
    obtain ⟨head, v⟩ := entry
    simp only [List.map_cons, List.nodup_cons] at distinct
    by_cases same : head = key
    · simp only [insert, same, if_true, List.map_cons, List.nodup_cons]
      exact ⟨same ▸ distinct.1, distinct.2⟩
    · simp only [insert, same, if_false, List.map_cons, List.nodup_cons]
      refine ⟨?_, ih distinct.2⟩
      rw [mem_keys_insert]
      grind

end Entries

/-- A map in insertion order. -/
structure OrderedMap (α : Type) where
  entries : List (Text × α)
  nodup : (entries.map Prod.fst).Nodup
  deriving DecidableEq

namespace OrderedMap

/-- The map without entries. -/
def empty : OrderedMap α :=
  ⟨[], by simp⟩

/-- Writes a value, keeping the place of a key that is present. -/
def insert (map : OrderedMap α) (key : Text) (value : α) : OrderedMap α :=
  ⟨Entries.insert key value map.entries, Entries.nodup_insert map.nodup⟩

/-- The value of a key. -/
def get? (map : OrderedMap α) (key : Text) : Option α :=
  map.entries.lookup key

/-- Keeps the entries whose key passes a test, in their order. -/
def filterKeys (map : OrderedMap α) (keep : Text → Bool) : OrderedMap α :=
  ⟨map.entries.filter fun entry => keep entry.1,
    map.nodup.sublist (List.filter_sublist.map Prod.fst)⟩

/-- The map without a key; the other entries close up. -/
def erase (map : OrderedMap α) (key : Text) : OrderedMap α :=
  map.filterKeys (· != key)

/-- The keys in order. -/
def keys (map : OrderedMap α) : List Text :=
  map.entries.map Prod.fst

/-- The values in order of their keys. -/
def values (map : OrderedMap α) : List α :=
  map.entries.map Prod.snd

/-- Whether there is no entry. -/
def isEmpty (map : OrderedMap α) : Bool :=
  map.entries.isEmpty

/-- Writes pairs one after another. -/
def insertAll (map : OrderedMap α) (pairs : List (Text × α)) : OrderedMap α :=
  pairs.foldl (fun written pair => written.insert pair.1 pair.2) map

/-- The map that results from writing pairs one after another. -/
def ofList (pairs : List (Text × α)) : OrderedMap α :=
  empty.insertAll pairs

@[simp] theorem entries_empty : (empty : OrderedMap α).entries = [] := rfl

@[simp] theorem entries_insert (map : OrderedMap α) (key : Text) (value : α) :
    (map.insert key value).entries = Entries.insert key value map.entries := rfl

@[simp] theorem entries_filterKeys (map : OrderedMap α) (keep : Text → Bool) :
    (map.filterKeys keep).entries = map.entries.filter fun entry => keep entry.1 := rfl

/-- Two maps with the same entries are the same. -/
theorem ext_entries {left right : OrderedMap α} (same : left.entries = right.entries) : left = right := by
  cases left
  cases right
  simp_all

end OrderedMap
end MapEmbed
