import Mathlib.Data.List.Basic
import MapEmbed.Style.Dataset
import MapEmbed.Proofs.Lookup

/-!
# From a dataset to a catalogue

An accepted dataset gives its providers in their order and as they are, save the one provider whose variants are
fixed. Each pair of a provider and one of its variants generates a style, and so does a provider without variants.
Different pairs can generate the same key: names may hold dots, variants that differ in spaces only have one key,
and a variant may be repeated. Then the key stands where it was first generated, and its style is that of the last
pair that generates it. All keys and styles of a catalogue are found in this way, also those that need a credential.
-/

namespace MapEmbed

open Json (Written)

/-- The variants of the one provider whose variants are fixed. -/
def fixedVariants : List Text :=
  ["Streets", "Outdoors", "Light", "Dark", "Satellite"].map String.toList

/-- The keys of the styles that are always there. -/
def fixedKeys : List Text :=
  ["Mapbox.Streets", "Mapbox.Outdoors", "Mapbox.Light", "Mapbox.Dark", "Mapbox.Satellite"].map String.toList

/-- The providers of a dataset, with the fixed variants for the one provider that has them. -/
inductive Completed : List Provider → List Provider → Prop where
  /-- The provider is in the dataset and stays in its place, with its dependency and its terms. -/
  | inPlace {before after : List Provider} {p : Provider} (named : p.name = mapboxName)
      (first : ∀ other ∈ before, other.name ≠ mapboxName) (only : ∀ other ∈ after, other.name ≠ mapboxName) :
      Completed (before ++ p :: after) (before ++ { p with variants := some fixedVariants } :: after)
  /-- The provider is missing and comes last. -/
  | added {listed : List Provider} (missing : ∀ p ∈ listed, p.name ≠ mapboxName) :
      Completed listed (listed ++ [⟨mapboxName, none, none, some fixedVariants⟩])

/-- The pairs of a provider and one of its variants, in order. A provider without variants stands by itself. -/
def variantPairs (providers : List Provider) : List (Provider × Option Text) :=
  providers.flatMap fun p =>
    match p.variants with
    | some variants => variants.map fun variant => (p, some variant)
    | none => [(p, none)]

/-- The key that a pair generates: the provider's name, a dot and the variant without its spaces, or the name alone. -/
def generatedKey : Provider × Option Text → Text
  | (p, some variant) => p.name ++ ".".toList ++ variant.filter fun c => c != ' '
  | (p, none) => p.name

/-- A name and the same with its first character in capital form. -/
inductive Capitalized : Text → Text → Prop where
  | empty : Capitalized [] []
  | first (c : Char) (rest : Text) : Capitalized (c :: rest) (Unicode.upperChar c ++ rest)

/-- The style that a pair generates. Its label is the provider's name and the variant as they are written; without a
variant it is the capitalised name. -/
structure Generates (pair : Provider × Option Text) (style : Style) : Prop where
  key : style.key = generatedKey pair
  variantLabel : ∀ variant, pair.2 = some variant → style.label = pair.1.name ++ " ".toList ++ variant
  ownLabel : pair.2 = none → Capitalized pair.1.name style.label
  provider : Capitalized pair.1.name style.provider
  dependency : style.dependency = pair.1.dependency
  terms : style.terms = pair.1.terms

/-- A catalogue that holds exactly the styles of the listed providers, once these are completed. -/
structure BuiltFrom (listed providers : List Provider) (catalog : Catalog) : Prop where
  completed : Completed listed providers
  /-- Only one provider has the name of the one with fixed variants, and it has them. -/
  single : ∃ p, providers.filter (fun q => q.name == mapboxName) = [p] ∧ p.variants = some fixedVariants
  /-- The keys stand in the order in which the pairs first generate them. -/
  keys : catalog.styles.keys = ((variantPairs providers).map generatedKey).eraseDups
  /-- The style of a key is the one that the last pair with this key generates. -/
  style_iff : ∀ key style, catalog.styles.get? key = some style ↔
    ∃ before pair after, variantPairs providers = before ++ pair :: after ∧ generatedKey pair = key ∧
      Generates pair style ∧ ∀ later ∈ after, generatedKey later ≠ key
  own : ∀ entry ∈ catalog.styles.entries, entry.2.key = entry.1
  fixed : ∀ key ∈ fixedKeys, key ∈ catalog.styles.keys
  dependent : ∀ dependency, catalog.dependentStyles dependency =
    catalog.styles.keys.filter fun key => catalog.dependencyOf key == some dependency

/-! ### Datasets -/

/-- A provider has the name under which it stands. -/
theorem Dataset.name_of_provider? {name : Text} {value : Written} {p : Provider}
    (read : Dataset.provider? name value = some p) : p.name = name := by
  cases value with
  | object fields =>
    simp only [Dataset.provider?, Option.bind_eq_bind, Option.pure_def, Option.bind_eq_some_iff,
      Option.some.injEq] at read
    obtain ⟨_, -, _, -, _, -, _, -, rfl⟩ := read
    rfl
  | array items =>
    simp only [Dataset.provider?, Option.bind_eq_bind, Option.pure_def, Option.bind_eq_some_iff] at read
    obtain ⟨_, -, _, -, _, -, made⟩ := read
    split at made
    · simp at made
    · obtain rfl := Option.some.inj made
      rfl
  | null => simp [Dataset.provider?] at read
  | bool value => simp [Dataset.provider?] at read
  | number value => simp [Dataset.provider?] at read
  | string parts => simp [Dataset.provider?] at read

/-- Whatever is read of a list item by item was read of one of its items. -/
theorem exists_of_mem_mapM {α β : Type} {f : α → Option β} {items : List α} {values : List β}
    (read : items.mapM f = some values) {value : β} (member : value ∈ values) : ∃ item ∈ items, f item = some value := by
  induction items generalizing values with
  | nil =>
    obtain rfl : values = [] := by simpa using read.symm
    simp at member
  | cons item rest inductionHypothesis =>
    simp only [List.mapM_cons, Option.bind_eq_bind, Option.pure_def, Option.bind_eq_some_iff, Option.some.injEq] at read
    obtain ⟨first, here, others, later, rfl⟩ := read
    rcases List.mem_cons.mp member with rfl | inside
    · exact ⟨item, by simp, here⟩
    · obtain ⟨other, also, found⟩ := inductionHypothesis later inside
      exact ⟨other, by simp [also], found⟩

/-- No two providers of a dataset have the same name. -/
theorem Dataset.nodup_providers? {value : Written} {listed : List Provider}
    (read : Dataset.providers? value = some listed) : (listed.map Provider.name).Nodup := by
  cases value with
  | object fields =>
    simp only [Dataset.providers?, Option.bind_eq_bind, Option.pure_def, Option.bind_eq_some_iff,
      Option.some.injEq] at read
    obtain ⟨named, -, pairs, decoded, rfl⟩ := read
    have own : ∀ entry ∈ (OrderedMap.ofList pairs).entries, entry.2.name = entry.1 := by
      intro entry member
      obtain ⟨⟨name, field⟩, -, made⟩ := exists_of_mem_mapM decoded (OrderedMap.mem_of_mem_ofList member)
      obtain ⟨p, provided, rfl⟩ := Option.map_eq_some_iff.mp made
      exact Dataset.name_of_provider? provided
    have keys : (OrderedMap.ofList pairs).values.map Provider.name = (OrderedMap.ofList pairs).keys := by
      rw [OrderedMap.values, OrderedMap.keys, List.map_map]
      exact List.map_congr_left own
    rw [keys]
    exact (OrderedMap.ofList pairs).nodup
  | array items => simp [Dataset.providers?] at read
  | null => simp [Dataset.providers?] at read
  | bool value => simp [Dataset.providers?] at read
  | number value => simp [Dataset.providers?] at read
  | string parts => simp [Dataset.providers?] at read

/-- A dataset is accepted exactly when it lists providers, at least one. -/
theorem Dataset.parseProviders_eq_ok_iff {source : Text} {providers : List Provider} :
    Dataset.parseProviders source = .ok providers ↔
      ∃ listed, (Written.ofText? source).bind Dataset.providers? = some listed ∧ listed ≠ [] ∧
        providers = Provider.withMapbox listed := by
  rw [Dataset.parseProviders]
  constructor
  · intro accepted
    split at accepted
    · simp at accepted
    · simp at accepted
    · next listed filled read => exact ⟨listed, read, filled, (Except.ok.inj accepted).symm⟩
  · rintro ⟨listed, read, filled, rfl⟩
    rw [read]
    cases listed with
    | nil => exact absurd rfl filled
    | cons first rest => rfl

/-! ### The provider with fixed variants -/

/-- A provider of another name is passed over. -/
theorem Completed.cons {p : Provider} {listed providers : List Provider} (other : p.name ≠ mapboxName)
    (rest : Completed listed providers) : Completed (p :: listed) (p :: providers) := by
  cases rest with
  | @inPlace before after q named first only =>
    exact @Completed.inPlace (p :: before) after q named (List.forall_mem_cons.mpr ⟨other, first⟩) only
  | added missing => exact Completed.added (List.forall_mem_cons.mpr ⟨other, missing⟩)

/-- Providers with distinct names are completed. -/
theorem completed_withMapbox {listed : List Provider} (distinct : (listed.map Provider.name).Nodup) :
    Completed listed (Provider.withMapbox listed) := by
  induction listed with
  | nil => exact Completed.added (by simp)
  | cons p rest inductionHypothesis =>
    simp only [List.map_cons, List.nodup_cons] at distinct
    rw [Provider.withMapbox]
    by_cases named : p.name = mapboxName
    · rw [if_pos named]
      refine @Completed.inPlace [] rest p named (by simp) ?_
      intro other member same
      exact distinct.1 (List.mem_map.mpr ⟨other, member, same.trans named.symm⟩)
    · rw [if_neg named]
      exact (inductionHypothesis distinct.2).cons named

/-- Completed providers have one provider with the fixed variants. -/
theorem Completed.single {listed providers : List Provider} (completed : Completed listed providers) :
    ∃ p, providers.filter (fun q => q.name == mapboxName) = [p] ∧ p.variants = some fixedVariants := by
  have without {others : List Provider} (missing : ∀ p ∈ others, p.name ≠ mapboxName) :
      others.filter (fun q => q.name == mapboxName) = [] := by
    simpa [List.filter_eq_nil_iff] using missing
  cases completed with
  | @inPlace before after p named first only =>
    refine ⟨{ p with variants := some fixedVariants }, ?_, rfl⟩
    rw [List.filter_append, List.filter_cons_of_pos (by simpa using named), without first, without only,
      List.nil_append]
  | added missing =>
    refine ⟨⟨mapboxName, none, none, some fixedVariants⟩, ?_, rfl⟩
    rw [List.filter_append, without missing, List.nil_append]
    rfl

/-- The fixed keys are generated. -/
theorem mem_generatedKeys_of_fixed {providers : List Provider}
    (single : ∃ p, providers.filter (fun q => q.name == mapboxName) = [p] ∧ p.variants = some fixedVariants)
    {key : Text} (fixed : key ∈ fixedKeys) : key ∈ (variantPairs providers).map generatedKey := by
  obtain ⟨p, only, variants⟩ := single
  have found : p ∈ providers.filter fun q => q.name == mapboxName := by simp [only]
  obtain ⟨listed, named⟩ := List.mem_filter.mp found
  have keys : fixedVariants.map (fun variant => generatedKey (p, some variant)) = fixedKeys := by
    simp only [generatedKey, beq_iff_eq.mp named]
    decide
  obtain ⟨variant, offered, rfl⟩ := List.mem_map.mp (keys ▸ fixed)
  refine List.mem_map.mpr ⟨(p, some variant), List.mem_flatMap.mpr ⟨p, listed, ?_⟩, rfl⟩
  rw [variants]
  exact List.mem_map.mpr ⟨variant, offered, rfl⟩

/-! ### What a pair generates -/

/-- The style of a pair. -/
def Provider.pairStyle : Provider × Option Text → Style
  | (p, some variant) => p.variantStyle variant
  | (p, none) => p.ownStyle

/-- A name has one capitalised form. -/
theorem capitalized_iff {name shown : Text} : Capitalized name shown ↔ shown = Unicode.capitalize name := by
  constructor
  · intro capital
    cases capital with
    | empty => rfl
    | first c rest => rfl
  · rintro rfl
    cases name with
    | nil => exact Capitalized.empty
    | cons c rest => exact Capitalized.first c rest

/-- The key of a pair's style is the generated one. -/
theorem Provider.key_pairStyle (pair : Provider × Option Text) : (Provider.pairStyle pair).key = generatedKey pair := by
  obtain ⟨p, variant⟩ := pair
  cases variant with
  | some variant => exact (List.append_assoc p.name ".".toList _).symm
  | none => rfl

/-- The label of a pair's style has the variant as it is written. -/
theorem Provider.label_pairStyle (p : Provider) (variant : Text) :
    (Provider.pairStyle (p, some variant)).label = p.name ++ " ".toList ++ variant :=
  (List.append_assoc p.name " ".toList variant).symm

/-- A pair generates one style. -/
theorem generates_iff {pair : Provider × Option Text} {style : Style} :
    Generates pair style ↔ style = Provider.pairStyle pair := by
  obtain ⟨p, variant⟩ := pair
  constructor
  · intro generated
    have key := generated.key.trans (Provider.key_pairStyle (p, variant)).symm
    have provider := capitalized_iff.mp generated.provider
    obtain ⟨_, label, _, _, _⟩ := style
    cases variant with
    | some variant =>
      have written := (generated.variantLabel variant rfl).trans (Provider.label_pairStyle p variant).symm
      exact Style.mk.injEq .. ▸ ⟨key, written, provider, generated.dependency, generated.terms⟩
    | none =>
      have capital := capitalized_iff.mp (generated.ownLabel rfl)
      exact Style.mk.injEq .. ▸ ⟨key, capital, provider, generated.dependency, generated.terms⟩
  · rintro rfl
    cases variant with
    | some variant =>
      refine ⟨Provider.key_pairStyle _, ?_, by simp, capitalized_iff.mpr rfl, rfl, rfl⟩
      rintro _ ⟨⟩
      exact Provider.label_pairStyle p variant
    | none => exact ⟨rfl, by simp, fun _ => capitalized_iff.mpr rfl, capitalized_iff.mpr rfl, rfl, rfl⟩

/-- The styles of all providers are those of the pairs. -/
theorem Provider.flatMap_styles (providers : List Provider) :
    providers.flatMap Provider.styles = (variantPairs providers).map Provider.pairStyle := by
  rw [variantPairs, List.map_flatMap]
  apply List.flatMap_congr
  intro p _
  cases offered : p.variants with
  | some variants => simp [Provider.styles, offered, Provider.pairStyle]
  | none => simp [Provider.styles, offered, Provider.pairStyle]

/-! ### The styles of a catalogue -/

/-- The styles of a catalogue, each under the key that its pair generates. -/
theorem Catalog.stylesOf_eq (providers : List Provider) : Catalog.stylesOf providers =
    OrderedMap.ofList ((variantPairs providers).map fun pair => (generatedKey pair, Provider.pairStyle pair)) := by
  rw [Catalog.stylesOf, Provider.flatMap_styles, List.map_map]
  simp only [Function.comp_def, Provider.key_pairStyle]

/-- Every style stands under its own key. -/
theorem Catalog.own_stylesOf (providers : List Provider) :
    ∀ entry ∈ (Catalog.stylesOf providers).entries, entry.2.key = entry.1 := by
  intro entry member
  obtain ⟨style, -, rfl⟩ := List.mem_map.mp (OrderedMap.mem_of_mem_ofList member)
  rfl

/-- The keys in the order in which they are first generated. -/
theorem Catalog.keys_stylesOf (providers : List Provider) :
    (Catalog.stylesOf providers).keys = ((variantPairs providers).map generatedKey).eraseDups := by
  rw [Catalog.stylesOf_eq, OrderedMap.keys_ofList, List.map_map]
  rfl

/-- The style of a key is the one that the last pair with this key generates. -/
theorem Catalog.get?_stylesOf_iff {providers : List Provider} {key : Text} {style : Style} :
    (Catalog.stylesOf providers).get? key = some style ↔
      ∃ before pair after, variantPairs providers = before ++ pair :: after ∧ generatedKey pair = key ∧
        Generates pair style ∧ ∀ later ∈ after, generatedKey later ≠ key := by
  have keyed (pairs : List (Provider × Option Text)) :
      (pairs.map fun pair => (generatedKey pair, Provider.pairStyle pair)).map Prod.fst = pairs.map generatedKey := by
    rw [List.map_map]
    rfl
  rw [Catalog.stylesOf_eq, OrderedMap.get?_ofList_iff]
  constructor
  · rintro ⟨front, back, split, absent⟩
    obtain ⟨before, rest, whole, rfl, paired⟩ := List.map_eq_append_iff.mp split
    obtain ⟨pair, after, rfl, same, rfl⟩ := List.map_eq_cons_iff.mp paired
    obtain ⟨rfl, rfl⟩ := Prod.mk.inj same
    refine ⟨before, pair, after, whole, rfl, generates_iff.mpr rfl, ?_⟩
    intro later member same
    exact absent (keyed after ▸ List.mem_map.mpr ⟨later, member, same⟩)
  · rintro ⟨before, pair, after, split, rfl, generated, last⟩
    obtain rfl := generates_iff.mp generated
    refine ⟨before.map fun pair => (generatedKey pair, Provider.pairStyle pair),
      after.map fun pair => (generatedKey pair, Provider.pairStyle pair), ?_, ?_⟩
    · rw [split, List.map_append, List.map_cons]
    · rw [keyed]
      intro member
      obtain ⟨later, inside, same⟩ := List.mem_map.mp member
      exact last later inside same

/-- The styles that need a credential are found among the keys. -/
theorem Catalog.dependentStyles_eq {catalog : Catalog} (own : ∀ entry ∈ catalog.styles.entries, entry.2.key = entry.1)
    (dependency : Dependency) : catalog.dependentStyles dependency =
      catalog.styles.keys.filter fun key => catalog.dependencyOf key == some dependency := by
  have needed : ∀ entry ∈ catalog.styles.entries, catalog.dependencyOf entry.1 = entry.2.dependency := by
    intro entry member
    have found : catalog.styles.get? entry.1 = some entry.2 := Entries.lookup_of_mem catalog.styles.nodup member
    rw [Catalog.dependencyOf, found, Option.bind_some]
  rw [Catalog.dependentStyles, OrderedMap.values, OrderedMap.keys, List.filter_map, List.filter_map, List.map_map]
  have same : catalog.styles.entries.filter ((fun style : Style => style.dependency == some dependency) ∘ Prod.snd) =
      catalog.styles.entries.filter ((fun key => catalog.dependencyOf key == some dependency) ∘ Prod.fst) := by
    apply List.filter_congr
    intro entry member
    simp only [Function.comp_apply, needed entry member]
  rw [same]
  apply List.map_congr_left
  intro entry member
  exact own entry (List.mem_filter.mp member).1

/-- The catalogue of completed providers. -/
theorem Completed.builtFrom {listed providers : List Provider} (completed : Completed listed providers) (icons : Json) :
    BuiltFrom listed providers (Catalog.ofProviders providers icons) where
  completed := completed
  single := completed.single
  keys := Catalog.keys_stylesOf providers
  style_iff _ _ := Catalog.get?_stylesOf_iff
  own := Catalog.own_stylesOf providers
  fixed key fixed := by
    rw [Catalog.ofProviders, Catalog.keys_stylesOf, List.mem_eraseDups]
    exact mem_generatedKeys_of_fixed completed.single fixed
  dependent := Catalog.dependentStyles_eq (Catalog.own_stylesOf providers)

/-- An accepted dataset lists providers of distinct names, and the catalogue is built from them. -/
theorem builtFrom_dataset {source : Text} {providers : List Provider} (icons : Json)
    (accepted : Dataset.parseProviders source = .ok providers) :
    ∃ listed, (Written.ofText? source).bind Dataset.providers? = some listed ∧ listed ≠ [] ∧
      (listed.map Provider.name).Nodup ∧ BuiltFrom listed providers (Catalog.ofProviders providers icons) := by
  obtain ⟨listed, read, filled, rfl⟩ := Dataset.parseProviders_eq_ok_iff.mp accepted
  obtain ⟨written, -, decoded⟩ := Option.bind_eq_some_iff.mp read
  have distinct := Dataset.nodup_providers? decoded
  exact ⟨listed, read, filled, distinct, (completed_withMapbox distinct).builtFrom icons⟩

/-- Three pairs of two providers generate one key, which stands first and has the style of the last pair. -/
theorem builtFrom_sharedKey :
    let source := ("\x7b\"p\":\x7b\"variants\":[\"A B\",\"AB\"]\x7d," ++
      "\"p.AB\":\x7b\"dependency\":\"apikey\",\"terms\":\"T\"\x7d\x7d").toList
    let p : Provider := ⟨"p".toList, none, none, some ["A B".toList, "AB".toList]⟩
    let q : Provider := ⟨"p.AB".toList, some .apiKey, some "T".toList, none⟩
    let providers := [p, q, ⟨mapboxName, none, none, some fixedVariants⟩]
    let catalog := Catalog.ofProviders providers builtinIcons
    Dataset.parseProviders source = .ok providers ∧
      (∃ listed, (Written.ofText? source).bind Dataset.providers? = some listed ∧ listed ≠ [] ∧
        (listed.map Provider.name).Nodup ∧ BuiltFrom listed providers catalog) ∧
      catalog.styles.keys = "p.AB".toList :: fixedKeys ∧
      catalog.styles.get? "p.AB".toList =
        some ⟨"p.AB".toList, "P.AB".toList, "P.AB".toList, some .apiKey, some "T".toList⟩ ∧
      catalog.styles.get? "Mapbox.Dark".toList =
        some ⟨"Mapbox.Dark".toList, "Mapbox Dark".toList, "Mapbox".toList, none, none⟩ := by
  intro source p q providers catalog
  have read : (Written.ofText? source).bind Dataset.providers? = some [p, q] := by decide +kernel
  have accepted : Dataset.parseProviders source = .ok providers :=
    Dataset.parseProviders_eq_ok_iff.mpr ⟨[p, q], read, by simp, by decide⟩
  obtain ⟨listed, decoded, filled, distinct, built⟩ := builtFrom_dataset builtinIcons accepted
  refine ⟨accepted, ⟨listed, decoded, filled, distinct, built⟩, ?_, ?_, ?_⟩
  · rw [built.keys]
    decide
  · refine (built.style_iff _ _).mpr ⟨[(p, some "A B".toList), (p, some "AB".toList)], (q, none),
      fixedVariants.map fun variant => (⟨mapboxName, none, none, some fixedVariants⟩, some variant), rfl, rfl, ?_, ?_⟩
    · exact generates_iff.mpr (by decide)
    · decide
  · refine (built.style_iff _ _).mpr ⟨[(p, some "A B".toList), (p, some "AB".toList), (q, none)] ++
      ["Streets", "Outdoors", "Light"].map fun variant =>
        (⟨mapboxName, none, none, some fixedVariants⟩, some variant.toList),
      (⟨mapboxName, none, none, some fixedVariants⟩, some "Dark".toList),
      [(⟨mapboxName, none, none, some fixedVariants⟩, some "Satellite".toList)], rfl, rfl, ?_, ?_⟩
    · exact generates_iff.mpr (by decide)
    · decide

end MapEmbed
