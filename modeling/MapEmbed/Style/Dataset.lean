import MapEmbed.Style.Builtin
import MapEmbed.Json.Reader
import MapEmbed.File.Plan

/-!
# Provider datasets

A dataset of providers is a data text: an object whose fields are the providers, in order. Of a provider only
three fields matter, each of which may be absent; the rest is passed over unread. In place of an object a
provider may be an array of the three, from which the last ones may be missing.
-/

namespace MapEmbed

/-- Why a dataset cannot be used. -/
inductive DatasetFault where
  /-- The file has no text. -/
  | unreadable (fault : FileFault)
  /-- The text is no data text, or has the wrong shape. -/
  | rejected
  /-- There is no provider in it. -/
  | noProviders
  deriving DecidableEq, Repr

/-- A dataset that cannot be used, and where it came from. -/
structure DatasetError where
  origin : Text
  fault : DatasetFault
  deriving DecidableEq, Repr

/-- The wording of the error. What is wrong with a rejected text is not worded here. -/
def DatasetError.message (e : DatasetError) : Text :=
  "Failed to load dataset ".toList ++ e.origin ++ ": ".toList ++
    match e.fault with
    | .unreadable fault => fault.message
    | .rejected => "dataset rejected".toList
    | .noProviders => "dataset lists no providers".toList

namespace Dataset

open Json

/-- A dependency: absent, a name, or an object whose only field has that name and is null. -/
def dependency? : Written → Option (Option Dependency)
  | .null => some none
  | .string parts => ((partsText? parts).bind Dependency.ofName?).map some
  | .object [(name, .null)] => ((partsText? name).bind Dependency.ofName?).map some
  | _ => none

/-- A string or nothing. -/
def terms? : Written → Option (Option Text)
  | .null => some none
  | .string parts => (partsText? parts).map some
  | _ => none

/-- A string. -/
def string? : Written → Option Text
  | .string parts => partsText? parts
  | _ => none

/-- A list of strings or nothing. -/
def variants? : Written → Option (Option (List Text))
  | .null => some none
  | .array items => (items.mapM string?).map some
  | _ => none

/-- The value of a field that may be absent but not repeated. -/
def field? {α : Type} (decode : Written → Option (Option α)) (name : String) (fields : List (Text × Written)) :
    Option (Option α) :=
  match fields.filter fun field => field.1 == name.toList with
  | [] => some none
  | [(_, value)] => decode value
  | _ => none

/-- The value of an item that may be missing. -/
def item? {α : Type} (decode : Written → Option (Option α)) (items : List Written) (index : Nat) :
    Option (Option α) :=
  match items[index]? with
  | none => some none
  | some value => decode value

/-- Gives names to the fields of an object. -/
def named? (fields : List (List StringPart × Written)) : Option (List (Text × Written)) :=
  fields.mapM fun (parts, value) => (partsText? parts).map fun name => (name, value)

/-- A provider. -/
def provider? (name : Text) : Written → Option Provider
  | .object fields => do
    let fields ← named? fields
    let dependency ← field? dependency? "dependency" fields
    let terms ← field? terms? "terms" fields
    let variants ← field? variants? "variants" fields
    return ⟨name, dependency, terms, variants⟩
  | .array items => do
    let dependency ← item? dependency? items 0
    let terms ← item? terms? items 1
    let variants ← item? variants? items 2
    if 3 < items.length then none
    else return ⟨name, dependency, terms, variants⟩
  | _ => none

/-- All providers of a dataset. One that is repeated keeps its first place and takes its last value. -/
def providers? : Written → Option (List Provider)
  | .object fields => do
    let fields ← named? fields
    let listed ← fields.mapM fun (name, value) => (provider? name value).map fun provider => (name, provider)
    return (OrderedMap.ofList listed).values
  | _ => none

/-- Reads a dataset of providers. -/
def parseProviders (source : Text) : Except DatasetFault (List Provider) :=
  match (Written.ofText? source).bind providers? with
  | none => .error .rejected
  | some [] => .error .noProviders
  | some providers => .ok (Provider.withMapbox providers)

/-- Reads a dataset of icons, which may be any value. -/
def parseIcons (source : Text) : Except DatasetFault Json :=
  match Json.parse? source with
  | none => .error .rejected
  | some icons => .ok icons

/-- Loads a dataset from a path, or takes the built-in one where there is none. -/
def load {α : Type} (parse : Text → Except DatasetFault α) (builtin : α) :
    Option Text → Plan (Except DatasetError α)
  | none => pure (.ok builtin)
  | some path => do
    match ← Plan.readText path with
    | .error fault => return .error ⟨path, .unreadable fault⟩
    | .ok source => return (parse source).mapError fun fault => ⟨path, fault⟩

end Dataset

/-- Where the datasets are; without a path the built-in one is used. -/
structure DatasetPaths where
  providers : Option Text
  icons : Option Text
  deriving DecidableEq, Repr

/-- Loads the catalogue. A fault of the providers is found before one of the icons. -/
def Catalog.load (paths : DatasetPaths) : Plan (Except DatasetError Catalog) := do
  match ← Dataset.load Dataset.parseProviders (Provider.withMapbox builtinProviders) paths.providers with
  | .error fault => return .error fault
  | .ok providers =>
    match ← Dataset.load Dataset.parseIcons builtinIcons paths.icons with
    | .error fault => return .error fault
    | .ok icons => return .ok (Catalog.ofProviders providers icons)

end MapEmbed
