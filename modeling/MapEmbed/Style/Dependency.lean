import MapEmbed.Text.Basic

/-!
# Credentials

Some map styles and services can only be used with a credential of the author. There are two kinds.
-/

namespace MapEmbed

/-- The kind of credential that a style or service needs. -/
inductive Dependency where
  | apiKey
  | accessToken
  deriving DecidableEq, Repr

namespace Dependency

/-- The name of a kind. -/
def name : Dependency → Text
  | .apiKey => "apikey".toList
  | .accessToken => "accesstoken".toList

/-- The attribute that carried a credential of this kind in old maps. -/
def legacyAttribute : Dependency → Text
  | .apiKey => "api_key".toList
  | .accessToken => "access_token".toList

/-- The kind with the given name. -/
def ofName? (text : Text) : Option Dependency :=
  [apiKey, accessToken].find? fun dependency => dependency.name == text

/-- What is said of a text that names no kind. -/
def unknownMessage (text : Text) : Text :=
  "unknown dependency `".toList ++ text ++ "` (expected apikey or accesstoken)".toList

/-- A name is read back. -/
theorem ofName?_name (dependency : Dependency) : ofName? dependency.name = some dependency := by
  cases dependency <;> decide

end Dependency
end MapEmbed
