import MapEmbed.File.Utf8
import MapEmbed.OrderedMap

/-!
# Programs that use files

A plan says which file to read or write next, or which variable of its surroundings to look up, and how to go on
with what was found. It can be carried out on a set of files, which is a value, or on those of a computer. Nothing
else can be observed by a plan, so what it does to a set of files is all it can do.
-/

namespace MapEmbed

/-- Why a file has no text. -/
inductive FileFault where
  | missing
  | directory
  | notText
  deriving DecidableEq, Repr

/-- The wording of a fault. -/
def FileFault.message : FileFault → Text
  | .missing => "No such file or directory (os error 2)".toList
  | .directory => "Is a directory (os error 21)".toList
  | .notText => "stream did not contain valid UTF-8".toList

/-- A set of files: the bytes under each path. -/
abbrev Files := OrderedMap (List UInt8)

namespace Files

/-- The bytes of a file. The working directory itself is the only directory. -/
def read (files : Files) (path : Text) : Except FileFault (List UInt8) :=
  if path = ['.'] then .error .directory
  else match files.get? path with
    | some bytes => .ok bytes
    | none => .error .missing

end Files

/-- Variables of the surroundings and their values. -/
abbrev Variables := OrderedMap Text

/-- A program that reads and writes files and looks up variables. -/
inductive Plan (α : Type) where
  | done (value : α)
  | lookUp (name : Text) (next : Option Text → Plan α)
  | read (path : Text) (next : Except FileFault (List UInt8) → Plan α)
  | write (path : Text) (content : Text) (next : Plan α)

namespace Plan

variable {α β : Type}

/-- Goes on with another plan. -/
def andThen (plan : Plan α) (next : α → Plan β) : Plan β :=
  match plan with
  | .done value => next value
  | .lookUp name rest => .lookUp name fun found => (rest found).andThen next
  | .read path rest => .read path fun outcome => (rest outcome).andThen next
  | .write path content rest => .write path content (rest.andThen next)

instance : Monad Plan where
  pure := .done
  bind := andThen

/-- Looks up a variable. -/
def variableValue (name : Text) : Plan (Option Text) :=
  .lookUp name .done

/-- Reads the bytes of a file. -/
def readBytes (path : Text) : Plan (Except FileFault (List UInt8)) :=
  .read path .done

/-- The text of a file's bytes. -/
def textOf (outcome : Except FileFault (List UInt8)) : Except FileFault Text :=
  match outcome with
  | .error fault => .error fault
  | .ok bytes =>
    match Utf8.decode? bytes with
    | some text => .ok text
    | none => .error .notText

/-- Reads the text of a file. -/
def readText (path : Text) : Plan (Except FileFault Text) :=
  .read path fun outcome => .done (textOf outcome)

/-- Writes a text to a file. -/
def writeText (path content : Text) : Plan Unit :=
  .write path content (.done ())

/-- Carries out a plan among given variables on a set of files: the result, and the files afterwards. -/
def run (surroundings : Variables) (files : Files) : Plan α → α × Files
  | .done value => (value, files)
  | .lookUp name next => (next (surroundings.get? name)).run surroundings files
  | .read path next => (next (files.read path)).run surroundings files
  | .write path content next => next.run surroundings (files.insert path (Utf8.encode content))

/-- Going on with another plan carries it out on the files that the first one left. -/
theorem run_andThen (surroundings : Variables) (files : Files) (plan : Plan α) (next : α → Plan β) :
    (plan.andThen next).run surroundings files =
      (next (plan.run surroundings files).1).run surroundings (plan.run surroundings files).2 := by
  induction plan generalizing files with
  | done value => rfl
  | lookUp name rest ih => exact ih _ _
  | read path rest ih => exact ih _ _
  | write path content rest ih => exact ih _

end Plan
end MapEmbed
