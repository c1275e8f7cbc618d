import MapEmbed.Command.VariableFile
import MapEmbed.Settings.Loading

/-!
# Plans that write nothing

A plan that only looks up variables and reads files leaves every set of files as it was. Such plans are closed under
going on, so it is enough to look at the steps of which a plan is made. Everything that is loaded before a task is loaded
by such a plan.
-/

namespace MapEmbed
namespace Plan

variable {α β : Type}

/-- The plan writes no file, whatever it finds. -/
inductive ReadsOnly : Plan α → Prop where
  | done (value : α) : ReadsOnly (.done value)
  | lookUp {name : Text} {next : Option Text → Plan α} (later : ∀ found, ReadsOnly (next found)) :
      ReadsOnly (.lookUp name next)
  | read {path : Text} {next : Except FileFault (List UInt8) → Plan α} (later : ∀ outcome, ReadsOnly (next outcome)) :
      ReadsOnly (.read path next)

/-- The files stay as they were. -/
theorem ReadsOnly.run_snd {plan : Plan α} (readsOnly : plan.ReadsOnly) (surroundings : Variables) (files : Files) :
    (plan.run surroundings files).2 = files := by
  induction readsOnly with
  | done value => rfl
  | lookUp later inductionHypothesis => exact inductionHypothesis _
  | read later inductionHypothesis => exact inductionHypothesis _

/-- A plan that writes nothing goes on with one that writes nothing. -/
theorem ReadsOnly.bind {plan : Plan α} {next : α → Plan β} (readsOnly : plan.ReadsOnly)
    (later : ∀ value, (next value).ReadsOnly) : (plan >>= next).ReadsOnly := by
  induction readsOnly with
  | done value => exact later value
  | lookUp _ inductionHypothesis => exact .lookUp inductionHypothesis
  | read _ inductionHypothesis => exact .read inductionHypothesis

/-- What follows a plan that writes nothing is carried out on the same files. -/
theorem ReadsOnly.run_bind {plan : Plan α} (readsOnly : plan.ReadsOnly) (next : α → Plan β) (surroundings : Variables)
    (files : Files) :
    (plan >>= next).run surroundings files = (next (plan.run surroundings files).1).run surroundings files := by
  have split := run_andThen surroundings files plan next
  rwa [readsOnly.run_snd] at split

/-- Reading a text writes nothing. -/
theorem readsOnly_readText (path : Text) : (readText path).ReadsOnly :=
  .read fun _ => .done _

end Plan

/-! ### Variables -/

namespace VariableFile
open Plan

/-- Looking for a value writes nothing. -/
theorem readsOnly_valueOf (loaded : Variables) (name : Text) : (valueOf loaded name).ReadsOnly := by
  unfold valueOf
  split
  · exact .done _
  · exact .lookUp fun _ => .done _

/-- Putting a value together writes nothing. -/
theorem readsOnly_textOf (loaded : Variables) (pieces : List Piece) : (textOf loaded pieces).ReadsOnly := by
  induction pieces with
  | nil => exact .done _
  | cons piece rest inductionHypothesis =>
    cases piece with
    | literal c => exact inductionHypothesis.bind fun _ => .done _
    | reference name => exact (readsOnly_valueOf loaded name).bind fun _ => inductionHypothesis.bind fun _ => .done _

/-- Setting a variable writes nothing. -/
theorem readsOnly_assign (loaded : Variables) (assignment : Assignment) : (assign loaded assignment).ReadsOnly := by
  refine (readsOnly_textOf loaded assignment.value).bind fun text => ?_
  refine (readsOnly_valueOf loaded assignment.name).bind fun found => ?_
  cases found <;> exact .done _

/-- Loading lines writes nothing. -/
theorem readsOnly_loadLines (loaded : Variables) (lines : List (List UInt8)) : (loadLines loaded lines).ReadsOnly := by
  induction lines generalizing loaded with
  | nil => exact .done _
  | cons bytes rest inductionHypothesis =>
    unfold loadLines
    cases Line.ofBytes bytes with
    | blank => exact inductionHypothesis loaded
    | malformed => exact .done _
    | assignment found => exact (readsOnly_assign loaded found).bind inductionHypothesis

/-- Loading the variables writes nothing. -/
theorem readsOnly_load : load.ReadsOnly := by
  refine (Plan.ReadsOnly.read fun _ => .done _).bind fun outcome => ?_
  cases outcome with
  | ok bytes => exact readsOnly_loadLines _ _
  | error fault => exact .done _

end VariableFile

/-! ### Settings and datasets -/

/-- Loading the settings writes nothing. -/
theorem Settings.readsOnly_load (path disable : Option Text) : (Settings.load path disable).ReadsOnly := by
  unfold Settings.load
  cases path with
  | some named => exact ((Plan.readsOnly_readText named).bind fun _ => .done _).bind fun _ => .done _
  | none => exact ((Plan.readsOnly_readText Settings.usualPath).bind fun _ => .done _).bind fun _ => .done _

/-- Loading a dataset writes nothing. -/
theorem Dataset.readsOnly_load {α : Type} (parse : Text → Except DatasetFault α) (builtin : α) (path : Option Text) :
    (Dataset.load parse builtin path).ReadsOnly := by
  cases path with
  | none => exact .done _
  | some named =>
    refine (Plan.readsOnly_readText named).bind fun outcome => ?_
    cases outcome <;> exact .done _

/-- Loading the catalogue writes nothing. -/
theorem Catalog.readsOnly_load (paths : DatasetPaths) : (Catalog.load paths).ReadsOnly := by
  refine (Dataset.readsOnly_load _ _ paths.providers).bind fun providers => ?_
  cases providers with
  | error fault => exact .done _
  | ok found =>
    refine (Dataset.readsOnly_load _ _ paths.icons).bind fun icons => ?_
    cases icons <;> exact .done _

end MapEmbed
