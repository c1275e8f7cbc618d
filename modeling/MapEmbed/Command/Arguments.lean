import MapEmbed.Style.Dependency

/-!
# The arguments of a run

A line of arguments names one task. In front of the task's name and after it the path of the settings can be given;
after it stand the task's own options and the file it works on. Every option is given at most once on either side
of the task's name, and of two paths the later one counts. After two dashes everything is a file.

Arguments are read one by one, and the first that makes no sense ends the reading. So does a question for the version
or for help, and what follows the question is not looked at. The version is asked for in front of the task's name, help
on either side of it, or by a word in the task's place.
-/

namespace MapEmbed.Command

/-- What a run is to do. -/
inductive Task where
  | migrate (file : Text) (inPlace : Bool)
  | render (file : Text)
  | styles (dependency : Option Dependency)
  | globals
  deriving DecidableEq, Repr

/-- What a line of arguments asks for. -/
inductive Invocation where
  | version
  | help
  | perform (settingsPath : Option Text) (task : Task)
  deriving DecidableEq, Repr

/-- An argument by its form. -/
inductive Argument where
  /-- Two dashes with nothing behind them. -/
  | stop
  /-- A name after two dashes, with a value after the sign of equality if there is one. -/
  | option (name : Text) (value : Option Text)
  /-- A letter after one dash. -/
  | letter (c : Char)
  /-- Any other text, a lone dash among them. -/
  | plain
  deriving DecidableEq, Repr

/-- The text after the first sign of equality. -/
def afterEquals? (text : Text) : Option Text :=
  match text.dropWhile (· != '=') with
  | [] => none
  | _ :: rest => some rest

/-- The form of an argument. -/
def Argument.ofText : Text → Argument
  | ['-', '-'] => .stop
  | '-' :: '-' :: rest => .option (rest.takeWhile (· != '=')) (afterEquals? rest)
  | '-' :: c :: _ => .letter c
  | _ => .plain

/-- The name of the question for help, as an option and as a word in the place of a task. -/
def helpName : Text := "help".toList

/-- The name of the question for the version. -/
def versionName : Text := "version".toList

/-- What an argument asks, whatever the others say. -/
def Argument.question? : Argument → Option Invocation
  | .letter c => if c = 'V' then some .version else if c = 'h' then some .help else none
  | .option name none =>
    if name = versionName then some .version else if name = helpName then some .help else none
  | _ => none

/-- A path must not be empty. -/
def path? (text : Text) : Option Text :=
  if text.isEmpty then none else some text

/-- What the arguments after a task's name say. -/
structure Options where
  settingsPath : Option Text := none
  inPlace : Bool := false
  dependency : Option Dependency := none
  file : Option Text := none
  deriving DecidableEq, Repr

/-- What a task can have behind its name, besides the option for the settings. -/
structure Grammar where
  inPlace : Bool := false
  dependency : Bool := false
  file : Bool := false

/-- The name of the option for the settings. -/
def settingsName : Text := "config".toList

/-- The name of the option for changing the file. -/
def inPlaceName : Text := "in-place".toList

/-- The name of the option for the kind of credential. -/
def dependencyName : Text := "dependency".toList

/-- What is read of arguments that make sense: what they say, unless they ask for help. -/
inductive Reading (α : Type) where
  | help
  | given (value : α)
  deriving DecidableEq, Repr

namespace Options

/-- Gives an option its value. -/
def setValue? (grammar : Grammar) (name value : Text) (options : Options) : Option Options :=
  if name = settingsName then
    if options.settingsPath.isSome then none
    else (path? value).map fun path => { options with settingsPath := some path }
  else if name = dependencyName ∧ grammar.dependency = true then
    if options.dependency.isSome then none
    else (Dependency.ofName? value).map fun dependency => { options with dependency := some dependency }
  else none

/-- Sets an option that has no value. -/
def setFlag? (grammar : Grammar) (name : Text) (options : Options) : Option Options :=
  if name = inPlaceName ∧ grammar.inPlace = true ∧ options.inPlace = false then
    some { options with inPlace := true }
  else none

/-- Takes a file. There is at most one. -/
def takeFile? (grammar : Grammar) (text : Text) (options : Options) : Option Options :=
  if grammar.file = true ∧ options.file = none then
    (path? text).map fun path => { options with file := some path }
  else none

/-- Takes files only. -/
def takeFiles? (grammar : Grammar) (options : Options) : List Text → Option Options
  | [] => some options
  | text :: rest => (options.takeFile? grammar text).bind fun taken => takeFiles? grammar taken rest

/-- Reads the arguments after a task's name. -/
def read? (grammar : Grammar) (options : Options) : List Text → Option (Reading Options)
  | [] => some (.given options)
  | argument :: rest =>
    if (Argument.ofText argument).question? = some .help then some .help
    else match Argument.ofText argument with
    | .stop => (takeFiles? grammar options rest).map .given
    | .letter _ => none
    | .plain => (options.takeFile? grammar argument).bind fun taken => read? grammar taken rest
    | .option name (some value) => (options.setValue? grammar name value).bind fun set => read? grammar set rest
    | .option name none =>
      match options.setFlag? grammar name with
      | some set => read? grammar set rest
      | none =>
        match rest with
        | [] => none
        | value :: later =>
          if Argument.ofText value = .plain then
            (options.setValue? grammar name value).bind fun set => read? grammar set later
          else none

end Options

/-- The names of the tasks, each with what may stand behind it. -/
def taskGrammars : List (Text × Grammar) :=
  [("migrate".toList, { inPlace := true, file := true }),
    ("render".toList, { file := true }),
    ("styles".toList, { dependency := true }),
    ("globals".toList, {})]

/-- The task of a name, as the options say. A file must not be missing. -/
def taskOf? (name : Text) (options : Options) : Option Task :=
  if name = "migrate".toList then options.file.map fun file => .migrate file options.inPlace
  else if name = "render".toList then options.file.map .render
  else if name = "styles".toList then some (.styles options.dependency)
  else if name = "globals".toList then some .globals
  else none

/-- What the word for help can be followed by: nothing, a task's name, or itself. -/
def isHelpTopic : List Text → Bool
  | [] => true
  | [topic] => topic == helpName || (taskGrammars.lookup topic).isSome
  | _ => false

/-- What a word in the place of a task's name and the arguments behind it ask for, the path of the settings having been
given in front or not. -/
def taskAfter? (settingsPath : Option Text) (name : Text) (rest : List Text) : Option Invocation :=
  if name = helpName then if isHelpTopic rest then some .help else none
  else
    (taskGrammars.lookup name).bind fun grammar =>
      (Options.read? grammar {} rest).bind fun reading =>
        match reading with
        | .help => some .help
        | .given options => (taskOf? name options).map (.perform (options.settingsPath <|> settingsPath))

/-- Reads the arguments from the first on, the path of the settings having been given or not. -/
def readFront? (settingsPath : Option Text) : List Text → Option Invocation
  | [] => none
  | argument :: rest =>
    match (Argument.ofText argument).question? with
    | some asked => some asked
    | none =>
      match Argument.ofText argument with
      | .stop => none
      | .letter _ => none
      | .plain => taskAfter? settingsPath argument rest
      | .option name (some value) =>
        if name = settingsName ∧ settingsPath = none then
          (path? value).bind fun path => readFront? (some path) rest
        else none
      | .option name none =>
        if name = settingsName ∧ settingsPath = none then
          match rest with
          | [] => none
          | value :: later =>
            if Argument.ofText value = .plain then
              (path? value).bind fun path => readFront? (some path) later
            else none
        else none

/-- What a line of arguments asks for; nothing if it makes no sense. -/
def Invocation.ofArguments? (arguments : List Text) : Option Invocation :=
  readFront? none arguments

end MapEmbed.Command
