/-!
# Command line arguments

Options and other arguments may stand in any order.  A long option takes its value after an
equals sign or from the next argument; short options can be joined, and the last of them may have
its value right behind it.  An option that takes a value takes the next argument whatever it is.
Two dashes alone end the options.  The last of a repeated option counts.
-/

namespace GeoLint

namespace CommandLine

/-- Why arguments make no request. -/
inductive UsageError where
  /-- There is no such option. -/
  | unknownOption
  /-- An option lacks its value. -/
  | missingValue
  /-- A value is given to an option that takes none. -/
  | unexpectedValue
  /-- No command is named. -/
  | noCommand
  /-- There is no such command. -/
  | unknownCommand
  /-- Too many or too few arguments. -/
  | wrongCount
deriving DecidableEq, Repr

/-- What an option does to the settings `σ`. -/
inductive Effect (σ : Type) where
  /-- The option stands alone. -/
  | flag (apply : σ → σ)
  /-- The option takes a value. -/
  | value (apply : String → σ → σ)

/-- An option. -/
structure OptionSpec (σ : Type) where
  /-- Its name, with two dashes. -/
  long : String
  /-- The letter of its short form, if it has one. -/
  short : Option Char
  /-- What it does. -/
  effect : Effect σ

/-- What is left to do after the options of one argument. -/
inductive Progress (σ : Type) where
  /-- Nothing. -/
  | done (s : σ)
  /-- The next argument is a value. -/
  | wants (apply : String → σ)

variable {σ : Type}

/-- The argument is read as options. -/
def isOption (arg : String) : Bool :=
  arg.startsWith "-" && 1 < arg.length

/-- Apply joined short options. -/
def shortOptions (specs : List (OptionSpec σ)) : σ → List Char → Except UsageError (Progress σ)
  | s, [] => .ok (.done s)
  | s, c :: cs =>
    match specs.find? fun o => o.short = some c with
    | none => .error .unknownOption
    | some o =>
      match o.effect with
      | .flag apply => shortOptions specs (apply s) cs
      | .value apply =>
        if cs.isEmpty then .ok (.wants fun v => apply v s)
        else .ok (.done (apply (String.ofList cs) s))

/-- Apply a long option, with its value if one is attached. -/
def longOption (specs : List (OptionSpec σ)) (s : σ) (name : String) (attached : Option String) :
    Except UsageError (Progress σ) :=
  match specs.find? fun o => o.long = name with
  | none => .error .unknownOption
  | some o =>
    match o.effect, attached with
    | .flag apply, none => .ok (.done (apply s))
    | .flag _, some _ => .error .unexpectedValue
    | .value apply, some v => .ok (.done (apply v s))
    | .value apply, none => .ok (.wants fun v => apply v s)

/-- Apply the options of one argument. -/
def applyArgument (specs : List (OptionSpec σ)) (s : σ) (arg : String) :
    Except UsageError (Progress σ) :=
  if arg.startsWith "--" then
    let cs := arg.toList
    let name := cs.takeWhile (· ≠ '=')
    let attached := match cs.drop name.length with
      | [] => none
      | _ :: v => some (String.ofList v)
    longOption specs s (String.ofList name) attached
  else shortOptions specs s (arg.toList.drop 1)

/-- Apply all options; what is left are the other arguments. -/
def readOptions (specs : List (OptionSpec σ)) :
    σ → List String → Except UsageError (σ × List String)
  | s, [] => .ok (s, [])
  | s, arg :: rest =>
    if arg = "--" then .ok (s, rest)
    else if isOption arg then do
      match ← applyArgument specs s arg with
      | .done s => readOptions specs s rest
      | .wants apply =>
        match rest with
        | [] => .error .missingValue
        | v :: rest => readOptions specs (apply v) rest
    else do
      let (s, others) ← readOptions specs s rest
      return (s, arg :: others)

/-! ### Requests -/

/-- What a lint is asked to do. -/
structure LintOptions where
  /-- The files to lint. -/
  files : List String := []
  /-- A script given as an argument. -/
  command : Option String := none
  /-- The configuration file. -/
  config : String := ".ggb-lint.toml"
  /-- The least severity that is shown. -/
  severity : String := "info"
  /-- The scripts are chat texts with commands in them. -/
  extract : Bool := false
  /-- Events are of interest. -/
  verbose : Bool := false
deriving DecidableEq, Repr

/-- What a command line asks for. -/
inductive Request where
  /-- Lint scripts. -/
  | lint (options : LintOptions)
  /-- List the tokens of a script. -/
  | tokens (source : String)
  /-- Show the tree of a script. -/
  | tree (source : String)
  /-- List the known commands whose names start so. -/
  | commands (start : String)
deriving DecidableEq, Repr

/-- The options of a lint. -/
def lintSpecs : List (OptionSpec LintOptions) :=
  [⟨"--command", some 'c', .value fun v o => { o with command := some v }⟩,
   ⟨"--config", none, .value fun v o => { o with config := v }⟩,
   ⟨"--severity", none, .value fun v o => { o with severity := v }⟩,
   ⟨"--extract", none, .flag fun o => { o with extract := true }⟩,
   ⟨"--no-extract", none, .flag fun o => { o with extract := false }⟩,
   ⟨"--verbose", some 'v', .flag fun o => { o with verbose := true }⟩]

/-- The arguments of a command without options. -/
def plainArguments (args : List String) : Except UsageError (List String) :=
  (readOptions ([] : List (OptionSpec Unit)) () args).map Prod.snd

/-- The request of a command and its arguments. -/
def requestOf (command : String) (args : List String) : Except UsageError Request :=
  if command = "lint" then do
    let (o, files) ← readOptions lintSpecs {} args
    return .lint { o with files := files }
  else if command = "tokens" then do
    match ← plainArguments args with
    | [source] => return .tokens source
    | _ => .error .wrongCount
  else if command = "ast" then do
    match ← plainArguments args with
    | [source] => return .tree source
    | _ => .error .wrongCount
  else if command = "commands" then do
    match ← plainArguments args with
    | [] => return .commands ""
    | [start] => return .commands start
    | _ => .error .wrongCount
  else .error .unknownCommand

/-- The request of a command line.  Options in front of the command are not known. -/
def parse (args : List String) : Except UsageError Request :=
  match args with
  | [] => .error .noCommand
  | arg :: rest =>
    if arg = "--" then
      match rest with
      | [] => .error .noCommand
      | command :: rest => requestOf command rest
    else if isOption arg then .error .unknownOption
    else requestOf arg rest

end CommandLine

end GeoLint
