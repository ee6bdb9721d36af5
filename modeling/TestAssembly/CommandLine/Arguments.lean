import TestAssembly.Files.Path
import TestAssembly.Text.Digits
import TestAssembly.Word

/-!
# Arguments of the command line

There are two commands. Their options come in any order, each at most once. The value of an option
is the next argument, or is attached to it: behind an equals sign, or behind a letter with or
without one. An argument that begins with a hyphen and goes on is never the value of the option in
front of it.

An option whose value is the next argument is pending: it is settled, that is checked, only when
another option or switch is met, or at the end. An argument that is unknown is therefore reported
before a pending option that is wrong. Required options are missed last.
-/

namespace TestAssembly.CommandLine

open Files

/-! ### Commands -/

/-- The arguments of the command that assembles exams. -/
structure AssembleArguments where
  catalog : Path
  exams : Path
  config : Option Path := none
  seed : Option UInt64 := none
  output : Option Path := none
  verbosity : UInt8 := 0
  deriving DecidableEq, Repr

/-- **Command.** -/
inductive Command where
  /-- Assemble exams and report on them. -/
  | assemble (arguments : AssembleArguments)
  /-- Print the configuration in force. -/
  | checkConfig (config : Option Path)
  deriving DecidableEq, Repr

/-- **Why arguments are no command.** -/
inductive Usage where
  | help
  | version
  | noCommand
  | unknownCommand
  | unknownArgument
  | missingOption
  | invalidValue
  | invalidSeed
  | repeatedOption
  | superfluousValue
  deriving DecidableEq, Repr

/-- Asking for help or the version is no error. -/
def Usage.isError : Usage → Bool
  | help | version => false
  | _ => true

/-- The exit code for arguments that are no command. -/
def Usage.exitCode (usage : Usage) : UInt8 := if usage.isError then 2 else 0

/-! ### Options -/

/-- Options with a value. -/
inductive OptionName where
  | catalog
  | exams
  | config
  | seed
  | output
  deriving DecidableEq, Repr

/-- What a hyphen can introduce. -/
inductive Flag where
  | option (name : OptionName)
  | verbose
  | help
  deriving DecidableEq, Repr

/-- The commands by name alone. -/
inductive CommandName where
  | assemble
  | checkConfig
  | help
  deriving DecidableEq, Repr

namespace CommandName

/-- The command of a name. -/
def ofText? : String → Option CommandName
  | "assemble" => some assemble
  | "check-config" => some checkConfig
  | "help" => some help
  | _ => none

/-- What a command knows by a long name. -/
def longFlag? (command : CommandName) (name : String) : Option Flag :=
  match command, name with
  | _, "help" => some .help
  | _, "config" => some (.option .config)
  | assemble, "catalog" => some (.option .catalog)
  | assemble, "exams" => some (.option .exams)
  | assemble, "seed" => some (.option .seed)
  | assemble, "output" => some (.option .output)
  | assemble, "verbose" => some .verbose
  | _, _ => none

/-- What a command knows by a letter. -/
def shortFlag? (command : CommandName) (letter : Char) : Option Flag :=
  match command, letter with
  | _, 'h' => some .help
  | _, 'c' => some (.option .config)
  | assemble, 'o' => some (.option .output)
  | assemble, 'v' => some .verbose
  | _, _ => none

end CommandName

/-! ### Arguments by form -/

/-- **Form of an argument.** -/
inductive ArgumentForm where
  /-- Two hyphens: no options follow. -/
  | terminator
  /-- Two hyphens and a name, with the value behind an equals sign. -/
  | long (name : String) (value : Option String)
  /-- A hyphen and letters. -/
  | short (letters : List Char)
  /-- Anything else, a single hyphen included. -/
  | word
  deriving DecidableEq, Repr

/-- The form of an argument. -/
def ArgumentForm.ofText (argument : String) : ArgumentForm :=
  match argument.toList with
  | ['-', '-'] => terminator
  | '-' :: '-' :: rest =>
    let (name, behind) := rest.span (· != '=')
    match behind with
    | [] => long (String.ofList name) none
    | _ :: value => long (String.ofList name) (some (String.ofList value))
  | '-' :: c :: rest => short (c :: rest)
  | _ => word

/-! ### Options of a command -/

/-- The seed that a text stands for. -/
def seed? (text : String) : Option UInt64 :=
  let digits :=
    match text.toList with
    | '+' :: digits => digits
    | digits => digits
  if !digits.isEmpty && digits.all (Text.isDigitOf 10) then
    let n := Text.ofDigits 10 digits
    if n < wordBound then some (UInt64.ofNat n) else none
  else none

/-- **Options met so far**: those with a checked value, the pending one with its value if it
has one, and how often more detail was asked for. -/
structure OptionState where
  values : List (OptionName × String) := []
  pending : Option (OptionName × Option String) := none
  verbosity : Nat := 0
  deriving DecidableEq, Repr

namespace OptionState

/-- The value of an option. -/
def value? (state : OptionState) (name : OptionName) : Option String :=
  (state.values.find? (·.1 = name)).map Prod.snd

/-- Why a value is none for an option. -/
def fault? (name : OptionName) (value : String) : Option Usage :=
  match name with
  | .seed => if (seed? value).isNone then some .invalidSeed else none
  | _ => if value = "" then some .invalidValue else none

/-- Give an option its value. -/
def add (state : OptionState) (name : OptionName) (value : String) : Except Usage OptionState :=
  if (state.value? name).isSome then .error .repeatedOption
  else
    match fault? name value with
    | some fault => .error fault
    | none => .ok { state with values := (name, value) :: state.values }

/-- **Settle the pending option.** -/
def settle (state : OptionState) : Except Usage OptionState :=
  match state.pending with
  | none => .ok state
  | some (_, none) => .error .invalidValue
  | some (name, some value) => { state with pending := none }.add name value

/-- Meet a switch. -/
def meetSwitch (state : OptionState) (isHelp : Bool) : Except Usage OptionState :=
  match state.settle with
  | .error fault => .error fault
  | .ok state =>
    if isHelp then .error .help else .ok { state with verbosity := min 255 (state.verbosity + 1) }

/-- Meet an option with an attached value, or without one. -/
def meetOption (state : OptionState) (name : OptionName) (value : Option String) :
    Except Usage OptionState :=
  match state.settle with
  | .error fault => .error fault
  | .ok state =>
    match value with
    | some value => state.add name value
    | none => .ok { state with pending := some (name, none) }

/-- Meet a run of letters behind a hyphen. -/
def meetLetters (command : CommandName) : OptionState → List Char → Except Usage OptionState
  | state, [] => .ok state
  | state, c :: rest =>
    match command.shortFlag? c with
    | none => .error .unknownArgument
    | some (.option name) =>
      match rest with
      | [] => state.meetOption name none
      | '=' :: value => state.meetOption name (some (String.ofList value))
      | value => state.meetOption name (some (String.ofList value))
    | some flag =>
      match state.meetSwitch (flag = .help) with
      | .error fault => .error fault
      | .ok state => state.meetLetters command rest

/-- Meet an argument. -/
def meet (command : CommandName) (state : OptionState) (argument : String) :
    Except Usage OptionState :=
  match ArgumentForm.ofText argument with
  | .terminator => .ok state
  | .long name value =>
    match command.longFlag? name with
    | none => .error .unknownArgument
    | some (.option name) => state.meetOption name value
    | some flag =>
      if value.isSome then .error .superfluousValue else state.meetSwitch (flag = .help)
  | .short letters => state.meetLetters command letters
  | .word =>
    match state.pending with
    | some (name, none) => .ok { state with pending := some (name, some argument) }
    | _ => .error .unknownArgument

/-- **Options that arguments give.** Behind a terminator there must be nothing. -/
def ofArguments (command : CommandName) : OptionState → List String → Except Usage OptionState
  | state, [] => state.settle
  | state, argument :: rest =>
    if ArgumentForm.ofText argument = .terminator then
      if rest.isEmpty then state.settle else .error .unknownArgument
    else
      match state.meet command argument with
      | .error fault => .error fault
      | .ok state => ofArguments command state rest

/-- Take the path of the configuration from the environment, unless an option gave it. -/
def withEnvironment (state : OptionState) (config : Option String) : Except Usage OptionState :=
  match state.value? .config, config with
  | none, some value => state.add .config value
  | _, _ => .ok state

/-- The path that an option gives. -/
def path? (state : OptionState) (name : OptionName) : Option Path :=
  (state.value? name).map Path.ofText

end OptionState

/-! ### Command lines -/

/-- The command that options stand for. -/
def Command.ofOptions (name : CommandName) (options : OptionState) : Except Usage Command :=
  let config := options.path? .config
  match name with
  | .assemble =>
    match options.path? .catalog, options.path? .exams with
    | some catalog, some exams => .ok <| .assemble
        { catalog, exams, config
          seed := (options.value? .seed).bind seed?
          output := options.path? .output
          verbosity := UInt8.ofNat options.verbosity }
    | _, _ => .error .missingOption
  | .checkConfig => .ok (.checkConfig config)
  | .help => .error .help

/-- What asking for help on commands comes to. -/
def helpOn : List String → Usage
  | [] => .help
  | [name] => if (CommandName.ofText? name).isSome then .help else .unknownCommand
  | _ => .unknownCommand

/-- **Command that arguments stand for**, with the path of the configuration in the environment. -/
def Command.parse (environment : Option String) : List String → Except Usage Command
  | [] => .error .noCommand
  | argument :: rest =>
    match CommandName.ofText? argument with
    | some .help => .error (helpOn rest)
    | some name => do
      let options ← OptionState.ofArguments name {} rest
      Command.ofOptions name (← options.withEnvironment environment)
    | none =>
      match ArgumentForm.ofText argument with
      | .terminator =>
        match rest with
        | [] => .error .noCommand
        | name :: _ =>
          if (CommandName.ofText? name).isSome then .error .unknownArgument
          else .error .unknownCommand
      | .long name value =>
        if name = "help" ∨ name = "version" then
          if value.isSome then .error .superfluousValue
          else .error (if name = "help" then .help else .version)
        else .error .unknownArgument
      | .short ('h' :: _) => .error .help
      | .short ('V' :: _) => .error .version
      | .short _ => .error .unknownArgument
      | .word => .error .unknownCommand

end TestAssembly.CommandLine
