/-!
# CommandLine — what the arguments of the program ask for

`check` compares catalogs with the keys used in source and takes options, `init` writes a
configuration file.  Options with a value are written `--src-dir x`, `--src-dir=x`, `-r x`, `-rx`
or `-r=x`; switches may be joined behind one dash.  `CommandLine.parse` says what is asked for, or
which kind of answer the arguments get instead: a usage error, the help text or the version.
-/

namespace Phrasebook.CommandLine

/-- The options of `check`. -/
structure CheckOptions where
  srcDir : Option String := none
  configDir : Option String := none
  defaultLocale : Option String := none
  fix : Bool := false
  noColor : Bool := false
  verbose : Bool := false
  deriving DecidableEq

/-- What the program is asked to do. -/
inductive Command where
  | check (options : CheckOptions)
  | init
  deriving DecidableEq

/-- What arguments get that ask for no command. -/
inductive Refusal where
  | invalidValue
  | argumentConflict
  | tooManyValues
  | unknownArgument
  | invalidSubcommand
  | displayHelp
  | displayVersion
  deriving DecidableEq

/-- The exit code of a refusal: help and version were asked for, anything else is an error. -/
def Refusal.exitCode : Refusal → Nat
  | displayHelp => 0
  | displayVersion => 0
  | _ => 2

/-- Options that take a value. -/
inductive Setting where
  | srcDir
  | configDir
  | defaultLocale
  deriving DecidableEq

/-- Options that take none. -/
inductive Switch where
  | fix
  | noColor
  | verbose
  | help
  deriving DecidableEq

/-- Where the reading of the options of a command stands. -/
structure State where
  options : CheckOptions := {}
  /-- The setting that was named last, with its value as soon as that is known. -/
  pending : Option (Setting × Option String) := none

/-- Sets an option, which must not have been set before; folders must have a name. -/
def set (options : CheckOptions) (setting : Setting) (value : String) :
    Except Refusal CheckOptions :=
  match setting with
  | .srcDir =>
    if options.srcDir.isSome then .error .argumentConflict
    else if value = "" then .error .invalidValue
    else .ok { options with srcDir := some value }
  | .configDir =>
    if options.configDir.isSome then .error .argumentConflict
    else if value = "" then .error .invalidValue
    else .ok { options with configDir := some value }
  | .defaultLocale =>
    if options.defaultLocale.isSome then .error .argumentConflict
    else .ok { options with defaultLocale := some value }

namespace State

/-- Sets the option that was named last; it must have got a value. -/
def settle (state : State) : Except Refusal State :=
  match state.pending with
  | none => .ok state
  | some (_, none) => .error .invalidValue
  | some (setting, some value) => do
    let options ← set state.options setting value
    return { options }

/-- Turns a switch on, which must not be on already. -/
def turnOn (state : State) (switch : Switch) : Except Refusal State := do
  let state ← state.settle
  let options := state.options
  match switch with
  | .help => .error .displayHelp
  | .fix =>
    if options.fix then .error .argumentConflict else .ok { options := { options with fix := true } }
  | .noColor =>
    if options.noColor then .error .argumentConflict
    else .ok { options := { options with noColor := true } }
  | .verbose =>
    if options.verbose then .error .argumentConflict
    else .ok { options := { options with verbose := true } }

/-- Names a setting; a value that is attached to it is set at once. -/
def name (state : State) (setting : Setting) (attached : Option String) : Except Refusal State := do
  let state ← state.settle
  match attached with
  | some value => (set state.options setting value).map fun options => { options }
  | none => .ok { state with pending := some (setting, none) }

end State

/-- The option that a long name denotes. -/
def longOption? : String → Option (Setting ⊕ Switch)
  | "src-dir" => some (.inl .srcDir)
  | "root-dir" => some (.inl .srcDir)
  | "config-dir" => some (.inl .configDir)
  | "default" => some (.inl .defaultLocale)
  | "fix" => some (.inr .fix)
  | "no-color" => some (.inr .noColor)
  | "verbose" => some (.inr .verbose)
  | "help" => some (.inr .help)
  | _ => none

/-- The option that a letter denotes. -/
def shortOption? : Char → Option (Setting ⊕ Switch)
  | 'r' => some (.inl .srcDir)
  | 'c' => some (.inl .configDir)
  | 'f' => some (.inr .fix)
  | 'v' => some (.inr .verbose)
  | 'h' => some (.inr .help)
  | _ => none

/-- What stands before the first equals sign and, if there is one, behind it. -/
def splitEquals (text : List Char) : String × Option String :=
  let name := String.ofList (text.takeWhile (· ≠ '='))
  match text.dropWhile (· ≠ '=') with
  | [] => (name, none)
  | _ :: value => (name, some (String.ofList value))

/-- An option with two dashes. -/
def readLong (long? : String → Option (Setting ⊕ Switch)) (state : State) (text : List Char) :
    Except Refusal State :=
  let (name, attached) := splitEquals text
  match long? name, attached with
  | none, _ => .error .unknownArgument
  | some (.inl setting), attached => state.name setting attached
  | some (.inr _), some _ => .error .tooManyValues
  | some (.inr switch), none => state.turnOn switch

/-- Options joined behind one dash; what follows the letter of a setting is its value. -/
def readShort (short? : Char → Option (Setting ⊕ Switch)) (state : State) :
    List Char → Except Refusal State
  | [] => .ok state
  | letter :: rest =>
    match short? letter with
    | none => .error .unknownArgument
    | some (.inl setting) =>
      match rest with
      | [] => state.name setting none
      | '=' :: value => state.name setting (some (String.ofList value))
      | value => state.name setting (some (String.ofList value))
    | some (.inr switch) =>
      match state.turnOn switch with
      | .ok state => readShort short? state rest
      | .error refusal => .error refusal

/-- The options of a command; `ended` says that two dashes have ended them. -/
def readOptions (long? : String → Option (Setting ⊕ Switch))
    (short? : Char → Option (Setting ⊕ Switch)) (state : State) (ended : Bool) :
    List String → Except Refusal CheckOptions
  | [] => state.settle.map State.options
  | argument :: rest =>
    if ended then .error .unknownArgument
    else
      match argument.toList with
      | ['-', '-'] => readOptions long? short? state true rest
      | '-' :: '-' :: text =>
        match readLong long? state text with
        | .ok state => readOptions long? short? state false rest
        | .error refusal => .error refusal
      | '-' :: letter :: text =>
        match readShort short? state (letter :: text) with
        | .ok state => readOptions long? short? state false rest
        | .error refusal => .error refusal
      | _ =>
        match state.pending with
        | some (setting, none) =>
          readOptions long? short? { state with pending := some (setting, some argument) } false rest
        | _ => .error .unknownArgument

/-- The only option of a command that takes no others. -/
def onlyHelp {α : Type} (option? : α → Option (Setting ⊕ Switch)) (name : α) :
    Option (Setting ⊕ Switch) :=
  match option? name with
  | some (.inr .help) => some (.inr .help)
  | _ => none

/-- What the name of a subcommand and the arguments behind it ask for. -/
def subcommand? (name : String) (rest : List String) : Option (Except Refusal Command) :=
  if name = "check" then some ((readOptions longOption? shortOption? {} false rest).map .check)
  else if name = "init" then
    some ((readOptions (onlyHelp longOption?) (onlyHelp shortOption?) {} false rest).map
      fun _ => .init)
  else if name = "help" then
    match rest with
    | [] => some (.error .displayHelp)
    | [topic] =>
      some (.error (if ["check", "init", "help"].contains topic then .displayHelp
        else .invalidSubcommand))
    | _ => some (.error .invalidSubcommand)
  else none

/-- What an option in the place of a subcommand gets. -/
def refuseOption : List Char → Refusal
  | '-' :: text =>
    let (name, attached) := splitEquals text
    if name = "help" then (if attached.isSome then .tooManyValues else .displayHelp)
    else if name = "version" then (if attached.isSome then .tooManyValues else .displayVersion)
    else .unknownArgument
  | 'h' :: _ => .displayHelp
  | 'V' :: _ => .displayVersion
  | _ => .unknownArgument

/-- What the arguments behind the program's name ask for; nothing if there are none. -/
def parse : List String → Except Refusal (Option Command)
  | [] => .ok none
  | argument :: rest =>
    match subcommand? argument rest with
    | some result => result.map some
    | none =>
      match argument.toList with
      | ['-', '-'] =>
        match rest with
        | [] => .ok none
        | next :: _ =>
          .error (if ["check", "init", "help"].contains next then .unknownArgument
            else .invalidSubcommand)
      | '-' :: letter :: text => .error (refuseOption (letter :: text))
      | _ => .error .invalidSubcommand

end Phrasebook.CommandLine
