import ModelOperator.CommandLine.Help

/-!
# Reading the command line

    The arguments are settings, then perhaps a command, then more settings and what the
    command takes.  Arguments are read one by one, and the first fault or the first
    question for help ends the reading.  A setting's value is checked only when the next
    setting is read, or at the end.

    * `Arguments.read` gives what is to be done;
    * `ArgumentReader.take` takes one argument. -/

namespace ModelOperator

namespace CommandLine

/-- Why arguments are refused. -/
inductive UsageFault where
  | unexpected (argument : String)
  | unknownCommand (name : String)
  | missingValue (name : String)
  | needlessValue (name : String)
  | invalidValue (name value : String)
  | repeated (name : String)
  | missingFile
  deriving DecidableEq, Repr

/-- The message of a fault. -/
def UsageFault.message : UsageFault → String
  | unexpected argument => s!"error: unexpected argument '{argument}' found"
  | unknownCommand name => s!"error: unrecognized subcommand '{name}'"
  | missingValue name => s!"error: a value is required for '--{name}' but none was supplied"
  | needlessValue name => s!"error: unexpected value for '--{name}' found; no more were expected"
  | invalidValue name value => s!"error: invalid value '{value}' for '--{name}'"
  | repeated name => s!"error: the argument '--{name}' cannot be used multiple times"
  | missingFile => "error: the following required arguments were not provided: <FILE>"

/-- Why the reading of arguments ends early: at a fault, or to show a page. -/
inductive Halt where
  | usage (fault : UsageFault)
  | display (page : Page)
  deriving DecidableEq, Repr

/-- The commands. -/
inductive Command where
  | controller
  | render
  deriving DecidableEq, Repr

/-- The commands by name. -/
def Command.named : List (String × Command) := [("controller", .controller), ("render", .render)]

/-- The page of a command, or of the program. -/
def Command.page : Option Command → Page
  | none => .program
  | some controller => .controller
  | some render => .render

/-- A setting that was given, with its value if it takes one. -/
structure Given where
  setting : Setting
  value : Option String := none

/-- How far the reading has come, before a command or behind it. -/
structure ArgumentReader where
  command : Option Command := none
  given : List Given := []
  pending : Option Given := none
  file : Option String := none
  escaped : Bool := false

namespace ArgumentReader

/-- The settings that may be given here. -/
def settings (r : ArgumentReader) : List Setting :=
  match r.command with
  | none => Setting.definitions :: Setting.shared
  | some _ => Setting.shared

/-- Whether a setting waits for its value. -/
def awaitsValue (r : ArgumentReader) : Bool :=
  match r.pending with
  | some g => g.value.isNone
  | none => false

/-- Keeps a setting that is complete, if it may be given and takes its value. -/
def keep (r : ArgumentReader) (g : Given) : Except Halt ArgumentReader :=
  if r.given.any fun other => other.setting.name == g.setting.name then
    .error (.usage (.repeated g.setting.name))
  else
    match g.setting.value, g.value with
    | some _, none => .error (.usage (.missingValue g.setting.name))
    | some type, some value =>
      if type.admits value then .ok { r with given := r.given ++ [g] }
      else .error (.usage (.invalidValue g.setting.name value))
    | none, _ => .ok { r with given := r.given ++ [g] }

/-- Completes the setting that was read last. -/
def resolve (r : ArgumentReader) : Except Halt ArgumentReader :=
  match r.pending with
  | none => .ok r
  | some g =>
    match g.value with
    | none => .error (.usage (.missingValue g.setting.name))
    | some _ => { r with pending := none }.keep g

/-- Shows a page, once what was read before is complete. -/
def display {α : Type} (r : ArgumentReader) (page : Page) : Except Halt α := do
  let _ ← r.resolve
  .error (.display page)

/-- The page that a name asks for. -/
def page? (r : ArgumentReader) (name : String) : Option Page :=
  if name = "help" then some (Command.page r.command)
  else if name = "version" && r.command.isNone then some .version
  else none

/-- Takes a setting by name, with the value that is attached to it. -/
def option (r : ArgumentReader) (name : String) (attached : Option String) :
    Except Halt ArgumentReader :=
  match r.page? name with
  | some page =>
    if attached.isSome then .error (.usage (.needlessValue name)) else r.display page
  | none =>
    match r.settings.find? fun s => s.name == name with
    | none => .error (.usage (.unexpected ("--" ++ name)))
    | some s =>
      match s.value, attached with
      | none, none => do (← r.resolve).keep ⟨s, none⟩
      | none, some _ => .error (.usage (.needlessValue name))
      | some _, some value => do (← r.resolve).keep ⟨s, some value⟩
      | some _, none => do return { ← r.resolve with pending := some ⟨s, none⟩ }

/-- Takes a letter that stands for a setting. -/
def letter (r : ArgumentReader) (c : Char) : Except Halt ArgumentReader :=
  if c = 'h' then r.option "help" none
  else if c = 'V' && r.command.isNone then r.option "version" none
  else .error (.usage (.unexpected (String.ofList ['-', c])))

/-- Takes an argument that is no setting. -/
def positional (r : ArgumentReader) (value : String) : Except Halt ArgumentReader := do
  let r ← r.resolve
  match r.command, r.file with
  | some .render, none => .ok { r with file := some value }
  | none, _ => .error (.usage (.unknownCommand value))
  | _, _ => .error (.usage (.unexpected value))

/-- A name and the value attached to it by an equals sign. -/
def splitValue (cs : List Char) : String × Option String :=
  let name := String.ofList (cs.takeWhile (· != '='))
  match cs.dropWhile (· != '=') with
  | [] => (name, none)
  | _ :: value => (name, some (String.ofList value))

/-- Takes one argument. -/
def take (r : ArgumentReader) (argument : String) : Except Halt ArgumentReader :=
  if r.escaped then r.positional argument
  else
    match argument.toList with
    | ['-', '-'] => .ok { r with escaped := true }
    | '-' :: '-' :: rest =>
      let (name, attached) := splitValue rest
      r.option name attached
    | '-' :: c :: _ => r.letter c
    | _ =>
      if r.awaitsValue then
        .ok { r with pending := r.pending.map fun g => { g with value := some argument } }
      else r.positional argument

/-- Takes the arguments behind a command. -/
def takeAll (r : ArgumentReader) : List String → Except Halt ArgumentReader
  | [] => .ok r
  | argument :: rest => do (← r.take argument).takeAll rest

/-- What was read of a command, once it is complete. -/
def finish (r : ArgumentReader) : Except Halt ArgumentReader := do
  let r ← r.resolve
  if r.command == some .render && r.file.isNone then .error (.usage .missingFile) else .ok r

end ArgumentReader

/-- The arguments as they are meant: the settings, and a command with its file. -/
structure Arguments where
  given : List Given := []
  command : Option Command := none
  file : Option String := none

namespace Arguments

/-- The page that the names behind `help` ask for. -/
def helpPage : List String → Except Halt Arguments
  | [] => .error (.display .program)
  | ["controller"] => .error (.display .controller)
  | ["render"] => .error (.display .render)
  | ["help"] => .error (.display .help)
  | "controller" :: other :: _ => .error (.usage (.unknownCommand other))
  | "render" :: other :: _ => .error (.usage (.unknownCommand other))
  | "help" :: other :: _ => .error (.usage (.unknownCommand other))
  | other :: _ => .error (.usage (.unknownCommand other))

/-- Reads on from where a reader stands before any command. -/
def readFrom (r : ArgumentReader) : List String → Except Halt Arguments
  | [] => do return { given := (← r.finish).given }
  | argument :: rest =>
    let free := !r.escaped && !r.awaitsValue
    if free && argument == "help" then helpPage rest
    else
      match if free then Command.named.lookup argument else none with
      | some command => do
        let inner ← (← ({ command := some command } : ArgumentReader).takeAll rest).finish
        let outer ← r.finish
        return ⟨inner.given ++ outer.given, some command, inner.file⟩
      | none => do readFrom (← r.take argument) rest

/-- Reads the arguments of a call. -/
def read (arguments : List String) : Except Halt Arguments := readFrom {} arguments

/-- Whether a switch was given. -/
def has (a : Arguments) (s : Setting) : Bool :=
  a.given.any fun g => g.setting.name == s.name

end Arguments

end CommandLine

end ModelOperator
