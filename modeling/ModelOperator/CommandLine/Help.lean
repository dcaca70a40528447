import ModelOperator.CommandLine.Setting

/-!
# Help pages

    A page says what a command does, how it is called and what it takes. -/

namespace ModelOperator

namespace CommandLine

/-- What can be looked up. -/
inductive Page where
  | program
  | controller
  | render
  | help
  | version
  deriving DecidableEq, Repr

/-- The name of a value in help texts. -/
def Setting.placeholder (s : Setting) : String :=
  String.ofList (s.name.toList.map fun c => if c = '-' then '_' else c.toUpper)

/-- The lines on a setting. -/
def Setting.help (s : Setting) : String :=
  let shown := match s.value with
    | none => "--" ++ s.name
    | some _ => "--" ++ s.name ++ " <" ++ s.placeholder ++ ">"
  let source := match s.variableName with
    | none => ""
    | some name => " [env: " ++ name ++ "=]"
  let preset := match s.default with
    | none => ""
    | some value => " [default: " ++ value ++ "]"
  "      " ++ shown ++ "\n          " ++ s.note ++ source ++ preset ++ "\n"

/-- The section on settings. -/
def settingsHelp (settings : List Setting) : String :=
  "\nOptions:\n" ++ String.join (settings.map Setting.help) ++
    "  -h, --help\n          Print help\n"

/-- What the controllers do. -/
def controllerNote : String := "Run the Model and Prompt controllers (default mode)"

/-- What rendering does. -/
def renderNote : String := "Print the StatefulSet and Service rendered for a Model manifest"

/-- What looking up does. -/
def helpNote : String := "Print this message or the help of the given subcommand(s)"

/-- The text of a page. -/
def Page.text : Page → String
  | version => "ollama-operator 0.1.0\n"
  | program =>
    "Kubernetes operator running Ollama models and answering prompts against them\n\n" ++
    "Usage: ollama-operator [OPTIONS] [COMMAND]\n\nCommands:\n" ++
    "  controller  " ++ controllerNote ++ "\n  render      " ++ renderNote ++
    "\n  help        " ++ helpNote ++ "\n" ++
    settingsHelp (Setting.definitions :: Setting.shared) ++
    "  -V, --version\n          Print version\n"
  | controller =>
    controllerNote ++ "\n\nUsage: ollama-operator controller [OPTIONS]\n" ++
    settingsHelp Setting.shared
  | render =>
    renderNote ++ "\n\nUsage: ollama-operator render [OPTIONS] <FILE>\n\nArguments:\n" ++
    "  <FILE>  Model manifest (YAML or JSON), `-` for stdin\n" ++ settingsHelp Setting.shared
  | help =>
    helpNote ++ "\n\nUsage: ollama-operator help [COMMAND]...\n\nArguments:\n" ++
    "  [COMMAND]...  Print help for the subcommand(s)\n"

end CommandLine

end ModelOperator
