import ModelOperator.CommandLine.Arguments
import ModelOperator.Controller.Manifests
import ModelOperator.Resource.Definition

/-!
# What a call of the program does

    A call is read into a task.  Pages and definitions are printed at once; a rendering
    needs the text of a file first.  A call that cannot be read ends with code 2, one
    that fails with code 1. -/

namespace ModelOperator

namespace CommandLine

/-- How a call ends. -/
structure Outcome where
  code : Nat := 0
  output : String := ""
  complaint : String := ""
  deriving DecidableEq, Repr

/-- What a call asks for. -/
inductive Task where
  | finish (outcome : Outcome)
  | render (file : String)
  | control (arguments : Arguments)

/-- The file name that stands for the standard input. -/
def standardInput : String := "-"

/-- What the arguments ask for; the definitions come before any command. -/
def Task.ofArguments (arguments : List String) : Task :=
  match Arguments.read arguments with
  | .error (.display page) => .finish { output := page.text }
  | .error (.usage fault) => .finish { code := 2, complaint := fault.message ++ "\n" }
  | .ok a =>
    if a.has Setting.definitions then .finish { output := definitionsText }
    else
      match a.command, a.file with
      | some .render, some file => .render file
      | _, _ => .control a

/-- A failure with a message. -/
def Outcome.failure (message : String) : Outcome :=
  { code := 1, complaint := "Error: " ++ message ++ "\n" }

/-- The outcome of rendering, from the text of the file if it can be read. -/
def renderOutcome (file : String) (text : Option String) : Outcome :=
  match text with
  | none =>
    .failure (if file = standardInput then "failed to read Model from stdin"
      else "failed to read " ++ file)
  | some text =>
    match renderManifests text with
    | .ok manifests => { output := manifests }
    | .error e => .failure e.message

/-- The outcome of a task that needs no cluster, with what can be read from files; the
    controllers find no cluster. -/
def Task.outcome (read : String → Option String) : Task → Outcome
  | .finish outcome => outcome
  | .render file => renderOutcome file (read file)
  | .control _ => .failure "Failed to create Kubernetes client"

end CommandLine

end ModelOperator
