import ModelOperator.CommandLine.Outcome

/-!
# The program

    Reads the arguments, reads the file that they name and prints the outcome. -/

open ModelOperator

/-- The text of a file, or of the standard input; none if it cannot be read. -/
def readText (file : String) : IO (Option String) := do
  try
    if file = CommandLine.standardInput then
      let text ← (← IO.getStdin).readToEnd
      return some text
    else
      let text ← IO.FS.readFile file
      return some text
  catch _ => return none

def main (arguments : List String) : IO UInt32 := do
  let task := CommandLine.Task.ofArguments arguments
  let text ← match task with
    | .render file => readText file
    | _ => pure none
  let outcome := task.outcome fun _ => text
  (← IO.getStdout).putStr outcome.output
  (← IO.getStderr).putStr outcome.complaint
  return outcome.code.toUInt32
