import QueryCompiler.CommandLine.Run

/-! # `QueryCompiler.Main` — the command

Reads the arguments, the environment and the plan, and prints what the command line comes to.
-/

namespace QueryCompiler.CommandLine

/-- The text of a file, if it can be read. -/
def readPlanFile (path : String) : IO (Option String) := do
  try
    let text ← IO.FS.readFile path
    return some text
  catch _ => return none

/-- The text of the input, if it is text. -/
def readPlanInput : IO (Option String) := do
  try
    let input ← IO.getStdin
    let text ← input.readToEnd
    return some text
  catch _ => return none

/-- Runs the command and gives the code it ends with. -/
def command (args : List String) : IO UInt32 := do
  let environment ← IO.getEnv "OXIDE_QUERY_DIALECT"
  let outcome ← match options args environment with
    | .error stop => pure stop.outcome
    | .ok options => do
      let source ← match options.plan with
        | some path => readPlanFile path
        | none => readPlanInput
      pure (run options source)
  IO.print outcome.output
  IO.eprint outcome.errors
  return outcome.exit

end QueryCompiler.CommandLine

def main (args : List String) : IO UInt32 := QueryCompiler.CommandLine.command args
