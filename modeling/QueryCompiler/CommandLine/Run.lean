import QueryCompiler.CommandLine.Arguments
import QueryCompiler.Plan.Build

/-! # `QueryCompiler.CommandLine.Run` — from a plan to what is printed

The command ends with code 0 and the compiled query on its output, with code 1 and a message if the
plan cannot be read or compiled, or with code 2 and a message if the arguments make no sense.
-/

namespace QueryCompiler.CommandLine

/-- How the command ends. -/
structure Outcome where
  exit : UInt32
  output : String
  errors : String

/-- The end of a command that could not do its work. -/
def Outcome.failed (message : String) : Outcome := ⟨1, "", "Error: " ++ message ++ "\n"⟩

def versionText : String := "oxide-query 0.1.0\n"

def helpText : String :=
  "Compile a query plan to dialect SQL\n\nUsage: oxide-query [OPTIONS] [PLAN]\n"

/-- The end of a command whose arguments lead to no compilation. -/
def Stop.outcome : Stop → Outcome
  | .error e => ⟨2, "", Terminal.Message.plainText e.report⟩
  | .version => ⟨0, versionText, ""⟩
  | .help => ⟨0, helpText, ""⟩

/-- What is printed for a compiled query. -/
def printed (json : Bool) (q : CompiledQuery) : String :=
  if json then q.toJson.pretty 0 ++ "\n"
  else q.sql ++ "\n\n" ++ q.paramsJson.pretty 0 ++ "\n"

def compilePlanned (dialect : Dialect) : Plan.Planned → Except CompileError CompiledQuery
  | .rows q => (compileQuery dialect [] q {}).1
  | .scalar q => (compileScalar dialect [] q {}).1

/-- What cannot be read: the file of a plan, or the input. -/
def readFailure : Option String → String
  | some path => "failed to read plan " ++ path
  | none => "failed to read plan from stdin"

/-- Runs the command on the text of a plan, if it could be read. -/
def run (options : Options) (source : Option String) : Outcome :=
  match source with
  | none => .failed (readFailure options.plan)
  | some source =>
    match Plan.parse? source with
    | none => .failed "invalid query plan"
    | some plan =>
      match plan.build with
      | .error e => .failed e.message
      | .ok planned =>
        match compilePlanned options.dialect planned with
        | .error e => .failed e.message
        | .ok q => ⟨0, printed options.json q, ""⟩

end QueryCompiler.CommandLine
