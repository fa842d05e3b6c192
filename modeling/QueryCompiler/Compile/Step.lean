import QueryCompiler.CompileError
import QueryCompiler.Context
import QueryCompiler.Query.Normalize
import QueryCompiler.Trace

/-! # `QueryCompiler.Compile.Step` — steps of a compilation

A step reads and changes the context, may build nodes and report, and may fail.  A failure loses the
context; the supply of identities and the record of the compilation live on in the session.
-/

namespace QueryCompiler

/-- What outlives a failed compilation. -/
structure Session where
  supply : Supply := .counting 0
  trace : Array Event := #[]

instance : Inhabited Session := ⟨{}⟩

/-- A step of a compilation. -/
abbrev CompileM := StateT Context (ExceptT CompileError (StateM Session))

namespace CompileM

/-- Builds nodes from the session's supply. -/
def build {α : Type} (b : Build α) : CompileM α := fun ctx session =>
  let (a, supply) := b session.supply
  (.ok (a, ctx), { session with supply := supply })

/-- Adds to the record. -/
def report (event : Event) : CompileM Unit := fun ctx session =>
  (.ok ((), ctx), { session with trace := session.trace.push event })

def referenceOf (id : NodeId) : CompileM (Option Reference) := do
  return (← get).referenceOf id

def registerAll (qualifier : String) (fields : List (NodeId × String)) : CompileM Unit :=
  modify (·.registerAll qualifier fields)

def takeAlias : CompileM String := do
  let ctx ← get
  set ctx.takeAlias
  return Context.aliasName ctx.nextAlias

/-- Binds a value to the next placeholder and gives its number. -/
def bindValue (value : Value) : CompileM Nat := do
  let ctx ← get
  set (ctx.bind value)
  return ctx.params.length

/-- Runs a step so many levels further in. -/
def indented {α : Type} (levels : Nat) (step : CompileM α) : CompileM α := do
  let indent := (← get).indent
  modify ({ · with indent := indent + levels })
  let a ← step
  modify ({ · with indent := indent })
  return a

/-- Reports passes over a query, numbered from `number` on. -/
def reportPasses : Nat → List Query.Pass → CompileM Unit
  | _, [] => pure ()
  | number, pass :: passes => do
    report (.pass number pass.changed pass.result.shape)
    reportPasses (number + 1) passes

/-- The normal form of a query, with a report of each pass. -/
def normalize (q : Query) : CompileM Query := do
  reportPasses 1 q.passes
  return q.normalize

end CompileM

end QueryCompiler
