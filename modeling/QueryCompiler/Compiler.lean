import QueryCompiler.Compile.Change

/-! # `QueryCompiler.Compiler` — the entry points

A query, the aggregate of a query, or a statement that changes rows goes in, and the text of a
statement with the values bound to its placeholders comes out.
-/

namespace QueryCompiler

/-- The text of a statement and the values of its placeholders, in binding order. -/
structure CompiledQuery where
  sql : String
  params : List (String × Value)

def CompiledQuery.paramsJson (q : CompiledQuery) : Json :=
  .obj (q.params.map fun (name, value) => (name, value.toJson))

def CompiledQuery.toJson (q : CompiledQuery) : Json :=
  .obj [("sql", .str q.sql), ("params", q.paramsJson)]

/-- The aggregate of all rows of a query. -/
structure ScalarQuery where
  func : AggregateFunc
  source : Query

def ScalarQuery.toQuery (q : ScalarQuery) : Query := q.source.aggregate q.func

/-! ## Steps -/

/-- Brings a query into normal form, compiles it and writes it. -/
def Query.compileText (scope : Scope) (q : Query) : CompileM CompiledQuery := do
  let dialect := (← get).dialect
  CompileM.report (.enteredQuery dialect)
  let normal ← CompileM.normalize q
  let compiled ← normal.compileIn scope
  let params := (← get).params
  CompileM.report (.compiledQuery normal.shape params.length)
  return ⟨compiled.select.render dialect 0, params⟩

def ScalarQuery.compileText (scope : Scope) (q : ScalarQuery) : CompileM CompiledQuery := do
  CompileM.report (.enteredScalar (← get).dialect q.func)
  q.toQuery.compileText scope

def Statement.compileText (scope : Scope) (s : Statement) : CompileM CompiledQuery := do
  let dialect := (← get).dialect
  CompileM.report (.enteredStatement dialect s.kind)
  let change ← s.compileIn scope
  let params := (← get).params
  CompileM.report (.compiledStatement params.length)
  return ⟨change.render dialect, params⟩

/-! ## Entry points -/

/-- Runs a compilation from the empty context. -/
def CompileM.start {α : Type} (dialect : Dialect) (m : CompileM α) :
    StateM Session (Except CompileError α) := fun session =>
  match m (.empty dialect) session with
  | (.ok (a, _), session) => (.ok a, session)
  | (.error e, session) => (.error e, session)

section

variable (dialect : Dialect) (scope : Scope)

/-- Compiles a query whose terms see the given scope. -/
def compileQuery (q : Query) : StateM Session (Except CompileError CompiledQuery) :=
  (q.compileText scope).start dialect

def compileScalar (q : ScalarQuery) : StateM Session (Except CompileError CompiledQuery) :=
  (q.compileText scope).start dialect

def compileStatement (s : Statement) : StateM Session (Except CompileError CompiledQuery) :=
  (s.compileText scope).start dialect

end

end QueryCompiler
