import QueryCompiler.Sql.Render
import QueryCompiler.Supply

/-! # `QueryCompiler.Context` — the state of a compilation

A context tells where each node is read from, which aliases and placeholders have been given out,
and how far in the statement at hand stands.  Registering a node again hides where it was read from
before; binding never does, since a placeholder is numbered by how many there are.
-/

namespace QueryCompiler

/-- Where a node is read from. -/
structure Reference where
  qualifier : String
  field : String
deriving DecidableEq, Repr

def Reference.text (r : Reference) : String := r.qualifier ++ "." ++ r.field

/-- Sets the value of a name: in place if the name is there, and at the end otherwise. -/
def setValue (name : String) (value : Value) : List (String × Value) → List (String × Value)
  | [] => [(name, value)]
  | (n, v) :: rest => if n = name then (name, value) :: rest else (n, v) :: setValue name value rest

/-- What a compilation carries from clause to clause. -/
structure Context where
  dialect : Dialect
  /-- The level of the statement at hand. -/
  indent : Nat := 0
  /-- Where nodes are read from, the latest registration first. -/
  aliases : List (NodeId × Reference) := []
  nextAlias : Nat := 0
  /-- Placeholders and their values, in binding order. -/
  params : List (String × Value) := []

namespace Context

def empty (d : Dialect) : Context := { dialect := d }

/-- Where a node is read from, if it is registered. -/
def referenceOf (ctx : Context) (id : NodeId) : Option Reference := ctx.aliases.lookup id

/-- Records where a node is read from. -/
def register (ctx : Context) (id : NodeId) (ref : Reference) : Context :=
  { ctx with aliases := (id, ref) :: ctx.aliases }

/-- Records fields of one source, first to last. -/
def registerAll (ctx : Context) (qualifier : String) : List (NodeId × String) → Context
  | [] => ctx
  | (id, field) :: rest => (ctx.register id ⟨qualifier, field⟩).registerAll qualifier rest

/-- The alias that the next source gets. -/
def aliasName (n : Nat) : String := "a" ++ toString n

/-- The context after an alias has been given out. -/
def takeAlias (ctx : Context) : Context := { ctx with nextAlias := ctx.nextAlias + 1 }

/-- The context after a value has been bound to the next placeholder. -/
def bind (ctx : Context) (value : Value) : Context :=
  { ctx with params := setValue (Sql.placeholder ctx.dialect ctx.params.length) value ctx.params }

/-- The blanks of so many levels past the statement at hand. -/
def pad (ctx : Context) (level : Nat) : String := Sql.pad (ctx.indent + level)

end Context

end QueryCompiler
