import QueryCompiler.Dialect
import QueryCompiler.Json.Decode

/-! # `QueryCompiler.Config` — settings

The settings of a compiler are its dialect.  They are read from and written to JSON, where a dialect
goes by its name in small letters.
-/

namespace QueryCompiler

/-- The settings of a compiler. -/
structure Config where
  dialect : Dialect := .generic
deriving DecidableEq, Repr

namespace Config

def dialectChoices : List (String × Dialect) :=
  [.generic, .sqlite, .sqlserver].map fun d => (d.name, d)

def ofDocument? (d : Document) : Option Config := do
  match ← d.fields? ["dialect"] with
  | [dialect] =>
    let dialect ← Document.withDefault? .generic (Document.choice? dialectChoices) dialect
    return ⟨dialect⟩
  | _ => none

def parse? (s : String) : Option Config := (Document.parse? s).bind ofDocument?

def toJson (c : Config) : Json := .obj [("dialect", .str c.dialect.name)]

end Config

end QueryCompiler
