/-! # `QueryCompiler.Supply` — identities of nodes

Every expression node has an identity, taken from a supply when the node is built.  The supply
lists the identities in the order in which they are handed out; a process that compiles several
queries at once gives each of them a list of its own.
-/

namespace QueryCompiler

/-- The identity of an expression node. -/
abbrev NodeId := Nat

/-- Identities still to be handed out. -/
structure Supply where
  /-- The identities in order. -/
  ids : Nat → NodeId
  /-- How many have been handed out. -/
  used : Nat

namespace Supply

/-- The supply that counts upwards. -/
def counting (start : Nat) : Supply := ⟨fun n => start + n, 0⟩

instance : Inhabited Supply := ⟨counting 0⟩

end Supply

/-- A computation that may build nodes. -/
abbrev Build := StateM Supply

def Build.fresh : Build NodeId := fun supply =>
  (supply.ids supply.used, ⟨supply.ids, supply.used + 1⟩)

def Build.node {α : Type} (make : NodeId → α) : Build α := do
  let id ← Build.fresh
  return make id

end QueryCompiler
