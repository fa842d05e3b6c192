import QueryCompiler.Proofs.Forms

/-! # `QueryCompiler.Proofs.Scoping.References` — what a statement reads and what it offers

The references of a statement are the fields that its own clauses read: its projection, the keys of
its joins, its condition, its grouping and its ordering.  What it offers them are the fields of the
sources that it names itself, after `FROM` and `JOIN`: the declared columns of a table, and the
output names of a derived table.  A statement is scoped if it reads nothing but what it offers, and
so does every derived table in it.
-/

namespace QueryCompiler.Sql

/-! ## References -/

mutual

/-- The fields that an expression reads; those read inside a subquery count as well. -/
def Scalar.references : Scalar → List Reference
  | .reference qualifier field => [⟨qualifier, field⟩]
  | .bound _ | .named _ | .null | .countStar => []
  | .binary _ left right => left.references ++ right.references
  | .unary _ operand => operand.references
  | .compare _ left right => left.references ++ right.references
  | .nullTest _ operand => operand.references
  | .aggregate _ _ operand => operand.references
  | .case condition positive negative =>
    condition.references ++ (positive.references ++ negative.references)
  | .like value pattern => value.references ++ pattern.references
  | .inList needle values => needle.references ++ Scalar.referencesAll values
  | .inSelect needle select => needle.references ++ select.references

def Scalar.referencesAll : List Scalar → List Reference
  | [] => []
  | e :: es => e.references ++ Scalar.referencesAll es

def Scalar.referencesOption : Option Scalar → List Reference
  | none => []
  | some e => e.references

def Output.referencesAll : List Output → List Reference
  | [] => []
  | .mk value _ :: outputs => value.references ++ Output.referencesAll outputs

def Join.referencesAll : List Join → List Reference
  | [] => []
  | .mk _ _ _ outer inner :: joins =>
    outer.references ++ (inner.references ++ Join.referencesAll joins)

def OrderItem.referencesAll : List OrderItem → List Reference
  | [] => []
  | .mk key _ :: items => key.references ++ OrderItem.referencesAll items

/-- The fields that the clauses of a statement read; those of a derived table are its own. -/
def Select.references : Select → List Reference
  | .mk outputs _ joins filter keys having order =>
    Output.referencesAll outputs ++ (Join.referencesAll joins ++
      (Scalar.referencesOption filter ++ (Scalar.referencesAll keys ++
        (Scalar.referencesOption having ++ OrderItem.referencesAll order))))

end

theorem Join.referencesAll_cons (join : Join) (joins : List Join) :
    Join.referencesAll (join :: joins) = Join.referencesAll [join] ++ Join.referencesAll joins := by
  cases join
  simp [Join.referencesAll]

/-! ## Fields on offer -/

def Output.name : Output → String
  | .mk _ name => name

theorem Output.map_name_zipWith {sqls : List Scalar} {names : List String}
    (h : names.length = sqls.length) :
    (List.zipWith Output.mk sqls names).map Output.name = names := by
  rw [List.map_zipWith]
  exact (List.map_zipWith (f := Prod.snd) (g := Prod.mk)).symm.trans
    (List.map_snd_zip (Nat.le_of_eq h))

section

variable (columnsOf : String → List String)

/-- The fields of a source under its alias; `columnsOf` lists the columns of each table. -/
def Source.offers : Source → List Reference
  | .table name label => (columnsOf name).map (⟨label, ·⟩)
  | .derived select label => select.outputs.map (⟨label, ·.name⟩)

def Join.offers : Join → List Reference
  | .mk _ table label _ _ => (columnsOf table).map (⟨label, ·⟩)

/-- The fields of the sources that a statement names. -/
def Select.offers : Select → List Reference
  | .mk _ source joins .. => source.offers columnsOf ++ joins.flatMap (Join.offers columnsOf)

end

/-! ## Statements inside each other -/

mutual

/-- A statement and the derived tables in it, outermost first. -/
def Select.statements : Select → List Select
  | .mk outputs source joins filter keys having order =>
    .mk outputs source joins filter keys having order :: source.statements

def Source.statements : Source → List Select
  | .table .. => []
  | .derived select _ => select.statements

end

/-- Every statement reads only what the sources that it names itself offer. -/
def Select.Scoped (columnsOf : String → List String) (select : Select) : Prop :=
  ∀ s ∈ select.statements, s.references ⊆ s.offers columnsOf

end QueryCompiler.Sql

namespace QueryCompiler

/-- What is put together reads the fields of what it is put together from. -/
theorem Expr.Assembles.references_eq {e : Expr} {es : List Expr} {ts : List Sql.Scalar}
    {t : Sql.Scalar} (h : e.Assembles es ts t) : t.references = Sql.Scalar.referencesAll ts := by
  cases h <;> simp [Sql.Scalar.references, Sql.Scalar.referencesAll]

end QueryCompiler
