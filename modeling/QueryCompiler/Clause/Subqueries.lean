import QueryCompiler.Expr.Basic

/-! # `QueryCompiler.Clause.Subqueries` — how deep subqueries go

Compiling an expression compiles the subqueries in it, whose clauses build expressions that may
hold subqueries again.  `subqueries` counts the subqueries written in a term or a query; `nesting`
bounds, for what has been built, how many of them can be entered one inside the other.  Evaluating a
term in a scope builds nothing that nests deeper than the term's count and the scope's bound
together:

    nesting of what t builds in Γ   ≤   subqueries t + nesting Γ

and a subquery node nests deeper than anything its clauses build.
-/

namespace QueryCompiler

mutual

/-- The number of subqueries written in a term. -/
def ExprTerm.subqueries : ExprTerm → Nat
  | .literal _ | .null | .column .. | .parameter _ | .countStar => 0
  | .named row _ => row.subqueries
  | .qualified row _ _ => row.subqueries
  | .field row _ => row.subqueries
  | .binary _ left right => left.subqueries + right.subqueries
  | .unary _ operand => operand.subqueries
  | .compare _ left right => left.subqueries + right.subqueries
  | .aggregate _ _ operand => operand.subqueries
  | .case condition positive negative =>
    condition.subqueries + positive.subqueries + negative.subqueries
  | .like value pattern => value.subqueries + pattern.subqueries
  | .inList needle values => needle.subqueries + ExprTerm.subqueriesAll values
  | .inQuery needle query => needle.subqueries + query.subqueries + 1
  | .over row body => row.subqueries + body.subqueries

def ExprTerm.subqueriesAll : List ExprTerm → Nat
  | [] => 0
  | term :: terms => term.subqueries + ExprTerm.subqueriesAll terms

def RowTerm.subqueries : RowTerm → Nat
  | .slot .. | .absent | .table _ | .get _ => 0
  | .tuple rows => RowTerm.subqueriesAll rows
  | .item row _ => row.subqueries
  | .key row => row.subqueries
  | .source row => row.subqueries
  | .group key source => key.subqueries + source.subqueries
  | .bind _ value body => value.subqueries + body.subqueries
  | .expr e => e.subqueries

def RowTerm.subqueriesAll : List RowTerm → Nat
  | [] => 0
  | term :: terms => term.subqueries + RowTerm.subqueriesAll terms

def SortTerm.subqueriesAll : List SortTerm → Nat
  | [] => 0
  | .mk _ key :: keys => key.subqueries + SortTerm.subqueriesAll keys

def JoinTerm.subqueriesAll : List JoinTerm → Nat
  | [] => 0
  | .mk _ _ outerKey innerKey result _ :: joins =>
    outerKey.subqueries + innerKey.subqueries + result.subqueries + JoinTerm.subqueriesAll joins

def ExprTerm.subqueriesOption : Option ExprTerm → Nat
  | none => 0
  | some term => term.subqueries

/-- The number of subqueries written in the clauses of a query. -/
def Query.subqueries : Query → Nat
  | .table _ => 0
  | .derived inner => inner.subqueries
  | .select source stages _ => source.subqueries + RowTerm.subqueriesAll stages
  | .filter source predicate => source.subqueries + predicate.subqueries
  | .orderBy source keys => source.subqueries + SortTerm.subqueriesAll keys
  | .groupBy source keys condition =>
    source.subqueries + ExprTerm.subqueriesAll keys + ExprTerm.subqueriesOption condition
  | .having source predicate => source.subqueries + predicate.subqueries
  | .join source joins => source.subqueries + JoinTerm.subqueriesAll joins

end

mutual

/-- How many subqueries of an expression can be entered one inside the other. -/
def Expr.nesting : Expr → Nat
  | .literal .. | .null _ | .column .. | .parameter .. | .countStar _ | .unknown .. => 0
  | .binary _ _ left right => max left.nesting right.nesting
  | .unary _ _ operand => operand.nesting
  | .compare _ _ left right => max left.nesting right.nesting
  | .aggregate _ _ _ operand => operand.nesting
  | .case _ condition positive negative =>
    max condition.nesting (max positive.nesting negative.nesting)
  | .like _ value pattern => max value.nesting pattern.nesting
  | .inList _ needle values => max needle.nesting (Expr.nestingAll values)
  | .inQuery _ needle query scope =>
    max needle.nesting (query.subqueries + Entry.nestingAll scope) + 1

def Expr.nestingAll : List Expr → Nat
  | [] => 0
  | e :: es => max e.nesting (Expr.nestingAll es)

def Row.nesting : Row → Nat
  | .expr e => e.nesting
  | .tuple rows => Row.nestingAll rows
  | .table _ columns => Expr.nestingAll columns
  | .group key source => max key.nesting source.nesting
  | .absent => 0

def Row.nestingAll : List Row → Nat
  | [] => 0
  | row :: rows => max row.nesting (Row.nestingAll rows)

def Entry.nesting : Entry → Nat
  | .named _ row => row.nesting
  | .clause row => row.nesting
  | .joined outer inner => max outer.nesting inner.nesting

def Entry.nestingAll : List Entry → Nat
  | [] => 0
  | entry :: entries => max entry.nesting (Entry.nestingAll entries)

end

/-- The greatest nesting within reach of a scope. -/
def Scope.nesting (scope : Scope) : Nat := Entry.nestingAll scope

end QueryCompiler
