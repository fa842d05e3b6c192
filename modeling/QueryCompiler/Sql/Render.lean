import QueryCompiler.Dialect
import QueryCompiler.Sql.Syntax

/-! # `QueryCompiler.Sql.Render` — writing statements

A `SELECT` statement is written over several lines, each clause under its word and one level of
four blanks further in; a derived table goes one level further in, a subquery of an expression two.
Statements that change rows stand on one line.  An operand that is not one word or a call stands
between brackets.
-/

namespace QueryCompiler.Sql

/-- The blanks of so many levels. -/
def pad (level : Nat) : String := String.ofList (List.replicate (4 * level) ' ')

/-- A written operand, between brackets unless it is atomic. -/
def bracket (atomic : Bool) (text : String) : String := if atomic then text else "(" ++ text ++ ")"

def placeholder (d : Dialect) (index : Nat) : String := d.parameterMark ++ "p" ++ toString index

/-- Lines at a level, with a comma behind each but the last. -/
def commaLines (level : Nat) : List String → List String
  | [] => []
  | [line] => [pad level ++ line]
  | line :: lines => (pad level ++ line ++ ",") :: commaLines level lines

/-- A word and, one level further in, what belongs to it; nothing if there is nothing. -/
def clauseLines (level : Nat) (word : String) (items : List String) : List String :=
  if items.isEmpty then []
  else [pad level ++ word, pad (level + 1) ++ String.intercalate ", " items]

mutual

/-- The text of an expression in a statement at the given level. -/
def Scalar.render (d : Dialect) (level : Nat) : Scalar → String
  | .reference qualifier field => qualifier ++ "." ++ field
  | .bound index => placeholder d index
  | .named name => d.parameterMark ++ name
  | .null => "NULL"
  | .binary .concat left right =>
    d.concat (bracket left.isAtomic (left.render d level))
      (bracket right.isAtomic (right.render d level))
  | .binary op left right =>
    bracket left.isAtomic (left.render d level) ++ " " ++ op.symbol ++ " " ++
      bracket right.isAtomic (right.render d level)
  | .unary op operand => op.symbol ++ bracket operand.isAtomic (operand.render d level)
  | .compare op left right =>
    bracket left.isAtomic (left.render d level) ++ " " ++ op.symbol ++ " " ++
      bracket right.isAtomic (right.render d level)
  | .nullTest negated operand =>
    bracket operand.isAtomic (operand.render d level) ++
      (if negated then " IS NOT NULL" else " IS NULL")
  | .aggregate func distinct operand =>
    func.symbol ++ "(" ++ (if distinct then "DISTINCT " else "") ++ operand.render d level ++ ")"
  | .countStar => "COUNT(*)"
  | .case condition positive negative =>
    "CASE WHEN " ++ condition.render d level ++ " THEN " ++ positive.render d level ++ " ELSE " ++
      negative.render d level ++ " END"
  | .like value pattern =>
    bracket value.isAtomic (value.render d level) ++ " LIKE " ++
      bracket pattern.isAtomic (pattern.render d level)
  | .inList needle values =>
    bracket needle.isAtomic (needle.render d level) ++ " IN (" ++
      String.intercalate ", " (Scalar.renderAll d level values) ++ ")"
  | .inSelect needle select =>
    bracket needle.isAtomic (needle.render d level) ++ " IN (\n" ++ select.render d (level + 2) ++
      "\n" ++ pad (level + 1) ++ ")"

def Scalar.renderAll (d : Dialect) (level : Nat) : List Scalar → List String
  | [] => []
  | e :: es => e.render d level :: Scalar.renderAll d level es

def Scalar.renderOption (d : Dialect) (level : Nat) : Option Scalar → List String
  | none => []
  | some e => [e.render d level]

def Output.renderAll (d : Dialect) (level : Nat) : List Output → List String
  | [] => []
  | .mk value name :: outputs =>
    (value.render d level ++ " AS " ++ name) :: Output.renderAll d level outputs

def Source.render (d : Dialect) (level : Nat) : Source → List String
  | .table name label => [pad level ++ "FROM", pad (level + 1) ++ name ++ " " ++ label]
  | .derived select label =>
    [pad level ++ "FROM (", select.render d (level + 1), pad level ++ ") " ++ label]

def Join.renderAll (d : Dialect) (level : Nat) : List Join → List String
  | [] => []
  | .mk kind table label outer inner :: joins =>
    (pad (level + 1) ++ kind.symbol ++ " " ++ table ++ " " ++ label ++ " ON " ++
      bracket outer.isAtomic (outer.render d level) ++ " = " ++
      bracket inner.isAtomic (inner.render d level)) :: Join.renderAll d level joins

def OrderItem.renderAll (d : Dialect) (level : Nat) : List OrderItem → List String
  | [] => []
  | .mk key direction :: items =>
    (key.render d level ++ " " ++ direction.symbol) :: OrderItem.renderAll d level items

/-- The text of a statement at the given level. -/
def Select.render (d : Dialect) (level : Nat) : Select → String
  | .mk outputs source joins filter keys having order =>
    String.intercalate "\n"
      ((pad level ++ "SELECT") :: commaLines (level + 1) (Output.renderAll d level outputs) ++
        source.render d level ++ Join.renderAll d level joins ++
        clauseLines level "WHERE" (Scalar.renderOption d level filter) ++
        clauseLines level "GROUP BY" (Scalar.renderAll d level keys) ++
        clauseLines level "HAVING" (Scalar.renderOption d level having) ++
        clauseLines level "ORDER BY" (OrderItem.renderAll d level order))

end

/-- What follows the word of a statement on one line: its condition, if it has one. -/
def whereSuffix (d : Dialect) : Option Scalar → String
  | none => ""
  | some e => " WHERE " ++ e.render d 0

def Change.render (d : Dialect) : Change → String
  | .delete table filter => "DELETE FROM " ++ table ++ whereSuffix d filter
  | .update table assignments filter =>
    let settings := assignments.map fun (column, value) => column ++ " = " ++ value.render d 0
    "UPDATE " ++ table ++ " SET " ++ String.intercalate ", " settings ++ whereSuffix d filter
  | .insert table values =>
    "INSERT INTO " ++ table ++ " (" ++ String.intercalate ", " (values.map (·.1)) ++ ") VALUES (" ++
      String.intercalate ", " (values.map fun (_, value) => value.render d 0) ++ ")"

end QueryCompiler.Sql
