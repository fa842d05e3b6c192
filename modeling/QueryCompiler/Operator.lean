/-! # `QueryCompiler.Operator` — operators, functions and directions

The words of the query language that expressions, sort keys and joins are made of, each with its
spelling.
-/

namespace QueryCompiler

inductive BinaryOp where
  | add
  | sub
  | mul
  | div
  | mod
  | and
  | or
  /-- Concatenation of texts; a dialect spells it. -/
  | concat
deriving DecidableEq, Repr

/-- The spelling of an operator that stands between its operands. -/
def BinaryOp.symbol : BinaryOp → String
  | .add => "+"
  | .sub => "-"
  | .mul => "*"
  | .div => "/"
  | .mod => "%"
  | .and => "AND"
  | .or => "OR"
  | .concat => "||"

inductive CompareOp where
  | eq
  | ne
  | lt
  | le
  | gt
  | ge
deriving DecidableEq, Repr

def CompareOp.symbol : CompareOp → String
  | .eq => "="
  | .ne => "!="
  | .lt => "<"
  | .le => "<="
  | .gt => ">"
  | .ge => ">="

inductive UnaryOp where
  | not
  | neg
deriving DecidableEq, Repr

def UnaryOp.name : UnaryOp → String
  | .not => "Not"
  | .neg => "Neg"

/-- What stands in front of the operand. -/
def UnaryOp.symbol : UnaryOp → String
  | .not => "NOT "
  | .neg => "-"

/-- Functions over all rows of a group. -/
inductive AggregateFunc where
  | sum
  | avg
  | min
  | max
  | count
deriving DecidableEq, Repr

def AggregateFunc.symbol : AggregateFunc → String
  | .sum => "SUM"
  | .avg => "AVG"
  | .min => "MIN"
  | .max => "MAX"
  | .count => "COUNT"

inductive Direction where
  | ascending
  | descending
deriving DecidableEq, Repr

def Direction.symbol : Direction → String
  | .ascending => "ASC"
  | .descending => "DESC"

inductive JoinKind where
  | inner
  | left
deriving DecidableEq, Repr

def JoinKind.symbol : JoinKind → String
  | .inner => "INNER JOIN"
  | .left => "LEFT JOIN"

def JoinKind.name : JoinKind → String
  | .inner => "Inner"
  | .left => "Left"

end QueryCompiler
