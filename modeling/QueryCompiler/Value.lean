import QueryCompiler.Json.Basic

/-! # `QueryCompiler.Value` — values

What a query binds to its placeholders.  The displayed form of a value follows the literals of the
query language: text stands in single quotes with each quote inside doubled, a blob in hexadecimal
behind an `X`.
-/

namespace QueryCompiler

/-- A value that can be bound to a placeholder. -/
inductive Value where
  | null
  | bool (b : Bool)
  | int (n : Int64)
  | float (x : Binary64)
  | text (s : String)
  | blob (bytes : List UInt8)
deriving DecidableEq, Inhabited

namespace Value

def isNull : Value → Bool
  | .null => true
  | _ => false

def kind : Value → String
  | .null => "null"
  | .bool _ => "bool"
  | .int _ => "int"
  | .float _ => "float"
  | .text _ => "text"
  | .blob _ => "blob"

/-! ## Displayed form -/

/-- A displayed double has its point in place and no more digits than it needs. -/
def numberLayout : NumberLayout where
  plainFrom := none
  plainBelow := none
  pointZero := false
  tie := .upward

def displayFloat (x : Binary64) : String :=
  if x.isFinite then numberLayout.write x
  else if x.isNaN then "NaN"
  else if x.isNegative then "-inf"
  else "inf"

def doubleQuotes : List Char → List Char
  | [] => []
  | c :: cs => if c = '\'' then '\'' :: '\'' :: doubleQuotes cs else c :: doubleQuotes cs

/-- A hexadecimal digit, letters in capital form. -/
def hexDigit (n : Nat) : Char := (Nat.digitChar n).toUpper

def hexByte (b : UInt8) : List Char := [hexDigit (b.toNat / 16), hexDigit (b.toNat % 16)]

def display : Value → String
  | .null => "NULL"
  | .bool b => if b then "true" else "false"
  | .int n => toString n.toInt
  | .float x => displayFloat x
  | .text s => String.ofList ('\'' :: doubleQuotes s.toList ++ ['\''])
  | .blob bytes => String.ofList ('X' :: '\'' :: bytes.flatMap hexByte ++ ['\''])

/-! ## JSON form -/

/-- The value as JSON: a blob is the array of its bytes. -/
def toJson : Value → Json
  | .null => .null
  | .bool b => .bool b
  | .int n => .int n.toInt
  | .float x => .float x
  | .text s => .str s
  | .blob bytes => .arr (bytes.map fun b => .int b.toNat)

end Value

end QueryCompiler
