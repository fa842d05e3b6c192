import QueryCompiler.Number.Layout

/-! # `QueryCompiler.Json.Basic` — JSON values and their text

A value as it is written and as a plan's literals are read.  An object keeps its members in the
order in which they are listed; whoever builds one decides the order.
-/

namespace QueryCompiler

/-- A JSON value.  Whole numbers are kept apart from those written with a point or an exponent. -/
inductive Json where
  | null
  | bool (b : Bool)
  | int (n : Int)
  | float (x : Binary64)
  | str (s : String)
  | arr (items : List Json)
  | obj (members : List (String × Json))
deriving Inhabited

namespace Json

/-- Doubles show a point, up to sixteen digits before it and from the fifth place behind it. -/
def numberLayout : NumberLayout where
  plainFrom := some (-5)
  plainBelow := some 16
  pointZero := true
  tie := .toEven

def escapedChar (c : Char) : String :=
  match c with
  | '"' => "\\\""
  | '\\' => "\\\\"
  | '\x08' => "\\b"
  | '\x0c' => "\\f"
  | '\n' => "\\n"
  | '\r' => "\\r"
  | '\t' => "\\t"
  | c =>
    if c.toNat < 0x10 then "\\u000" ++ String.ofList (Nat.toDigits 16 c.toNat)
    else if c.toNat < 0x20 then "\\u00" ++ String.ofList (Nat.toDigits 16 c.toNat)
    else c.toString

def quote (s : String) : String := "\"" ++ String.join (s.toList.map escapedChar) ++ "\""

/-- A double; what is no finite number is written as `null`. -/
def writeFloat (x : Binary64) : String := if x.isFinite then numberLayout.write x else "null"

/-! ## On one line -/

mutual

/-- The text of a value without any blanks. -/
def compact : Json → String
  | .null => "null"
  | .bool b => if b then "true" else "false"
  | .int n => toString n
  | .float x => writeFloat x
  | .str s => quote s
  | .arr items => "[" ++ String.intercalate "," (compactItems items) ++ "]"
  | .obj members => "\x7b" ++ String.intercalate "," (compactMembers members) ++ "\x7d"

def compactItems : List Json → List String
  | [] => []
  | item :: items => item.compact :: compactItems items

def compactMembers : List (String × Json) → List String
  | [] => []
  | (key, value) :: members => (quote key ++ ":" ++ value.compact) :: compactMembers members

end

/-! ## Over several lines -/

/-- The lines of a container: its brackets, and between them the entries one level further in. -/
def block (opening closing : String) (level : Nat) (entries : List String) : String :=
  if entries.isEmpty then
    opening ++ closing
  else
    let pad := String.ofList (List.replicate (2 * (level + 1)) ' ')
    opening ++ "\n" ++ String.intercalate ",\n" (entries.map (pad ++ ·)) ++ "\n" ++
      String.ofList (List.replicate (2 * level) ' ') ++ closing

mutual

/-- The text of a value with one entry a line, two blanks further in at each level. -/
def pretty (level : Nat) : Json → String
  | .arr items => block "[" "]" level (prettyItems (level + 1) items)
  | .obj members => block "\x7b" "\x7d" level (prettyMembers (level + 1) members)
  | .null => "null"
  | .bool b => if b then "true" else "false"
  | .int n => toString n
  | .float x => writeFloat x
  | .str s => quote s

def prettyItems (level : Nat) : List Json → List String
  | [] => []
  | item :: items => item.pretty level :: prettyItems level items

def prettyMembers (level : Nat) : List (String × Json) → List String
  | [] => []
  | (key, value) :: members =>
    (quote key ++ ": " ++ value.pretty level) :: prettyMembers level members

end

end Json

end QueryCompiler
