import QueryCompiler.Context
import QueryCompiler.Row
import QueryCompiler.Text.Case
import QueryCompiler.Text.Classes

/-! # `QueryCompiler.Compile.Names` — names of output columns

An output takes the name given for it, or that of the field it is read from, or a name by its
place.  Columns of one name from several tables are told apart by the table in front; what still
agrees, without regard to case, gets a number behind it.
-/

namespace QueryCompiler

/-- A table's name as the name of one of its rows: one `s` off the end, the first letter in
capital form. -/
def singular (table : String) : String :=
  let cs := table.toList
  Text.capitalize (String.ofList (if cs.getLast? = some 's' then cs.dropLast else cs))

/-- A name that an output may take. -/
structure Candidate where
  name : String
  /-- The name of a column, which may give way to one with the table in front. -/
  renamable : Bool
deriving DecidableEq, Repr

/-- The name an output would take if it were alone. -/
def candidate (given : Option String) (ref : Option Reference) (index : Nat) (e : Expr) :
    Candidate :=
  match (given.map Text.trim).filter (· ≠ ""), ref with
  | some name, _ => ⟨name, false⟩
  | none, some ref => ⟨ref.field, e.isColumn⟩
  | none, none => ⟨"Proj" ++ toString index, false⟩

/-- The candidates of outputs, counted from `index` on; `given` lists the names given for them. -/
def candidates (referenceOf : NodeId → Option Reference) :
    Nat → List String → List Expr → List Candidate
  | _, _, [] => []
  | index, given, e :: es =>
    candidate given.head? (referenceOf e.id) index e ::
      candidates referenceOf (index + 1) given.tail es

/-- How many of the candidates that may be renamed have this name, whatever its case. -/
def clashes (all : List Candidate) (name : String) : Nat :=
  (all.filter fun c => c.renamable && Text.lower c.name = Text.lower name).length

/-- The name of an output after clashing columns have been told apart by their tables. -/
def distinguish (all : List Candidate) (c : Candidate) : Expr → String
  | .column _ table name =>
    if c.renamable && 2 ≤ clashes all c.name then singular table ++ name else c.name
  | _ => c.name

/-- The name with a number behind it; the number zero is not written. -/
def numbered (name : String) : Nat → String
  | 0 => name
  | n + 1 => name ++ toString (n + 1)

/-- The first numbering of a name that is not taken.  One more numbering than there are taken
names is enough. -/
def freeName (taken : List String) (name : String) : String :=
  numbered name (((List.range (taken.length + 1)).find? fun n =>
    !taken.contains (Text.lower (numbered name n))).getD 0)

/-- Names made to differ without regard to case, first to last; `taken` lists the names taken
already, in small letters. -/
def makeUnique : List String → List String → List String
  | _, [] => []
  | taken, name :: names =>
    let unique := freeName taken name
    unique :: makeUnique (Text.lower unique :: taken) names

/-- The names of outputs, of which `given` lists the names given for them, if any. -/
def outputNames (referenceOf : NodeId → Option Reference) (given : List String) (es : List Expr) :
    List String :=
  let all := candidates referenceOf 0 given es
  makeUnique [] ((all.zip es).map fun (c, e) => distinguish all c e)

end QueryCompiler
