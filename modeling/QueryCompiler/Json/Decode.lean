import QueryCompiler.Json.Reader

/-! # `QueryCompiler.Json.Decode` — taking values out of a document

A record is an object or, equally, the array of its fields in order.  Unknown members of the object
are passed over, a member that comes twice is refused, and fields may be missing where there is a
default.  A choice without particulars is its name, alone or as the one member of an object that
holds null.
-/

namespace QueryCompiler

/-- Arrays and objects nest at most so deep. -/
def Document.nestingLimit : Nat := 127

/-- Puts a member into an object ordered by its keys; the last of several with one key stays. -/
def Json.insertMember (key : String) (value : Json) : List (String × Json) → List (String × Json)
  | [] => [(key, value)]
  | (k, v) :: rest =>
    if key < k then (key, value) :: (k, v) :: rest
    else if key = k then (key, value) :: rest
    else (k, v) :: Json.insertMember key value rest

namespace Document

def text? : Document → Option String
  | .string s => s
  | _ => none

def bool? : Document → Option Bool
  | .bool b => some b
  | _ => none

/-- A list of what `item?` takes out of its items. -/
def list? {α : Type} (item? : Document → Option α) : Document → Option (List α)
  | .array items => items.mapM item?
  | _ => none

/-- Null for nothing, and what `value?` takes otherwise. -/
def option? {α : Type} (value? : Document → Option α) : Document → Option (Option α)
  | .null => some none
  | d => (value? d).map some

/-! ## Any value -/

mutual

/-- The value of a document whose arrays and objects nest at most `room` deep. -/
def toJson? (room : Nat) : Document → Option Json
  | .null => some .null
  | .bool b => some (.bool b)
  | .number n => n.toJson?
  | .string s => s.map .str
  | .array items => do
    if room = 0 then none
    let items ← toJsonItems? (room - 1) items
    return .arr items
  | .object members => do
    if room = 0 then none
    let members ← toJsonMembers? (room - 1) [] members
    return .obj members

def toJsonItems? (room : Nat) : List Document → Option (List Json)
  | [] => some []
  | item :: items => do
    let value ← item.toJson? room
    let values ← toJsonItems? room items
    return value :: values

/-- The values of an object's members, put in among those that came before. -/
def toJsonMembers? (room : Nat) (before : List (String × Json)) :
    List (Option String × Document) → Option (List (String × Json))
  | [] => some before
  | (key, member) :: members => do
    let key ← key
    let value ← member.toJson? room
    toJsonMembers? room (Json.insertMember key value before) members

end

/-! ## Records and choices -/

/-- The member of a name, if there is one; nothing at all if there are several, or if a key holds
half of a surrogate pair. -/
def member? (name : String) : List (Option String × Document) → Option (Option Document)
  | [] => some none
  | (none, _) :: _ => none
  | (some key, value) :: rest => do
    let later ← member? name rest
    if key = name then
      match later with
      | none => return some value
      | some _ => none
    else
      return later

/-- The fields of a record, each of them present or missing. -/
def fields? (names : List String) : Document → Option (List (Option Document))
  | .object members => names.mapM fun name => member? name members
  | .array items =>
    if items.length ≤ names.length then
      some (items.map some ++ List.replicate (names.length - items.length) none)
    else
      none
  | _ => none

def required? {α : Type} (value? : Document → Option α) (field : Option Document) : Option α :=
  field.bind value?

def withDefault? {α : Type} (default : α) (value? : Document → Option α) :
    Option Document → Option α
  | none => some default
  | some d => value? d

/-- A choice without particulars, by its name. -/
def choice? {α : Type} (choices : List (String × α)) : Document → Option α
  | .string (some name) => choices.lookup name
  | .object [(some name, .null)] => choices.lookup name
  | _ => none

end Document

end QueryCompiler
