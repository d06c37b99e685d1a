import CodeAtlas.Text.Search

/-!
# Values of documents

The values that stored documents, chunk records and filters are made of.
Records keep the order of their fields.  `agrees` compares two values by what
they mean: a whole number agrees with a real number of the same size, a truth
value with 0 or 1, and the order of fields does not matter.
-/

namespace CodeAtlas

inductive Value where
  | null
  | bool (value : Bool)
  | int (value : Int)
  | real (value : Float)
  | text (value : String)
  | list (items : List Value)
  | record (fields : List (String × Value))
deriving Inhabited

namespace Value

/-- Whether the value counts as true: anything but null, zero and what is empty. -/
def isTruthy : Value → Bool
  | .null => false
  | .bool value => value
  | .int value => value ≠ 0
  | .real value => !(value == 0.0)
  | .text value => !value.isEmpty
  | .list items => !items.isEmpty
  | .record fields => !fields.isEmpty

/-- Whether the value may be a member of a set or a key; lists and records may not. -/
def isPlain : Value → Bool
  | .list _ => false
  | .record _ => false
  | _ => true

def asText? : Value → Option String
  | .text value => some value
  | _ => none

/-- The whole number that the value stands for; truth values count as 0 and 1. -/
def asInt? : Value → Option Int
  | .int value => some value
  | .bool value => some (if value then 1 else 0)
  | _ => none

/-- The whole number, if the value is one; truth values are none. -/
def asWhole? : Value → Option Int
  | .int value => some value
  | _ => none

def asOptionalText? : Value → Option (Option String)
  | .text value => some (some value)
  | .null => some none
  | _ => none

def asTexts? : Value → Option (List String)
  | .list items => items.mapM asText?
  | _ => none

def ofText? : Option String → Value
  | some value => .text value
  | none => .null

def ofTexts (texts : List String) : Value :=
  .list (texts.map .text)

def field? (value : Value) (name : String) : Option Value :=
  match value with
  | .record fields => fields.lookup name
  | _ => none

end Value

abbrev Record := List (String × Value)

namespace Record

/-- Replace a field in its place, or append it. -/
def set (record : Record) (name : String) (value : Value) : Record :=
  match record with
  | [] => [(name, value)]
  | entry :: rest =>
    if name == entry.1 then (name, value) :: rest
    else entry :: set rest name value

def update (record changes : Record) : Record :=
  changes.foldl (fun updated entry => updated.set entry.1 entry.2) record

end Record

end CodeAtlas
