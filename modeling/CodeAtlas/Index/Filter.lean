import CodeAtlas.Data.Members

/-!
# Filters

A filter is a record of demands on the record of a chunk, tried in order.  Four
fields have a meaning of their own; any other field has to agree with the field
of the same name, if the chunk has it.
-/

namespace CodeAtlas.Filter

/-- Whether a pattern occurs in a path: inside a text, or as a member. -/
def occurs (path pattern : Value) : Except Fault Bool :=
  match path with
  | .text text =>
    match pattern with
    | .text wanted => .ok (Text.contains text wanted)
    | other => .error (.wrongType
        ("'in <string>' requires string as left operand, not " ++ other.typeName))
  | .list items => .ok (items.any (fun item => item.agrees pattern))
  | .record fields =>
    if !pattern.isPlain then .error (.wrongType pattern.notHashable)
    else .ok (fields.any (fun entry => (Value.text entry.1).agrees pattern))
  | other => .error (.wrongType
      ("argument of type '" ++ other.typeName ++ "' is not iterable"))

/-- Whether one of the patterns occurs in the path; later ones are not looked at. -/
def anyOccurs (path : Value) : List Value → Except Fault Bool
  | [] => .ok false
  | pattern :: rest => do
    if ← occurs path pattern then return true else anyOccurs path rest

/-- Whether the field shares a member with the demand; a demand that is no list is
a single member. -/
def overlaps (owned demand : Value) : Except Fault Bool := do
  let ownedSet ← owned.memberSet
  let wanted ←
    match demand with
    | .list items => (Value.list items).memberSet
    | other => (Value.list [other]).memberSet
  return wanted.any (fun item => ownedSet.any (fun other => other.agrees item))

def meets (record : Record) (name : String) (demand : Value) : Except Fault Bool :=
  let owned (field : String) (other : Value) := (record.lookup field).getD other
  if name == "file_pattern" then do
    anyOccurs (owned "relative_path" (.text "")) (← demand.members)
  else if name == "chunk_type" then .ok ((owned "chunk_type" .null).agrees demand)
  else if name == "tags" then overlaps (owned "tags" (.list [])) demand
  else if name == "folder_structure" then overlaps (owned "folder_structure" (.list [])) demand
  else
    match record.lookup name with
    | some value => .ok (value.agrees demand)
    | none => .ok true

/-- Whether the record meets every demand; the first that fails decides. -/
def meetsAll (record : Record) : Record → Except Fault Bool
  | [] => .ok true
  | (name, demand) :: rest => do
    if ← meets record name demand then meetsAll record rest else return false

def demandsOf : Value → Except Fault Record
  | .record fields => .ok fields
  | other => .error (.unsuitable (other.lacks "items"))

/-- Whether a filter accepts the record.  A filter that counts as nothing accepts all. -/
def accepts (record : Record) (filter : Value) : Except Fault Bool := do
  if filter.isTruthy then meetsAll record (← demandsOf filter) else return true

end CodeAtlas.Filter
