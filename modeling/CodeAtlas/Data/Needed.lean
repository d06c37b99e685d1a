import CodeAtlas.Fault

/-!
# Values that have to be there

Reading a field or a type of value that the reader cannot do without.
-/

namespace CodeAtlas

namespace Record

/-- The field of a record that cannot do without it. -/
def need (record : Record) (name : String) : Except Fault Value :=
  match record.lookup name with
  | some value => .ok value
  | none => .error (.missingKey (.text name))

end Record

namespace Value

def needRecord : Value → Except Fault Record
  | .record fields => .ok fields
  | _ => .error (.wrongType "not a record")

def needText : Value → Except Fault String
  | .text value => .ok value
  | _ => .error (.wrongType "not a text")

def needText? : Value → Except Fault (Option String)
  | .text value => .ok (some value)
  | .null => .ok none
  | _ => .error (.wrongType "not a text")

def needWhole : Value → Except Fault Int
  | .int number => .ok number
  | _ => .error (.wrongType "not a number")

end Value

end CodeAtlas
