import CodeAtlas.Data.Agreement
import CodeAtlas.Fault

/-!
# Members of values

What a value holds when it is gone through, and what of it can be collected in a set.
-/

namespace CodeAtlas.Value

/-- The members of a value: the items of a list, the characters of a text, the
field names of a record. -/
def members (value : Value) : Except Fault (List Value) :=
  match value with
  | .list items => .ok items
  | .text content =>
    .ok (content.toList.map (fun character => .text (String.singleton character)))
  | .record fields => .ok (fields.map (fun entry => .text entry.1))
  | other => .error (.wrongType other.notIterable)

def memberSet (value : Value) : Except Fault (List Value) := do
  let items ← value.members
  match items.find? (fun item => !item.isPlain) with
  | some item => throw (.wrongType item.notHashable)
  | none => return items

end CodeAtlas.Value
