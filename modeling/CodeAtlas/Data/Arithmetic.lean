import CodeAtlas.Data.Agreement
import CodeAtlas.Fault

/-!
# Arithmetic on values

Counts and limits that callers give may be values of any type.  Numbers and truth
values are reckoned with; what the other types do not take is a fault that names
the types.
-/

namespace CodeAtlas

def Fault.unsupported (operator left right : String) : Fault :=
  .wrongType ("unsupported operand type(s) for " ++ operator ++ ": '" ++ left ++ "' and '" ++
    right ++ "'")

def Fault.unordered (operator left right : String) : Fault :=
  .wrongType ("'" ++ operator ++ "' not supported between instances of '" ++ left ++ "' and '" ++
    right ++ "'")

namespace Value

def length : Value → Except Fault Nat
  | .text value => .ok value.length
  | .list items => .ok items.length
  | .record fields => .ok fields.length
  | other => .error (.wrongType ("object of type '" ++ other.typeName ++ "' has no len()"))

/-- The value so many times: a number is multiplied, a text or a list is repeated. -/
def times (factor : Nat) : Value → Except Fault Value
  | .bool value => .ok (.int (if value then factor else 0))
  | .int value => .ok (.int (value * factor))
  | .real value => .ok (.real (value * Float.ofNat factor))
  | .text value => .ok (.text (String.join (List.replicate factor value)))
  | .list items => .ok (.list (List.replicate factor items).flatten)
  | other => .error (.unsupported "*" other.typeName "int")

def atMost (limit : Nat) : Value → Except Fault Value
  | .bool value => .ok (.int (min (if value then 1 else 0) limit))
  | .int value => .ok (.int (min value limit))
  | .real value => .ok (if Float.ofNat limit < value then .int limit else .real value)
  | other => .error (.unordered "<" "int" other.typeName)

/-- The sum of two numbers; other values have none. -/
def plus (left right : Value) : Except Fault Value :=
  let real? : Value → Option Float
    | .real value => some value
    | other => other.asInt?.map Float.ofInt
  match left.asInt?, right.asInt? with
  | some left, some right => .ok (.int (left + right))
  | _, _ =>
    match real? left, real? right with
    | some left, some right => .ok (.real (left + right))
    | _, _ => .error (.unsupported "+" left.typeName right.typeName)

def sum (values : List Value) : Except Fault Value :=
  values.foldlM plus (.int 0)

def successor : Value → Except Fault Value
  | .bool value => .ok (.int (if value then 2 else 1))
  | .int value => .ok (.int (value + 1))
  | .real value => .ok (.real (value + 1.0))
  | .text _ => .error (.wrongType "can only concatenate str (not \"int\") to str")
  | .list _ => .error (.wrongType "can only concatenate list (not \"int\") to list")
  | other => .error (.unsupported "+" other.typeName "int")

def isPositive : Value → Except Fault Bool
  | .bool value => .ok value
  | .int value => .ok (0 < value)
  | .real value => .ok (0.0 < value)
  | other => .error (.unordered ">" other.typeName "int")

def sliceEnd (value : Value) : Except Fault Int :=
  match value.asInt? with
  | some bound => .ok bound
  | none =>
    .error (.wrongType "slice indices must be integers or None or have an __index__ method")

def isExceededBy (thousandths : Int) : Value → Except Fault Bool
  | .bool value => .ok (decide ((if value then 1000 else 0) < thousandths))
  | .int value => .ok (decide (value * 1000 < thousandths))
  | .real value =>
    .ok (match Number.read value with
      | .finite number => number.isBelow (thousandths, 1000)
      | .infinite negative => negative
      | .nan => false)
  | other => .error (.unordered ">" "float" other.typeName)

end Value

end CodeAtlas
