import CodeAtlas.Fault
import CodeAtlas.Number.Real

/-!
# Values as real numbers

A number, a truth value or the text of a number stands for a real number.
-/

namespace CodeAtlas.Value

def toReal : Value → Except Fault Float
  | .bool value => .ok (if value then 1.0 else 0.0)
  | .int value =>
    let size := Number.ofDecimal (value < 0) value.natAbs 0
    if size.isInf then .error .tooLarge else .ok size
  | .real value => .ok value
  | .text value =>
    match Number.real? value with
    | some size => .ok size
    | none => .error (.notNumber value)
  | other => .error (.wrongType
      ("float() argument must be a string or a real number, not '" ++ other.typeName ++ "'"))

end CodeAtlas.Value
