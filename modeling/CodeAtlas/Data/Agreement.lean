import CodeAtlas.Data.Value
import CodeAtlas.Number.Binary

/-!
# Agreement of values

Two values agree when they mean the same: a whole number agrees with a real
number of the same size, a truth value with 0 or 1, and records agree when they
have the same fields in any order.
-/

namespace CodeAtlas.Value

def realIs (number : Float) (whole : Int) : Bool :=
  match Number.read number with
  | .finite value => value.whole? = some whole
  | _ => false

/-- Whether two numbers or truth values are of the same size; none if one of the
values is neither. -/
def sameNumber? (left right : Value) : Option Bool :=
  match left, right with
  | .real a, .real b => some (a == b)
  | .real a, other => other.asInt?.map (realIs a)
  | other, .real b => other.asInt?.map (realIs b)
  | a, b => do return (← a.asInt?) = (← b.asInt?)

mutual

def agrees : Value → Value → Bool
  | .null, .null => true
  | .text left, .text right => left == right
  | .list left, .list right => agreesList left right
  | .record left, .record right => left.length = right.length && agreesFields left right
  | .bool left, right => (sameNumber? (.bool left) right).getD false
  | .int left, right => (sameNumber? (.int left) right).getD false
  | .real left, right => (sameNumber? (.real left) right).getD false
  | _, _ => false

def agreesList : List Value → List Value → Bool
  | [], [] => true
  | left :: lefts, right :: rights => agrees left right && agreesList lefts rights
  | _, _ => false

/-- Whether every field has a partner in the other record. -/
def agreesFields : List (String × Value) → List (String × Value) → Bool
  | [], _ => true
  | (name, left) :: rest, fields =>
    (match fields.lookup name with
      | some right => agrees left right
      | none => false) && agreesFields rest fields

end

instance : BEq Value :=
  ⟨agrees⟩

end CodeAtlas.Value
