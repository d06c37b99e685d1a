import CodeAtlas.Data.Arithmetic
import CodeAtlas.Sorting.Runs
import CodeAtlas.Text.Order

/-!
# The order of values

Numbers and truth values are ordered by size, texts by their characters and lists by
their first difference.  Values of different types, nulls and records have no order.
-/

namespace CodeAtlas.Value

/-- Whether a number is less than another; none if one of the values is no number. -/
def lessNumber? (left right : Value) : Option Bool :=
  let isBelow (number : Float) (whole : Int) : Bool :=
    match Number.read number with
    | .finite value => value.isBelow (whole, 1)
    | .infinite negative => negative
    | .nan => false
  let isAbove (number : Float) (whole : Int) : Bool :=
    match Number.read number with
    | .finite value => !value.isBelow (whole, 1) && value.whole? ≠ some whole
    | .infinite negative => !negative
    | .nan => false
  match left, right with
  | .real a, .real b => some (a < b)
  | .real a, other => other.asInt?.map (isBelow a)
  | other, .real b => other.asInt?.map (isAbove b)
  | a, b => do return (← a.asInt?) < (← b.asInt?)

mutual

/-- Whether a value is less than another; some pairs have no order. -/
def less : Value → Value → Except Fault Bool
  | .text left, .text right => .ok (left < right)
  | .list left, .list right => lessList left right
  | left, right =>
    match lessNumber? left right with
    | some result => .ok result
    | none => .error (.unordered "<" left.typeName right.typeName)

/-- Whether a list is less than another: the first items that differ decide, then the
length. -/
def lessList : List Value → List Value → Except Fault Bool
  | [], right => .ok (!right.isEmpty)
  | _ :: _, [] => .ok false
  | left :: lefts, right :: rights =>
    if left.agrees right then lessList lefts rights else less left right

end

/-- Why the first value that cannot be compared with an earlier one is out of order, if
there is one.  `earlier` holds the values before, the nearest first. -/
def disorder? (earlier : List Value) : List Value → Option Fault
  | [] => none
  | value :: rest =>
    match earlier.findSome? (fun other =>
      match value.less other with
      | .ok _ => none
      | .error fault => some fault) with
    | some fault => some fault
    | none => disorder? (value :: earlier) rest

/-- Items in the rising order of their values; a single item needs no order.  Texts are in
order with each other; other values may be numbers that are not even equal to themselves,
and are left to the steps of sorting by runs. -/
def sortedBy (key : α → Value) (items : List α) : Except Fault (List α) :=
  match disorder? [] (items.map key) with
  | some fault => .error fault
  | none =>
    match items.mapM (fun item => (key item).asText?.map (·, item)) with
    | some named => .ok ((Text.sortedByKey named).map Prod.snd)
    | none => .ok (Sorting.rising
        (fun left right => ((key left).less (key right)).toOption.getD false) items)

def fallingBy (key : α → Value) (items : List α) : Except Fault (List α) := do
  return (← sortedBy key items.reverse).reverse

def sorted (values : List Value) : Except Fault (List Value) :=
  sortedBy id values

end CodeAtlas.Value
