import CodeAtlas.Data.Arithmetic
import CodeAtlas.Embedding.Excerpt

/-!
# Budgets for excerpts

A limit that a caller gives may be a whole number, a real number or something that is no
limit.  What it leaves for the code is the budget.  A whole budget gives the same
excerpt as a limit of the right type; a real one can be compared with lengths, but no
text can be cut there.
-/

namespace CodeAtlas

inductive Budget where
  | whole (size : Int)
  | real (size : Float)

namespace Budget

def ofLimit (limit : Value) (used : Nat) : Except Fault Budget :=
  match limit with
  | .real size => .ok (.real (size - Float.ofNat used - 10.0))
  | other =>
    match other.asInt? with
    | some size => .ok (.whole (size - used - 10))
    | none => .error (.unsupported "-" other.typeName "int")

def holds (length : Nat) : Budget → Bool
  | .whole size => (length : Int) ≤ size
  | .real size => Float.ofNat length ≤ size

def isUnreal (size : Int) : Bool :=
  Nat.pow 2 1024 - Nat.pow 2 970 ≤ size.natAbs

def codeWithinReal (size : Float) (used : Nat) (content : String) : Except Fault String :=
  let isAbove (length : Nat) (bound : Float) : Bool := bound < Float.ofNat length
  let lines := Text.lines content
  if Float.ofNat content.length ≤ size then .ok content
  else if 3 < lines.length then
    .ok (Excerpt.headAndTail (isAbove · (size * 0.7))
      (fun taken length => isAbove length (size - Float.ofNat taken - 20.0)) used lines)
  else if isAbove content.length size then (Value.real size).sliceEnd.map (fun _ => content)
  else .ok content

/-- The code within the budget.  Where lines have to be chosen, the budget has to be small
enough for a real number. -/
def code (used : Nat) (content : String) : Budget → Except Fault String
  | .whole size =>
    if isUnreal size && decide (size < content.length) &&
        decide (3 < (Text.lines content).length) then .error .tooLarge
    else .ok (Excerpt.codePart size used content)
  | .real size => codeWithinReal size used content

end Budget

end CodeAtlas
