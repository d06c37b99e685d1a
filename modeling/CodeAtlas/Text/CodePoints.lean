/-!
# Classes of characters as code point ranges

A class is a list of closed ranges in increasing order, so that membership can
stop at the first range that starts above the character.
-/

namespace CodeAtlas.Text

/-- Closed ranges of code points, in increasing order. -/
abbrev CodePoints := List (Nat × Nat)

namespace CodePoints

/-- Ranges told by their lengths: how many points are passed over before a range, and how many
it has. -/
def ofRuns (start : Nat) : List Nat → CodePoints
  | gap :: count :: rest =>
    (start + gap, start + gap + count - 1) :: ofRuns (start + gap + count) rest
  | _ => []

def has : CodePoints → Nat → Bool
  | [], _ => false
  | (first, last) :: rest, point =>
    if point < first then false
    else if point ≤ last then true
    else has rest point

def hasChar (ranges : CodePoints) (character : Char) : Bool :=
  ranges.has character.toNat

end CodePoints

end CodeAtlas.Text
