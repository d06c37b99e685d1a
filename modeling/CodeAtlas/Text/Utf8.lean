import CodeAtlas.Text.Quoted

/-!
# UTF-8

Reading bytes as a text.  Each first byte of a character owes a list of further bytes, each
from a range.  When bytes are no text, the reader tells where the first broken character
starts, where it stops and what is wrong with it.
-/

namespace CodeAtlas.Text.Utf8

/-- The ranges of the bytes that follow a first byte.  No character starts with a byte that
has none. -/
def owed? (first : UInt8) : Option (List (UInt8 × UInt8)) :=
  let tail : UInt8 × UInt8 := (0x80, 0xBF)
  if first < 0x80 then some []
  else if first < 0xC2 then none
  else if first < 0xE0 then some [tail]
  else if first = 0xE0 then some [(0xA0, 0xBF), tail]
  else if first = 0xED then some [(0x80, 0x9F), tail]
  else if first < 0xF0 then some [tail, tail]
  else if first = 0xF0 then some [(0x90, 0xBF), tail, tail]
  else if first < 0xF4 then some [tail, tail, tail]
  else if first = 0xF4 then some [(0x80, 0x8F), tail, tail]
  else none

inductive Flaw where
  /-- No character starts with the byte. -/
  | start
  /-- A byte that does not follow stands where one is owed. -/
  | continuation
  /-- The bytes end where one is owed. -/
  | cutShort
deriving DecidableEq

def Flaw.message : Flaw → String
  | .start => "invalid start byte"
  | .continuation => "invalid continuation byte"
  | .cutShort => "unexpected end of data"

/-- A broken character: its flaw, its first byte and the positions from its first byte to the
one before `stop`. -/
structure Problem where
  flaw : Flaw
  first : UInt8
  start : Nat
  stop : Nat
deriving DecidableEq

def Problem.message (problem : Problem) : String :=
  let place :=
    if problem.stop = problem.start + 1 then
      "byte 0x" ++ hexText 2 problem.first.toNat ++ " in position " ++ toString problem.start
    else "bytes in position " ++ toString problem.start ++ "-" ++ toString (problem.stop - 1)
  "'utf-8' codec can't decode " ++ place ++ ": " ++ problem.flaw.message

/-- The first broken character of the bytes at a position, inside a character that began with
`first` at `start` and still owes bytes. -/
def problemFrom? (first : UInt8) (start : Nat) :
    List (UInt8 × UInt8) → Nat → List UInt8 → Option Problem
  | [], _, [] => none
  | _ :: _, position, [] => some ⟨.cutShort, first, start, position⟩
  | [], position, byte :: rest =>
    match owed? byte with
    | some owed => problemFrom? byte position owed (position + 1) rest
    | none => some ⟨.start, byte, position, position + 1⟩
  | range :: owed, position, byte :: rest =>
    if range.1 ≤ byte ∧ byte ≤ range.2 then
      problemFrom? first start owed (position + 1) rest
    else some ⟨.continuation, first, start, position⟩

def problem? (bytes : List UInt8) : Option Problem :=
  problemFrom? 0 0 [] 0 bytes

def read (bytes : ByteArray) : Except Problem String :=
  match String.fromUTF8? bytes with
  | some text => .ok text
  | none => .error ((problem? bytes.toList).getD ⟨.cutShort, 0, 0, bytes.size⟩)

end CodeAtlas.Text.Utf8
