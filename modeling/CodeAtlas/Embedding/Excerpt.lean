import CodeAtlas.Chunk.Basic
import CodeAtlas.Number.Binary

/-!
# The text that is embedded for a chunk

The docstring comes first, cut to three hundred characters.  The code follows in
full if it fits the rest of the budget; otherwise its first and last lines stand
around a mark for what was left out.
-/

namespace CodeAtlas.Excerpt

def docstringPart (docstring : Option String) : Option String :=
  match docstring with
  | some text =>
    if text.isEmpty then none else some ("\"\"\"" ++ Text.abbreviate text 300 ++ "\"\"\"")
  | none => none

/-- The binary64 number nearest to seven tenths, in units of `2^(-53)`. -/
def sevenTenths : Nat :=
  6305039478318694

/-- Seven tenths of a budget in binary64 arithmetic, in units of `2^(-53)`. -/
def headShare (budget : Int) : Int :=
  let size : Int := Number.roundToBits 53 (budget.natAbs * sevenTenths)
  if budget < 0 then -size else size

def exceedsShare (length budget : Int) : Bool :=
  headShare budget < length * Nat.pow 2 53

/-- The leading lines up to the first with which the length is too much; `used` counts
what stands before them, a line break for each line included. -/
def headLines (isTooMuch : Nat → Bool) : Nat → List String → List String
  | _, [] => []
  | used, line :: rest =>
    if isTooMuch (used + line.length + 1) then []
    else line :: headLines isTooMuch (used + line.length + 1) rest

/-- The length of the lines with a break after each of them. -/
def brokenLength (lines : List String) : Nat :=
  lines.foldl (fun length line => length + line.length + 1) 0

/-- The length of the lines with a break between neighbours. -/
def joinedLength (lines : List String) : Nat :=
  brokenLength lines - 1

/-- Put lines, the last one first, in front of those already taken, up to the first with
which the length is too much. -/
def tailLines (isTooMuch : Nat → Bool) : List String → List String → List String
  | taken, [] => taken
  | taken, line :: rest =>
    if isTooMuch (joinedLength taken + line.length + 1) then taken
    else tailLines isTooMuch (line :: taken) rest

def truncationMark : String :=
  "\n    # ... (truncated) ..."

/-- The first and the last lines around the mark; `used` is the length of what stands
before the code.  One test tells which lengths are too much up to the end of the head,
the other which are too much for the tail after a head that ends there. -/
def headAndTail (isPastHead : Nat → Bool) (isPastTail : Nat → Nat → Bool) (used : Nat)
    (lines : List String) : String :=
  let count := lines.length
  let head := headLines isPastHead used (lines.take (min (count / 2) 20))
  let last := lines.drop (count - min (count / 3) 10)
  let tail := tailLines (isPastTail (used + brokenLength head)) [] last.reverse
  let opening := Text.join "\n" head ++ truncationMark
  if tail.isEmpty then opening else opening ++ "\n" ++ Text.join "\n" tail

def exceedsRest (budget : Int) (taken length : Nat) : Bool :=
  budget - taken - 20 < length

def codePart (budget : Int) (used : Nat) (content : String) : String :=
  if (content.length : Int) ≤ budget then content
  else
    let lines := Text.lines content
    if 3 < lines.length then
      headAndTail (fun length => exceedsShare length budget) (exceedsRest budget) used lines
    else Text.slice content 0 budget ++ "..."

def ofParts (limit : Int) (docstring : Option String) (content : String) : String :=
  match docstring with
  | some docstring =>
    let budget := limit - docstring.length - 10
    Text.join "\n" [docstring, codePart budget docstring.length content]
  | none => codePart (limit - 10) 0 content

def ofChunk (limit : Int) (chunk : Chunk) : String :=
  ofParts limit (docstringPart chunk.docstring) chunk.content

def standardLimit : Int :=
  6000

end CodeAtlas.Excerpt
