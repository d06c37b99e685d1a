import CodeAtlas.Text.Case
import CodeAtlas.Text.Letter
import CodeAtlas.Text.Search

/-!
# Tokens

Texts and identifiers are compared by their tokens: the words in lower case,
divided also at underscores, at hyphens, and where a small letter meets a capital.
-/

namespace CodeAtlas.Token

def isSmall (character : Char) : Bool :=
  'a' ≤ character && character ≤ 'z'

def isCapital (character : Char) : Bool :=
  'A' ≤ character && character ≤ 'Z'

/-- Put a space between a small letter and a capital after it. -/
def splitHumps : List Char → List Char
  | [] => []
  | [character] => [character]
  | character :: next :: rest =>
    if isSmall character && isCapital next then character :: ' ' :: splitHumps (next :: rest)
    else character :: splitHumps (next :: rest)

def splitJoints (characters : List Char) : List Char :=
  characters.map (fun character => if character = '_' || character = '-' then ' ' else character)

def ofText (text : String) : List String :=
  let spaced := splitJoints (splitHumps text.toList)
  let lowered := Text.lowerChars [] spaced
  (Text.runsOutside (fun character => !Text.isWordChar character) lowered).map String.ofList

def shared (left right : List String) : Nat :=
  (left.eraseDups.filter right.contains).length

end CodeAtlas.Token
