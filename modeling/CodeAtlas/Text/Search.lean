/-!
# Finding, counting and cutting text

Occurrences, replacements and slices, counted in characters.  A slice bound
below zero counts from the end of the text.
-/

namespace CodeAtlas.Text

/-- Whether the first list stands somewhere in the second without a gap. -/
def occursIn (needle : List Char) : List Char → Bool
  | [] => needle.isEmpty
  | character :: rest =>
    needle.isPrefixOf (character :: rest) || occursIn needle rest

def contains (text needle : String) : Bool :=
  occursIn needle.toList text.toList

/-- How often `needle` occurs without overlap, reading from the left.
`skip` characters belong to the occurrence found last. -/
def occurrences (needle : List Char) : Nat → List Char → Nat
  | _, [] => 0
  | skip + 1, _ :: rest => occurrences needle skip rest
  | 0, character :: rest =>
    if needle.isPrefixOf (character :: rest) then
      occurrences needle (needle.length - 1) rest + 1
    else occurrences needle 0 rest

/-- How often the needle occurs in the text without overlap.  The empty needle
stands before every character and at the end. -/
def count (text needle : String) : Nat :=
  if needle.isEmpty then text.length + 1
  else occurrences needle.toList 0 text.toList

/-- Replace every occurrence of a non-empty list, reading from the left. -/
def replaceChars (needle replacement : List Char) : Nat → List Char → List Char
  | _, [] => []
  | skip + 1, _ :: rest => replaceChars needle replacement skip rest
  | 0, character :: rest =>
    if needle.isPrefixOf (character :: rest) then
      replacement ++ replaceChars needle replacement (needle.length - 1) rest
    else character :: replaceChars needle replacement 0 rest

def replace (text needle replacement : String) : String :=
  String.ofList (replaceChars needle.toList replacement.toList 0 text.toList)

/-- The pieces between the separators, in order; there is always one. -/
def pieces (separates : Char → Bool) (characters : List Char) : List (List Char) :=
  characters.foldr
    (fun character later =>
      if separates character then [] :: later
      else match later with
        | [] => [[character]]
        | piece :: rest => (character :: piece) :: rest)
    [[]]

def split (text : String) (separator : Char) : List String :=
  (pieces (· = separator) text.toList).map String.ofList

def lines (text : String) : List String :=
  split text '\n'

def join (separator : String) (texts : List String) : String :=
  String.ofList (List.intercalate separator.toList (texts.map String.toList))

/-- The maximal runs of characters outside a separating class, in order. -/
def runsOutside (separates : Char → Bool) (characters : List Char) : List (List Char) :=
  (pieces separates characters).filter (fun piece => !piece.isEmpty)

/-- The position that a slice bound names in a list of the given length. -/
def sliceBound (length : Nat) (bound : Int) : Nat :=
  if bound < 0 then (length + bound).toNat else bound.toNat

def sliceChars (characters : List Char) (start stop : Int) : List Char :=
  let length := characters.length
  (characters.take (sliceBound length stop)).drop (sliceBound length start)

def slice (text : String) (start stop : Int) : String :=
  String.ofList (sliceChars text.toList start stop)

def take (text : String) (count : Nat) : String :=
  String.ofList (text.toList.take count)

def dropLeading (text : String) (character : Char) : String :=
  String.ofList (text.toList.dropWhile (· = character))

def startsWith (text head : String) : Bool :=
  head.toList.isPrefixOf text.toList

def endsWith (text tail : String) : Bool :=
  tail.toList.isSuffixOf text.toList

/-- The text cut to so many characters, marked by dots when something was cut. -/
def abbreviate (text : String) (limit : Nat) : String :=
  if text.length > limit then take text limit ++ "..." else text

end CodeAtlas.Text
