import CodeAtlas.Text.CodePoints
import CodeAtlas.Text.Search

/-!
# Blank characters

A character is blank when it separates words: the Unicode spaces, the line and
paragraph separators, and the control characters 9 to 13 and 28 to 31.
Trimming, blankness of a text, and splitting into words are defined here.
-/

namespace CodeAtlas.Text

def blankPoints : CodePoints :=
  [
   (9, 13), (28, 32), (133, 133), (160, 160), (5760, 5760), (8192, 8202), (8232, 8233),
   (8239, 8239), (8287, 8287), (12288, 12288)
  ]

def isBlank (character : Char) : Bool :=
  blankPoints.hasChar character

def trimChars (characters : List Char) : List Char :=
  ((characters.dropWhile isBlank).reverse.dropWhile isBlank).reverse

def trim (text : String) : String :=
  String.ofList (trimChars text.toList)

def isBlankText (text : String) : Bool :=
  text.toList.all isBlank

/-- The words of the text: its maximal runs without blanks. -/
def words (text : String) : List String :=
  (runsOutside isBlank text.toList).map String.ofList

end CodeAtlas.Text
