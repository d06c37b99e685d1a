import CodeAtlas.Text.CodePoints
import CodeAtlas.Text.Search

/-!
# Lines

A text falls into lines at every line break: a line feed, a carriage return, both
together, a vertical tab, a form feed, a separator of files, groups or records, a next
line, and a separator of lines or paragraphs.
-/

namespace CodeAtlas.Text

def breakPoints : CodePoints :=
  [(10, 13), (28, 30), (133, 133), (8232, 8233)]

/-- The lines of a text; a break at the end starts no further line. -/
def brokenLines (text : String) : List String :=
  let pieces := pieces breakPoints.hasChar (replace text "\r\n" "\n").toList
  (if (pieces.getLastD []).isEmpty then pieces.dropLast else pieces).map String.ofList

def firstLine (text : String) : String :=
  (brokenLines text).headD ""

end CodeAtlas.Text
