import CodeAtlas.Text.Search
import CodeAtlas.Text.Printable

/-!
# Quoted texts

A text inside a message stands between single quotes, or between double quotes
when it holds a single quote and no double quote.  Backslashes and characters
without a printed shape are written as escapes.
-/

namespace CodeAtlas.Text

def hexText (width number : Nat) : String :=
  let digits := Nat.toDigits 16 number
  String.ofList (List.replicate (width - digits.length) '0' ++ digits)

private def escapedChar (mark : Char) (character : Char) : String :=
  let point := character.toNat
  if character = mark || character = '\\' then String.ofList ['\\', character]
  else if character = '\n' then "\\n"
  else if character = '\r' then "\\r"
  else if character = '\t' then "\\t"
  else if isPrintable character then String.singleton character
  else if point < 0x100 then "\\x" ++ hexText 2 point
  else if point < 0x10000 then "\\u" ++ hexText 4 point
  else "\\U" ++ hexText 8 point

/-- The text between the quotes that its own quotes call for. -/
def quoted (text : String) : String :=
  let characters := text.toList
  let mark := if characters.contains '\'' && !characters.contains '"' then '"' else '\''
  String.singleton mark ++ String.join (characters.map (escapedChar mark)) ++ String.singleton mark

/-- A byte as it is shown in a message: as its character, if that is printed and needs no
escape, or by its number. -/
def byteSign (byte : UInt8) : String :=
  if 0x20 ≤ byte && byte ≤ 0x7e && byte != 0x27 && byte != 0x5c
  then String.singleton (Char.ofNat byte.toNat)
  else "\\x" ++ hexText 2 byte.toNat

end CodeAtlas.Text
