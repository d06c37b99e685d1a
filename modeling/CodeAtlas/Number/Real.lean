import CodeAtlas.Number.Decimal
import CodeAtlas.Number.Whole

/-!
# Reading real numbers

A real number may have blanks around it, a sign before it and single underscores
between its digits.  The digits may be those of any script.  Infinity and the value
that is no number have names, case aside.
-/

namespace CodeAtlas.Number

private def plainDigit (value : Nat) : Char :=
  Char.ofNat (48 + value)

/-- The characters with plain digits and without the underscores between digits; none if
an underscore stands elsewhere.  `afterDigit` tells whether a digit stands before. -/
def plainDigits? (afterDigit : Bool) : List Char → Option (List Char)
  | [] => some []
  | '_' :: character :: rest =>
    match digitValue? character with
    | some value =>
      if afterDigit then (plainDigits? true rest).map (plainDigit value :: ·) else none
    | none => none
  | ['_'] => none
  | character :: rest =>
    match digitValue? character with
    | some value => (plainDigits? true rest).map (plainDigit value :: ·)
    | none => (plainDigits? false rest).map (character :: ·)

def namedSize? (name : List Char) : Option Float :=
  let plain := String.ofList (name.map Char.toLower)
  if plain == "inf" || plain == "infinity" then some (1.0 / 0.0)
  else if plain == "nan" then some (0.0 / 0.0)
  else none

def real? (text : String) : Option Float :=
  let characters := trimMargins text.toList
  let named :=
    match characters with
    | '-' :: name => (namedSize? name).map (fun size => -size)
    | '+' :: name => namedSize? name
    | name => namedSize? name
  named <|> (plainDigits? false characters).bind (fun digits => parse? (String.ofList digits))

end CodeAtlas.Number
