import CodeAtlas.Text.Blank

/-!
# Reading whole numbers

A whole number may have blanks around it, a sign before it and single underscores
between its digits.  The digits may be those of any script, and there is a limit on
their count.  The control characters 28 to 31 are no blanks here.
-/

namespace CodeAtlas.Number

/-- The digits for zero of all scripts; the nine digits after each follow it. -/
def zeroPoints : List Nat :=
  [48, 1632, 1776, 1984, 2406, 2534, 2662, 2790, 2918, 3046, 3174, 3302,
    3430, 3558, 3664, 3792, 3872, 4160, 4240, 6112, 6160, 6470, 6608, 6784,
    6800, 6992, 7088, 7232, 7248, 42528, 43216, 43264, 43472, 43504, 43600, 44016,
    65296, 66720, 68912, 69734, 69872, 69942, 70096, 70384, 70736, 70864, 71248, 71360,
    71472, 71904, 72016, 72784, 73040, 73120, 92768, 92864, 93008, 120782, 120792, 120802,
    120812, 120822, 123200, 123632, 125264, 130032]

/-- The value of a decimal digit of any script. -/
def digitValue? (character : Char) : Option Nat :=
  let point := character.toNat
  (zeroPoints.find? (fun first => first ≤ point && point < first + 10)).map (point - ·)

def isDigit (character : Char) : Bool :=
  (digitValue? character).isSome

/-- Read digits after a digit; `value` is what was read before. -/
def readDigits (value : Nat) : List Char → Option Nat
  | [] => some value
  | '_' :: character :: rest =>
    match digitValue? character with
    | some digit => readDigits (10 * value + digit) rest
    | none => none
  | character :: rest =>
    match digitValue? character with
    | some digit => readDigits (10 * value + digit) rest
    | none => none

def natural? : List Char → Option Nat
  | [] => none
  | character :: rest => (digitValue? character).bind (fun digit => readDigits digit rest)

def isMargin (character : Char) : Bool :=
  Text.isBlank character && !(28 ≤ character.toNat && character.toNat < 32)

def trimMargins (characters : List Char) : List Char :=
  ((characters.dropWhile isMargin).reverse.dropWhile isMargin).reverse

def digitLimit : Nat :=
  4300

def limited? (characters : List Char) : Option Nat :=
  if digitLimit < characters.countP isDigit then none else natural? characters

def whole? (text : String) : Option Int :=
  match trimMargins text.toList with
  | '-' :: digits => (limited? digits).map (fun value => -(value : Int))
  | '+' :: digits => (limited? digits).map Int.ofNat
  | digits => (limited? digits).map Int.ofNat

end CodeAtlas.Number
