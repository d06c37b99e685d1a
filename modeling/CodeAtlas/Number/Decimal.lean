import CodeAtlas.Number.Binary

/-!
# Decimal texts of floating-point numbers

Three ways to write a number: with a fixed count of places, with the fewest
digits that read back as the same number, and rounded to a count of places.
-/

namespace CodeAtlas.Number

def padLeft (width : Nat) (digits : String) : String :=
  String.ofList (List.replicate (width - digits.length) '0') ++ digits

def placeText (units places : Nat) : String :=
  let digits := padLeft (places + 1) (toString units)
  let whole := digits.toList.take (digits.length - places)
  let rest := digits.toList.drop (digits.length - places)
  if places = 0 then digits
  else String.ofList whole ++ "." ++ String.ofList rest

/-- The number with so many places, a half rounded to even.  Zero has no sign. -/
def fixed (places : Nat) (number : Float) : String :=
  match read number with
  | .nan => "nan"
  | .infinite negative => if negative then "-inf" else "inf"
  | .finite value =>
    let units := value.scaled places
    let text := placeText units places
    if value.negative && units ≠ 0 then "-" ++ text else text

/-- A decimal `digits * 10^exponent`. -/
structure Digits where
  digits : Nat
  exponent : Int

/-- Whether the decimal lies in the interval of the numbers that are read as the
binary value: half a unit on both sides, and a quarter unit below a power of
two.  The ends belong to it when the mantissa is even. -/
def readsBack (value : Binary) (decimal : Digits) : Bool :=
  let closed := value.mantissa % 2 = 0
  let narrow := value.mantissa = Nat.pow 2 52 && (-1074 : Int) < value.exponent
  let lower := if narrow then 4 * value.mantissa - 1 else 4 * value.mantissa - 2
  let upper := 4 * value.mantissa + 2
  let binary := value.exponent - 2
  let scaleBinary :=
    Nat.pow 2 (max binary 0).toNat * Nat.pow 10 (max (-decimal.exponent) 0).toNat
  let scaleDecimal :=
    Nat.pow 10 (max decimal.exponent 0).toNat * Nat.pow 2 (max (-binary) 0).toNat
  let point := decimal.digits * scaleDecimal
  let low := lower * scaleBinary
  let high := upper * scaleBinary
  if closed then low ≤ point && point ≤ high else low < point && point < high

def distance (value : Binary) (decimal : Digits) : Nat :=
  let scaleBinary :=
    Nat.pow 2 (max value.exponent 0).toNat * Nat.pow 10 (max (-decimal.exponent) 0).toNat
  let scaleDecimal :=
    Nat.pow 10 (max decimal.exponent 0).toNat * Nat.pow 2 (max (-value.exponent) 0).toNat
  let point := decimal.digits * scaleDecimal
  let here := value.mantissa * scaleBinary
  max point here - min point here

def neighbours (value : Binary) (exponent : Int) : Digits × Digits :=
  let scaleBinary :=
    Nat.pow 2 (max value.exponent 0).toNat * Nat.pow 10 (max (-exponent) 0).toNat
  let scaleDecimal :=
    Nat.pow 10 (max exponent 0).toNat * Nat.pow 2 (max (-value.exponent) 0).toNat
  let below := value.mantissa * scaleBinary / scaleDecimal
  (⟨below, exponent⟩, ⟨below + 1, exponent⟩)

/-- The better of the two neighbours that reads back, if one does. -/
def closest? (value : Binary) (exponent : Int) : Option Digits :=
  let (below, above) := neighbours value exponent
  match readsBack value below, readsBack value above with
  | true, true =>
    let down := distance value below
    let up := distance value above
    if down < up then some below
    else if up < down then some above
    else if below.digits % 2 = 0 then some below
    else some above
  | true, false => some below
  | false, true => some above
  | false, false => none

def leadingPlace (value : Binary) : Int :=
  let (numerator, denominator) := value.ratio
  if denominator ≤ numerator then ((toString (numerator / denominator)).length : Int) - 1
  else
    let ahead := (toString denominator).length - (toString numerator).length
    if denominator ≤ numerator * Nat.pow 10 ahead then -(ahead : Int) else -(ahead + 1 : Int)

/-- The fewest digits that read back, trying one digit after the other. -/
def shortestFrom (value : Binary) : Nat → Int → Digits
  | 0, exponent => (neighbours value exponent).1
  | tries + 1, exponent =>
    match closest? value exponent with
    | some decimal => decimal
    | none => shortestFrom value tries (exponent - 1)

def Digits.strip (decimal : Digits) : Nat → Digits
  | 0 => decimal
  | tries + 1 =>
    if decimal.digits ≠ 0 && decimal.digits % 10 = 0 then
      strip ⟨decimal.digits / 10, decimal.exponent + 1⟩ tries
    else decimal

/-- The fewest digits that read back as the value. -/
def shortest (value : Binary) : Digits :=
  (shortestFrom value 18 (leadingPlace value)).strip 25

/-- The text of the decimal: positional from `0.0001` to below `10^16`, with a
power of ten outside of that. -/
def Digits.text (decimal : Digits) : String :=
  let digits := toString decimal.digits
  let place := decimal.exponent + digits.length - 1
  if (-4 : Int) ≤ place && place < 16 then
    if 0 ≤ decimal.exponent then
      digits ++ String.ofList (List.replicate decimal.exponent.toNat '0') ++ ".0"
    else placeText decimal.digits decimal.exponent.natAbs
  else
    let head := String.ofList (digits.toList.take 1)
    let tail := String.ofList (digits.toList.drop 1)
    let mantissa := if tail.isEmpty then head else head ++ "." ++ tail
    let sign := if place < 0 then "-" else "+"
    mantissa ++ "e" ++ sign ++ padLeft 2 (toString place.natAbs)

def shortestText (number : Float) : String :=
  match read number with
  | .nan => "NaN"
  | .infinite negative => if negative then "-Infinity" else "Infinity"
  | .finite value =>
    let text := if value.mantissa = 0 then "0.0" else (shortest value).text
    if value.negative then "-" ++ text else text

def ofPlaces (negative : Bool) (digits places : Nat) : Float :=
  let size := Float.ofScientific digits true places
  if negative then -size else size

def roundPlaces (places : Nat) (number : Float) : Float :=
  match read number with
  | .finite value => ofPlaces value.negative (value.scaled places) places
  | _ => number

def ofDecimal (negative : Bool) (digits : Nat) (exponent : Int) : Float :=
  let size :=
    if exponent < 0 then Float.ofScientific digits true exponent.natAbs
    else Float.ofScientific digits false exponent.natAbs
  if negative then -size else size

def digitsValue (digits : List Char) : Nat :=
  digits.foldl (fun value digit => value * 10 + (digit.toNat - 48)) 0

def exponent? (input : List Char) : Option Int :=
  let (negative, digits) :=
    match input with
    | '-' :: rest => (true, rest)
    | '+' :: rest => (false, rest)
    | _ => (false, input)
  if digits.isEmpty || !digits.all Char.isDigit then none
  else
    let size : Int := digitsValue digits
    some (if negative then -size else size)

/-- The number that a decimal text names: a sign, digits with a point among them,
and an exponent. -/
def parse? (text : String) : Option Float :=
  let (negative, unsigned) :=
    match text.toList with
    | '-' :: rest => (true, rest)
    | '+' :: rest => (false, rest)
    | input => (false, input)
  let whole := unsigned.takeWhile Char.isDigit
  let afterWhole := unsigned.dropWhile Char.isDigit
  let fraction :=
    match afterWhole with
    | '.' :: rest => rest.takeWhile Char.isDigit
    | _ => []
  let afterFraction :=
    match afterWhole with
    | '.' :: rest => rest.dropWhile Char.isDigit
    | _ => afterWhole
  if whole.isEmpty && fraction.isEmpty then none
  else
    let finish (exponent : Int) :=
      some (ofDecimal negative (digitsValue (whole ++ fraction)) (exponent - fraction.length))
    match afterFraction with
    | [] => finish 0
    | mark :: rest =>
      if mark = 'e' || mark = 'E' then (exponent? rest).bind finish else none

end CodeAtlas.Number
