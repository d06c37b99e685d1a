/-!
# Binary fractions

A finite floating-point number is a whole number times a power of two.  This
module reads that form off the bits, and decides order and rounding on it in
whole numbers.
-/

namespace CodeAtlas.Number

/-- The value `(-1)^negative * mantissa * 2^exponent`. -/
structure Binary where
  negative : Bool
  mantissa : Nat
  exponent : Int

/-- What the bits of a floating-point number say. -/
inductive Reading where
  | finite (value : Binary)
  | infinite (negative : Bool)
  | nan

def read (number : Float) : Reading :=
  let bits : Nat := number.toBits.toNat
  let negative := bits / Nat.pow 2 63 = 1
  let exponent : Nat := bits / Nat.pow 2 52 % Nat.pow 2 11
  let fraction : Nat := bits % Nat.pow 2 52
  if exponent = 2047 then
    if fraction = 0 then .infinite negative else .nan
  else if exponent = 0 then .finite ⟨negative, fraction, -1074⟩
  else .finite ⟨negative, fraction + Nat.pow 2 52, (exponent : Int) - 1075⟩

/-- The quotient rounded to the nearest whole number; a half goes to the even
neighbour. -/
def roundDiv (numerator denominator : Nat) : Nat :=
  let quotient := numerator / denominator
  let rest := numerator % denominator
  if 2 * rest < denominator then quotient
  else if denominator < 2 * rest then quotient + 1
  else if quotient % 2 = 0 then quotient
  else quotient + 1

namespace Binary

def ratio (value : Binary) : Nat × Nat :=
  if value.exponent < 0 then (value.mantissa, Nat.pow 2 value.exponent.natAbs)
  else (value.mantissa * Nat.pow 2 value.exponent.natAbs, 1)

/-- The size in units of `10^(-places)`, rounded to the nearest. -/
def scaled (value : Binary) (places : Nat) : Nat :=
  let (numerator, denominator) := value.ratio
  roundDiv (numerator * Nat.pow 10 places) denominator

def floor (value : Binary) : Int :=
  let (numerator, denominator) := value.ratio
  if value.negative then -((numerator + denominator - 1) / denominator : Nat)
  else (numerator / denominator : Nat)

def isBelow (value : Binary) (fraction : Int × Nat) : Bool :=
  let (numerator, denominator) := value.ratio
  let signed : Int := if value.negative then -(numerator : Int) else numerator
  signed * fraction.2 < fraction.1 * denominator

def whole? (value : Binary) : Option Int :=
  let (numerator, denominator) := value.ratio
  if numerator % denominator = 0 then
    let size : Int := (numerator / denominator : Nat)
    some (if value.negative then -size else size)
  else none

end Binary

def bitLength (number : Nat) : Nat :=
  if number = 0 then 0 else number.log2 + 1

/-- The number rounded to so many leading binary digits; a half goes to the even
neighbour. -/
def roundToBits (digits number : Nat) : Nat :=
  let unit := Nat.pow 2 (bitLength number - digits)
  roundDiv number unit * unit

end CodeAtlas.Number
