/-!
# Times of day

A moment is a count of seconds since the start of 1970.  It is written as a date
and a time of day that sort as the moments do.
-/

namespace CodeAtlas.Clock

def isLeap (year : Nat) : Bool :=
  year % 4 = 0 && (year % 100 ≠ 0 || year % 400 = 0)

def monthLengths (year : Nat) : List Nat :=
  [31, if isLeap year then 29 else 28, 31, 30, 31, 30, 31, 31, 30, 31, 30, 31]

/-- The month and day, both counted from one, of a day counted from zero. -/
def monthDay : Nat → List Nat → Nat → Nat × Nat
  | month, [], day => (month, day + 1)
  | month, length :: lengths, day =>
    if day < length then (month, day + 1) else monthDay (month + 1) lengths (day - length)

/-- The year and the day in it.  Every year is shorter than 367 days, so one
step a day is more than enough. -/
def yearDay : Nat → Nat → Nat → Nat × Nat
  | 0, year, day => (year, day)
  | fuel + 1, year, day =>
    let length := if isLeap year then 366 else 365
    if day < length then (year, day) else yearDay fuel (year + 1) (day - length)

def padded (width number : Nat) : String :=
  let digits := Nat.toDigits 10 number
  String.ofList (List.replicate (width - digits.length) '0' ++ digits)

def text (seconds : Nat) : String :=
  let days := seconds / 86400
  let (year, day) := yearDay days 1970 days
  let (month, date) := monthDay 1 (monthLengths year) day
  padded 4 year ++ "-" ++ padded 2 month ++ "-" ++ padded 2 date ++ "T" ++
    padded 2 (seconds / 3600 % 24) ++ ":" ++ padded 2 (seconds / 60 % 60) ++ ":" ++
    padded 2 (seconds % 60)

end CodeAtlas.Clock
