/-!
# Sorting by runs

A list is cut into runs that rise or fall strictly, falling ones are turned around,
short ones are filled up by binary insertion, and neighbouring runs are merged.  A
merge goes item by item until one side wins often, and then skips ahead by halving.

Where the comparison is an order this is a stable sort like any other.  Where it is
none, because some items compare with nothing, the outcome depends on which items are
compared, and these steps decide it.
-/

namespace CodeAtlas.Sorting

variable {α : Type}

/-- Halve a range until one place is left: the places before it go right, those from it
on do not. -/
def halve (goesRight : Nat → Bool) : Nat → Nat → Nat → Nat
  | 0, _, high => high
  | fuel + 1, low, high =>
    if low < high then
      let middle := low + (high - low) / 2
      if goesRight middle then halve goesRight fuel (middle + 1) high
      else halve goesRight fuel low middle
    else high

/-- Probe at growing distances below a limit: the last distance that passed and the
first that did not. -/
def probe (passes : Nat → Bool) (limit : Nat) : Nat → Nat → Nat → Nat × Nat
  | 0, last, next => (last, min next limit)
  | fuel + 1, last, next =>
    if next < limit && passes next then probe passes limit fuel next (2 * next + 1)
    else (last, min next limit)

/-- The first of `size` places that does not go right, looked for from a hint outwards. -/
def gallop (goesRight : Nat → Bool) (size hint : Nat) : Nat :=
  if goesRight hint then
    let (last, next) := probe (fun distance => goesRight (hint + distance)) (size - hint) size 0 1
    halve goesRight size (hint + last + 1) (hint + next)
  else
    let (last, next) := probe (fun distance => !goesRight (hint - distance)) (hint + 1) size 0 1
    halve goesRight size (hint + 1 - next) (hint - last)

variable (less : α → α → Bool)

def isLess (left right : Option α) : Bool :=
  match left, right with
  | some left, some right => less left right
  | _, _ => false

/-- Put an item behind all items of a run that are not above it. -/
def insertInto (run : List α) (item : α) : List α :=
  let place := halve (fun index => !isLess less (some item) run[index]?) run.length 0 run.length
  run.take place ++ item :: run.drop place

/-- The run of items that rise from `last`, and the rest. -/
def risingFrom (last : α) : List α → List α × List α
  | [] => ([last], [])
  | next :: rest =>
    if less next last then ([last], next :: rest)
    else
      let (run, others) := risingFrom next rest
      (last :: run, others)

/-- The run of items that fall strictly from `last`, turned around and put before what
was passed, and the rest. -/
def fallingFrom (passed : List α) (last : α) : List α → List α × List α
  | [] => (last :: passed, [])
  | next :: rest =>
    if less next last then fallingFrom (last :: passed) next rest
    else (last :: passed, next :: rest)

/-- The first run of a list, rising, and the rest. -/
def firstRun : List α → List α × List α
  | [] => ([], [])
  | [item] => ([item], [])
  | first :: second :: rest =>
    if less second first then fallingFrom less [first] second rest
    else
      let (run, others) := risingFrom less second rest
      (first :: run, others)

/-- Cut a list into rising runs of at least so many items, the last one excepted. -/
def runs (least : Nat) : Nat → List α → List (List α)
  | 0, _ => []
  | _, [] => []
  | fuel + 1, items =>
    let (run, rest) := firstRun less items
    let more := rest.take (least - run.length)
    more.foldl (insertInto less) run :: runs least fuel (rest.drop (least - run.length))

/-- The least length of a run: a number from 32 to 64 that divides the length into
almost a power of two. -/
def leastRun (length : Nat) : Nat :=
  if length < 64 then length
  else
    let halved := length / Nat.pow 2 (length.log2 - 5)
    if halved * Nat.pow 2 (length.log2 - 5) = length then halved else halved + 1

/-- A merge under way.  From the end, both sides stand with their last items first. -/
structure Merge (α : Type) where
  fromEnd : Bool
  left : List α
  right : List α
  /-- What was taken, newest first. -/
  taken : List α
  /-- How often a side has to win in a row before items are skipped. -/
  patience : Nat

namespace Merge

def takeLeft (merge : Merge α) (count : Nat) : Merge α :=
  { merge with left := merge.left.drop count
               taken := (merge.left.take count).reverse ++ merge.taken }

def takeRight (merge : Merge α) (count : Nat) : Merge α :=
  { merge with right := merge.right.drop count
               taken := (merge.right.take count).reverse ++ merge.taken }

/-- Whether the rest needs no comparison. -/
def isOver (merge : Merge α) : Bool :=
  if merge.fromEnd then merge.left.isEmpty || merge.right.length ≤ 1
  else merge.right.isEmpty || merge.left.length ≤ 1

def result (merge : Merge α) : List α :=
  if merge.fromEnd then merge.right.reverse ++ merge.left.reverse ++ merge.taken
  else merge.taken.reverse ++ merge.right ++ merge.left

def leftWins (merge : Merge α) : Bool :=
  isLess less merge.right.head? merge.left.head? == merge.fromEnd

/-- Take items one by one until a side has won often enough in a row. -/
def singly : Nat → Nat → Nat → Merge α → Merge α
  | 0, _, _, merge => merge
  | fuel + 1, left, right, merge =>
    let isLeft := merge.leftWins less
    let next := if isLeft then merge.takeLeft 1 else merge.takeRight 1
    let left := if isLeft then left + 1 else 0
    let right := if isLeft then 0 else right + 1
    if next.isOver || merge.patience ≤ left || merge.patience ≤ right then next
    else singly fuel left right next

/-- How many items of the left side go before the next one of the right side. -/
def leftLead (merge : Merge α) : Nat :=
  let size := merge.left.length
  let passes (items : List α) (index : Nat) := !isLess less merge.right.head? items[index]?
  if merge.fromEnd then size - gallop (passes merge.left.reverse) size (size - 1)
  else gallop (passes merge.left) size 0

/-- How many items of the right side go before the next one of the left side. -/
def rightLead (merge : Merge α) : Nat :=
  let size := merge.right.length
  let passes (items : List α) (index : Nat) := isLess less items[index]? merge.left.head?
  if merge.fromEnd then size - gallop (passes merge.right.reverse) size (size - 1)
  else gallop (passes merge.right) size 0

/-- The lead from which on items are skipped again. -/
def worthwhile : Nat :=
  7

/-- Skip ahead on both sides in turn while that is worthwhile. -/
def skipping : Nat → Merge α → Merge α
  | 0, merge => merge
  | fuel + 1, merge =>
    let merge := { merge with patience := max 1 (merge.patience - 1) }
    let leftCount := merge.leftLead less
    let merge := merge.takeLeft leftCount
    if merge.isOver then merge
    else
      let merge := merge.takeRight 1
      if merge.isOver then merge
      else
        let rightCount := merge.rightLead less
        let merge := merge.takeRight rightCount
        if merge.isOver then merge
        else
          let merge := merge.takeLeft 1
          if merge.isOver then merge
          else if worthwhile ≤ leftCount || worthwhile ≤ rightCount then skipping fuel merge
          else { merge with patience := merge.patience + 1 }

/-- Merge to the end, singly and skipping in turn. -/
def finish : Nat → Merge α → Merge α
  | 0, merge => merge
  | fuel + 1, merge =>
    if merge.isOver then merge
    else
      let size := merge.left.length + merge.right.length
      let merge := merge.singly less size 0 0
      if merge.isOver then merge
      else
        let eager := { merge with patience := merge.patience + 1 }
        finish fuel (eager.skipping less size)

end Merge

/-- Merge two neighbouring runs.  What stands at its place already is left alone, and the
shorter side is put on hold. -/
def mergeRuns (patience : Nat) (left right : List α) : List α × Nat :=
  let start := gallop (fun index => !isLess less right.head? left[index]?) left.length 0
  let stop := gallop (fun index => isLess less right[index]? left.getLast?) right.length
    (right.length - 1)
  if left.length ≤ start || stop = 0 then (left ++ right, patience)
  else
    let lower := left.drop start
    let upper := right.take stop
    let merge : Merge α :=
      if lower.length ≤ upper.length then
        Merge.takeRight ⟨false, lower, upper, [], patience⟩ 1
      else Merge.takeLeft ⟨true, lower.reverse, upper.reverse, [], patience⟩ 1
    let done := merge.finish less (lower.length + upper.length)
    (left.take start ++ done.result ++ right.drop stop, done.patience)

/-- A run that waits to be merged, with the power of its boundary to the next one. -/
structure Waiting (α : Type) where
  run : List α
  power : Nat

/-- The power of the boundary between two runs of a list: how often the list has to be
halved until their middles fall apart.  The arguments are twice the middles. -/
def boundaryPower (length : Nat) : Nat → Nat → Nat → Nat
  | 0, _, _ => 0
  | fuel + 1, left, right =>
    if length ≤ left then
      boundaryPower length fuel (2 * (left - length)) (2 * (right - length)) + 1
    else if length ≤ right then 1
    else boundaryPower length fuel (2 * left) (2 * right) + 1

/-- Merge waiting runs, the newest first, while boundaries have a larger power. -/
def settle (power : Nat) : Nat → Nat → List (Waiting α) → List (Waiting α) × Nat
  | fuel + 1, patience, last :: before :: rest =>
    if power < before.power then
      let (run, patience) := mergeRuns less patience before.run last.run
      settle power fuel patience (⟨run, before.power⟩ :: rest)
    else (last :: before :: rest, patience)
  | _, patience, waiting => (waiting, patience)

def push (length patience : Nat) (waiting : List (Waiting α)) (run : List α) :
    List (Waiting α) × Nat :=
  match waiting with
  | [] => ([⟨run, 0⟩], patience)
  | last :: rest =>
    let start := rest.foldl (fun length other => length + other.run.length) 0
    let left := 2 * start + last.run.length
    let power := boundaryPower length (length + 1) left (left + last.run.length + run.length)
    match settle less power waiting.length patience waiting with
    | ([], patience) => ([⟨run, 0⟩], patience)
    | (top :: others, patience) => (⟨run, 0⟩ :: { top with power } :: others, patience)

/-- Merge all waiting runs, the newest first. -/
def collapse : Nat → Nat → List (Waiting α) → List α
  | _, _, [] => []
  | _, _, [last] => last.run
  | 0, _, waiting => (waiting.reverse.map Waiting.run).flatten
  | fuel + 1, patience, [last, middle] =>
    let (run, patience) := mergeRuns less patience middle.run last.run
    collapse fuel patience [⟨run, middle.power⟩]
  | fuel + 1, patience, last :: middle :: first :: rest =>
    if first.run.length < last.run.length then
      let (run, patience) := mergeRuns less patience first.run middle.run
      collapse fuel patience (last :: ⟨run, first.power⟩ :: rest)
    else
      let (run, patience) := mergeRuns less patience middle.run last.run
      collapse fuel patience (⟨run, middle.power⟩ :: first :: rest)

/-- The items in rising order; items of which neither is less keep their order. -/
def rising (items : List α) : List α :=
  let length := items.length
  let parts := runs less (leastRun length) length items
  let (waiting, patience) := parts.foldl
    (fun (waiting, patience) run => push less length patience waiting run) ([], Merge.worthwhile)
  collapse less length patience waiting

/-- The items in falling order; items of which neither is less keep their order. -/
def falling (items : List α) : List α :=
  (rising less items.reverse).reverse

end CodeAtlas.Sorting
