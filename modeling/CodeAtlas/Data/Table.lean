import CodeAtlas.Sorting.Insertion

/-!
# Tables in insertion order

A table maps keys to values.  A key keeps the place at which it was first put
in, and the value that was put in last.  Tables written through `insert` hold
each key once.
-/

namespace CodeAtlas

structure Table (κ : Type v) (α : Type u) where
  entries : List (κ × α)

namespace Table

variable {κ : Type v} {α : Type u} {β : Type w}

def empty : Table κ α :=
  ⟨[]⟩

instance : EmptyCollection (Table κ α) :=
  ⟨empty⟩

instance : Inhabited (Table κ α) :=
  ⟨empty⟩

def keys (table : Table κ α) : List κ :=
  table.entries.map Prod.fst

def values (table : Table κ α) : List α :=
  table.entries.map Prod.snd

def size (table : Table κ α) : Nat :=
  table.entries.length

def map (f : α → β) (table : Table κ α) : Table κ β :=
  ⟨table.entries.map (fun entry => (entry.1, f entry.2))⟩

/-- The entries by falling count; equal counts keep their order. -/
def byCount (table : Table κ Nat) : List (κ × Nat) :=
  Sorting.byInsertion (fun left right => right.2 ≤ left.2) table.entries

variable [BEq κ]

def get? (table : Table κ α) (key : κ) : Option α :=
  table.entries.lookup key

def contains (table : Table κ α) (key : κ) : Bool :=
  (table.get? key).isSome

/-- Replace the value of a key in its place, or put the key at the end. -/
def insertEntries (key : κ) (value : α) : List (κ × α) → List (κ × α)
  | [] => [(key, value)]
  | entry :: rest =>
    if key == entry.1 then (entry.1, value) :: rest
    else entry :: insertEntries key value rest

def insert (table : Table κ α) (key : κ) (value : α) : Table κ α :=
  ⟨insertEntries key value table.entries⟩

def erase (table : Table κ α) (key : κ) : Table κ α :=
  ⟨table.entries.filter (fun entry => !(key == entry.1))⟩

def ofList (pairs : List (κ × α)) : Table κ α :=
  pairs.foldl (fun table pair => table.insert pair.1 pair.2) empty

def bump (table : Table κ Nat) (key : κ) : Table κ Nat :=
  table.insert key ((table.get? key).getD 0 + 1)

/-- How often each key occurs, in the order of first occurrence. -/
def tally (keys : List κ) : Table κ Nat :=
  keys.foldl bump empty

end Table

end CodeAtlas
