/-!
# Sorting by insertion

A stable sort that recurses on its list and nothing else, so that a proof can compute with it.
-/

namespace CodeAtlas.Sorting

variable {α : Type u} (before : α → α → Bool)

/-- Put an item in front of the first one that it may stand before. -/
def insertItem (item : α) : List α → List α
  | [] => [item]
  | other :: rest =>
    if before item other then item :: other :: rest else other :: insertItem item rest

def byInsertion (items : List α) : List α :=
  items.foldr (insertItem before) []

end CodeAtlas.Sorting
