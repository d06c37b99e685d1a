import CodeAtlas.Sorting.Insertion

/-!
# Sorted texts

Texts are ordered by their characters, the first difference deciding.
-/

namespace CodeAtlas.Text

def sorted (texts : List String) : List String :=
  Sorting.byInsertion (fun left right => decide (left ≤ right)) texts

def sortedByKey (pairs : List (String × α)) : List (String × α) :=
  Sorting.byInsertion (fun left right => decide (left.1 ≤ right.1)) pairs

end CodeAtlas.Text
