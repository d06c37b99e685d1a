import CodeAtlas.Embedding.Basic
import CodeAtlas.Sorting.Insertion

/-!
# Vector indexes

An index holds vectors of one dimension in the order in which they were added.  It is searched
by a library, which decides how vectors are normalized, how similar two of them are, and which
ones are looked at in an index with inverted lists.  Assumed of every library is that a flat
index looks at all vectors, that results come by falling similarity and equally similar ones by
position, and that places without a result are left out.  An index with inverted lists has to
be trained before vectors are added and gives vectors back only while it keeps a direct map.
-/

namespace CodeAtlas

abbrev Similarity := Rat

namespace Embedding

/-- The sum of squares, from the left. -/
def squareSum (vector : Embedding) : Float :=
  vector.foldl (fun sum number => sum + number * number) 0.0

/-- The vector of length one in the same direction; a zero vector stays. -/
def normalized (vector : Embedding) : Embedding :=
  let sum := vector.squareSum
  if 0.0 < sum then vector.map (fun number => number / sum.sqrt) else vector

/-- The sum of products, from the left. -/
def innerProduct (left right : Embedding) : Float :=
  (left.zip right).foldl (fun sum pair => sum + pair.1 * pair.2) 0.0

/-- The whole number of units below or at a number. -/
def floorOf (number : Float) : Int :=
  match Number.read number with
  | .finite value => value.floor
  | _ => 0

/-- The inner product, rounded to the nearest unit of `2^-30`. -/
def similarity (query vector : Embedding) : Similarity :=
  mkRat (floorOf (innerProduct query vector * 1073741824.0 + 0.5)) 1073741824

@[simp]
theorem length_normalized (vector : Embedding) :
    vector.normalized.length = vector.length := by
  unfold normalized
  dsimp only
  split
  · exact List.length_map ..
  · rfl

end Embedding

namespace Similarity

def toFloat (similarity : Similarity) : Float :=
  Float.ofInt similarity.num / Float.ofNat similarity.den

end Similarity

inductive IndexKind where
  /-- Compare with every vector. -/
  | flat
  /-- Compare with the vectors in those of so many lists that the library probes. -/
  | inverted (lists : Int)
deriving DecidableEq

def IndexKind.label : IndexKind → String
  | .flat => "IndexFlatIP"
  | .inverted _ => "IndexIVFFlat"

structure VectorIndex where
  kind : IndexKind
  dimension : Int
  trained : Bool
  directMap : Bool
  onGpu : Bool
  /-- The most results that a search finds, if it does not look everywhere. -/
  reach : Option Nat
  vectors : List Embedding

structure VectorLibrary where
  normalize : Embedding → Embedding
  length_normalize : ∀ vector, (normalize vector).length = vector.length
  similarity : IndexKind → Embedding → Embedding → Similarity
  /-- Whether a position is looked at for a query, in an index with inverted lists. -/
  probes : VectorIndex → Embedding → Nat → Bool

attribute [simp] VectorLibrary.length_normalize

/-- Similarities are rounded inner products of vectors of length one, and all lists are
probed. -/
def VectorLibrary.standard : VectorLibrary where
  normalize := Embedding.normalized
  length_normalize := Embedding.length_normalized
  similarity _ := Embedding.similarity
  probes _ _ _ := true

namespace VectorIndex

def flat (dimension : Int) : VectorIndex :=
  ⟨.flat, dimension, true, true, false, none, []⟩

/-- The number of lists for a dimension: an eighth of it, but no less than 10 and no
more than 100. -/
def listCount (dimension : Int) : Int :=
  min 100 (max 10 (dimension.fdiv 8))

def inverted (dimension : Int) : VectorIndex :=
  ⟨.inverted (listCount dimension), dimension, false, true, false, none, []⟩

def size (index : VectorIndex) : Nat :=
  index.vectors.length

def fits (index : VectorIndex) (vector : Embedding) : Bool :=
  (vector.length : Int) = index.dimension

def train (index : VectorIndex) : VectorIndex :=
  { index with trained := true }

def add (index : VectorIndex) (vectors : List Embedding) : Except Fault VectorIndex :=
  if vectors.all index.fits then .ok { index with vectors := index.vectors ++ vectors }
  else .error .dimensionMismatch

section Search

variable (index : VectorIndex) (library : VectorLibrary) (query : Embedding)

def looksAt (position : Nat) : Bool :=
  index.kind = .flat || library.probes index query position

/-- The positions that are looked at, with their similarities. -/
def scored : List (Similarity × Nat) :=
  (index.vectors.zipIdx.filter (fun place => index.looksAt library query place.2)).map
    (fun (vector, position) => (library.similarity index.kind query vector, position))

def ranked : List (Similarity × Nat) :=
  Sorting.byInsertion (fun left right => decide (right.1 ≤ left.1)) (index.scored library query)

/-- The first results of a search.  A count below zero leaves out so many at the end. -/
def search (count : Int) : Except Fault (List (Similarity × Nat)) :=
  if index.fits query then
    let found := (index.ranked library query).take (Text.sliceBound index.size count)
    .ok (match index.reach with
      | some most => found.take most
      | none => found)
  else .error .dimensionMismatch

end Search

def reconstruct (index : VectorIndex) (position : Nat) : Option Embedding :=
  if index.directMap then index.vectors[position]? else none

end VectorIndex

end CodeAtlas
