import CodeAtlas.Index.Vectors

/-!
# The kept form of vector indexes

An index is kept as a document with all of its vectors.
-/

namespace CodeAtlas.VectorIndex

def toValue (index : VectorIndex) : Value :=
  .record [
    ("lists", match index.kind with
      | .flat => .null
      | .inverted lists => .int lists),
    ("dimension", .int index.dimension),
    ("trained", .bool index.trained),
    ("direct_map", .bool index.directMap),
    ("reach", match index.reach with
      | some most => .int most
      | none => .null),
    ("vectors", .list (index.vectors.map (fun vector => .list (vector.map .real))))]

def description (index : VectorIndex) : Record :=
  [("type", .text index.kind.label), ("d", .int index.dimension), ("ntotal", .int index.size),
    ("nlist", match index.kind with
      | .flat => .null
      | .inverted lists => .int lists),
    ("direct_map", .bool index.directMap), ("trained", .bool index.trained)]

def numberOf : Value → Float
  | .real value => value
  | .int value => Float.ofInt value
  | _ => 0.0

def vectorOf : Value → Embedding
  | .list numbers => numbers.map numberOf
  | _ => []

def ofValue? (value : Value) : Option VectorIndex :=
  match value.field? "lists", value.field? "dimension", value.field? "trained",
      value.field? "direct_map", value.field? "reach", value.field? "vectors" with
  | some lists, some (.int dimension), some (.bool trained), some (.bool directMap),
      some reach, some (.list vectors) =>
      some {
        kind := match lists with
          | .int count => .inverted count
          | _ => .flat
        dimension
        trained
        directMap
        onGpu := false
        reach := match reach with
          | .int most => some most.toNat
          | _ => none
        vectors := vectors.map vectorOf }
  | _, _, _, _, _, _ => none

end CodeAtlas.VectorIndex
