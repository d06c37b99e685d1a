import CodeAtlas.Data.Table
import CodeAtlas.Index.Filter
import CodeAtlas.Index.Vectors

/-!
# The catalog of indexed chunks

The catalog knows, for each chunk, its record and the position of its vector.  An
entry is live until it is removed; the names of all chunks that were ever added
stay, one for each vector.

The catalog is kept in a file.  It is assumed of the file that a commit puts all changes into it,
that it restores what was put, and that changes which were not committed are lost once the index
is opened again.
-/

namespace CodeAtlas

structure Entry where
  position : Nat
  record : Record

abbrev Catalog := Table String Entry

structure Hit where
  identifier : String
  similarity : Similarity
  record : Record

namespace Catalog

def enter (catalog : Catalog) (start : Nat) (items : List Embedded) : Catalog :=
  (items.zipIdx start).foldl
    (fun catalog (item, position) => catalog.insert item.identifier ⟨position, item.record⟩)
    catalog

/-- The live chunks among the found positions that the filter accepts, at most
`count` of them unless `count` is not positive.  `kept` holds the results so far,
newest first. -/
def collect (catalog : Catalog) (names : List String) (filter : Value) (count : Int) :
    List Hit → List (Similarity × Nat) → Except Fault (List Hit)
  | kept, [] => .ok kept.reverse
  | kept, (similarity, position) :: rest =>
    match names[position]? with
    | none => .error .outOfRange
    | some name =>
      match catalog.get? name with
      | none => collect catalog names filter count kept rest
      | some entry => do
        if ← Filter.accepts entry.record filter then
          let kept := ⟨name, similarity, entry.record⟩ :: kept
          if count ≤ kept.length then return kept.reverse
          else collect catalog names filter count kept rest
        else collect catalog names filter count kept rest

/-- The path that a record names, with its folder if it has one. -/
def filePath (record : Record) : Option Value :=
  let field (name : String) := ((record.lookup name).getD .null)
  if (field "file_path").isTruthy then some (field "file_path")
  else if (field "relative_path").isTruthy then some (field "relative_path")
  else none

/-- Whether a record belongs to a file: one of the two paths is part of the other.
Where a project is named, the record has to name it too; an empty name is none. -/
def belongsTo (path project : Value) (record : Record) : Except Fault Bool := do
  match filePath record with
  | none => return false
  | some file =>
    let near ←
      if ← Filter.occurs file path then pure true
      else Filter.occurs path file
    return near &&
      (!project.isTruthy || ((record.lookup "project_name").getD .null).agrees project)

/-- The names whose live records belong to a file, in order and with repetitions. -/
def belonging (catalog : Catalog) (path project : Value) :
    List String → Except Fault (List String)
  | [] => .ok []
  | name :: rest =>
    match catalog.get? name with
    | none => catalog.belonging path project rest
    | some entry => do
      if ← belongsTo path project entry.record then
        return name :: (← catalog.belonging path project rest)
      else catalog.belonging path project rest

/-- Remove entries one after the other, up to the first that is not there. -/
def removeAll (catalog : Catalog) : List String → Catalog × Except Fault Unit
  | [] => (catalog, .ok ())
  | name :: rest =>
    if catalog.contains name then Catalog.removeAll (catalog.erase name) rest
    else (catalog, .error (.missingKey (.text name)))

def toValue (catalog : Catalog) : Value :=
  .record (catalog.entries.map (fun (name, entry) =>
    (name, .record [("index_id", .int entry.position), ("metadata", .record entry.record)])))

def entryOf? (value : Value) : Option Entry :=
  match value.field? "index_id", value.field? "metadata" with
  | some (.int position), some (.record record) => some ⟨position.toNat, record⟩
  | _, _ => none

def ofValue (value : Value) : Catalog :=
  match value with
  | .record fields =>
    ⟨fields.filterMap (fun (name, entry) => (entryOf? entry).map (name, ·))⟩
  | _ => Table.empty

end Catalog

end CodeAtlas
