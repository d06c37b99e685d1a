import CodeAtlas.Index.Catalog

/-!
# Statistics of an index

Counts over the live chunks: how many files, which kinds, and the folders and
tags that occur most often.
-/

namespace CodeAtlas

/-- The counts that describe an index.  What is counted may be of any plain type. -/
structure Statistics where
  totalChunks : Nat
  indexSize : Nat
  dimension : Int
  kind : String
  filesIndexed : Nat
  topFolders : List (Value × Nat)
  chunkKinds : List (Value × Nat)
  topTags : List (Value × Nat)

namespace Statistics

/-- A value that can be counted; lists and records cannot. -/
def countable (value : Value) : Except Fault Value :=
  if value.isPlain then .ok value else .error (.wrongType value.notHashable)

def fieldKey (record : Record) (name : String) : Except Fault Value :=
  countable ((record.lookup name).getD (.text "unknown"))

def memberKeys (record : Record) (name : String) : Except Fault (List Value) := do
  (← ((record.lookup name).getD (.list [])).members).mapM countable

structure Contribution where
  file : Value
  folders : List Value
  kind : Value
  tags : List Value

def contribution (record : Record) : Except Fault Contribution := do
  return ⟨← fieldKey record "relative_path", ← memberKeys record "folder_structure",
    ← fieldKey record "chunk_type", ← memberKeys record "tags"⟩

def liveRecords (catalog : Catalog) (names : List String) : List Record :=
  names.filterMap (fun name => (catalog.get? name).map Entry.record)

def top (count : Nat) (values : List Value) : List (Value × Nat) :=
  ((Table.tally values).byCount).take count

def gather (index : Option VectorIndex) (catalog : Catalog) (names : List String) :
    Except Fault Statistics := do
  let parts ← (liveRecords catalog names).mapM contribution
  return {
    totalChunks := names.length
    indexSize := (index.map VectorIndex.size).getD 0
    dimension := (index.map VectorIndex.dimension).getD 0
    kind := (index.map (fun index => index.kind.label)).getD "None"
    filesIndexed := (Table.tally (parts.map Contribution.file)).size
    topFolders := top 10 (parts.flatMap Contribution.folders)
    chunkKinds := (Table.tally (parts.map Contribution.kind)).entries
    topTags := top 20 (parts.flatMap Contribution.tags) }

def fieldName : Value → String
  | .text value => value
  | .bool value => if value then "true" else "false"
  | .int value => toString value
  | .real value => Number.shortestText value
  | _ => "null"

/-- Counts as a record.  Of values with the same field name the last one counts. -/
def countsValue (counts : List (Value × Nat)) : Value :=
  .record (Record.update [] (counts.map (fun (value, count) => (fieldName value, .int count))))

def toRecord (statistics : Statistics) : Record :=
  [("total_chunks", .int statistics.totalChunks), ("index_size", .int statistics.indexSize),
    ("embedding_dimension", .int statistics.dimension), ("index_type", .text statistics.kind),
    ("files_indexed", .int statistics.filesIndexed),
    ("top_folders", countsValue statistics.topFolders),
    ("chunk_types", countsValue statistics.chunkKinds),
    ("top_tags", countsValue statistics.topTags)]

def emptyRecord : Record :=
  [("total_chunks", .int 0), ("index_size", .int 0), ("embedding_dimension", .int 0),
    ("files_indexed", .int 0)]

end Statistics

end CodeAtlas
