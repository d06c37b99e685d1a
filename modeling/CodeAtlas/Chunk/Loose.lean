import CodeAtlas.Chunk.Placement
import CodeAtlas.Data.Needed

/-!
# Chunks of loose records

A record of a chunk or a fragment may hold values of any type.  A loose chunk keeps
them as they are.  If all of them are of the right type it is a chunk.
-/

namespace CodeAtlas

structure LooseChunk where
  content : Value
  kind : Value
  startLine : Value
  endLine : Value
  filePath : Value
  relativePath : Value
  folders : Value
  name : Value
  parentName : Value
  docstring : Value
  decorators : Value
  imports : Value
  complexity : Value
  tags : Value

namespace LooseChunk

def fieldNames : List String :=
  ["content", "chunk_type", "start_line", "end_line", "file_path", "relative_path",
    "folder_structure", "name", "parent_name", "docstring", "decorators", "imports",
    "complexity_score", "tags"]

def listOr : Value → Value
  | .null => .list []
  | other => other

/-- Give empty lists for nulls, and fill in the folders from the relative path when the
chunk has a file and no folders yet. -/
def place (chunk : LooseChunk) : Except Fault LooseChunk := do
  let chunk := { chunk with
    decorators := listOr chunk.decorators
    imports := listOr chunk.imports
    tags := listOr chunk.tags }
  if chunk.filePath.isTruthy && !chunk.folders.isTruthy then
    let path ← chunk.relativePath.needText
    return { chunk with folders := .ofTexts (Chunk.foldersAbove path) }
  else return chunk

/-- The loose chunk that a record describes.  A field that is missing has its standard
value; there are no other fields. -/
def ofRecord (record : Record) : Except Fault LooseChunk :=
  let field (name : String) (standard : Value) := (record.lookup name).getD standard
  match record.find? (fun entry => !fieldNames.contains entry.1) with
  | some entry => .error (.wrongType ("got an unexpected keyword argument " ++ Text.quoted entry.1))
  | none => place {
      content := field "content" (.text "")
      kind := field "chunk_type" (.text "function")
      startLine := field "start_line" (.int 1)
      endLine := field "end_line" (.int 1)
      filePath := field "file_path" (.text "")
      relativePath := field "relative_path" (.text "")
      folders := field "folder_structure" (.list [])
      name := field "name" .null
      parentName := field "parent_name" .null
      docstring := field "docstring" .null
      decorators := field "decorators" .null
      imports := field "imports" .null
      complexity := field "complexity_score" (.int 0)
      tags := field "tags" .null }

def placeFields (chunk : LooseChunk) : Record :=
  [("file_path", chunk.filePath), ("relative_path", chunk.relativePath),
    ("folder_structure", chunk.folders), ("chunk_type", chunk.kind),
    ("start_line", chunk.startLine), ("end_line", chunk.endLine), ("name", chunk.name),
    ("parent_name", chunk.parentName), ("docstring", chunk.docstring),
    ("decorators", chunk.decorators), ("imports", chunk.imports),
    ("complexity_score", chunk.complexity), ("tags", chunk.tags)]

def toRecord (chunk : LooseChunk) : Record :=
  ("content", chunk.content) :: chunk.placeFields

/-- The identifier of the chunk; a name that counts as none is left out. -/
def identifier (chunk : LooseChunk) : String :=
  let position := chunk.relativePath.display ++ ":" ++ chunk.startLine.display ++ "-" ++
    chunk.endLine.display ++ ":" ++ chunk.kind.display
  if chunk.name.isTruthy then position ++ ":" ++ chunk.name.display else position

def regular? (chunk : LooseChunk) : Option Chunk := do
  return {
    content := ← chunk.content.asText?
    kind := ← chunk.kind.asText?
    startLine := ← chunk.startLine.asWhole?
    endLine := ← chunk.endLine.asWhole?
    filePath := ← chunk.filePath.asText?
    relativePath := ← chunk.relativePath.asText?
    folders := ← chunk.folders.asTexts?
    name := ← chunk.name.asOptionalText?
    parentName := ← chunk.parentName.asOptionalText?
    docstring := ← chunk.docstring.asOptionalText?
    decorators := ← chunk.decorators.asTexts?
    imports := ← chunk.imports.asTexts?
    complexity := ← chunk.complexity.asWhole?
    tags := ← chunk.tags.asTexts? }

end LooseChunk

structure LooseFragment where
  content : Value
  startLine : Value
  endLine : Value
  kind : Value
  language : Value
  facts : Value

namespace LooseFragment

/-- The loose fragment that a record describes.  The kind has to be there; another field
that is missing has its standard value. -/
def ofRecord (record : Record) : Except Fault LooseFragment := do
  let field (name : String) (standard : Value) := (record.lookup name).getD standard
  return {
    content := field "content" (.text "")
    startLine := field "start_line" (.int 1)
    endLine := field "end_line" (.int 1)
    kind := ← record.need "type"
    language := field "language" (.text "python")
    facts := field "metadata" (.record []) }

/-- The facts that decide how a fragment becomes a chunk, if they are of the right type. -/
def factsOf? (facts : Record) : Option Facts := do
  let textOf? (name : String) := (facts.lookup name).elim (some none) Value.asOptionalText?
  let isOn (name : String) := ((facts.lookup name).map Value.isTruthy).getD false
  let parent ← textOf? "parent_name"
  return {
    name := ← textOf? "name"
    docstring := ← textOf? "docstring"
    decorators := ← (facts.lookup "decorators").elim (some none) (fun value =>
      value.asTexts?.map some)
    isAsync := isOn "is_async"
    isGenerator := isOn "is_generator"
    isExport := isOn "is_export"
    isComponent := isOn "is_component"
    hasGenerics := isOn "has_generics"
    container := parent.map (fun name => ⟨some name, .type⟩) }

def regular? (fragment : LooseFragment) : Option Fragment := do
  let facts ← match fragment.facts with
    | .record fields => factsOf? fields
    | _ => none
  return {
    content := ← fragment.content.asText?
    startLine := ← fragment.startLine.asWhole?
    endLine := ← fragment.endLine.asWhole?
    kind := ← fragment.kind.asText?
    language := ← fragment.language.asText?
    facts }

/-- The kind of the chunk.  A list or a record cannot be looked up. -/
def chunkKind (kind parentName : Value) : Except Fault Value := do
  if !kind.isPlain then throw (.wrongType kind.notHashable)
  let common : Value := match kind.asText?.bind (fun name => commonKinds.lookup name) with
    | some word => .text word
    | none => kind
  match common with
  | .text "function" => return if parentName.isTruthy then .text "method" else common
  | _ => return common

def chunkTags (facts : Record) (language : Value) : Value :=
  let marks := [("is_async", "async"), ("is_generator", "generator"), ("is_export", "export"),
    ("has_generics", "generic"), ("is_component", "component")]
  .list ((marks.filter (fun mark =>
    ((facts.lookup mark.1).map Value.isTruthy).getD false)).map (fun mark => .text mark.2) ++
    [language])

def toChunk (root : Option Path) (path : Path) (fragment : LooseFragment) :
    Except Fault LooseChunk := do
  let facts ← match fragment.facts with
    | .record fields => pure fields
    | other => throw (.unsuitable (other.lacks "get"))
  let fact (name : String) := (facts.lookup name).getD .null
  let kind ← chunkKind fragment.kind (fact "parent_name")
  let relative ← match root with
    | some root => path.relativeTo root
    | none => pure path
  let folders := match root with
    | some _ => relative.parent.parts
    | none => holdingFolder path
  LooseChunk.place {
    content := fragment.content
    kind
    startLine := fragment.startLine
    endLine := fragment.endLine
    filePath := .text path.toString
    relativePath := .text relative.toString
    folders := .ofTexts folders
    name := fact "name"
    parentName := fact "parent_name"
    docstring := fact "docstring"
    decorators := fact "decorators"
    imports := .list []
    complexity := .int 0
    tags := chunkTags facts fragment.language }

end LooseFragment

/-- The records of the chunks that loose fragments of a file become; an empty root counts as
none. -/
def chunkRecords (root file : String) (fragments : List LooseFragment) :
    Except Fault (List Record) :=
  match fragments.mapM LooseFragment.regular? with
  | some fragments => return (← chunksOfFragments root file fragments).map Chunk.toRecord
  | none => do
    let base := if root.isEmpty then none else some (Path.ofString root)
    let chunks ← fragments.mapM (LooseFragment.toChunk base (Path.ofString file))
    return chunks.map LooseChunk.toRecord

end CodeAtlas
