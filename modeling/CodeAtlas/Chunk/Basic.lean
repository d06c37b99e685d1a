import CodeAtlas.Data.Value
import CodeAtlas.Path

/-!
# Chunks

A chunk is a fragment that knows its place: the file, the path under the project
root and the folders on the way.  Its identifier names path, lines, kind and
name.
-/

namespace CodeAtlas

structure Chunk where
  content : String
  kind : String
  startLine : Int
  endLine : Int
  filePath : String
  relativePath : String
  folders : List String
  name : Option String := none
  parentName : Option String := none
  docstring : Option String := none
  decorators : List String := []
  imports : List String := []
  complexity : Int := 0
  tags : List String := []
deriving DecidableEq, Inhabited

namespace Chunk

def foldersAbove (path : String) : List String :=
  (Path.ofString path).parent.allParts

/-- Fill in the folders from the relative path, when the chunk has a file and no
folders yet. -/
def place (chunk : Chunk) : Chunk :=
  if !chunk.filePath.isEmpty && chunk.folders.isEmpty then
    { chunk with folders := foldersAbove chunk.relativePath }
  else chunk

/-- The part of the identifier that names path, lines and kind. -/
def position (chunk : Chunk) : String :=
  chunk.relativePath ++ ":" ++ toString chunk.startLine ++ "-" ++ toString chunk.endLine ++ ":" ++
    chunk.kind

/-- The identifier of the chunk; an empty name counts as none. -/
def identifier (chunk : Chunk) : String :=
  match chunk.name with
  | some name => if name.isEmpty then chunk.position else chunk.position ++ ":" ++ name
  | none => chunk.position

def placeFields (chunk : Chunk) : Record :=
  [("file_path", .text chunk.filePath), ("relative_path", .text chunk.relativePath),
    ("folder_structure", .ofTexts chunk.folders), ("chunk_type", .text chunk.kind),
    ("start_line", .int chunk.startLine), ("end_line", .int chunk.endLine),
    ("name", .ofText? chunk.name), ("parent_name", .ofText? chunk.parentName),
    ("docstring", .ofText? chunk.docstring), ("decorators", .ofTexts chunk.decorators),
    ("imports", .ofTexts chunk.imports), ("complexity_score", .int chunk.complexity),
    ("tags", .ofTexts chunk.tags)]

def toRecord (chunk : Chunk) : Record :=
  ("content", .text chunk.content) :: chunk.placeFields

end Chunk

end CodeAtlas
