import CodeAtlas.Files.World
import CodeAtlas.Tracking.DigestTree
import CodeAtlas.Tracking.Ignore

/-!
# Building digest trees

The digest of a file is that of its bytes.  The digest of a folder is that of its
name followed by the sorted digests of what is tracked in it.  The digest
function is a parameter.
-/

namespace CodeAtlas

abbrev DigestFunction := ByteArray → String

def folderDigest (digest : DigestFunction) (name : String) (below : List String) : String :=
  digest (name ++ String.join (Text.sorted below)).toUTF8

/-- The path of an entry as a text; the root's own path is a dot. -/
def trackedPath (names : List String) : String :=
  Path.toString ⟨.relative, names⟩

namespace DigestNode

mutual

/-- The node of a file or folder.  `below` leads to it from the project's root. -/
def ofTree (digest : DigestFunction) (rules : IgnoreRules) (below : List String)
    (name : String) : FileTree Stored → DigestNode
  | .file stored => .ofFile (trackedPath below) (digest stored.bytes) stored.bytes.size
  | .folder entries =>
    let nodes := (Text.sortedByKey (ofEntries digest rules below entries)).map Prod.snd
    .ofFolder (trackedPath below)
      (folderDigest digest name (nodes.map (fun node => node.digest.getD ""))) nodes

/-- The nodes of the entries that are not left out, with the names of the entries. -/
def ofEntries (digest : DigestFunction) (rules : IgnoreRules) (below : List String) :
    List (String × FileTree Stored) → List (String × DigestNode)
  | [] => []
  | (name, tree) :: rest =>
    if rules.ignores name then ofEntries digest rules below rest
    else (name, ofTree digest rules (below ++ [name]) name tree) ::
      ofEntries digest rules below rest

end

end DigestNode

namespace DigestTree

def ofFiles (digest : DigestFunction) (rules : IgnoreRules) (rootPath : Path)
    (files : Option (FileTree Stored)) : DigestTree :=
  let root :=
    match files with
    | none => none
    | some tree =>
      if rules.ignores rootPath.name then none
      else some (DigestNode.ofTree digest rules [] rootPath.name tree)
  ⟨rootPath, root, .childrenFirst⟩

def build (digest : DigestFunction) (rules : IgnoreRules) (rootPath : Path) : Act DigestTree := do
  if rules.ignores rootPath.name then return ofFiles digest rules rootPath none
  else return ofFiles digest rules rootPath (← World.find rootPath)

end DigestTree

/-- The digest and size of a file.  What the file system does not give has the digest of
its path and no size. -/
def fileDigest (digest : DigestFunction) (world : World) (path : Path) :
    Except Fault (String × Nat) :=
  match world.file path with
  | .ok stored => .ok (digest stored.bytes, stored.bytes.size)
  | .error (.disk _) => .ok (digest path.toString.toUTF8, 0)
  | .error fault => .error fault

end CodeAtlas
