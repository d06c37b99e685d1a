import CodeAtlas.Chunk.Placement
import CodeAtlas.Data.Members
import CodeAtlas.Environment
import CodeAtlas.Fragment.Selection

/-!
# Chunks of files on disk

A file is cut by the rules of its language.  A file that cannot be read, cut or
placed has no chunks.
-/

namespace CodeAtlas

/-- The fragments of a source by the rules of a language; none if it cannot be cut. -/
def fragmentsBy (env : Environment) (language : Language) (source : Source) : List Fragment :=
  match language.fragments source (env.parse.tree language source) with
  | .ok fragments => fragments
  | .error _ => []

def readText (world : World) (file : String) : Except Fault String :=
  (world.file (Path.ofString file)).bind Stored.text

/-- The fragments of a file.  Fails only where the language lacks its parser. -/
def fragmentsOfFile (env : Environment) (world : World) (file : String) :
    Except Fault (List Fragment) := do
  match ← Language.forFile env.languages file with
  | none => return []
  | some language =>
    match readText world file with
    | .ok text => return fragmentsBy env language (Source.ofText text)
    | .error _ => return []

/-- The chunks of a file below a root; an empty root counts as none. -/
def chunksOfFile (env : Environment) (world : World) (root file : String) : List Chunk :=
  if Language.isSourcePath file then
    match (fragmentsOfFile env world file).bind (chunksOfFragments root file) with
    | .ok chunks => chunks
    | .error _ => []
  else []

def isInToolFolder (path : Path) : Bool :=
  path.parts.any IgnoreRules.toolFolders.contains

/-- The endings that are asked for, which may be the members of any value; no wish stands
for all of them. -/
def wantedEndings (wish : Value) : Except Fault (List String) := do
  let known := Language.endings.map Prod.fst
  if wish.isTruthy then
    let wanted ← wish.memberSet
    return known.filter (fun ending => wanted.any (fun item => item.agrees (.text ending)))
  else return known

/-- The source files below a folder, sorted by path.  A name that is too long is a fault. -/
def sourceFiles (world : World) (folder : Path) (wish : Value) :
    Except Fault (List Path) := do
  match ← world.lookUp folder with
  | some (.folder entries) =>
    let endings ← wantedEndings wish
    let paths := (FileTree.filePathsOf entries).map (fun names =>
      (⟨folder.anchor, folder.parts ++ names⟩ : Path))
    let wanted := paths.filter (fun path =>
      endings.any (Text.endsWith path.name) && !isInToolFolder path)
    return (Text.sortedByKey (wanted.map (fun path => (path.toString, path)))).map Prod.snd
  | _ => return []

def chunksOfFolder (env : Environment) (world : World) (root folder : String)
    (wish : Value) : Except Fault (List Chunk) := do
  let paths ← sourceFiles world (Path.ofString folder) wish
  return paths.flatMap (fun path => chunksOfFile env world root path.toString)

end CodeAtlas
