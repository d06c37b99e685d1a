import CodeAtlas.Embedding.Device
import CodeAtlas.Files.World

/-!
# Pretrained models

A pretrained model is loaded from a folder of the cache that fits its name, or by
its name.  Loading from the cache turns off look-ups in the network.
-/

namespace CodeAtlas

structure LoadedModel where
  dimension : Nat
  maxLength : Nat
  encode : List String → List (List Float)
  movable : Bool

structure Loader where
  load : String → Except Fault LoadedModel

namespace Pretrained

/-- The last part of a model's name in lower case. -/
def key (name : String) : String :=
  Text.lower ((Text.split name '/').getLastD "")

def markFile : String :=
  "config_sentence_transformers.json"

mutual

/-- A folder and all folders below it, each with its entries; a folder stands before
those below it. -/
def foldersBelow (path : Path) : FileTree Stored →
    List (Path × List (String × FileTree Stored))
  | .file _ => []
  | .folder entries => (path, entries) :: foldersOf path entries

def foldersOf (path : Path) : List (String × FileTree Stored) →
    List (Path × List (String × FileTree Stored))
  | [] => []
  | (name, tree) :: rest => foldersBelow (path.child name) tree ++ foldersOf path rest

end

def folders (world : World) (cache : Path) : List (Path × List (String × FileTree Stored)) :=
  match world.entryAt? cache with
  | some tree => foldersBelow cache tree
  | none => []

def hasEntry (entries : List (String × FileTree Stored)) (name : String) : Bool :=
  (entries.lookup name).isSome

def markedFolders (world : World) (cache : Path) (key : String) : List Path :=
  ((folders world cache).filter (fun (path, entries) =>
    hasEntry entries markFile && Text.contains (Text.lower path.toString) key)).map Prod.fst

def namedFolders (world : World) (cache : Path) (key : String) :
    List (Path × List (String × FileTree Stored)) :=
  (folders world cache).flatMap (fun (path, entries) =>
    entries.filterMap (fun (name, tree) =>
      match tree with
      | .folder below =>
        if Text.contains (Text.lower name) key then some (path.child name, below) else none
      | .file _ => none))

/-- Whether the cache holds a model: a marked folder for it, or one with its name that is
marked or has a description. -/
def isCached (world : World) (cache : Path) (name : String) : Bool :=
  !(markedFolders world cache (key name)).isEmpty ||
    (namedFolders world cache (key name)).any (fun (_, entries) =>
      hasEntry entries markFile || hasEntry entries "README.md")

/-- The folder of the cache to load a model from: a marked one, or one with its name. -/
def localFolder? (world : World) (cache : Path) (name : String) : Option Path :=
  match markedFolders world cache (key name) with
  | path :: _ => some path
  | [] => ((namedFolders world cache (key name)).map Prod.fst).head?

structure Source where
  name : String
  offline : Bool

def source (world : World) (cache : Option Path) (name : String) : Source :=
  match cache with
  | none => ⟨name, false⟩
  | some cache =>
    if isCached world cache name then
      match localFolder? world cache name with
      | some folder => ⟨folder.toString, true⟩
      | none => ⟨name, true⟩
    else ⟨name, false⟩

def unloadedInfo : Record :=
  [("status", .text "not_loaded")]

def loadedInfo (name device : String) (model : LoadedModel) : Record :=
  [("model_name", .text name), ("embedding_dimension", .int model.dimension),
    ("max_seq_length", .int model.maxLength), ("device", .text device),
    ("status", .text "loaded")]

/-- The device of a model after it was released: main memory, if it can be moved. -/
def releasedDevice (device : String) (model : LoadedModel) : String :=
  if model.movable then "cpu" else device

/-- What a cache is told to hold of a model.  Without a cache or a name there is nothing. -/
def cacheRecord (world : World) (cache : Option Path) (name : Option String) : Record :=
  let held := cache.bind (fun cache => name.map (fun name =>
    (isCached world cache name, (localFolder? world cache name).map Path.toString)))
  [("cached", .bool (held.any Prod.fst)), ("dir", .ofText? (held.bind Prod.snd))]

structure Loading where
  source : Source
  name : String
  device : String
  model : LoadedModel

def load (loader : Loader) (world : World) (cache : Option Path) (name device : String) :
    Except Fault Loading := do
  let source := source world cache name
  return ⟨source, name, device, ← loader.load source.name⟩

def Loading.toRecord (loading : Loading) : Record :=
  [("source", .text loading.source.name),
    ("after", .record (loadedInfo loading.name loading.device loading.model)),
    ("device_after_cleanup", .text (releasedDevice loading.device loading.model)),
    ("offline", if loading.source.offline then .text "1" else .null)]

end Pretrained

end CodeAtlas
