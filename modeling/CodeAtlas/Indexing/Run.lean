import CodeAtlas.Chunk.Files
import CodeAtlas.Index.Manager
import CodeAtlas.Tracking.Detection

/-!
# Indexing runs

A full run forgets the index and embeds all source files of a project.  Where
there is a snapshot, a run embeds only what changed since: the chunks of removed
and modified files go, those of added and modified files are made anew.  A run
that fails says why and keeps what it did before.
-/

namespace CodeAtlas

structure RunResult where
  filesAdded : Nat
  filesRemoved : Nat
  filesModified : Nat
  chunksAdded : Nat
  chunksRemoved : Nat
  failure : Option String
deriving DecidableEq, Inhabited

namespace RunResult

def nothing : RunResult :=
  ⟨0, 0, 0, 0, 0, none⟩

def failed (reason : String) : RunResult :=
  ⟨0, 0, 0, 0, 0, some reason⟩

def success (result : RunResult) : Bool :=
  result.failure.isNone

/-- The record of the result.  The time taken is not measured. -/
def toRecord (result : RunResult) : Record :=
  [("files_added", .int result.filesAdded), ("files_removed", .int result.filesRemoved),
    ("files_modified", .int result.filesModified), ("chunks_added", .int result.chunksAdded),
    ("chunks_removed", .int result.chunksRemoved), ("time_taken", .real 0.0),
    ("success", .bool result.success), ("error", .ofText? result.failure)]

end RunResult

structure Indexer where
  env : Environment
  store : SnapshotStore
  /-- The root that chunks are placed under; an empty one counts as none. -/
  root : String

namespace Indexer

def chunksOf (indexer : Indexer) (world : World) (place : Path) (files : List String) :
    List Chunk :=
  files.flatMap (fun file =>
    chunksOfFile indexer.env world indexer.root (place ++ Path.ofString file).toString)

/-- Name the project and the content in the records of embedded chunks.  The contents
are taken from the chunks in order, as far as both lists go. -/
def annotate (project : Value) (chunks : List Chunk) (items : List Embedded) : List Embedded :=
  List.zipWith (fun (chunk : Chunk) (item : Embedded) =>
    { item with record := item.record.update [("project_name", project),
        ("content", .text chunk.content)] }) chunks items

/-- Embed chunks for a project.  Batches that fail are left out. -/
def embed (indexer : Indexer) (project : Value) (chunks : List Chunk) : List Embedded :=
  match indexer.env.encoder.embedChunks Encoder.standardBatch chunks with
  | .ok items => annotate project chunks items
  | .error _ => []

/-- Embed the source files among some files and add them to the index.  Tells how many
source files and chunks there were. -/
def addFiles (indexer : Indexer) (place : Path) (project : Value) (files : List String) :
    IndexAct (Nat × Nat) := do
  let sources := files.filter Language.isSourcePath
  let items := indexer.embed project
    (indexer.chunksOf (← getThe IndexState).world place sources)
  ChunkIndex.add indexer.env.gpu items
  return (sources.length, items.length)

def fullRun (indexer : Indexer) (place : Path) (project : Value) : IndexAct RunResult := do
  ChunkIndex.clear
  let tree ← DigestTree.build indexer.env.digest IgnoreRules.standard place
  let (sources, chunks) ← indexer.addFiles place project tree.files
  indexer.store.save indexer.env tree [("project_name", project),
    ("full_index", .bool true), ("total_files", .int tree.files.length),
    ("supported_files", .int sources), ("chunks_indexed", .int chunks)]
  ChunkIndex.save indexer.env.gpu
  return { RunResult.nothing with filesAdded := sources, chunksAdded := chunks }

def removeFiles (project : Value) : List Value → IndexAct Nat
  | [] => return 0
  | file :: rest => do
    let count ← ChunkIndex.removeFile file project
    return count + (← removeFiles project rest)

def changeRun (indexer : Indexer) (place : Path) (project : Value) : IndexAct RunResult := do
  let (changes, tree) ← indexer.store.changesSince indexer.env place.toString
  if !changes.hasChanges then return RunResult.nothing
  let removed ← removeFiles project (← orFail changes.toRemove)
  let files ← orFail ((← orFail changes.toReindex).mapM Value.needText)
  let (_, added) ← indexer.addFiles place project files
  indexer.store.save indexer.env tree [("project_name", project),
    ("incremental_update", .bool true), ("files_added", .int changes.added.length),
    ("files_removed", .int changes.removed.length),
    ("files_modified", .int changes.modified.length)]
  ChunkIndex.save indexer.env.gpu
  return ⟨changes.added.length, changes.removed.length, changes.modified.length, added, removed,
    none⟩

/-- The name of a project: the one given, unless it counts as none, or that of its folder.
Names may be of any type. -/
def projectName (name : Value) (place : Path) : Value :=
  if name.isTruthy then name else .text place.name

def run (indexer : Indexer) (path : String) (name : Value) (full : Bool) :
    IndexAct RunResult := do
  let place ← World.resolve path
  let project := projectName name place
  tryCatch (do
    if full || !(← indexer.store.has indexer.env place.toString) then
      indexer.fullRun place project
    else indexer.changeRun place project)
    (fun fault => return RunResult.failed fault.message)

/-- Whether an age in milliseconds is more than a number of minutes.  An age of zero is not
compared. -/
def isTooOld (age : Int) (minutes : Value) : Except Fault Bool := do
  if age = 0 then return false
  else (← minutes.times 60).isExceededBy age

/-- Whether a project has no snapshot, one older than so many minutes, or changed since. -/
def isStale (indexer : Indexer) (path : String) (maxAge : Value) : Act Bool := do
  if !(← indexer.store.has indexer.env path) then return true
  match ← indexer.store.age indexer.env path with
  | some age => if ← orFail (isTooOld age maxAge) then return true
  | none => pure ()
  indexer.store.hasChanged indexer.env path

def refresh (indexer : Indexer) (path : String) (maxAge name : Value) : IndexAct RunResult := do
  if ← indexer.isStale path maxAge then indexer.run path name false
  else return RunResult.nothing

def describe (indexer : Indexer) (path : String) : IndexAct (Option Value) := do
  match ← indexer.store.loadRecord indexer.env path with
  | none => return none
  | some value =>
    if !value.isTruthy then return none
    match value with
    | .record fields =>
      let size := (← ChunkIndex.current).names.length
      let age ← indexer.store.age indexer.env path
      let seconds := match age with
        | some age => .real (Float.ofInt age / 1000.0)
        | none => .null
      return some (.record (Record.update fields [("current_chunks", .int size),
        ("snapshot_age", seconds)]))
    | other => throw (.wrongType other.notAssignable)

end Indexer

end CodeAtlas
