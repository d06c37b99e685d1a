import CodeAtlas.Environment
import CodeAtlas.Tracking.Kept

/-!
# Snapshots

A snapshot keeps the digest tree of a project, and beside it a record about the
project.  Both files are named for the digest of the project's absolute path.
-/

namespace CodeAtlas

structure SnapshotStore where
  folder : Path
deriving Inhabited

namespace SnapshotStore

def standardFolder (env : Environment) : Path :=
  (env.home.child ".claude_code_search").child "merkle"

def open? (folder : Path) : Act SnapshotStore := do
  World.makeFolder folder
  return ⟨folder⟩

/-- The name under which the project at an absolute path is kept. -/
def projectId (env : Environment) (place : Path) : String :=
  env.pathDigest place.toString.toUTF8

def snapshotFile (env : Environment) (store : SnapshotStore) (place : Path) : Path :=
  store.folder.child (projectId env place ++ "_snapshot.json")

def recordFile (env : Environment) (store : SnapshotStore) (place : Path) : Path :=
  store.folder.child (projectId env place ++ "_metadata.json")

def version : String :=
  "1.0"

def treeDocument (taken : String) (tree : Value) : Value :=
  .record [("version", .text version), ("timestamp", .text taken), ("dag", tree)]

/-- What a snapshot adds to the record about a project. -/
def facts (env : Environment) (recorded : String) (place : Path) (files : Nat)
    (rootDigest : Value) : Record :=
  [("project_path", .text place.toString), ("project_id", .text (projectId env place)),
    ("last_snapshot", .text recorded), ("file_count", .int files), ("root_hash", rootDigest)]

/-- Keep any tree, and a value to which the facts of the snapshot are added.  What counts as
nothing is an empty record; another value that is no record has no room for facts. -/
def saveKept (env : Environment) (store : SnapshotStore) (tree : KeptTree) (record : Value) :
    Act Unit := do
  let taken ← World.readClock
  let document := treeDocument taken (← orFail tree.toValue)
  World.writeFile (store.snapshotFile env tree.rootPath) (.document document)
  let recorded ← World.readClock
  let added := facts env recorded tree.rootPath tree.files.length tree.rootDigest
  let described ←
    match record with
    | .record fields => pure (Record.update fields added)
    | other => if other.isTruthy then throw (.unsuitable (other.lacks "update")) else pure added
  World.writeFile (store.recordFile env tree.rootPath) (.document (.record described))

def save (env : Environment) (store : SnapshotStore) (tree : DigestTree) (record : Record) :
    Act Unit :=
  store.saveKept env (.regular tree) (.record record)

/-- The tree in a kept document.  Another version is told and read all the same. -/
def treeOf (value : Value) : Act KeptTree := do
  match value with
  | .record fields =>
    let found := (fields.lookup "version").getD .null
    if !found.agrees (.text version) then
      World.print ("Warning: Snapshot version mismatch: " ++ found.display)
    let tree ← orFail (Record.need fields "dag")
    orFail (KeptTree.ofValue (← get).workingDirectory tree)
  | other => throw (.unsuitable (other.lacks "get"))

/-- The kept tree of a project.  One that cannot be read counts as none. -/
def load (env : Environment) (store : SnapshotStore) (project : String) :
    Act (Option KeptTree) := do
  let file := store.snapshotFile env (← World.resolve project)
  if !(← World.exists? file) then return none
  tryCatch (do return some (← treeOf (← World.documentAt file)))
    (fun _ => do
      World.print "Error loading snapshot"
      return none)

/-- The kept record about a project.  One that cannot be read counts as none. -/
def loadRecord (env : Environment) (store : SnapshotStore) (project : String) :
    Act (Option Value) := do
  let file := store.recordFile env (← World.resolve project)
  if !(← World.exists? file) then return none
  tryCatch (do return some (← World.documentAt file))
    (fun _ => do
      World.print "Error loading metadata"
      return none)

def has (env : Environment) (store : SnapshotStore) (project : String) : Act Bool := do
  World.exists? (store.snapshotFile env (← World.resolve project))

def delete (env : Environment) (store : SnapshotStore) (project : String) : Act Unit := do
  let place ← World.resolve project
  World.discard (store.snapshotFile env place)
  World.discard (store.recordFile env place)

def namesEnding (store : SnapshotStore) (ending : String) : Act (List String) := do
  match (← get).entryAt? store.folder with
  | some tree => return (tree.entries.map Prod.fst).filter (Text.endsWith · ending)
  | none => return []

/-- The documents in the named files; those that cannot be read are left out. -/
def readAll (store : SnapshotStore) (names : List String) : Act (List Value) := do
  let found ← names.mapM (fun name =>
    tryCatch (do return some (← World.documentAt (store.folder.child name)))
      (fun _ => return none))
  return found.filterMap id

def timeOf : Value → Except Fault Value
  | .record fields => .ok ((fields.lookup "last_snapshot").getD (.text ""))
  | other => .error (.unsuitable (other.lacks "get"))

/-- The records by falling time; times need an order unless there is only one. -/
def newestFirst (records : List Value) : Except Fault (List Value) := do
  let timed ← records.mapM (fun record => return (← timeOf record, record))
  return (← Value.fallingBy Prod.fst timed).map Prod.snd

def list (store : SnapshotStore) : Act (List Value) := do
  let records ← store.readAll (← store.namesEnding "_metadata.json")
  orFail (newestFirst records)

def projectOfName (name : String) : String :=
  Text.replace (Path.splitName name).1 "_snapshot" ""

def groupByProject (names : List (String × Int)) : Table String (List (String × Int)) :=
  names.foldl
    (fun groups entry =>
      let project := projectOfName entry.1
      groups.insert project ((groups.get? project).getD [] ++ [entry]))
    Table.empty

/-- The names to delete from a group: all but the newest `keep`; a count below zero
deletes so many of the oldest. -/
def outdated (keep : Int) (group : List (String × Int)) : List String :=
  let newest := Sorting.byInsertion (fun left right => decide (right.2 ≤ left.2)) group
  (newest.drop (Text.sliceBound group.length keep)).map Prod.fst

def timeOfFile (store : SnapshotStore) (name : String) : Act Int := do
  match (← get).entryAt? (store.folder.child name) with
  | some (.file stored) => return stored.modified
  | _ => return 0

def cleanup (store : SnapshotStore) (keep : Int) : Act Unit := do
  let names ← store.namesEnding "_snapshot.json"
  let timed ← names.mapM (fun name => return (name, ← store.timeOfFile name))
  (groupByProject timed).entries.forM (fun (project, group) =>
    (outdated keep group).forM (fun name => do
      World.deleteFile (store.folder.child name)
      World.discard (store.folder.child (project ++ "_metadata.json"))))

/-- Keep as many snapshots of each project as a value of any type says.  Null keeps none.
Without snapshots the value is not looked at. -/
def cleanupBy (store : SnapshotStore) (keep : Value) : Act Unit := do
  if (← store.namesEnding "_snapshot.json").isEmpty then return
  match keep with
  | .null => store.cleanup 0
  | other => store.cleanup (← orFail other.sliceEnd)

/-- The age of a project's snapshot in milliseconds.  Telling it takes a look at the clock. -/
def age (env : Environment) (store : SnapshotStore) (project : String) :
    Act (Option Int) := do
  match ← World.find (store.snapshotFile env (← World.resolve project)) with
  | none => return none
  | some entry =>
    let _ ← World.readClock
    match entry with
    | .file stored => return some ((← get).now - stored.modified)
    | .folder _ => return some 1

end SnapshotStore

end CodeAtlas
