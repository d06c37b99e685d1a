import CodeAtlas.Embedding.Registry
import CodeAtlas.Indexing.Run

/-!
# The state of the server

The server works on one project at a time.  It keeps the index of the current
project open together with a searcher of it, and knows which of the folders it needs
were made.  Each project has a folder under the storage folder, named for the project
and its path.
-/

namespace CodeAtlas

/-- A searcher looks into the index that was open when it was made: the one that is open
still, or one that was closed since. -/
inductive Searcher where
  | ofOpen
  | ofClosed (chunks : ChunkIndex)

structure Server where
  current : Option String
  index : Option ChunkIndex
  searcher : Option Searcher
  storageReady : Bool
  modelReady : Bool
  /-- Whether setting up the model ahead of its use was started. -/
  preloadStarted : Bool
  /-- Whether calls come from a loop that does other work between them. -/
  inLoop : Bool
  /-- Whether the model is to be set up between calls. -/
  preloadPending : Bool

def Server.fresh : Server :=
  ⟨none, none, none, false, false, false, false, false⟩

/-- The server after its index was closed.  The searcher stays with the index that it has. -/
def Server.closed (server : Server) : Server :=
  { server with
    index := none
    searcher := match server.searcher, server.index with
      | some .ofOpen, some chunks => some (.ofClosed chunks)
      | searcher, _ => searcher }

structure ServerState where
  server : Server
  world : World

abbrev ServerAct (α : Type) := ExceptT Fault (StateM ServerState) α

namespace ServerAct

def onWorld (action : Act α) : ServerAct α :=
  ExceptT.mk (fun state =>
    let (result, world) := action.run.run state.world
    (result, { state with world }))

instance : MonadLift Act ServerAct :=
  ⟨onWorld⟩

def onIndex (action : IndexAct α) : ServerAct α :=
  ExceptT.mk (fun state =>
    match state.server.index with
    | none => (.error (.unsuitable "no index is open"), state)
    | some chunks =>
      let (result, after) := action.run.run ⟨chunks, state.world⟩
      (result, ⟨{ state.server with index := some after.chunks }, after.world⟩))

def onSearcher (action : IndexAct α) : ServerAct α :=
  ExceptT.mk (fun state =>
    match state.server.searcher with
    | none => (.error (.unsuitable "no searcher was made"), state)
    | some .ofOpen => (onIndex action).run.run state
    | some (.ofClosed chunks) =>
      let (result, after) := action.run.run ⟨chunks, state.world⟩
      (result, ⟨{ state.server with searcher := some (.ofClosed after.chunks) }, after.world⟩))

end ServerAct

namespace Server

def here : ServerAct Server :=
  return (← getThe ServerState).server

def change (update : Server → Server) : ServerAct Unit :=
  modifyThe ServerState (fun state => { state with server := update state.server })

def storageFolder (env : Environment) : ServerAct Path := do
  if !(← here).storageReady then
    World.makeFolder env.storage
    change (fun server => { server with storageReady := true })
  return env.storage

/-- The digits that tell projects of the same name apart. -/
def projectMark (env : Environment) (place : Path) : String :=
  Text.take (SnapshotStore.projectId env place) 8

def folderName (env : Environment) (place : Path) : String :=
  place.name ++ "_" ++ projectMark env place

def projectInfo (env : Environment) (place : Path) (created : String) : Record :=
  [("project_name", .text place.name), ("project_path", .text place.toString),
    ("project_hash", .text (projectMark env place)), ("created_at", .text created)]

def projectFolder (env : Environment) (project : String) : ServerAct Path := do
  let base ← storageFolder env
  let place ← World.resolve project
  let folder := (base.child "projects").child (folderName env place)
  World.makeFolder folder
  let file := folder.child "project_info.json"
  if !(← World.exists? file) then
    let created ← World.readClock
    World.writeFile file (.document (.record (projectInfo env place created)))
  return folder

def setUpModel (env : Environment) : ServerAct Unit := do
  if !(← here).modelReady then
    let base ← storageFolder env
    World.makeSubfolder (base.child "models")
    change (fun server => { server with modelReady := true })

/-- Set up the model and let a failure pass. -/
def preload (env : Environment) : ServerAct Unit :=
  tryCatch (setUpModel env) (fun _ => pure ())

/-- Set up the model ahead of its use: at once, or between calls where there is a loop. -/
def startPreload (env : Environment) : ServerAct Unit := do
  if !(← here).preloadStarted then
    change (fun server => { server with preloadStarted := true })
    if (← here).inLoop then change (fun server => { server with preloadPending := true })
    else preload env

def takeTurn (env : Environment) : ServerAct Unit := do
  if (← here).preloadPending then
    change (fun server => { server with preloadPending := false })
    preload env

def openProject (env : Environment) (project : String) : ServerAct Unit := do
  if (← here).current ≠ some project then
    change (fun server => { server.closed with current := some project })
  if (← here).index.isNone then
    let folder := (← projectFolder env project).child "index"
    World.makeSubfolder folder
    let chunks ← ChunkIndex.open? folder
    change (fun server => { server with index := some chunks })

end Server

end CodeAtlas
