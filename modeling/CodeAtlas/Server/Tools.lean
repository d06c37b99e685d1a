import CodeAtlas.Server.Reply
import CodeAtlas.Server.State

/-!
# The tools of the server

Eight tools index projects, search them and tell about them.  A tool never fails:
its reply tells the error.
-/

namespace CodeAtlas

/-- A search as a caller asks for it.  Callers may give values of any type. -/
structure SearchRequest where
  query : Value
  count : Value
  filePattern : Value
  kind : Value
  withContext : Bool
  autoReindex : Bool
  /-- The age in minutes from which a snapshot is stale. -/
  maxAge : Value

inductive Tool where
  | searchCode (request : SearchRequest)
  | indexDirectory (path : String) (name incremental : Value)
  | findSimilarCode (identifier count : Value)
  | indexStatus
  | listProjects
  | switchProject (path : String)
  | indexSample
  | clearIndex

namespace Server

/-- Answer errors with their reasons after a heading. -/
def telling (heading : String) (action : ServerAct ToolReply) : ServerAct ToolReply :=
  tryCatch action (fun fault => return ToolReply.error (heading ++ fault.message))

def indexerFor (env : Environment) (project : String) : ServerAct Indexer := do
  let store ← SnapshotStore.open? (SnapshotStore.standardFolder env)
  return ⟨env, store, project⟩

/-- The reply to a request to index a project.  A request that does not count as one for
changes only is repeated as it was made. -/
def indexReply (place : Path) (name incremental : Value) (result : RunResult)
    (stats : Option Value) : ToolReply :=
  let failure := result.failure.getD ""
  ⟨.record ([("success", .bool result.success), ("directory", .text place.toString),
    ("project_name", name),
    ("incremental",
      if incremental.isTruthy then .bool (0 < result.filesModified) else incremental),
    ("files_added", .int result.filesAdded), ("files_removed", .int result.filesRemoved),
    ("files_modified", .int result.filesModified), ("chunks_added", .int result.chunksAdded),
    ("chunks_removed", .int result.chunksRemoved), ("time_taken", .real 0.0),
    ("index_stats", stats.getD .null)] ++
    (if failure.isEmpty then [] else [("error", .text failure)])), .indented⟩

def indexDirectory (env : Environment) (path : String) (name incremental : Value) :
    ServerAct ToolReply :=
  telling "Indexing failed: " do
    startPreload env
    let place ← World.resolve path
    if !(← World.exists? place) then
      return ToolReply.error ("Directory does not exist: " ++ place.toString)
    if !(← World.isFolder place) then
      return ToolReply.error ("Path is not a directory: " ++ place.toString)
    let project := Indexer.projectName name place
    openProject env place.toString
    setUpModel env
    let indexer ← indexerFor env place.toString
    let result ← ServerAct.onIndex (indexer.run place.toString project (!incremental.isTruthy))
    let stats ← ServerAct.onIndex (indexer.describe place.toString)
    return indexReply place project incremental result stats

def holdsSources (world : World) (folder : Path) : Bool :=
  match world.entryAt? folder with
  | some tree => tree.anyName (Text.endsWith · ".py")
  | none => false

/-- Whether a project has an index.  The working directory is indexed if it has none and
holds sources. -/
def ensureIndexed (env : Environment) (project : String) : ServerAct Bool :=
  tryCatch (do
    let folder := (← projectFolder env project).child "index"
    if ← World.exists? (folder.child "code.index") then return true
    let world := (← getThe ServerState).world
    if Path.ofString project = world.workingDirectory &&
        holdsSources world (Path.ofString project) then
      return !(← indexDirectory env project .null (.bool true)).isError
    return false)
    (fun _ => return false)

/-- Open the index of the current project; without one, the working directory becomes
the project. -/
def openCurrent (env : Environment) : ServerAct Unit := do
  match (← here).current with
  | some project => openProject env project
  | none =>
    let project := (← getThe ServerState).world.workingDirectory.toString
    let _ ← ensureIndexed env project
    openProject env project

def makeSearcher (env : Environment) (project : String) : ServerAct Unit := do
  openProject env project
  setUpModel env
  change (fun server => { server with searcher := some .ofOpen })

/-- Have a searcher of the current project, which is made anew.  Without a current project, the
working directory becomes the project, and a searcher that there is stays. -/
def openSearcher (env : Environment) : ServerAct Unit := do
  match (← here).current with
  | some project => makeSearcher env project
  | none =>
    let project := (← getThe ServerState).world.workingDirectory.toString
    let _ ← ensureIndexed env project
    if (← here).current ≠ some project || (← here).searcher.isNone then
      makeSearcher env project

def filterOf (request : SearchRequest) : Value :=
  .record
    ((if request.filePattern.isTruthy then [("file_pattern", .list [request.filePattern])]
      else []) ++
    (if request.kind.isTruthy then [("chunk_type", request.kind)] else []))

/-- Bring the index of the current project up to date if it is stale.  Its searcher goes if files
were indexed. -/
def refreshCurrent (env : Environment) (maxAge : Value) : ServerAct Unit := do
  match (← here).current with
  | none => return
  | some project =>
    openProject env project
    setUpModel env
    let indexer ← indexerFor env project
    let result ← ServerAct.onIndex (indexer.refresh project maxAge .null)
    if 0 < result.filesModified || 0 < result.filesAdded then
      change (fun server => { server with searcher := none })

def answerSearch (env : Environment) (request : SearchRequest) : IndexAct ToolReply := do
  let _ ← orFail (SearchResult.filesIndexed (← ChunkIndex.statistics))
  let results ← searchFor env request.query request.count
    (.int (if request.withContext then 1 else 0)) (filterOf request)
  orFail (ToolReply.ofSearch request.query results)

def answerSimilar (env : Environment) (identifier count : Value) : IndexAct ToolReply := do
  let results ← searchSimilar env identifier count
  return ToolReply.ofSimilar identifier results

def searchCode (env : Environment) (request : SearchRequest) : ServerAct ToolReply :=
  telling "Search failed: " do
    if request.autoReindex then refreshCurrent env request.maxAge
    openSearcher env
    ServerAct.onSearcher (answerSearch env request)

def findSimilarCode (env : Environment) (identifier count : Value) : ServerAct ToolReply :=
  telling "Similar code search failed: " do
    openSearcher env
    ServerAct.onSearcher (answerSimilar env identifier count)

def indexStatus (env : Environment) : ServerAct ToolReply :=
  telling "Status check failed: " do
    openCurrent env
    let statistics ← ServerAct.onIndex ChunkIndex.statistics
    setUpModel env
    let storage ← storageFolder env
    return ⟨.record [("index_statistics", statistics),
      ("model_information", .record (freshInfo .served)),
      ("storage_directory", .text storage.toString)], .indented⟩

def describeProject (folder : Path) : Act (Option Value) := do
  let file := folder.child "project_info.json"
  if !(← World.exists? file) then return none
  let info ← World.documentAt file
  let statisticsFile := (folder.child "index").child "stats.json"
  if !(← World.exists? statisticsFile) then return some info
  let statistics ← World.documentAt statisticsFile
  match info with
  | .record fields => return some (.record (Record.set fields "index_stats" statistics))
  | other => throw (.wrongType other.notAssignable)

def listProjects (env : Environment) : ServerAct ToolReply :=
  telling "" do
    let folder := (← storageFolder env).child "projects"
    let world := (← getThe ServerState).world
    match world.entryAt? folder with
    | none =>
      return ⟨.record [("projects", .list []), ("count", .int 0),
        ("message", .text "No projects indexed yet")], .spaced⟩
    | some (.file _) => throw (.disk (.notDirectory folder.toString))
    | some (.folder entries) =>
      let names := (entries.filter (fun entry => entry.2.isFolder)).map Prod.fst
      let found ← (Text.sorted names).mapM (fun name =>
        ServerAct.onWorld (describeProject (folder.child name)))
      let projects := found.filterMap id
      return ⟨.record [("projects", .list projects), ("count", .int projects.length),
        ("current_project", .ofText? (← here).current)], .indented⟩

def switchProject (env : Environment) (path : String) : ServerAct ToolReply :=
  telling "" do
    let place ← World.resolve path
    if !(← World.exists? place) then
      return ToolReply.error ("Project path does not exist: " ++ place.toString)
    let folder ← projectFolder env place.toString
    if !(← World.exists? ((folder.child "index").child "code.index")) then
      return ⟨.record [("error", .text ("Project not indexed: " ++ place.toString)),
        ("suggestion", .text ("Run index_directory('" ++ place.toString ++ "') first"))], .spaced⟩
    change (fun server =>
      { server with current := some place.toString, index := none, searcher := none })
    let file := folder.child "project_info.json"
    let info ← if ← World.exists? file then World.documentAt file else pure (.record [])
    return ⟨.record [("success", .bool true),
      ("message", .text ("Switched to project: " ++ place.name)),
      ("project_info", info)], .spaced⟩

def sampleInfo : Value :=
  .record [("project_type", .text "Sample Python Project"),
    ("includes", .ofTexts [
      "Authentication module (user login, password hashing)",
      "Database module (connections, queries, transactions)",
      "API module (HTTP handlers, request validation)",
      "Utilities (helpers, validation, configuration)"]),
    ("sample_searches", .ofTexts [
      "user authentication functions",
      "database connection code",
      "HTTP API handlers",
      "input validation",
      "error handling patterns"])]

def indexSample (env : Environment) : ServerAct ToolReply := do
  if !(← World.exists? env.sample) then
    return ⟨.record [("success", .bool false), ("error",
      .text "Test project not found. The sample project may not be available.")], .spaced⟩
  let reply ← indexDirectory env env.sample.toString .null (.bool true)
  if reply.isError then return { reply with layout := .indented }
  match reply.value with
  | .record fields => return ⟨.record (Record.set fields "demo_info" sampleInfo), .indented⟩
  | _ => return reply

def clearIndex (env : Environment) : ServerAct ToolReply :=
  telling "Clear index failed: " do
    if (← here).current.isNone then
      return ToolReply.error
        "No project is currently active. Use index_directory() to index a project first."
    openCurrent env
    ServerAct.onIndex ChunkIndex.clear
    return ⟨.record [("success", .bool true),
      ("message", .text "Search index cleared successfully")], .indented⟩

def perform (env : Environment) : Tool → ServerAct ToolReply
  | .searchCode request => searchCode env request
  | .indexDirectory path name incremental => indexDirectory env path name incremental
  | .findSimilarCode identifier count => findSimilarCode env identifier count
  | .indexStatus => indexStatus env
  | .listProjects => listProjects env
  | .switchProject path => switchProject env path
  | .indexSample => indexSample env
  | .clearIndex => clearIndex env

def call (env : Environment) (inLoop : Bool) (tool : Tool) : ServerAct ToolReply := do
  change (fun server => { server with inLoop })
  let reply ← perform env tool
  if inLoop then takeTurn env
  return reply

end Server

end CodeAtlas
