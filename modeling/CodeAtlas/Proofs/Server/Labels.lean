import CodeAtlas.Proofs.Server.Relabelling
import CodeAtlas.Proofs.Server.Seclusion

/-!
# Tools under another name

The tools that index a project, search it and tell about it do under one name what they do under
another: what the server remembers and what is kept on the disk is the same, with the names
exchanged.
-/

namespace CodeAtlas

open Server World

namespace Relabelling

variable {labels : Relabelling} {α β : Type} {related : α → β → Prop}
variable {action : IndexAct α} {other : IndexAct β}

namespace MirrorsIndex

theorem getWorld : labels.MirrorsIndex (fun state other => state.world.IsIn labels.directory ∧
    other.world = labels.world state.world) (getThe IndexState) (getThe IndexState) :=
  fun _ here => ⟨here, rfl, .ok ⟨here.inside, rfl⟩⟩

theorem chunksOf_world {world : World} (inside : world.IsIn labels.directory) (place : Path)
    (files : List String) :
    labels.indexer.chunksOf (labels.world world) place files =
      labels.indexer.chunksOf world place files := by
  have each (root file : String) : chunksOfFile labels.env (labels.world world) root file =
      chunksOfFile labels.env world root file := by
    unfold chunksOfFile
    split
    · rename_i source
      have read : readText (labels.world world) file = readText world file := by
        have same : (labels.world world).file (Path.ofString file) = _ :=
          file_mapFiles inside (Path.ofString file)
        rw [readText, readText, same]
        cases world.file (Path.ofString file) with
        | error fault => rfl
        | ok stored => exact congrArg Stored.text (file_source source stored)
      rw [fragmentsOfFile, fragmentsOfFile, read]
    · rfl
  exact congrArg (List.flatMap · files) (funext fun file => each _ _)

theorem addFiles (place : Path) (project : Value) (files : List String) :
    labels.MirrorsIndex Eq (labels.indexer.addFiles place project files)
      (labels.indexer.addFiles place (project.rename labels.exchange) files) := by
  refine .bind getWorld ?_
  rintro state other ⟨inside, same⟩
  rw [same, chunksOf_world inside, Indexer.embed_rename]
  refine .bind (add _ _) (fun _ _ _ => .pure ?_)
  rw [List.length_map]

theorem fullRun (project : Value) : labels.MirrorsIndex Eq
    (labels.indexer.fullRun labels.place project)
    (labels.indexer.fullRun labels.place (project.rename labels.exchange)) := by
  refine .bind clear (fun _ _ _ => .bind (onWorld (mirrors_build _ _)) ?_)
  rintro tree _ ⟨rooted, rfl⟩
  refine .bind (addFiles _ project _) ?_
  rintro ⟨sources, chunks⟩ _ rfl
  exact .bind (onWorld (mirrors_save rooted _)) (fun _ _ _ => .bind (save _) (fun _ _ _ =>
    .pure rfl))

theorem removeFiles (project : Value) (files : List Value) : labels.MirrorsIndex Eq
    (Indexer.removeFiles project files)
    (Indexer.removeFiles (project.rename labels.exchange) files) := by
  induction files with
  | nil => exact .pure rfl
  | cons file files ih =>
    refine .bind (removeFile file project) ?_
    rintro count _ rfl
    refine .bind ih ?_
    rintro rest _ rfl
    exact .pure rfl

theorem changeRun (project : Value) : labels.MirrorsIndex Eq
    (labels.indexer.changeRun labels.place project)
    (labels.indexer.changeRun labels.place (project.rename labels.exchange)) := by
  refine .bind (onWorld mirrors_changesSince) ?_
  rintro ⟨changes, tree⟩ _ ⟨rooted, rfl⟩
  dsimp only
  split
  · exact .pure rfl
  · refine .bind (.orFail (.of_eq rfl)) ?_
    rintro toRemove _ rfl
    refine .bind (removeFiles project toRemove) ?_
    rintro removed _ rfl
    refine .bind (.orFail (.of_eq rfl)) ?_
    rintro toReindex _ rfl
    refine .bind (.orFail (.of_eq rfl)) ?_
    rintro files _ rfl
    refine .bind (addFiles _ project files) ?_
    rintro ⟨_, added⟩ _ rfl
    exact .bind (onWorld (mirrors_save rooted _)) (fun _ _ _ => .bind (save _) (fun _ _ _ =>
      .pure rfl))

theorem run (name : Value) (full : Bool) : labels.MirrorsIndex Eq
    (labels.indexer.run labels.place.toString name full)
    (labels.indexer.run labels.place.toString (name.rename labels.exchange) full) := by
  refine .bind (onWorld mirrors_place) ?_
  rintro _ _ ⟨rfl, rfl⟩
  rw [Indexer.projectName_rename labels.empty labels.own]
  refine .tryCatch (.bind (onWorld mirrors_has) ?_) (fun _ => .pure rfl)
  rintro has _ rfl
  split
  · exact fullRun _
  · exact changeRun _

theorem refresh (maxAge : Value) : labels.MirrorsIndex Eq
    (labels.indexer.refresh labels.place.toString maxAge .null)
    (labels.indexer.refresh labels.place.toString maxAge .null) := by
  have stale : MirrorsFiles labels.file labels.directory Eq
      (labels.indexer.isStale labels.place.toString maxAge)
      (labels.indexer.isStale labels.place.toString maxAge) := by
    refine .bind mirrors_has ?_
    rintro found _ rfl
    split
    · exact .pure rfl
    · refine .bind mirrors_age ?_
      rintro (_ | age) _ rfl
      · exact mirrors_hasChanged
      · refine .bind (.orFail (.of_eq rfl)) ?_
        rintro old _ rfl
        dsimp only
        split
        · exact .pure rfl
        · exact mirrors_hasChanged
  refine .bind (onWorld stale) ?_
  rintro stale _ rfl
  split
  · exact run .null false
  · exact .pure rfl

theorem describe : labels.MirrorsIndex (fun _ _ => True)
    (labels.indexer.describe labels.place.toString)
    (labels.indexer.describe labels.place.toString) := by
  refine .bind (onWorld mirrors_loadRecord) ?_
  rintro (_ | value) _ rfl
  · exact .pure trivial
  · have truthy : (value.onFields (Record.rename labels.exchange)).isTruthy = value.isTruthy := by
      cases value with
      | record fields => simp [Value.onFields, Value.isTruthy, Record.rename, Record.changeField]
      | _ => rfl
    dsimp only [Option.map_some]
    rw [truthy]
    split
    · exact .pure trivial
    · cases value with
      | record fields =>
        refine .bind current ?_
        rintro chunks _ ⟨-, rfl⟩
        exact .bind (onWorld mirrors_age) (fun _ _ _ => .pure trivial)
      | _ => exact .throw _

/-- A search asks for files and kinds of chunks, not for projects. -/
theorem blind_filterOf (request : SearchRequest) : Filter.IsBlind (filterOf request) := by
  intro demands same demand member
  rw [← Value.record.inj same] at member
  rcases List.mem_append.mp member with file | kind
  · split at file
    · rw [List.mem_singleton.mp file]
      exact (by decide : "file_pattern" ≠ "project_name")
    · cases file
  · split at kind
    · rw [List.mem_singleton.mp kind]
      exact (by decide : "chunk_type" ≠ "project_name")
    · cases kind

theorem ofHit (depth : Value) (hit : Hit) : labels.MirrorsIndex (fun _ _ => True)
    (SearchResult.ofHit labels.env.gpu depth hit)
    (SearchResult.ofHit labels.env.gpu depth (hit.rename labels.exchange)) := by
  have context : labels.MirrorsIndex (fun _ _ => True)
      (SearchResult.findContext labels.env.gpu hit)
      (SearchResult.findContext labels.env.gpu (hit.rename labels.exchange)) := by
    refine .bind (similar _ _ _) (fun _ _ _ => .bind statistics ?_)
    rintro value _ rfl
    rw [Hit.field_rename (by decide)]
    exact .bind (.orFail (.of_eq rfl)) (fun _ _ _ => .bind (.orFail (.of_eq rfl)) (fun _ _ _ =>
      .pure trivial))
  refine .bind (.orFail (.of_eq rfl)) ?_
  rintro deep _ rfl
  split
  · exact .bind context (fun _ _ _ => .pure trivial)
  · exact .pure trivial

theorem answerSearch (request : SearchRequest) : Shadows labels.index labels.AtIndex
    (Server.answerSearch labels.env request) (Server.answerSearch labels.env request) := by
  refine .bind statistics ?_
  rintro value _ rfl
  refine .bind (.orFail (.of_eq rfl)) (fun _ _ _ => ?_)
  simp only [searchFor, searchBy, candidates, bind_assoc]
  refine .bind (.orFail (.of_eq rfl)) ?_
  rintro text _ rfl
  refine .bind (.orFail (.of_eq rfl)) ?_
  rintro embedding _ rfl
  refine .bind (.orFail (.of_eq rfl)) ?_
  rintro candidates _ rfl
  refine .bind (searchUpTo _ _ _ (blind_filterOf request)) ?_
  rintro hits _ rfl
  refine .bind (.mapM (ofHit _) hits) (fun results others _ => ?_)
  -- What is made of the results in the end changes nothing.
  have still (results : List SearchResult) (state : IndexState) : Preserves (· = state) (do
      let ranked ← orFail (SearchResult.ranked Similarity.toFloat text (Query.intents text) results)
      let last ← orFail request.count.sliceEnd
      orFail (ToolReply.ofSearch request.query (SearchResult.firstOf last ranked)) :
        IndexAct ToolReply) :=
    .bind (.orFail _) (fun _ => .bind (.orFail _) (fun _ => .orFail _))
  simpa using Shadows.of_same (fun state => still results state state rfl)
    (fun state => still others state state rfl)

end MirrorsIndex

variable (labels)

def searcher : Searcher → Searcher
  | .ofOpen => .ofOpen
  | .ofClosed chunks => .ofClosed (labels.chunks chunks)

def server (server : Server) : Server :=
  { server with
    index := server.index.map labels.chunks
    searcher := server.searcher.map labels.searcher }

noncomputable def state (state : ServerState) : ServerState :=
  ⟨labels.server state.server, labels.world state.world⟩

/-- The server knows of the project only.  `idle` is what holds while it knows of none. -/
structure Concerns (idle : Prop) (server : Server) : Prop where
  current : ∀ project, server.current = some project → project = labels.place.toString
  idle : server.current = none → idle
  index : ∀ chunks, server.index = some chunks → chunks.folder = labels.folder
  searcher : ∀ chunks, server.searcher = some (.ofClosed chunks) → chunks.folder = labels.folder

structure AtProject (idle : Prop) (state : ServerState) : Prop where
  server : labels.Concerns idle state.server
  inside : state.world.IsIn labels.directory

/-- Two actions of the server do the same, with names exchanged. -/
abbrev MirrorsServer (idle : Prop) (related : α → β → Prop) (action : ServerAct α)
    (other : ServerAct β) : Prop :=
  Mirrors labels.state (labels.AtProject idle) related action other

variable {labels} {idle : Prop}

namespace MirrorsServer

theorem onWorld {action : Act α} {other : Act β}
    (mirrors : MirrorsFiles labels.file labels.directory related action other) :
    labels.MirrorsServer idle related (liftM action : ServerAct α) (liftM other : ServerAct β) := by
  intro state here
  obtain ⟨inside, same, fits⟩ := mirrors state.world here.inside
  exact ⟨⟨here.server, inside⟩, congrArg (ServerState.mk (labels.server state.server)) same, fits⟩

theorem here : labels.MirrorsServer idle
    (fun server other => labels.Concerns idle server ∧ other = labels.server server)
    Server.here Server.here :=
  fun _ here => ⟨here, rfl, .ok ⟨here.server, rfl⟩⟩

theorem getState : labels.MirrorsServer idle
    (fun state other => labels.AtProject idle state ∧ other = labels.state state)
    (getThe ServerState) (getThe ServerState) :=
  fun _ here => ⟨here, rfl, .ok ⟨here, rfl⟩⟩

theorem change {update : Server → Server}
    (keeps : ∀ server, labels.Concerns idle server → labels.Concerns idle (update server))
    (commutes : ∀ server, update (labels.server server) = labels.server (update server)) :
    labels.MirrorsServer idle Eq (Server.change update) (Server.change update) :=
  fun state here => ⟨⟨keeps state.server here.server, here.inside⟩,
    congrArg (ServerState.mk · _) (commutes state.server), .ok rfl⟩

theorem onIndex_shadows (shadows : Shadows labels.index labels.AtIndex action other) :
    Shadows labels.state (labels.AtProject idle) (ServerAct.onIndex action)
      (ServerAct.onIndex other) := by
  intro state here
  have indexed : (labels.state state).server.index = state.server.index.map labels.chunks := rfl
  rw [runFrom_onIndex, runFrom_onIndex, indexed]
  cases known : state.server.index with
  | none => exact ⟨here, rfl⟩
  | some chunks =>
    obtain ⟨kept, same⟩ := shadows ⟨chunks, state.world⟩
      ⟨here.server.index chunks known, here.inside⟩
    refine ⟨⟨⟨here.server.current, here.server.idle, ?_, here.server.searcher⟩, kept.inside⟩, ?_⟩
    · rintro _ ⟨⟩
      exact kept.folder
    · exact congrArg (fun after : IndexState => (⟨{ labels.server state.server with
        index := some after.chunks }, after.world⟩ : ServerState)) same

theorem onIndex (mirrors : labels.MirrorsIndex related action other) :
    labels.MirrorsServer idle related (ServerAct.onIndex action) (ServerAct.onIndex other) := by
  intro state here
  obtain ⟨kept, same⟩ := onIndex_shadows (.of_mirrors mirrors) state here
  refine ⟨kept, same, ?_⟩
  have indexed : (labels.state state).server.index = state.server.index.map labels.chunks := rfl
  rw [runFrom_onIndex, runFrom_onIndex, indexed]
  cases known : state.server.index with
  | none => exact .error _
  | some chunks =>
    exact (mirrors ⟨chunks, state.world⟩ ⟨here.server.index chunks known, here.inside⟩).2.2

theorem onSearcher (shadows : Shadows labels.index labels.AtIndex action other) :
    Shadows labels.state (labels.AtProject idle) (ServerAct.onSearcher action)
      (ServerAct.onSearcher other) := by
  intro state here
  have made : (labels.state state).server.searcher =
      state.server.searcher.map labels.searcher := rfl
  rw [runFrom_onSearcher, runFrom_onSearcher, made]
  rcases known : state.server.searcher with _ | _ | chunks
  · exact ⟨here, rfl⟩
  · exact onIndex_shadows shadows state here
  · obtain ⟨kept, same⟩ := shadows ⟨chunks, state.world⟩
      ⟨here.server.searcher chunks known, here.inside⟩
    refine ⟨⟨⟨here.server.current, here.server.idle, here.server.index, ?_⟩, kept.inside⟩, ?_⟩
    · rintro _ ⟨⟩
      exact kept.folder
    · exact congrArg (fun after : IndexState => (⟨{ labels.server state.server with
        searcher := some (.ofClosed after.chunks) }, after.world⟩ : ServerState)) same

theorem telling {heading : String} {action other : ServerAct ToolReply}
    (shadows : Shadows labels.state (labels.AtProject idle) action other) :
    labels.MirrorsServer idle (fun _ _ => True) (telling heading action)
      (telling heading other) := by
  have told (state : ServerState) (action : ServerAct ToolReply) :
      ∃ reply, (runFrom state (Server.telling heading action)).1 = .ok reply := by
    rw [Server.telling, runFrom_tryCatch]
    rcases runFrom state action with ⟨fault | reply, after⟩
    · exact ⟨_, rfl⟩
    · exact ⟨_, rfl⟩
  intro state here
  obtain ⟨kept, same⟩ := shadows state here
  obtain ⟨reply, first⟩ := told state action
  obtain ⟨reply', second⟩ := told (labels.state state) other
  rw [telling_snd, telling_snd, first, second]
  exact ⟨kept, same, .ok trivial⟩

theorem changeFlags {update : Server → Server}
    (sameFocus : ∀ server, SameFocus server (update server))
    (commutes : ∀ server, update (labels.server server) = labels.server (update server)) :
    labels.MirrorsServer idle Eq (Server.change update) (Server.change update) := by
  refine change (fun server concerns => ?_) commutes
  obtain ⟨current, index, searcher⟩ := sameFocus server
  constructor
  · rw [current]
    exact concerns.current
  · rw [current]
    exact concerns.idle
  · rw [index]
    exact concerns.index
  · rw [searcher]
    exact concerns.searcher

theorem storageFolder : labels.MirrorsServer idle
    (fun base other => base = labels.env.storage ∧ other = labels.env.storage)
    (Server.storageFolder labels.env) (Server.storageFolder labels.env) := by
  refine .bind here ?_
  rintro server _ ⟨-, rfl⟩
  exact .branch (.bind (onWorld (mirrors_makeFolder _)) (fun _ _ _ =>
    .bind (changeFlags (fun _ => ⟨rfl, rfl, rfl⟩) (fun _ => rfl)) (fun _ _ _ => .pure ⟨rfl, rfl⟩)))
    (.pure ⟨rfl, rfl⟩)

theorem projectFolder : labels.MirrorsServer idle
    (fun folder other => folder = homeOf labels.env labels.place ∧
      other = homeOf labels.env labels.place)
    (Server.projectFolder labels.env labels.place.toString)
    (Server.projectFolder labels.env labels.place.toString) := by
  refine .bind storageFolder ?_
  rintro _ _ ⟨rfl, rfl⟩
  refine .bind (onWorld mirrors_place) ?_
  rintro _ _ ⟨rfl, rfl⟩
  refine .bind (onWorld (mirrors_makeFolder _)) (fun _ _ _ =>
    .bind (onWorld (mirrors_exists? _)) ?_)
  rintro found _ rfl
  refine .branch (.bind (onWorld mirrors_readClock) ?_) (.pure ⟨rfl, rfl⟩)
  rintro created _ rfl
  exact .bind (onWorld (mirrors_writeFile (fun now => file_info _ _))) (fun _ _ _ =>
    .pure ⟨rfl, rfl⟩)

theorem setUpModel : labels.MirrorsServer idle Eq (Server.setUpModel labels.env)
    (Server.setUpModel labels.env) := by
  refine .bind here ?_
  rintro server _ ⟨-, rfl⟩
  refine .branch (.bind storageFolder ?_) (.pure rfl)
  rintro _ _ ⟨rfl, rfl⟩
  exact .bind (onWorld (mirrors_makeSubfolder _)) (fun _ _ _ =>
    changeFlags (fun _ => ⟨rfl, rfl, rfl⟩) (fun _ => rfl))

theorem preload : labels.MirrorsServer idle Eq (Server.preload labels.env)
    (Server.preload labels.env) :=
  .tryCatch setUpModel (fun _ => .pure rfl)

theorem startPreload : labels.MirrorsServer idle Eq (Server.startPreload labels.env)
    (Server.startPreload labels.env) := by
  refine .bind here ?_
  rintro server _ ⟨-, rfl⟩
  refine .branch (.bind (changeFlags (fun _ => ⟨rfl, rfl, rfl⟩) (fun _ => rfl)) (fun _ _ _ =>
    .bind here ?_)) (.pure rfl)
  rintro server _ ⟨-, rfl⟩
  exact .branch (changeFlags (fun _ => ⟨rfl, rfl, rfl⟩) (fun _ => rfl)) preload

theorem takeTurn : labels.MirrorsServer idle Eq (Server.takeTurn labels.env)
    (Server.takeTurn labels.env) := by
  refine .bind here ?_
  rintro server _ ⟨-, rfl⟩
  exact .branch (.bind (changeFlags (fun _ => ⟨rfl, rfl, rfl⟩) (fun _ => rfl)) (fun _ _ _ =>
    preload)) (.pure rfl)

/-- The project becomes the current one, and a searcher of its closed index may stay. -/
theorem turnToProject : labels.MirrorsServer idle Eq
    (Server.change (fun server => { server.closed with current := some labels.place.toString }))
    (Server.change (fun server => { server.closed with current := some labels.place.toString })) := by
  refine change (fun server concerns => ?_) (fun server => ?_)
  · refine ⟨fun project same => (Option.some.inj same).symm, fun none => (nomatch none),
      fun chunks none => (nomatch none), ?_⟩
    obtain ⟨current, index, searcher, flags⟩ := server
    rcases searcher with _ | _ | chunks
    · exact concerns.searcher
    · cases index with
      | none => exact concerns.searcher
      | some chunks =>
        rintro _ ⟨⟩
        exact concerns.index chunks rfl
    · exact concerns.searcher
  · obtain ⟨current, index, searcher, flags⟩ := server
    rcases searcher with _ | _ | chunks
    · rfl
    · cases index <;> rfl
    · rfl

theorem openProject : labels.MirrorsServer idle Eq
    (Server.openProject labels.env labels.place.toString)
    (Server.openProject labels.env labels.place.toString) := by
  refine .bind here ?_
  rintro server _ ⟨-, rfl⟩
  refine .guarded turnToProject (.bind here ?_)
  rintro server _ ⟨-, rfl⟩
  have absent : (labels.server server).index.isNone = server.index.isNone := by
    simp [Relabelling.server]
  dsimp only
  rw [absent]
  refine .branch (.bind projectFolder ?_) (.pure rfl)
  rintro _ _ ⟨rfl, rfl⟩
  have opened : MirrorsFiles labels.file labels.directory
      (fun chunks other => chunks = .ofFolder labels.folder ∧ other = .ofFolder labels.folder)
      (ChunkIndex.open? labels.folder) (ChunkIndex.open? labels.folder) :=
    .bind (mirrors_makeFolder _) (fun _ _ _ => .pure ⟨rfl, rfl⟩)
  refine .bind (onWorld (mirrors_makeSubfolder _)) (fun _ _ _ => .bind (onWorld opened) ?_)
  rintro _ _ ⟨rfl, rfl⟩
  refine change (fun server concerns => ⟨concerns.current, concerns.idle, ?_, concerns.searcher⟩)
    (fun _ => rfl)
  rintro _ ⟨⟩
  rfl

theorem indexerFor : labels.MirrorsServer idle
    (fun indexer other => indexer = labels.indexer ∧ other = labels.indexer)
    (Server.indexerFor labels.env labels.place.toString)
    (Server.indexerFor labels.env labels.place.toString) := by
  have opened : MirrorsFiles labels.file labels.directory
      (fun store other => store = labels.indexer.store ∧ other = labels.indexer.store)
      (SnapshotStore.open? (SnapshotStore.standardFolder labels.env))
      (SnapshotStore.open? (SnapshotStore.standardFolder labels.env)) :=
    .bind (mirrors_makeFolder _) (fun _ _ _ => .pure ⟨rfl, rfl⟩)
  refine .bind (onWorld opened) ?_
  rintro _ _ ⟨rfl, rfl⟩
  exact .pure ⟨rfl, rfl⟩

/-- A project is indexed under one name as it is under another. -/
theorem indexDirectory {path : String}
    (named : (Path.ofString path).resolve labels.directory = labels.place)
    (name incremental : Value) : labels.MirrorsServer idle (fun _ _ => True)
      (Server.indexDirectory labels.env path name incremental)
      (Server.indexDirectory labels.env path (name.rename labels.exchange) incremental) := by
  refine telling (Shadows.of_mirrors (?_ : labels.MirrorsServer idle (fun _ _ => True) _ _))
  refine .bind startPreload (fun _ _ _ => .bind (onWorld (mirrors_resolve path)) ?_)
  rintro _ _ ⟨rfl, rfl⟩
  rw [named, Indexer.projectName_rename labels.empty labels.own]
  refine .bind (onWorld (mirrors_exists? _)) ?_
  rintro there _ rfl
  refine .branch (.pure trivial) (.bind (onWorld (mirrors_isFolder _)) ?_)
  rintro folder _ rfl
  refine .branch (.pure trivial) (.bind openProject (fun _ _ _ => .bind setUpModel (fun _ _ _ =>
    .bind indexerFor ?_)))
  rintro _ _ ⟨rfl, rfl⟩
  exact .bind (onIndex (MirrorsIndex.run _ _)) (fun _ _ _ => .bind (onIndex MirrorsIndex.describe)
    (fun _ _ _ => .pure trivial))

theorem holdsSources_world {world : World} (inside : world.IsIn labels.directory) (folder : Path) :
    holdsSources (labels.world world) folder = holdsSources world folder := by
  have found : (labels.world world).lookUp folder = _ := lookUp_mapFiles inside folder
  rw [holdsSources, holdsSources, entryAt?, entryAt?, found]
  rcases world.lookUp folder with fault | _ | tree
  · rfl
  · rfl
  · exact FileTree.anyName_mapFiles _ _ tree

theorem ensureIndexed : labels.MirrorsServer idle (fun _ _ => True)
    (Server.ensureIndexed labels.env labels.place.toString)
    (Server.ensureIndexed labels.env labels.place.toString) := by
  refine .tryCatch (.bind projectFolder ?_) (fun _ => .pure trivial)
  rintro _ _ ⟨rfl, rfl⟩
  refine .bind (onWorld (mirrors_exists? _)) ?_
  rintro found _ rfl
  refine .branch (.pure trivial) (.bind getState ?_)
  rintro state _ ⟨here, rfl⟩
  have sources : holdsSources (labels.state state).world (Path.ofString labels.place.toString) =
      holdsSources state.world (Path.ofString labels.place.toString) :=
    holdsSources_world here.inside _
  dsimp only
  rw [sources]
  refine .branch (.bind (indexDirectory ?_ .null (.bool true)) (fun _ _ _ => .pure trivial))
    (.pure trivial)
  exact Path.resolve_toString labels.isPlace labels.directory

/-- While the server knows of no project, the working directory is the project. -/
theorem openCurrent : labels.MirrorsServer (labels.directory = labels.place) Eq
    (Server.openCurrent labels.env) (Server.openCurrent labels.env) := by
  refine .bind here ?_
  rintro ⟨_ | project, index, searcher, flags⟩ _ ⟨concerns, rfl⟩
  · refine .bind getState ?_
    rintro ⟨server, world⟩ _ ⟨here, rfl⟩
    have directory : world.workingDirectory = labels.place := here.inside.trans (concerns.idle rfl)
    simp only [Relabelling.state, Relabelling.world, mapFiles, directory]
    exact .bind ensureIndexed (fun _ _ _ => openProject)
  · obtain rfl : project = labels.place.toString := concerns.current project rfl
    exact openProject

theorem makeSearcher : labels.MirrorsServer idle Eq
    (Server.makeSearcher labels.env labels.place.toString)
    (Server.makeSearcher labels.env labels.place.toString) :=
  .bind openProject (fun _ _ _ => .bind setUpModel (fun _ _ _ =>
    change (fun _ concerns => ⟨concerns.current, concerns.idle, concerns.index,
      fun _ closed => (nomatch closed)⟩) (fun _ => rfl)))

theorem openSearcher : labels.MirrorsServer (labels.directory = labels.place) Eq
    (Server.openSearcher labels.env) (Server.openSearcher labels.env) := by
  refine .bind here ?_
  rintro ⟨_ | project, index, searcher, flags⟩ _ ⟨concerns, rfl⟩
  · refine .bind getState ?_
    rintro ⟨server, world⟩ _ ⟨state, rfl⟩
    have directory : world.workingDirectory = labels.place := state.inside.trans (concerns.idle rfl)
    simp only [Relabelling.state, Relabelling.world, mapFiles, directory]
    refine .bind ensureIndexed (fun _ _ _ => .bind here ?_)
    rintro server _ ⟨-, rfl⟩
    refine .bind here ?_
    rintro server' _ ⟨-, rfl⟩
    have absent : (labels.server server').searcher.isNone = server'.searcher.isNone := by
      simp [Relabelling.server]
    rw [absent]
    exact .branch makeSearcher (.pure rfl)
  · obtain rfl : project = labels.place.toString := concerns.current project rfl
    exact makeSearcher

/-- Where no name is given, it is that of the folder, which stays. -/
theorem refreshCurrent (maxAge : Value) : labels.MirrorsServer idle Eq
    (Server.refreshCurrent labels.env maxAge) (Server.refreshCurrent labels.env maxAge) := by
  refine .bind here ?_
  rintro ⟨_ | project, index, searcher, flags⟩ _ ⟨concerns, rfl⟩
  · exact .pure rfl
  · obtain rfl : project = labels.place.toString := concerns.current project rfl
    refine .bind openProject (fun _ _ _ => .bind setUpModel (fun _ _ _ => .bind indexerFor ?_))
    rintro _ _ ⟨rfl, rfl⟩
    refine .bind (onIndex (MirrorsIndex.refresh maxAge)) ?_
    rintro result _ rfl
    exact .branch (change (fun _ concerns => ⟨concerns.current, concerns.idle, concerns.index,
      fun _ closed => (nomatch closed)⟩) (fun _ => rfl)) (.pure rfl)

theorem searchCode (request : SearchRequest) :
    labels.MirrorsServer (labels.directory = labels.place) (fun _ _ => True)
      (Server.searchCode labels.env request) (Server.searchCode labels.env request) := by
  have searching : Shadows labels.state (labels.AtProject (labels.directory = labels.place))
      (do
        Server.openSearcher labels.env
        ServerAct.onSearcher (answerSearch labels.env request))
      (do
        Server.openSearcher labels.env
        ServerAct.onSearcher (answerSearch labels.env request)) :=
    .bind openSearcher (fun _ _ _ => onSearcher (MirrorsIndex.answerSearch request))
  refine telling ?_
  split
  · exact .bind (refreshCurrent request.maxAge) (fun _ _ _ => searching)
  · exact searching

theorem indexStatus : labels.MirrorsServer (labels.directory = labels.place) (fun _ _ => True)
    (Server.indexStatus labels.env) (Server.indexStatus labels.env) := by
  refine telling (Shadows.of_mirrors (?_ :
    labels.MirrorsServer (labels.directory = labels.place) (fun _ _ => True) _ _))
  exact .bind openCurrent (fun _ _ _ => .bind (onIndex MirrorsIndex.statistics) (fun _ _ _ =>
    .bind setUpModel (fun _ _ _ => .bind storageFolder (fun _ _ _ => .pure trivial))))

theorem call {tool other : Tool} (performs : labels.MirrorsServer idle (fun _ _ => True)
      (perform labels.env tool) (perform labels.env other)) (inLoop : Bool) :
    labels.MirrorsServer idle (fun _ _ => True) (Server.call labels.env inLoop tool)
      (Server.call labels.env inLoop other) :=
  .bind (changeFlags (fun _ => ⟨rfl, rfl, rfl⟩) (fun _ => rfl)) (fun _ _ _ =>
    .bind performs (fun _ _ _ => .guarded takeTurn (.pure trivial)))

end MirrorsServer

end Relabelling

end CodeAtlas
