import CodeAtlas.Proofs.Indexing.Footprint
import CodeAtlas.Server.Tools

/-!
# The folders of a project

The server keeps what belongs to a project in folders that it makes at first use.  Where they
stand, to open the project changes nothing on the disk.
-/

namespace CodeAtlas

namespace World

def HasFolderAt (world : World) (path : Path) : Prop :=
  ∃ names, world.locate path = .ok names ∧ world.disk.HasFolder names

namespace HasFolderAt

variable {world after : World} {path : Path}
variable (stands : world.HasFolderAt path)

include stands

theorem lookUp :
    ∃ entries, world.lookUp path = .ok (some (.folder entries)) := by
  obtain ⟨names, leads, entries, found⟩ := stands
  exact ⟨entries, by simp [World.lookUp, leads, found]⟩

theorem exists? :
    runFrom world (World.exists? path) = (.ok true, world) := by
  obtain ⟨entries, found⟩ := stands.lookUp
  simp [World.exists?, World.find, found]

theorem isFolder :
    runFrom world (World.isFolder path) = (.ok true, world) := by
  obtain ⟨entries, found⟩ := stands.lookUp
  simp [World.isFolder, World.find, found, FileTree.isFolder]

theorem makeFolder :
    runFrom world (World.makeFolder path) = (.ok (), world) := by
  obtain ⟨names, leads, folder⟩ := stands
  obtain ⟨checked, followed⟩ := follow_of_locate leads
  have made := Disk.makeWay_of_follow path.toString followed folder []
  rw [List.append_nil, Disk.makeWay] at made
  simp [World.makeFolder, checked, made]

theorem makeSubfolder :
    runFrom world (World.makeSubfolder path) = (.ok (), world) := by
  obtain ⟨names, leads, entries, found⟩ := stands
  simp [World.makeSubfolder, leads, found]

theorem apart {spots : List String → Prop}
    (same : SameApart spots world after) : after.HasFolderAt path := by
  obtain ⟨names, leads, folder⟩ := stands
  exact ⟨names, (same.locate_iff path names).mpr leads, (same.folders names).mpr folder⟩

end HasFolderAt

theorem Keeps.hasFolderAt {world : World} {folder : Path} {name : String}
    {document : Option Value} (notUp : name ≠ "..")
    (keeps : world.Keeps (folder.child name) document) : world.HasFolderAt folder := by
  obtain ⟨names, located, -⟩ := keeps
  obtain ⟨base, -, parent, checked, way⟩ := locate_child notUp located
  refine ⟨base, ?_, parent⟩
  rw [locate_eq, checkPath_of_child checked, Disk.follow_shown way folder.toString]
  rfl

end World

section Running

variable {α : Type} (state : ServerState)

@[simp]
theorem runFrom_onWorld (action : Act α) :
    runFrom state (liftM action : ServerAct α) =
      ((runFrom state.world action).1,
        { state with world := (runFrom state.world action).2 }) := rfl

@[simp]
theorem Server.runFrom_here : runFrom state Server.here = (.ok state.server, state) := rfl

@[simp]
theorem Server.runFrom_change (update : Server → Server) :
    runFrom state (Server.change update) =
      (.ok (), { state with server := update state.server }) := rfl

theorem runFrom_onIndex (action : IndexAct α) :
    runFrom state (ServerAct.onIndex action) =
      match state.server.index with
      | none => (.error (.unsuitable "no index is open"), state)
      | some chunks => ((runFrom ⟨chunks, state.world⟩ action).1,
          ⟨{ state.server with index := some (runFrom ⟨chunks, state.world⟩ action).2.chunks },
            (runFrom ⟨chunks, state.world⟩ action).2.world⟩) := rfl

theorem runFrom_onSearcher (action : IndexAct α) :
    runFrom state (ServerAct.onSearcher action) =
      match state.server.searcher with
      | none => (.error (.unsuitable "no searcher was made"), state)
      | some .ofOpen => runFrom state (ServerAct.onIndex action)
      | some (.ofClosed chunks) => ((runFrom ⟨chunks, state.world⟩ action).1,
          ⟨{ state.server with
              searcher := some (.ofClosed (runFrom ⟨chunks, state.world⟩ action).2.chunks) },
            (runFrom ⟨chunks, state.world⟩ action).2.world⟩) := by
  rcases state with ⟨⟨current, index, searcher, _⟩, world⟩
  rcases searcher with _ | _ | chunks
  · rfl
  · rfl
  · rfl

end Running

namespace Server

/-- The server is about the same project and has the same index open and the same searcher. -/
structure SameFocus (server other : Server) : Prop where
  current : other.current = server.current
  index : other.index = server.index
  searcher : other.searcher = server.searcher

theorem SameFocus.trans {server other last : Server} (first : SameFocus server other)
    (second : SameFocus other last) : SameFocus server last where
  current := second.current.trans first.current
  index := second.index.trans first.index
  searcher := second.searcher.trans first.searcher

def homeOf (env : Environment) (place : Path) : Path :=
  (env.storage.child "projects").child (folderName env place)

def indexFolder (env : Environment) (place : Path) : Path :=
  (homeOf env place).child "index"

def indexerAt (env : Environment) (place : Path) : Indexer :=
  ⟨env, ⟨SnapshotStore.standardFolder env⟩, place.toString⟩

/-- The folders of the server and of the project at an absolute place stand, and the files in
them are in shape. -/
structure Housed (env : Environment) (place : Path) (world : World) : Prop where
  absolute : place.anchor = .root
  valid : ∀ part ∈ place.parts, ValidName part
  storage : world.HasFolderAt env.storage
  models : world.HasFolderAt (env.storage.child "models")
  info : ∃ value, world.Keeps ((homeOf env place).child "project_info.json") (some value)
  index : ∃ kept, world.KeepsIndex (indexFolder env place) kept
  stands : ∃ snapshot, (indexerAt env place).Stands place snapshot world

/-- The index that is open after the project was opened: the one that was open before, if it was
that of this project. -/
def shownIndex (env : Environment) (place : Path) (server : Server) : ChunkIndex :=
  if server.current = some place.toString then
    server.index.getD (.ofFolder (indexFolder env place))
  else .ofFolder (indexFolder env place)

variable {env : Environment} {place : Path}

theorem Housed.isPlace {world : World} (housed : Housed env place world) : place.IsPlace :=
  ⟨housed.absolute, housed.valid⟩

theorem Housed.indexFolder {world : World} (housed : Housed env place world) :
    world.HasFolderAt (indexFolder env place) := by
  obtain ⟨kept, files⟩ := housed.index
  exact (files .names).hasFolderAt KeptFile.names.name_notUp

theorem Housed.snapshotFolder {world : World} (housed : Housed env place world) :
    world.HasFolderAt (SnapshotStore.standardFolder env) := by
  obtain ⟨snapshot, stands⟩ := housed.stands
  obtain ⟨document, kept, -⟩ := stands.snapshot.keeps
  exact kept.hasFolderAt (SnapshotStore.snapshotName_ne_up _)

section Housed

variable {state : ServerState} (housed : Housed env place state.world)

include housed

theorem storageFolder_ok : ∃ server, runFrom state (storageFolder env) =
    (.ok env.storage, ⟨server, state.world⟩) ∧ SameFocus state.server server := by
  cases ready : state.server.storageReady with
  | true => exact ⟨state.server, by simp [storageFolder, ready], rfl, rfl, rfl⟩
  | false =>
    refine ⟨{ state.server with storageReady := true }, ?_, rfl, rfl, rfl⟩
    simp [storageFolder, ready, housed.storage.makeFolder]

theorem setUpModel_ok : ∃ server, runFrom state (setUpModel env) =
    (.ok (), ⟨server, state.world⟩) ∧ SameFocus state.server server := by
  cases ready : state.server.modelReady with
  | true => exact ⟨state.server, by simp [setUpModel, ready], rfl, rfl, rfl⟩
  | false =>
    obtain ⟨server, made, same⟩ := storageFolder_ok housed
    refine ⟨{ server with modelReady := true }, ?_, same.current, same.index, same.searcher⟩
    simp [setUpModel, ready, made, housed.models.makeSubfolder]

theorem preload_ok : ∃ server, runFrom state (preload env) =
    (.ok (), ⟨server, state.world⟩) ∧ SameFocus state.server server := by
  obtain ⟨server, made, same⟩ := setUpModel_ok housed
  exact ⟨server, by rw [preload, runFrom_tryCatch, made], same⟩

theorem startPreload_ok : ∃ server, runFrom state (startPreload env) =
    (.ok (), ⟨server, state.world⟩) ∧ SameFocus state.server server := by
  cases started : state.server.preloadStarted with
  | true => exact ⟨state.server, by simp [startPreload, started], rfl, rfl, rfl⟩
  | false =>
    cases looping : state.server.inLoop with
    | true =>
      refine ⟨{ state.server with preloadStarted := true, preloadPending := true }, ?_,
        rfl, rfl, rfl⟩
      simp [startPreload, started, looping]
    | false =>
      obtain ⟨server, made, same⟩ := @preload_ok env place
        ⟨{ state.server with preloadStarted := true, inLoop := false }, state.world⟩ housed
      refine ⟨server, ?_, same.current, same.index, same.searcher⟩
      simp only [startPreload, runFrom_bind, runFrom_here, andThen_ok, started,
        Bool.not_false, if_true, runFrom_change, looping, Bool.false_eq_true, if_false]
      exact made

theorem takeTurn_ok : ∃ server, runFrom state (takeTurn env) =
    (.ok (), ⟨server, state.world⟩) ∧ SameFocus state.server server := by
  cases pending : state.server.preloadPending with
  | false => exact ⟨state.server, by simp [takeTurn, pending], rfl, rfl, rfl⟩
  | true =>
    obtain ⟨server, made, same⟩ := @preload_ok env place
      ⟨{ state.server with preloadPending := false }, state.world⟩ housed
    refine ⟨server, ?_, same.current, same.index, same.searcher⟩
    simp only [takeTurn, runFrom_bind, runFrom_here, andThen_ok, pending, if_true,
      runFrom_change]
    exact made

theorem indexerFor_ok : runFrom state (indexerFor env place.toString) =
    (.ok (indexerAt env place), state) := by
  simp [indexerFor, SnapshotStore.open?, housed.snapshotFolder.makeFolder, indexerAt]

theorem projectFolder_ok : ∃ server, runFrom state (projectFolder env place.toString) =
    (.ok (homeOf env place), ⟨server, state.world⟩) ∧ SameFocus state.server server := by
  obtain ⟨server, made, same⟩ := storageFolder_ok housed
  obtain ⟨value, info⟩ := housed.info
  have stands := info.makeFolder (by decide)
  refine ⟨server, ?_, same⟩
  have resolved := World.resolve_place housed.isPlace state.world
  unfold homeOf at stands info ⊢
  simp [projectFolder, made, resolved, stands, info.exists?]

/-- To open a project changes nothing on the disk. -/
theorem openProject_ok : ∃ server, runFrom state (openProject env place.toString) =
    (.ok (), ⟨server, state.world⟩) ∧ server.current = some place.toString ∧
      server.index = some (shownIndex env place state.server) := by
  -- The index is opened, unless it is open already.
  have opening : ∀ other : Server, ∃ server, runFrom ⟨other, state.world⟩ (do
        if (← here).index.isNone then
          let folder := (← projectFolder env place.toString).child "index"
          World.makeSubfolder folder
          let chunks ← ChunkIndex.open? folder
          change (fun server => { server with index := some chunks }) : ServerAct Unit) =
        (.ok (), ⟨server, state.world⟩) ∧ server.current = other.current ∧
      server.index = some (other.index.getD (.ofFolder (indexFolder env place))) := by
    intro other
    cases known : other.index with
    | some chunks => exact ⟨other, by simp [known], rfl, known⟩
    | none =>
      obtain ⟨server, made, same⟩ := @projectFolder_ok env place ⟨other, state.world⟩ housed
      refine ⟨{ server with index := some (.ofFolder (indexFolder env place)) }, ?_,
        same.current, rfl⟩
      have folder := housed.indexFolder
      unfold Server.indexFolder at folder ⊢
      simp [known, made, folder.makeSubfolder, ChunkIndex.open?, folder.makeFolder]
  by_cases here : state.server.current = some place.toString
  · obtain ⟨server, opened, current, index⟩ := opening state.server
    refine ⟨server, ?_, current.trans here, ?_⟩
    · simpa [openProject, here] using opened
    · rw [index, shownIndex, if_pos here]
  · obtain ⟨server, opened, current, index⟩ := opening
      { state.server.closed with current := some place.toString }
    refine ⟨server, ?_, current, ?_⟩
    · simpa only [openProject, runFrom_bind, runFrom_here, andThen_ok, ne_eq, here, not_false_eq_true,
        if_true, runFrom_change] using opened
    · rw [index, shownIndex, if_neg here]
      rfl

end Housed

end Server

end CodeAtlas
