import CodeAtlas.Proofs.Server.KeptFiles

/-!
# The open index is that of the current project

The server keeps one index open.  Whatever is called, and whatever comes of it, the open index
is kept in the folder of the current project.
-/

namespace CodeAtlas

open IndexState

variable {start : IndexState} {state after : ServerState}

section Reading

variable {gpu : GpuSupport} {property : IndexState → Prop}

theorem ChunkIndex.preserves_statistics : Preserves property ChunkIndex.statistics := by
  refine .bind (fun _ holds => holds) (fun chunks =>
    .bind (.of_looking (World.exists?_snd _)) (fun found => ?_))
  split
  · exact .of_looking (World.documentAt_snd _)
  · exact .pure _

namespace ChunkIndex.OutlastsReading

theorem ofHit (outlasts : OutlastsReading gpu property) (depth : Value) (hit : Hit) :
    Preserves property (SearchResult.ofHit gpu depth hit) := by
  have context : Preserves property (SearchResult.findContext gpu hit) :=
    .bind (outlasts.similar _ _) (fun _ => .bind preserves_statistics (fun _ =>
      .bind (.orFail _) (fun _ => .bind (.orFail _) (fun _ => .pure _))))
  refine .bind (.orFail _) (fun deep => ?_)
  split
  · exact .bind context (fun _ => .pure _)
  · exact .pure _

theorem searchFor {env : Environment} (outlasts : OutlastsReading env.gpu property)
    (query count depth filter : Value) :
    Preserves property (CodeAtlas.searchFor env query count depth filter) := by
  have candidates (text : String) :
      Preserves property (CodeAtlas.candidates env text count depth filter) :=
    .bind (.orFail _) (fun _ => .bind (.orFail _) (fun _ =>
      .bind (outlasts.searchUpTo _ _ _) (fun hits => .mapM (outlasts.ofHit depth) hits)))
  exact .bind (.orFail _) (fun text => .bind (candidates text) (fun _ =>
    .bind (.orFail _) (fun _ => .bind (.orFail _) (fun _ => .pure _))))

theorem searchSimilar {env : Environment} (outlasts : OutlastsReading env.gpu property)
    (identifier count : Value) :
    Preserves property (CodeAtlas.searchSimilar env identifier count) :=
  .bind (outlasts.similarUpTo _ _) (fun hits => .mapM (outlasts.ofHit _) hits)

end ChunkIndex.OutlastsReading

theorem Indexer.refresh_outlived {indexer : Indexer} {place : Path} (isPlace : place.IsPlace)
    (maxAge name : Value) :
    indexer.Outlived place start (runFrom start (indexer.refresh place.toString maxAge name)).2 := by
  have still := @still_isStale start.world indexer place.toString maxAge start.world
    (.refl start.world)
  have later := (Outlived.refl indexer place start).follows
    ((Follows.refl start).of_disk still.disk still.workingDirectory)
  rw [refresh, runFrom_bind, runFrom_lift]
  rcases (runFrom start.world (indexer.isStale place.toString maxAge)).1 with fault | stale
  · exact later
  · rw [andThen_ok]
    split
    · refine later.trans (fun wellFormed => ⟨?_, ?_⟩) (run_outlived isPlace ?_)
      · rw [still.disk]
        exact wellFormed.disk
      · rw [still.workingDirectory]
        exact wellFormed.workingDirectory
      · rw [World.resolve_place isPlace]
    · exact later

theorem Indexer.describe_follows (indexer : Indexer) (path : String) :
    Preserves start.Follows (indexer.describe path) := by
  refine .bind (Follows.of_still (fun _ => indexer.store.still_loadRecord indexer.env path))
    (fun record => ?_)
  cases record with
  | none => exact .pure _
  | some value =>
    dsimp only
    split
    · exact .pure _
    · split
      · exact .bind (fun _ follows => follows) (fun chunks => .bind (Follows.of_still
          (fun _ => indexer.store.still_age indexer.env path)) (fun _ => .pure _))
      · exact .throw _

theorem Server.answerSearch_follows {env : Environment} (request : SearchRequest) :
    Preserves start.Follows (answerSearch env request) :=
  .bind ChunkIndex.preserves_statistics (fun _ => .bind (.orFail _) (fun _ =>
    .bind ((Follows.outlastsReading env.gpu).searchFor _ _ _ _) (fun _ => .orFail _)))

theorem Server.answerSimilar_follows {env : Environment} (identifier count : Value) :
    Preserves start.Follows (answerSimilar env identifier count) :=
  .bind ((Follows.outlastsReading env.gpu).searchSimilar _ _) (fun _ => .pure _)

end Reading

def IndexState.InFolder (folder : Path) (state : IndexState) : Prop :=
  state.chunks.folder = folder

namespace IndexState.InFolder

variable {folder : Path} {α : Type}

theorem of_follows {action : IndexAct α} (follows : ∀ start, Preserves (Follows start) action) :
    Preserves (InFolder folder) action :=
  fun state inFolder => (follows state state (.refl state)).folder.trans inFolder

theorem onWorld (action : Act α) : Preserves (InFolder folder) (liftM action : IndexAct α) :=
  fun _ inFolder => inFolder

theorem fullRun (indexer : Indexer) (place : Path) (project : Value) :
    Preserves (InFolder folder) (indexer.fullRun place project) := by
  refine .bind (of_follows (fun _ => Follows.clear)) (fun _ => .bind (onWorld _) (fun tree => ?_))
  refine .bind (of_follows (fun _ => Indexer.addFiles_follows project _)) (fun _ => ?_)
  exact .bind (onWorld _) (fun _ => .bind (of_follows (fun _ => Follows.save _)) (fun _ => .pure _))

theorem changeRun (indexer : Indexer) (place : Path) (project : Value) :
    Preserves (InFolder folder) (indexer.changeRun place project) := by
  refine .bind (onWorld _) (fun found => ?_)
  dsimp only
  split
  · exact .pure _
  · refine .bind (.orFail _) (fun toRemove => .bind (of_follows
      (fun _ => Indexer.removeFiles_follows project toRemove)) (fun removed => ?_))
    refine .bind (.orFail _) (fun toReindex => .bind (.orFail _) (fun files => ?_))
    refine .bind (of_follows (fun _ => Indexer.addFiles_follows project files)) (fun _ => ?_)
    exact .bind (onWorld _) (fun _ => .bind (of_follows (fun _ => Follows.save _))
      (fun _ => .pure _))

theorem run (indexer : Indexer) (path : String) (name : Value) (full : Bool) :
    Preserves (InFolder folder) (indexer.run path name full) := by
  refine .bind (onWorld _) (fun place => .tryCatch (.bind (onWorld _) (fun has => ?_))
    (fun _ => .pure _))
  split
  · exact fullRun indexer place _
  · exact changeRun indexer place _

theorem refresh (indexer : Indexer) (path : String) (maxAge name : Value) :
    Preserves (InFolder folder) (indexer.refresh path maxAge name) := by
  refine .bind (onWorld _) (fun stale => ?_)
  split
  · exact run indexer path name false
  · exact .pure _

end IndexState.InFolder

namespace Server

variable {env : Environment} {place : Path} {α : Type}

theorem describeProject_snd (folder : Path) (world : World) :
    (runFrom world (describeProject folder)).2 = world := by
  have untouched : Preserves (· = world) (describeProject folder) := by
    refine .bind (.of_same (World.exists?_snd _)) (fun found => ?_)
    split
    · exact .pure _
    · refine .bind (.of_same (World.documentAt_snd _)) (fun info =>
        .bind (.of_same (World.exists?_snd _)) (fun found => ?_))
      split
      · exact .pure _
      · refine .bind (.of_same (World.documentAt_snd _)) (fun statistics => ?_)
        split
        · exact .pure _
        · exact .throw _
  exact untouched world rfl

theorem of_looking {property : ServerState → Prop} {action : Act α}
    (looks : ∀ world, (runFrom world action).2 = world) :
    Preserves property (liftM action : ServerAct α) := by
  intro state holds
  rwa [runFrom_onWorld, looks]

/-- Whether a property outlasts what changes neither the focus of the server nor kept files. -/
structure Settled (env : Environment) (property : ServerState → Prop) : Prop where
  onWorld : ∀ {α : Type} {action : Act α},
    (∀ start, Preserves (World.Spares (Kept env) start) action) →
      Preserves property (liftM action : ServerAct α)
  change : ∀ {update : Server → Server}, (∀ server, SameFocus server (update server)) →
    Preserves property (Server.change update)

namespace Settled

variable {property : ServerState → Prop} (settled : Settled env property)

include settled

theorem makeFolder (folder : Path) :
    Preserves property (liftM (World.makeFolder folder) : ServerAct Unit) :=
  settled.onWorld (fun _ => .makeFolder (fun _ _ kept => kept.below) folder)

theorem makeSubfolder (folder : Path) {name : String} (notUp : name ≠ "..") :
    Preserves property (liftM (World.makeSubfolder (folder.child name)) : ServerAct Unit) :=
  settled.onWorld (fun _ => .makeSubfolder (fun _ _ kept => kept.below) folder notUp)

theorem storageFolder : Preserves property (Server.storageFolder env) := by
  refine .bind (fun _ holds => holds) (fun server => ?_)
  dsimp only
  split
  · exact .bind (settled.makeFolder _) (fun _ => .bind
      (settled.change (fun _ => ⟨rfl, rfl, rfl⟩)) (fun _ => .pure _))
  · exact .pure _

theorem projectFolder (project : String) :
    Preserves property (Server.projectFolder env project) := by
  refine .bind settled.storageFolder (fun base =>
    .bind (of_looking (World.resolve_snd project)) (fun place =>
      .bind (settled.makeFolder _) (fun _ => .bind (of_looking (World.exists?_snd _))
        (fun found => ?_))))
  split
  · exact .bind (settled.onWorld (fun _ => .readClock)) (fun created => .bind
      (settled.onWorld (fun _ => .writeFile (by decide) (fun _ _ kept => kept.apart_info _) _))
      (fun _ => .pure _))
  · exact .pure _

theorem setUpModel : Preserves property (Server.setUpModel env) := by
  refine .bind (fun _ holds => holds) (fun server => ?_)
  split
  · exact .bind settled.storageFolder (fun base => .bind
      (settled.makeSubfolder base (show "models" ≠ ".." by decide)) (fun _ =>
        settled.change (fun _ => ⟨rfl, rfl, rfl⟩)))
  · exact .pure _

theorem preload : Preserves property (Server.preload env) :=
  .tryCatch settled.setUpModel (fun _ => .pure _)

theorem startPreload : Preserves property (Server.startPreload env) := by
  refine .bind (fun _ holds => holds) (fun server => ?_)
  split
  · refine .bind (settled.change (fun _ => ⟨rfl, rfl, rfl⟩)) (fun _ =>
      .bind (fun _ holds => holds) (fun server => ?_))
    split
    · exact settled.change (fun _ => ⟨rfl, rfl, rfl⟩)
    · exact settled.preload
  · exact .pure _

theorem takeTurn : Preserves property (Server.takeTurn env) := by
  refine .bind (fun _ holds => holds) (fun server => ?_)
  split
  · exact .bind (settled.change (fun _ => ⟨rfl, rfl, rfl⟩)) (fun _ => settled.preload)
  · exact .pure _

theorem openStore : Preserves property
    (liftM (SnapshotStore.open? (SnapshotStore.standardFolder env)) : ServerAct SnapshotStore) :=
  settled.onWorld (fun _ => .bind (.makeFolder (fun _ _ kept => kept.below) _) (fun _ => .pure _))

theorem indexerFor (project : String) : Preserves property (Server.indexerFor env project) :=
  .bind settled.openStore (fun _ => .pure _)

theorem listProjects : Preserves property (Server.listProjects env) := by
  refine .tryCatch (.bind settled.storageFolder (fun base => .bind (fun _ holds => holds)
    (fun state => ?_))) (fun _ => .pure _)
  dsimp only
  split
  · exact .pure _
  · exact .throw _
  · exact .bind (.mapM (fun name => of_looking (describeProject_snd _)) _) (fun _ =>
      .bind (fun _ holds => holds) (fun _ => .pure _))

end Settled

/-- Whether a property depends on no more than the focus of the server. -/
def OfFocus (property : ServerState → Prop) : Prop :=
  ∀ {state after : ServerState}, SameFocus state.server after.server → property state →
    property after

namespace OfFocus

variable {property : ServerState → Prop} (ofFocus : OfFocus property)

include ofFocus

theorem onWorld (action : Act α) : Preserves property (liftM action : ServerAct α) :=
  fun state holds => @ofFocus state _ ⟨rfl, rfl, rfl⟩ holds

theorem settled (env : Environment) : Settled env property where
  onWorld _ := ofFocus.onWorld _
  change same := fun state holds => ofFocus (same state.server) holds

end OfFocus

/-- If a project is the current one, the open index is kept in its folder. -/
def Focused (env : Environment) (place : Path) (state : ServerState) : Prop :=
  state.server.current = some place.toString → ∀ chunks, state.server.index = some chunks →
    chunks.folder = indexFolder env place

theorem ofFocus_focused : OfFocus (Focused env place) := by
  intro state after same focused
  rw [Focused, same.current, same.index]
  exact focused

theorem settled_focused : Settled env (Focused env place) :=
  ofFocus_focused.settled env

/-- A project is the current one, and the open index that of the current project. -/
structure Turned (env : Environment) (place : Path) (project : String) (state : ServerState) :
    Prop where
  current : state.server.current = some project
  focused : Focused env place state

section Focused

variable (isPlace : place.IsPlace)

theorem focused_onIndex {action : IndexAct α}
    (stays : ∀ folder, Preserves (InFolder folder) action) :
    Preserves (Focused env place) (ServerAct.onIndex action) := by
  intro state focused
  rw [runFrom_onIndex]
  cases known : state.server.index with
  | none => exact focused
  | some chunks =>
    intro current later same
    rw [← Option.some.inj same]
    exact stays _ ⟨chunks, state.world⟩ (focused current chunks known)

/-- What is done to a closed index is no matter of the open one. -/
theorem focused_onSearcher {action : IndexAct α}
    (stays : ∀ folder, Preserves (InFolder folder) action) :
    Preserves (Focused env place) (ServerAct.onSearcher action) := by
  intro state focused
  rw [runFrom_onSearcher]
  split
  · exact focused
  · exact focused_onIndex stays state focused
  · exact focused

theorem storageFolder_eq {base : Path}
    (made : runFrom state (storageFolder env) = (.ok base, after)) : base = env.storage := by
  obtain ⟨server, _, -, made⟩ := runFrom_bind_ok made
  dsimp only at made
  split at made
  · obtain ⟨_, _, -, made⟩ := runFrom_bind_ok made
    obtain ⟨_, _, -, made⟩ := runFrom_bind_ok made
    exact (Except.ok.inj (congrArg Prod.fst made)).symm
  · exact (Except.ok.inj (congrArg Prod.fst made)).symm

theorem openIndex_eq {folder : Path} {chunks : ChunkIndex}
    (opened : runFrom state (ChunkIndex.open? folder : ServerAct ChunkIndex) = (.ok chunks, after)) :
    chunks = .ofFolder folder := by
  obtain ⟨outcome, -⟩ := Prod.mk.inj opened
  have made : runFrom state.world (ChunkIndex.open? folder) = (.ok chunks, _) :=
    Prod.ext outcome rfl
  obtain ⟨_, _, -, rest⟩ := runFrom_bind_ok made
  exact (Except.ok.inj (congrArg Prod.fst rest)).symm

include isPlace

theorem projectFolder_eq {folder : Path}
    (made : runFrom state (projectFolder env place.toString) = (.ok folder, after)) :
    folder = homeOf env place := by
  obtain ⟨base, _, stored, made⟩ := runFrom_bind_ok made
  obtain rfl := storageFolder_eq stored
  obtain ⟨place', _, resolved, made⟩ := runFrom_bind_ok made
  rw [runFrom_onWorld, World.resolve_place isPlace] at resolved
  obtain rfl : place = place' := Except.ok.inj (congrArg Prod.fst resolved)
  obtain ⟨_, _, -, made⟩ := runFrom_bind_ok made
  obtain ⟨found, _, -, made⟩ := runFrom_bind_ok made
  split at made
  · obtain ⟨_, _, -, made⟩ := runFrom_bind_ok made
    obtain ⟨_, _, -, made⟩ := runFrom_bind_ok made
    exact (Except.ok.inj (congrArg Prod.fst made)).symm
  · exact (Except.ok.inj (congrArg Prod.fst made)).symm

theorem focused_openProject (project : String) :
    Preserves (Focused env place) (openProject env project) := by
  have ofFocus : OfFocus (Turned env place project) := fun same turned =>
    ⟨same.current.trans turned.current, ofFocus_focused same turned.focused⟩
  have home : ∀ {state folder after}, Turned env place project state →
      runFrom state (projectFolder env project) = (.ok folder, after) →
      project = place.toString → folder = homeOf env place := by
    rintro state folder after - made rfl
    exact projectFolder_eq isPlace made
  intro state focused
  have turned : Turned env place project (runFrom state (openProject env project)).2 := by
    rw [openProject, runFrom_then (runFrom_here _)]
    refine Preserves.guarded_at (fun _ => ⟨rfl, fun _ _ none => ?_⟩) (fun same => ?_) ?_
    · cases none
    · exact ⟨not_not.mp same, focused⟩
    · refine .bind (fun _ turned => turned) (fun server => ?_)
      split
      · refine .bind_of_ok ((ofFocus.settled env).projectFolder project) home
          (fun folder known => ?_)
        refine .bind (ofFocus.onWorld _) (fun _ => .bind_of_ok (ofFocus.onWorld _)
          (fun _ made => openIndex_eq made)
          (fun chunks kept state turned => ⟨turned.current, fun current later same => ?_⟩))
        have named : project = place.toString := Option.some.inj (turned.current.symm.trans current)
        rw [← Option.some.inj same, kept, known named]
        rfl
      · exact .pure _
  exact turned.focused

theorem focused_indexDirectory (path : String) (name incremental : Value) :
    Preserves (Focused env place) (indexDirectory env path name incremental) := by
  refine .tryCatch (.bind settled_focused.startPreload (fun _ => .bind (ofFocus_focused.onWorld _)
    (fun other => .bind (ofFocus_focused.onWorld _) (fun there => ?_)))) (fun _ => .pure _)
  split
  · exact .pure _
  · refine .bind (ofFocus_focused.onWorld _) (fun folder => ?_)
    split
    · exact .pure _
    · refine .bind (focused_openProject isPlace _) (fun _ =>
        .bind settled_focused.setUpModel (fun _ => .bind (settled_focused.indexerFor _)
          (fun indexer => ?_)))
      refine .bind (focused_onIndex (fun _ => InFolder.run indexer _ _ _)) (fun result => ?_)
      exact .bind (focused_onIndex (fun _ => InFolder.of_follows
        (fun _ => indexer.describe_follows _))) (fun _ => .pure _)

theorem focused_ensureIndexed (project : String) :
    Preserves (Focused env place) (ensureIndexed env project) := by
  refine .tryCatch (.bind (settled_focused.projectFolder project) (fun folder =>
    .bind (ofFocus_focused.onWorld _) (fun found => ?_))) (fun _ => .pure _)
  split
  · exact .pure _
  · refine .bind (fun _ focused => focused) (fun state => ?_)
    dsimp only
    split
    · exact .bind (focused_indexDirectory isPlace _ _ _) (fun _ => .pure _)
    · exact .pure _

theorem focused_openCurrent : Preserves (Focused env place) (openCurrent env) := by
  refine .bind (fun _ focused => focused) (fun server => ?_)
  split
  · exact focused_openProject isPlace _
  · exact .bind (fun _ focused => focused) (fun state =>
      .bind (focused_ensureIndexed isPlace _)
        (fun _ => focused_openProject isPlace _))

theorem focused_openSearcher : Preserves (Focused env place) (openSearcher env) := by
  have made : ∀ project, Preserves (Focused env place) (makeSearcher env project) := by
    intro project
    exact .bind (focused_openProject isPlace _) (fun _ =>
      .bind settled_focused.setUpModel (fun _ _ focused => focused))
  refine .bind (fun _ focused => focused) (fun server => ?_)
  split
  · exact made _
  · refine .bind (fun _ focused => focused) (fun state =>
      .bind (focused_ensureIndexed isPlace _) (fun _ =>
        .bind (fun _ focused => focused) (fun server => .bind (fun _ focused => focused)
          (fun server' => ?_))))
    split
    · exact made _
    · exact .pure _

theorem focused_refreshCurrent (maxAge : Value) :
    Preserves (Focused env place) (refreshCurrent env maxAge) := by
  refine .bind (fun _ focused => focused) (fun server => ?_)
  split
  · exact .pure _
  · refine .bind (focused_openProject isPlace _) (fun _ =>
      .bind settled_focused.setUpModel (fun _ => .bind (settled_focused.indexerFor _)
        (fun indexer => .bind (focused_onIndex (fun _ => InFolder.refresh indexer _ _ _))
          (fun result => ?_))))
    split
    · exact fun _ focused => focused
    · exact .pure _

theorem focused_searchCode (request : SearchRequest) :
    Preserves (Focused env place) (searchCode env request) := by
  refine .tryCatch (.guarded (focused_refreshCurrent isPlace _) ?_) (fun _ => .pure _)
  exact .bind (focused_openSearcher isPlace) (fun _ => focused_onSearcher
    (fun _ => InFolder.of_follows (fun _ => answerSearch_follows request)))

theorem focused_findSimilarCode (identifier count : Value) :
    Preserves (Focused env place) (findSimilarCode env identifier count) := by
  exact .tryCatch (.bind (focused_openSearcher isPlace) (fun _ => focused_onSearcher
    (fun _ => InFolder.of_follows (fun _ => answerSimilar_follows identifier count))))
      (fun _ => .pure _)

theorem focused_indexStatus : Preserves (Focused env place) (indexStatus env) :=
  .tryCatch (.bind (focused_openCurrent isPlace) (fun _ =>
    .bind (focused_onIndex (fun _ => ChunkIndex.preserves_statistics)) (fun _ =>
      .bind settled_focused.setUpModel (fun _ => .bind settled_focused.storageFolder
        (fun _ => .pure _))))) (fun _ => .pure _)

theorem focused_indexSample : Preserves (Focused env place) (indexSample env) := by
  refine .bind (ofFocus_focused.onWorld _) (fun there => ?_)
  split
  · exact .pure _
  · refine .bind (focused_indexDirectory isPlace _ _ _) (fun reply => ?_)
    split
    · exact .pure _
    · split
      · exact .pure _
      · exact .pure _

theorem focused_clearIndex : Preserves (Focused env place) (clearIndex env) := by
  refine .tryCatch (.bind (fun _ focused => focused) (fun server => ?_)) (fun _ => .pure _)
  split
  · exact .pure _
  · exact .bind (focused_openCurrent isPlace) (fun _ =>
      .bind (focused_onIndex (fun _ => InFolder.of_follows (fun _ => Follows.clear)))
        (fun _ => .pure _))

omit isPlace in
theorem focused_switchProject (path : String) :
    Preserves (Focused env place) (switchProject env path) := by
  refine .tryCatch (.bind (ofFocus_focused.onWorld _) (fun other =>
    .bind (ofFocus_focused.onWorld _) (fun there => ?_))) (fun _ => .pure _)
  split
  · exact .pure _
  · refine .bind (settled_focused.projectFolder _) (fun folder =>
      .bind (ofFocus_focused.onWorld _) (fun indexed => ?_))
    split
    · exact .pure _
    · refine .bind (fun _ _ _ _ none => ?_) (fun _ => .bind (ofFocus_focused.onWorld _)
        (fun known => ?_))
      · cases none
      · split
        · exact .bind (ofFocus_focused.onWorld _) (fun _ => .pure _)
        · exact .pure _

/-- Whatever is called, the open index is that of the current project. -/
theorem focused_call (inLoop : Bool) (tool : Tool) :
    Preserves (Focused env place) (call env inLoop tool) := by
  have performed : Preserves (Focused env place) (perform env tool) := by
    cases tool with
    | searchCode request => exact focused_searchCode isPlace request
    | indexDirectory path name incremental =>
      exact focused_indexDirectory isPlace path name incremental
    | findSimilarCode identifier count => exact focused_findSimilarCode isPlace _ _
    | indexStatus => exact focused_indexStatus isPlace
    | listProjects => exact settled_focused.listProjects
    | switchProject path => exact focused_switchProject path
    | indexSample => exact focused_indexSample isPlace
    | clearIndex => exact focused_clearIndex isPlace
  refine .bind (fun _ focused => focused) (fun _ => .bind performed
    (fun reply => ?_))
  exact .guarded settled_focused.takeTurn (.pure _)

end Focused

end Server

end CodeAtlas
