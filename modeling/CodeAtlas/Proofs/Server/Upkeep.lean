import CodeAtlas.Proofs.Indexing.Sequences
import CodeAtlas.Proofs.Server.Focus

/-!
# Tools keep a project in shape

A tool that is called for a project leaves the folders of the project standing and its files in
shape, whatever comes of the call.  So they are after any history of edits and calls, if calls
for other projects leave these files alone.
-/

namespace CodeAtlas

open IndexState

namespace Server

variable {env : Environment} {place : Path} {α : Type}
variable {action : IndexAct α}

theorem info_not_written {start : IndexState} (names : List String)
    (located : start.world.locate ((homeOf env place).child "project_info.json") = .ok names) :
    ¬ (indexerAt env place).Writes place start names := by
  rintro (⟨file, leads⟩ | snapshot | record)
  · refine World.notLeadsTo_of_ne file.name_notUp (by decide) ?_ names located leads
    cases file <;> decide
  · exact World.notLeadsTo_of_ne (SnapshotStore.snapshotName_ne_up _) (by decide)
      (append_ne_info (by decide) (by decide) _).symm names located snapshot
  · exact World.notLeadsTo_of_ne (SnapshotStore.recordName_ne_up _) (by decide)
      (append_ne_info (by decide) (by decide) _).symm names located record

/-- An index of the project, which is housed. -/
structure Hosted (env : Environment) (place : Path) (state : IndexState) : Prop where
  folder : state.chunks.folder = indexFolder env place
  housed : Housed env place state.world

namespace Hosted

variable {start state : IndexState}

theorem outlived (hosted : Hosted env place start) (wellFormed : start.world.WellFormed)
    (outlived : (indexerAt env place).Outlived place start state) : Hosted env place state := by
  obtain ⟨folder, absolute, valid, storage, models, ⟨value, info⟩, ⟨kept, files⟩, snapshot,
    stands⟩ := hosted
  refine ⟨outlived.folder.trans folder, absolute, valid, storage.apart outlived.world,
    models.apart outlived.world, ⟨value, info.apart outlived.world info_not_written⟩, ?_,
    outlived.stands snapshot wellFormed stands⟩
  rw [← folder] at files ⊢
  exact outlived.kept kept files

theorem follows (hosted : Hosted env place start) (follows : start.Follows state) :
    Hosted env place state := by
  obtain ⟨folder, absolute, valid, storage, models, ⟨value, info⟩, ⟨kept, files⟩, snapshot,
    stands⟩ := hosted
  refine ⟨follows.folder.trans folder, absolute, valid, storage.apart follows.world,
    models.apart follows.world, ⟨value, info.apart follows.world ?_⟩, ?_,
    snapshot, stands.follows follows⟩
  · exact fun names located spot => info_not_written names located (.inl spot)
  · rw [← folder] at files ⊢
    exact follows.kept kept files

theorem of_follows (follows : ∀ start, Preserves (Follows start) action) :
    Preserves (Hosted env place) action :=
  fun state hosted => hosted.follows (follows state state (.refl state))

theorem run (hosted : Hosted env place start) (wellFormed : start.world.WellFormed)
    (name : Value) (full : Bool) :
    Hosted env place (runFrom start ((indexerAt env place).run place.toString name full)).2 :=
  hosted.outlived wellFormed (Indexer.run_outlived hosted.housed.isPlace
    (World.resolve_place hosted.housed.isPlace _))

theorem refresh (hosted : Hosted env place start) (wellFormed : start.world.WellFormed)
    (maxAge name : Value) :
    Hosted env place
      (runFrom start ((indexerAt env place).refresh place.toString maxAge name)).2 :=
  hosted.outlived wellFormed
    (Indexer.refresh_outlived hosted.housed.isPlace maxAge name)

end Hosted

/-- The project is housed, and if the server is about it the open index is that of the
project. -/
structure Tended (env : Environment) (place : Path) (state : ServerState) : Prop where
  folder : Focused env place state
  housed : Housed env place state.world

/-- The project is the current one, and tended. -/
structure Attended (env : Environment) (place : Path) (state : ServerState) : Prop extends
    Tended env place state where
  current : state.server.current = some place.toString

section Tools

variable {state : ServerState}

theorem Tended.sameFocus {server : Server} (tended : Tended env place state)
    (same : SameFocus state.server server) : Tended env place ⟨server, state.world⟩ where
  folder := ofFocus_focused same tended.folder
  housed := tended.housed

theorem Attended.sameFocus {server : Server} (attended : Attended env place state)
    (same : SameFocus state.server server) : Attended env place ⟨server, state.world⟩ :=
  ⟨attended.toTended.sameFocus same, same.current.trans attended.current⟩

theorem Tended.shown (tended : Tended env place state) :
    (shownIndex env place state.server).folder = indexFolder env place := by
  unfold shownIndex
  split
  · rename_i current
    cases known : state.server.index with
    | none => rfl
    | some chunks => exact tended.folder current chunks known
  · rfl

theorem Tended.openProject (tended : Tended env place state) :
    ∃ server, runFrom state (openProject env place.toString) = (.ok (), ⟨server, state.world⟩) ∧
      Attended env place ⟨server, state.world⟩ ∧
      server.index = some (shownIndex env place state.server) := by
  obtain ⟨server, opened, current, index⟩ := openProject_ok tended.housed
  refine ⟨server, opened, ⟨⟨fun _ chunks known => ?_, tended.housed⟩, current⟩, index⟩
  obtain rfl : shownIndex env place state.server = chunks :=
    Option.some.inj (index.symm.trans known)
  exact tended.shown

theorem Attended.onIndex (attended : Attended env place state)
    (keeps : ∀ chunks, Hosted env place ⟨chunks, state.world⟩ →
      Hosted env place (runFrom ⟨chunks, state.world⟩ action).2) :
    Attended env place (runFrom state (ServerAct.onIndex action)).2 := by
  rw [runFrom_onIndex]
  cases known : state.server.index with
  | none => exact attended
  | some chunks =>
    have later := keeps chunks
      ⟨attended.folder attended.current chunks known, attended.housed⟩
    refine ⟨⟨fun _ chunks' same => ?_, later.housed⟩, attended.current⟩
    rw [← Option.some.inj same]
    exact later.folder

theorem attended_onIndex (follows : ∀ start, Preserves (Follows start) action) :
    Preserves (Attended env place) (ServerAct.onIndex action) :=
  fun _ attended => attended.onIndex (fun _ hosted => Hosted.of_follows follows _ hosted)

theorem attended_setUpModel : Preserves (Attended env place) (setUpModel env) := by
  intro state attended
  obtain ⟨server, made, same⟩ := setUpModel_ok attended.housed
  rw [made]
  exact attended.sameFocus same

theorem attended_openCurrent : Preserves (Attended env place) (openCurrent env) := by
  intro state attended
  obtain ⟨server, opened, attended', -⟩ := attended.openProject
  rw [openCurrent, runFrom_then (runFrom_here _), attended.current]
  dsimp only
  rw [opened]
  exact attended'

/-- The project is the current one, tended, and the searcher is of the open index. -/
structure Searched (env : Environment) (place : Path) (state : ServerState) : Prop extends
    Attended env place state where
  searcher : state.server.searcher = some .ofOpen

theorem Attended.openSearcher_ok (attended : Attended env place state) :
    ∃ after, runFrom state (openSearcher env) = (.ok (), after) ∧ Searched env place after := by
  obtain ⟨server, opened, attended', -⟩ := attended.openProject
  obtain ⟨server', made, same⟩ := setUpModel_ok attended'.housed
  have ready := attended'.sameFocus same
  refine ⟨⟨{ server' with searcher := some .ofOpen }, state.world⟩, ?_,
    ⟨⟨⟨ready.folder, ready.housed⟩, ready.current⟩, rfl⟩⟩
  rw [openSearcher, runFrom_then (runFrom_here _), attended.current]
  dsimp only
  rw [makeSearcher, runFrom_then opened, runFrom_then made,
    runFrom_change]

theorem searched_onSearcher (follows : ∀ start, Preserves (Follows start) action) :
    Preserves (Searched env place) (ServerAct.onSearcher action) := by
  intro state searched
  rw [runFrom_onSearcher, searched.searcher]
  refine ⟨attended_onIndex follows state searched.toAttended, ?_⟩
  dsimp only
  rw [runFrom_onIndex]
  cases state.server.index with
  | none => exact searched.searcher
  | some chunks => exact searched.searcher

theorem tended_storageFolder : Preserves (Tended env place) (storageFolder env) := by
  intro state tended
  obtain ⟨server, made, same⟩ := storageFolder_ok tended.housed
  rw [made]
  exact tended.sameFocus same

/-- What a tool leaves does not depend on how its errors are told. -/
theorem telling_snd (heading : String) (action : ServerAct ToolReply) :
    (runFrom state (telling heading action)).2 = (runFrom state action).2 := by
  rw [telling, runFrom_tryCatch]
  rcases runFrom state action with ⟨fault | reply, after⟩
  · rfl
  · rfl

theorem telling_ok {heading : String} {action : ServerAct ToolReply} {reply : ToolReply}
    {after : ServerState} (ran : runFrom state action = (.ok reply, after)) :
    runFrom state (telling heading action) = (.ok reply, after) := by
  rw [telling, runFrom_tryCatch, ran]

theorem Attended.refreshCurrent (attended : Attended env place state)
    (wellFormed : state.world.WellFormed) (maxAge : Value) :
    Attended env place (runFrom state (refreshCurrent env maxAge)).2 := by
  obtain ⟨server, opened, attended', -⟩ := attended.openProject
  obtain ⟨server', made, same⟩ := setUpModel_ok attended'.housed
  have ready := attended'.sameFocus same
  have indexer := @indexerFor_ok env place ⟨server', state.world⟩ ready.housed
  rw [Server.refreshCurrent, runFrom_then (runFrom_here _), attended.current]
  dsimp only
  rw [runFrom_then opened, runFrom_then made, runFrom_then indexer]
  refine Preserves.bind_at
    (ready.onIndex (fun chunks hosted => hosted.refresh wellFormed maxAge .null)) (fun result => ?_)
  split
  · exact fun _ attended => ⟨⟨attended.folder, attended.housed⟩, attended.current⟩
  · exact .pure _

theorem Attended.searchCode (attended : Attended env place state)
    (wellFormed : state.world.WellFormed) (request : SearchRequest) :
    Attended env place (runFrom state (searchCode env request)).2 := by
  have searching : Preserves (Attended env place) (do
      openSearcher env
      ServerAct.onSearcher (answerSearch env request)) := by
    intro state attended
    obtain ⟨after, opened, searched⟩ := attended.openSearcher_ok
    rw [runFrom_then opened]
    exact (searched_onSearcher (fun _ => answerSearch_follows request) after searched).toAttended
  have refreshed := attended.refreshCurrent wellFormed request.maxAge
  rw [Server.searchCode, telling_snd]
  dsimp only
  split
  · exact Preserves.bind_at refreshed (fun _ => searching)
  · exact searching state attended

theorem attended_findSimilarCode (identifier count : Value) :
    Preserves (Attended env place) (findSimilarCode env identifier count) := by
  refine .tryCatch (fun state attended => ?_) (fun _ => .pure _)
  obtain ⟨after, opened, searched⟩ := attended.openSearcher_ok
  rw [runFrom_then opened]
  exact (searched_onSearcher (fun _ => answerSimilar_follows identifier count) after
    searched).toAttended

theorem attended_indexStatus : Preserves (Attended env place) (indexStatus env) := by
  have storage : Preserves (Attended env place) (storageFolder env) := by
    intro state attended
    obtain ⟨server, made, same⟩ := storageFolder_ok attended.housed
    rw [made]
    exact attended.sameFocus same
  exact .tryCatch (.bind attended_openCurrent (fun _ => .bind
    (attended_onIndex (fun _ => ChunkIndex.preserves_statistics)) (fun _ =>
      .bind attended_setUpModel (fun _ => .bind storage (fun _ => .pure _))))) (fun _ => .pure _)

theorem attended_clearIndex : Preserves (Attended env place) (clearIndex env) := by
  have clearing : Preserves (Attended env place) (do
      openCurrent env
      ServerAct.onIndex ChunkIndex.clear
      return (⟨.record [("success", .bool true),
        ("message", .text "Search index cleared successfully")], .indented⟩ : ToolReply)) :=
    .bind attended_openCurrent (fun _ => .bind (attended_onIndex (fun _ => Follows.clear))
      (fun _ => .pure _))
  refine .tryCatch (.bind (fun _ attended => attended) (fun server => ?_)) (fun _ => .pure _)
  split
  · exact .pure _
  · exact clearing

private theorem runFrom_look {action : Act α} (looks : ∀ world, (runFrom world action).2 = world)
    (state : ServerState) : runFrom state (liftM action : ServerAct α) =
      ((runFrom state.world action).1, state) := by
  rw [runFrom_onWorld, looks]

theorem Attended.indexing (attended : Attended env place state)
    (wellFormed : state.world.WellFormed) (project incremental : Value) :
    Tended env place (runFrom state (do
      let result ← ServerAct.onIndex
        ((indexerAt env place).run place.toString project (!incremental.isTruthy))
      let stats ← ServerAct.onIndex ((indexerAt env place).describe place.toString)
      return indexReply place project incremental result stats)).2 := by
  have indexed := attended.onIndex (fun chunks hosted =>
    hosted.run wellFormed project (!incremental.isTruthy))
  refine (Preserves.bind_at indexed (fun result => .bind ?_ (fun _ => .pure _))).toTended
  exact attended_onIndex (fun _ => (indexerAt env place).describe_follows _)

section WellFormed

variable (tended : Tended env place state) (wellFormed : state.world.WellFormed)

include tended wellFormed

theorem Tended.indexDirectory {path : String}
    (resolved : runFrom state.world (World.resolve path) = (.ok place, state.world))
    (name incremental : Value) :
    Tended env place (runFrom state (indexDirectory env path name incremental)).2 := by
  obtain ⟨server, started, same⟩ := startPreload_ok tended.housed
  have ready := tended.sameFocus same
  rw [Server.indexDirectory, telling_snd, runFrom_then started, runFrom_bind,
    runFrom_onWorld, resolved, andThen_ok, runFrom_bind, runFrom_look (World.exists?_snd place)]
  rcases (runFrom state.world (World.exists? place)).1 with fault | there
  · exact ready
  · rw [andThen_ok]
    split
    · exact ready
    · rw [runFrom_bind, runFrom_look (World.isFolder_snd place)]
      rcases (runFrom state.world (World.isFolder place)).1 with fault | folder
      · exact ready
      · rw [andThen_ok]
        split
        · exact ready
        · obtain ⟨server₁, opened, attended, -⟩ := ready.openProject
          obtain ⟨server₂, made, same'⟩ := setUpModel_ok attended.housed
          have shown := attended.sameFocus same'
          have indexer := @indexerFor_ok env place ⟨server₂, state.world⟩ shown.housed
          rw [runFrom_then opened, runFrom_then made, runFrom_then indexer]
          exact shown.indexing wellFormed _ _

theorem Tended.indexSample
    (resolved : runFrom state.world (World.resolve env.sample.toString) =
      (.ok place, state.world)) :
    Tended env place (runFrom state (indexSample env)).2 := by
  have indexed := tended.indexDirectory wellFormed resolved .null (.bool true)
  rw [Server.indexSample, runFrom_bind, runFrom_look (World.exists?_snd env.sample)]
  rcases (runFrom state.world (World.exists? env.sample)).1 with fault | there
  · exact tended
  · rw [andThen_ok]
    split
    · exact tended
    · refine Preserves.bind_at indexed (fun reply => ?_)
      split
      · exact .pure _
      · split
        · exact .pure _
        · exact .pure _

end WellFormed

theorem tended_listProjects : Preserves (Tended env place) (listProjects env) := by
  refine .tryCatch (.bind tended_storageFolder (fun base => .bind (fun _ tended => tended)
    (fun state => ?_))) (fun _ => .pure _)
  dsimp only
  split
  · exact .pure _
  · exact .throw _
  · exact .bind (.mapM (fun name => of_looking (describeProject_snd _)) _)
      (fun _ => .bind (fun _ tended => tended)
      (fun _ => .pure _))

theorem Tended.switchProject {path : String} (tended : Tended env place state)
    (resolved : runFrom state.world (World.resolve path) = (.ok place, state.world)) :
    Tended env place (runFrom state (switchProject env path)).2 := by
  obtain ⟨server, made, same⟩ := projectFolder_ok tended.housed
  have ready := tended.sameFocus same
  rw [Server.switchProject, telling_snd, runFrom_bind, runFrom_onWorld, resolved, andThen_ok,
    runFrom_bind, runFrom_look (World.exists?_snd place)]
  rcases (runFrom state.world (World.exists? place)).1 with fault | there
  · exact tended
  · rw [andThen_ok]
    split
    · exact tended
    · rw [runFrom_then made]
      -- The index is closed, and the rest is a reply.
      have switched : Preserves (Tended env place) (change (fun server =>
          { server with
            current := some place.toString, index := none, searcher := none })) := by
        intro state tended
        refine ⟨fun _ chunks none => ?_, tended.housed⟩
        cases none
      refine Preserves.bind (of_looking (World.exists?_snd _)) (fun indexed => ?_) _ ready
      split
      · exact .pure _
      · refine .bind switched (fun _ => .bind (of_looking (World.exists?_snd _)) (fun known => ?_))
        split
        · exact .bind (of_looking (World.documentAt_snd _)) (fun _ => .pure _)
        · exact .pure _

/-- A tool is called for the project: with its path, or because it is the current one. -/
def About (env : Environment) (place : Path) (state : ServerState) : Tool → Prop
  | .searchCode _ | .findSimilarCode _ _ | .indexStatus | .clearIndex =>
    state.server.current = some place.toString
  | .indexDirectory path _ _ | .switchProject path =>
    runFrom state.world (World.resolve path) = (.ok place, state.world)
  | .indexSample =>
    runFrom state.world (World.resolve env.sample.toString) = (.ok place, state.world)
  | .listProjects => True

/-- A tool that is called for a project leaves it in shape. -/
theorem Tended.perform {tool : Tool} (tended : Tended env place state)
    (wellFormed : state.world.WellFormed) (about : About env place state tool) :
    Tended env place (runFrom state (perform env tool)).2 := by
  cases tool with
  | searchCode request => exact (Attended.searchCode ⟨tended, about⟩ wellFormed request).toTended
  | indexDirectory path name incremental =>
    exact tended.indexDirectory wellFormed about name incremental
  | findSimilarCode identifier count =>
    exact (attended_findSimilarCode identifier count state ⟨tended, about⟩).toTended
  | indexStatus => exact (attended_indexStatus state ⟨tended, about⟩).toTended
  | listProjects => exact tended_listProjects state tended
  | switchProject path => exact tended.switchProject about
  | indexSample => exact tended.indexSample wellFormed about
  | clearIndex => exact (attended_clearIndex state ⟨tended, about⟩).toTended

theorem Tended.of_performed {tool : Tool} {inLoop : Bool} (performed : Tended env place
      (runFrom ⟨{ state.server with inLoop }, state.world⟩ (Server.perform env tool)).2) :
    Tended env place (runFrom state (Server.call env inLoop tool)).2 := by
  have turn : Preserves (Tended env place) (takeTurn env) := by
    intro state tended
    obtain ⟨server, made, same⟩ := takeTurn_ok tended.housed
    rw [made]
    exact tended.sameFocus same
  rw [Server.call, runFrom_then (runFrom_change _ _)]
  refine Preserves.bind_at performed (fun reply => ?_)
  dsimp only
  split
  · exact .bind turn (fun _ => .pure _)
  · exact .pure _

theorem Tended.call {tool : Tool} (tended : Tended env place state)
    (wellFormed : state.world.WellFormed) (about : About env place state tool) (inLoop : Bool) :
    Tended env place (runFrom state (Server.call env inLoop tool)).2 :=
  .of_performed (.perform ⟨tended.folder, tended.housed⟩ wellFormed (by cases tool <;> exact about))

end Tools

/-- A world after edits of the project, which leave alone what the server keeps. -/
structure Edited (env : Environment) (place : Path) (before world : World) : Prop where
  storage : before.HasFolderAt env.storage → world.HasFolderAt env.storage
  models : before.HasFolderAt (env.storage.child "models") →
    world.HasFolderAt (env.storage.child "models")
  info : (∃ value, before.Keeps ((homeOf env place).child "project_info.json") (some value)) →
    ∃ value, world.Keeps ((homeOf env place).child "project_info.json") (some value)
  indexed : (indexerAt env place).Edited place ⟨.ofFolder (indexFolder env place), before⟩ world

theorem Edited.housed {before world : World} (edited : Edited env place before world)
    (housed : Housed env place before) : Housed env place world := by
  obtain ⟨absolute, valid, storage, models, info, ⟨kept, files⟩, snapshot, remembers,
    ⟨document, described⟩, -⟩ := housed
  exact ⟨absolute, valid, edited.storage storage, edited.models models, edited.info info,
    ⟨kept, edited.indexed.index kept files⟩, snapshot,
    remembers.of_keeps edited.indexed.snapshot, ⟨document, edited.indexed.record _ described⟩,
    edited.indexed.found⟩

theorem Edited.refl {world : World} (housed : Housed env place world)
    (wellFormed : world.WellFormed) : Edited env place world world where
  storage := id
  models := id
  info := id
  indexed :=
    { index := fun _ => id
      snapshot := fun _ => id
      record := fun _ => id
      found := housed.stands.elim (fun _ stands => stands.found)
      wellFormed }

/-- The states of a server after edits of the project and calls, each of which is for the
project or leaves alone what is kept for it. -/
inductive Served (env : Environment) (place : Path) (start : ServerState) :
    ServerState → Prop where
  | start : Served env place start start
  | call {before : ServerState} {world : World} {inLoop : Bool} {tool : Tool} :
      Served env place start before → Edited env place before.world world →
      About env place ⟨before.server, world⟩ tool ∨ Edited env place world
        (runFrom ⟨before.server, world⟩ (Server.call env inLoop tool)).2.world →
      Served env place start (runFrom ⟨before.server, world⟩ (Server.call env inLoop tool)).2

theorem Served.after {start before after : ServerState} {world : World} {inLoop : Bool}
    {tool : Tool} {outcome : Except Fault ToolReply} (history : Served env place start before)
    (edited : Edited env place before.world world)
    (about : About env place ⟨before.server, world⟩ tool)
    (ran : runFrom ⟨before.server, world⟩ (Server.call env inLoop tool) = (outcome, after)) :
    Served env place start after := by
  have reached := @Served.call env place start before world inLoop tool history edited (.inl about)
  rwa [ran] at reached

/-- A project stays in shape from call to call. -/
theorem Served.tended {start state : ServerState} (history : Served env place start state)
    (tended : Tended env place start) : Tended env place state := by
  induction history with
  | start => exact tended
  | @call before world inLoop tool _ edited kept ih =>
    have between : Tended env place ⟨before.server, world⟩ :=
      ⟨ih.folder, edited.housed ih.housed⟩
    rcases kept with about | elsewhere
    · exact between.call edited.indexed.wellFormed about inLoop
    · exact ⟨focused_call between.housed.isPlace inLoop tool _
        between.folder, elsewhere.housed between.housed⟩

end Server

end CodeAtlas
