import CodeAtlas.Proofs.Indexing.Freshness
import CodeAtlas.Proofs.Server.Upkeep

/-!
# Clearing an index keeps the snapshot

A cleared index holds nothing, but the snapshot of the project stays.  So the next run for
changes brings in only the files that differ from the snapshot.
-/

namespace CodeAtlas

namespace Indexer

open IndexState

variable {indexer : Indexer} {place : Path} {project : Value} {start : IndexState}
  {snapshot snapshot' : Option FileContents} {result : RunResult} {view' : IndexView}
variable {dimension : Nat} {path : String}

/-- The rules by which a run for changes tracks files: without a snapshot it is a full one. -/
def rulesSince (indexer : Indexer) (place : Path) : Option FileContents → IgnoreRules
  | none => .standard
  | some _ => indexer.store.rulesFor place.toString

/-- A file with the given bytes is not in the snapshot, or with another digest. -/
def Differs (indexer : Indexer) (snapshot : Option FileContents) (names : List String)
    (bytes : ByteArray) : Prop :=
  (snapshot.bind (fun content => content names)).map indexer.env.digest ≠
    some (indexer.env.digest bytes)

theorem differs_iff {old new : FileContents} {names : List String} {bytes : ByteArray}
    (held : new names = some bytes) : indexer.Differs (some old) names bytes ↔
      (old names).map indexer.env.digest ≠ (new names).map indexer.env.digest := by
  rw [Differs, Option.bind_some, held, Option.map_some]

/-- The identifier is that of a chunk of a tracked file that differs from the snapshot. -/
def Changed (indexer : Indexer) (place : Path) (world : World) (snapshot : Option FileContents)
    (identifier : String) : Prop :=
  ∃ names bytes, world.contentAt (indexer.rulesSince place snapshot) place names = some bytes ∧
    indexer.Differs snapshot names bytes ∧
    ∃ chunk ∈ indexer.chunksAt place names bytes, chunk.identifier = identifier

section Place

variable (isPlace : place.IsPlace)

include isPlace

theorem changed_of_follows {state : IndexState} (follows : start.Follows state)
    (wellFormed : start.world.WellFormed) (wellFormed' : state.world.WellFormed)
    (identifier : String) :
    indexer.Changed place state.world snapshot identifier ↔
      indexer.Changed place start.world snapshot identifier := by
  constructor
  · rintro ⟨names, bytes, held, differs, chunk, member, same⟩
    have before := follows.contentAt isPlace (validNames_of_contentAt wellFormed' held)
      (isSource_of_mem_chunksAt member) held
    exact ⟨names, bytes, before, differs, chunk, member, same⟩
  · rintro ⟨names, bytes, held, differs, chunk, member, same⟩
    have after := follows.contentAt_after isPlace
      (validNames_of_contentAt wellFormed held) (isSource_of_mem_chunksAt member) held
    exact ⟨names, bytes, after, differs, chunk, member, same⟩

/-- A run for changes on an index that holds nothing brings in what differs from the
snapshot. -/
theorem Effect.of_empty
    (effect : indexer.Effect place project start .empty false snapshot result view' snapshot')
    (total : indexer.env.encoder.IsTotal) (wellFormed : start.world.WellFormed)
    (remembers : indexer.Remembers place start.world snapshot) :
    result.success = true ∧ ∀ identifier,
      (view'.live identifier ≠ none ↔ indexer.Changed place start.world snapshot identifier) ∧
        (identifier ∈ view'.names ↔ indexer.Changed place start.world snapshot identifier) := by
  -- What is added to nothing is live and listed alike.
  have added : ∀ {view : IndexView} {chunks : List Chunk} {identifier : String},
      view.names = [] → (∀ identifier, view.live identifier = none) →
      (identifier ∈ chunks.map Chunk.identifier ↔
        indexer.Changed place start.world snapshot identifier) →
      ((view.add (indexer.embed project chunks)).live identifier ≠ none ↔
          indexer.Changed place start.world snapshot identifier) ∧
        (identifier ∈ (view.add (indexer.embed project chunks)).names ↔
          indexer.Changed place start.world snapshot identifier) := by
    intro view chunks identifier unnamed nothing known
    have names := embed_identifiers (total.answers chunks) project
    refine ⟨?_, ?_⟩
    · rw [IndexView.live_add_iff, names, known, nothing]
      simp
    · rw [IndexView.add, unnamed, List.nil_append, names, known]
  cases effect with
  | @rebuilt cleared tree items wanted emptied built made =>
    obtain rfl : snapshot = none := by simpa using wanted
    have wellFormed' := ChunkIndex.wellFormed_clear.after wellFormed emptied
    have follows := Follows.clear.after (.refl start) emptied
    refine ⟨rfl, fun identifier => ?_⟩
    rw [made]
    refine added rfl (fun _ => rfl) ?_
    rw [← changed_of_follows isPlace follows wellFormed wellFormed' identifier]
    refine mem_identifiers_iff isPlace wellFormed' (fun file => ?_) identifier
    simp [DigestTree.mem_files_of_build wellFormed' built, Differs, rulesSince]
  | @unchanged old changes _ known finds same =>
    subst known
    have digests := (finds.digests isPlace wellFormed remembers).1.mp same
    have nothing : ∀ identifier,
        ¬ indexer.Changed place start.world (some old) identifier := by
      rintro identifier ⟨names, bytes, held, differs, -⟩
      exact (differs_iff held).mp differs (digests names)
    exact ⟨rfl, fun identifier => ⟨by simpa [IndexView.empty] using nothing identifier,
      by simpa [IndexView.empty] using nothing identifier⟩⟩
  | @updated old changes items count _ known finds changed once made =>
    subst known
    obtain ⟨-, -, reindexes⟩ := finds.digests isPlace wellFormed remembers
    refine ⟨rfl, fun identifier => ?_⟩
    rw [made]
    refine added rfl (fun _ => rfl) ?_
    refine mem_identifiers_iff isPlace wellFormed (fun file => ?_) identifier
    rw [reindexes]
    refine exists_congr (fun names => exists_congr (fun bytes => ?_))
    exact and_congr_right (fun held => and_congr_left (fun _ => (differs_iff held).symm))
  | stopped _ _ _ _ live => cases live

/-- A project that was kept is described, whatever the state of its index. -/
theorem describe_ok {state : IndexState} (stands : indexer.Stands place snapshot state.world) :
    ∃ value world, runFrom state (indexer.describe place.toString) =
      (.ok value, { state with world }) ∧ state.world.Still world := by
  obtain ⟨remembers, ⟨fields, described⟩, -⟩ := stands
  obtain ⟨document, kept, -⟩ := remembers.keeps
  have resolved := World.resolve_place isPlace state.world
  have loaded : runFrom state.world (indexer.store.loadRecord indexer.env place.toString) =
      (.ok (fields.map .record), state.world) := by
    cases fields with
    | none => simp [SnapshotStore.loadRecord, resolved, described.exists?]
    | some fields =>
      simp [SnapshotStore.loadRecord, resolved, described.exists?, described.documentAt]
  obtain ⟨age, world, aged⟩ : ∃ age world,
      runFrom state.world (indexer.store.age indexer.env place.toString) = (.ok age, world) := by
    obtain ⟨modified, found⟩ := kept.lookUp
    cases document with
    | none => exact ⟨none, state.world, by simp [SnapshotStore.age, resolved, World.find, found]⟩
    | some value =>
      exact ⟨_, state.world.tick, by simp [SnapshotStore.age, resolved, World.find, found]; rfl⟩
  have still := (indexer.store.still_age indexer.env place.toString).after (.refl state.world) aged
  cases fields with
  | none => exact ⟨none, state.world, by simp [describe, loaded], .refl _⟩
  | some fields =>
    cases truthy : (Value.record fields).isTruthy with
    | false => exact ⟨none, state.world, by simp [describe, loaded, truthy], .refl _⟩
    | true => exact ⟨_, world, by simp [describe, loaded, truthy, aged]; rfl, still⟩

end Place

theorem Ready.still {dimension : Nat} {view : IndexView} {state : IndexState} {world : World}
    (ready : indexer.Ready place dimension view snapshot state) (still : state.world.Still world) :
    indexer.Ready place dimension view snapshot { state with world } where
  shows := ready.shows.edited (fun _ files => files.of_disk still.disk still.workingDirectory)
  inOrder := ready.inOrder
  stands := ready.stands.follows ((Follows.refl state).of_disk still.disk still.workingDirectory)

theorem projectName_projectName (name : Value) (place : Path) :
    projectName (projectName name place) place = projectName name place := by
  by_cases given : name.isTruthy = true
  · simp [projectName, given]
  · simp [projectName, given]

end Indexer

namespace Server

open IndexState

variable {env : Environment} {place : Path} {state : ServerState}

theorem isError_indexReply {name incremental : Value} {result : RunResult} {stats : Option Value}
    (success : result.success = true) :
    (indexReply place name incremental result stats).isError = false := by
  have none : result.failure = none := by simpa [RunResult.success] using success
  simp [indexReply, none, ToolReply.isError, Value.field?]

/-- After clearing, the index of the project is open and shows nothing. -/
theorem Attended.clearIndex_ok (attended : Attended env place state) :
    ∃ reply server chunks world,
      runFrom state (clearIndex env) = (.ok reply, ⟨server, world⟩) ∧ reply.isError = false ∧
      server.current = some place.toString ∧ server.index = some chunks ∧
      Shows .empty ⟨chunks, world⟩ ∧
      Follows ⟨shownIndex env place state.server, state.world⟩ ⟨chunks, world⟩ ∧
      (state.world.WellFormed → world.WellFormed) := by
  obtain ⟨server, opened, attended', index⟩ := attended.openProject
  obtain ⟨kept, files⟩ := attended.housed.index
  rw [← attended.shown] at files
  obtain ⟨cleared, emptied, shows⟩ :=
    @Shows.clear ⟨shownIndex env place state.server, state.world⟩ kept files
  refine ⟨⟨.record [("success", .bool true),
      ("message", .text "Search index cleared successfully")], .indented⟩,
    { server with index := some cleared.chunks }, cleared.chunks, cleared.world,
    telling_ok ?_, by simp [ToolReply.isError, Value.field?], attended'.current, rfl, shows,
    Follows.clear.after (.refl _) emptied,
    fun wellFormed => ChunkIndex.wellFormed_clear.after wellFormed emptied⟩
  have current := attended.current
  simp [openCurrent, current, opened, runFrom_onIndex, index, emptied]

/-- A call for a project that is ready indexes it and makes it the current one. -/
theorem Tended.indexDirectory_ok {view : IndexView} {snapshot : Option FileContents}
    (tended : Tended env place state) (wellFormed : state.world.WellFormed)
    (gives : env.encoder.Gives dimension) (project : state.world.HasFolderAt place)
    (resolved : runFrom state.world (World.resolve path) = (.ok place, state.world))
    (ready : (indexerAt env place).Ready place dimension view snapshot
      ⟨shownIndex env place state.server, state.world⟩) (name incremental : Value) :
    ∃ result view' snapshot' stats server chunks world,
      runFrom state (Server.indexDirectory env path name incremental) =
        (.ok (indexReply place (Indexer.projectName name place) incremental result stats),
          ⟨server, world⟩) ∧
      (indexerAt env place).Effect place (Indexer.projectName name place)
        ⟨shownIndex env place state.server, state.world⟩ view (!incremental.isTruthy) snapshot
        result view' snapshot' ∧
      server.current = some place.toString ∧ server.index = some chunks ∧
      (indexerAt env place).Ready place dimension view' snapshot' ⟨chunks, world⟩ := by
  obtain ⟨server₁, started, same₁⟩ := startPreload_ok tended.housed
  have shown : shownIndex env place server₁ = shownIndex env place state.server := by
    rw [shownIndex, shownIndex, same₁.current, same₁.index]
  obtain ⟨server₂, opened, attended, index₂⟩ := (tended.sameFocus same₁).openProject
  obtain ⟨server₃, made, same₃⟩ := setUpModel_ok attended.housed
  have indexer := @indexerFor_ok env place ⟨server₃, state.world⟩ attended.housed
  have index : server₃.index = some (shownIndex env place state.server) := by
    rw [same₃.index, ← shown]
    exact index₂
  obtain ⟨result, view', snapshot', after, ran, effect, -, ready'⟩ :=
    @Indexer.run_effect (indexerAt env place) place dimension view snapshot
      ⟨shownIndex env place state.server, state.world⟩ place.toString
      (Indexer.projectName name place) (!incremental.isTruthy) ready wellFormed gives
      (World.resolve_place tended.housed.isPlace _)
  rw [Indexer.projectName_projectName] at effect
  obtain ⟨stats, world, described, still⟩ := Indexer.describe_ok tended.housed.isPlace
    ready'.stands
  refine ⟨result, view', snapshot', stats, { server₃ with index := some after.chunks },
    after.chunks, world, telling_ok ?_, effect, same₃.current.trans attended.current, rfl,
    ready'.still still⟩
  rw [runFrom_then started, runFrom_bind, runFrom_onWorld, resolved, andThen_ok]
  simp [project.exists?, project.isFolder, opened, made, indexer, runFrom_onIndex, index, ran,
    described]

theorem call_ok {tool : Tool} {reply : ToolReply} {after : ServerState} {inLoop : Bool}
    (ran : runFrom ⟨{ state.server with inLoop }, state.world⟩ (perform env tool) =
      (.ok reply, after)) (housed : Housed env place after.world) :
    ∃ server, runFrom state (call env inLoop tool) = (.ok reply, ⟨server, after.world⟩) ∧
      SameFocus after.server server := by
  rw [call, runFrom_then (runFrom_change _ _), runFrom_then ran]
  cases inLoop with
  | false => exact ⟨after.server, rfl, rfl, rfl, rfl⟩
  | true =>
    obtain ⟨server, made, same⟩ := takeTurn_ok housed
    exact ⟨server, by simp [made], same⟩

/-- A call to clear leaves the project the current one, with an index that holds nothing and the
snapshot that it had. -/
theorem Attended.call_clearIndex {snapshot : Option FileContents}
    (attended : Attended env place state) (wellFormed : state.world.WellFormed)
    (remembers : (indexerAt env place).Remembers place state.world snapshot) (dimension : Nat)
    (inLoop : Bool) :
    ∃ reply server chunks world,
      runFrom state (call env inLoop .clearIndex) = (.ok reply, ⟨server, world⟩) ∧
      reply.isError = false ∧ Attended env place ⟨server, world⟩ ∧
      server.index = some chunks ∧ world.WellFormed ∧
      Follows ⟨shownIndex env place state.server, state.world⟩ ⟨chunks, world⟩ ∧
      (indexerAt env place).Ready place dimension .empty snapshot ⟨chunks, world⟩ := by
  have before : Attended env place ⟨{ state.server with inLoop }, state.world⟩ :=
    attended.sameFocus ⟨rfl, rfl, rfl⟩
  obtain ⟨reply, server, chunks, world, emptied, noError, -, index, shows, follows, kept⟩ :=
    before.clearIndex_ok
  have after := attended_clearIndex.after before emptied
  obtain ⟨server', ran, same⟩ := @call_ok env place state .clearIndex reply ⟨server, world⟩ inLoop
    emptied after.housed
  have stands : (indexerAt env place).Stands place snapshot state.world := by
    obtain ⟨_, -, record, found⟩ := attended.housed.stands
    exact ⟨remembers, record, found⟩
  exact ⟨reply, server', chunks, world, ran, noError, after.sameFocus same, same.index.trans index,
    kept wellFormed, follows, shows, .empty dimension, stands.follows follows⟩

/-- A call to index a project that is ready makes it the current one and has the effect of a
run. -/
theorem Tended.call_indexDirectory {view : IndexView} {snapshot : Option FileContents}
    (tended : Tended env place state) (wellFormed : state.world.WellFormed)
    (gives : env.encoder.Gives dimension) (project : state.world.HasFolderAt place)
    (resolved : runFrom state.world (World.resolve path) = (.ok place, state.world))
    (ready : (indexerAt env place).Ready place dimension view snapshot
      ⟨shownIndex env place state.server, state.world⟩) (name incremental : Value)
    (inLoop : Bool) :
    ∃ result view' snapshot' reply server chunks world,
      runFrom state (Server.call env inLoop (.indexDirectory path name incremental)) =
        (.ok reply, ⟨server, world⟩) ∧
      (result.success = true → reply.isError = false) ∧
      (indexerAt env place).Effect place (Indexer.projectName name place)
        ⟨shownIndex env place state.server, state.world⟩ view (!incremental.isTruthy) snapshot
        result view' snapshot' ∧
      Attended env place ⟨server, world⟩ ∧ server.index = some chunks ∧
      (indexerAt env place).Ready place dimension view' snapshot' ⟨chunks, world⟩ := by
  have before : Tended env place ⟨{ state.server with inLoop }, state.world⟩ :=
    tended.sameFocus ⟨rfl, rfl, rfl⟩
  obtain ⟨result, view', snapshot', stats, server, chunks, world, indexed, effect, current, index,
    ready'⟩ := before.indexDirectory_ok wellFormed gives project resolved ready name incremental
  have after := before.indexDirectory wellFormed resolved name incremental
  rw [indexed] at after
  obtain ⟨server', ran, same⟩ := @call_ok env place state (.indexDirectory path name incremental) _
    ⟨server, world⟩ inLoop indexed after.housed
  exact ⟨result, view', snapshot', _, server', chunks, world, ran, isError_indexReply, effect,
    ⟨after.sameFocus same, same.current.trans current⟩, same.index.trans index, ready'⟩

/-- A cleared index that is brought up to date holds what differs from the snapshot. -/
theorem Attended.clear_then_index {snapshot : Option FileContents} {incremental : Value}
    (attended : Attended env place state) (wellFormed : state.world.WellFormed)
    (project : state.world.HasFolderAt place)
    (resolved : runFrom state.world (World.resolve path) = (.ok place, state.world))
    (changesOnly : incremental.isTruthy = true) (total : env.encoder.IsTotal)
    (gives : env.encoder.Gives dimension)
    (remembers : (indexerAt env place).Remembers place state.world snapshot)
    (name : Value) (inLoop inLoop' : Bool) :
    ∃ cleared between reply after chunks,
      runFrom state (call env inLoop .clearIndex) = (.ok cleared, between) ∧
      cleared.isError = false ∧
      runFrom between (call env inLoop' (.indexDirectory path name incremental)) =
        (.ok reply, after) ∧
      reply.isError = false ∧ after.server.index = some chunks ∧
      ∀ identifier,
        ((∃ record, (runFrom ⟨chunks, after.world⟩
            (ChunkIndex.recordOf (.text identifier))).1 = .ok (some record)) ↔
          (indexerAt env place).Changed place state.world snapshot identifier) ∧
        (identifier ∈ chunks.names ↔
          (indexerAt env place).Changed place state.world snapshot identifier) := by
  have isPlace := attended.housed.isPlace
  obtain ⟨cleared, server, chunks, world, ran, noError, attended', index, wellFormed', follows,
    ready⟩ := attended.call_clearIndex wellFormed remembers dimension inLoop
  have shown : shownIndex env place server = chunks := by
    rw [shownIndex, if_pos attended'.current, index, Option.getD_some]
  have resolved' : runFrom world (World.resolve path) = (.ok place, world) := by
    obtain ⟨noNull, here⟩ := World.eq_of_resolve resolved
    rw [World.runFrom_resolve noNull, follows.world.workingDirectory, here]
  rw [← shown] at ready
  obtain ⟨result, view', _, reply, server', chunks', world', ran', told, effect, -, index',
    ready'⟩ := attended'.toTended.call_indexDirectory wellFormed' gives
      (project.apart follows.world) resolved' ready name incremental inLoop'
  rw [changesOnly] at effect
  obtain ⟨success, brought⟩ :=
    effect.of_empty isPlace total wellFormed' ready.stands.snapshot
  refine ⟨cleared, ⟨server, world⟩, reply, ⟨server', world'⟩, chunks', ran, noError, ran',
    told success, index', fun identifier => ?_⟩
  have unchanged := @Indexer.changed_of_follows (indexerAt env place) place _ snapshot isPlace _
    follows wellFormed wellFormed' identifier
  obtain ⟨live, listed⟩ := brought identifier
  constructor
  · rw [ready'.shows.recordOf identifier, ← unchanged, ← live, Option.ne_none_iff_exists']
    simp
  · rw [← unchanged, ← listed, ← ready'.shows.2.1]

end Server

/-- After any history of edits and calls for a project, to clear its index and to index it for
changes again leaves live and listed exactly the chunks of the files that differ from the
snapshot, which clearing does not take away. -/
theorem cleared_project_indexes_changes_only {env : Environment} {place : Path} {dimension : Nat}
    {start before : ServerState} {world : World} {snapshot : Option FileContents} {path : String}
    {incremental : Value} (tended : Server.Tended env place start)
    (history : Server.Served env place start before)
    (edited : Server.Edited env place before.world world)
    (current : before.server.current = some place.toString) (project : world.HasFolderAt place)
    (resolved : runFrom world (World.resolve path) = (.ok place, world))
    (changesOnly : incremental.isTruthy = true) (total : env.encoder.IsTotal)
    (gives : env.encoder.Gives dimension)
    (remembers : (Server.indexerAt env place).Remembers place world snapshot) (name : Value)
    (inLoop inLoop' : Bool) :
    ∃ cleared between reply after chunks,
      runFrom ⟨before.server, world⟩ (Server.call env inLoop .clearIndex) =
        (.ok cleared, between) ∧
      cleared.isError = false ∧
      runFrom between (Server.call env inLoop' (.indexDirectory path name incremental)) =
        (.ok reply, after) ∧
      reply.isError = false ∧ after.server.index = some chunks ∧
      ∀ identifier,
        ((∃ record, (runFrom ⟨chunks, after.world⟩
            (ChunkIndex.recordOf (.text identifier))).1 = .ok (some record)) ↔
          (Server.indexerAt env place).Changed place world snapshot identifier) ∧
        (identifier ∈ chunks.names ↔
          (Server.indexerAt env place).Changed place world snapshot identifier) := by
  have kept := history.tended tended
  have attended : Server.Attended env place ⟨before.server, world⟩ :=
    ⟨⟨kept.folder, edited.housed kept.housed⟩, current⟩
  exact attended.clear_then_index edited.indexed.wellFormed project resolved changesOnly total
    gives remembers name inLoop inLoop'

namespace Sample

def started : ServerState :=
  ⟨Server.fresh, world (lone "x") (fun _ => none) none none⟩

theorem housed_world {sources : List (String × ByteArray)} {kept : Contents}
    {snapshot record : Option Value}
    (stands : ∃ content, indexer.Stands place content (world sources kept snapshot record)) :
    Server.Housed environment place (world sources kept snapshot record) where
  absolute := rfl
  valid := by decide
  storage := ⟨["storage"], rfl, _, rfl⟩
  models := ⟨["storage", "models"], rfl, _, rfl⟩
  info := ⟨.record [], ["storage", "projects", "project_id", "project_info.json"], rfl, 0, rfl⟩
  index := ⟨kept, keepsIndex_world⟩
  stands := stands

theorem tended_started : Server.Tended environment place started where
  folder := by
    intro current
    cases current
  housed := housed_world ⟨none, keepsSnapshot_world, ⟨none, keepsRecord_world⟩, _, lookUp_world⟩

theorem wellFormed_started : started.world.WellFormed :=
  wellFormed_world (proper_lone "x").single (proper_lone "x").valid

/-- What it comes to that the project is indexed for the first time. -/
theorem call_started (name : Value) :
    ∃ result view content reply server chunks world',
      runFrom started (Server.call environment false
        (.indexDirectory "/project" name (.bool true))) = (.ok reply, ⟨server, world'⟩) ∧
      indexer.Effect place (Indexer.projectName name place)
        ⟨.ofFolder folder, started.world⟩ .empty false none result view content ∧
      Server.Attended environment place ⟨server, world'⟩ ∧ server.index = some chunks ∧
      indexer.Ready place 1 view content ⟨chunks, world'⟩ := by
  have ready : indexer.Ready place 1 .empty none
      ⟨Server.shownIndex environment place Server.fresh, started.world⟩ :=
    ⟨⟨rfl, rfl, _, keepsIndex_world, rfl⟩, .empty 1, keepsSnapshot_world,
      ⟨none, keepsRecord_world⟩, _, lookUp_world⟩
  have there : started.world.HasFolderAt place := ⟨["project"], rfl, _, rfl⟩
  obtain ⟨result, view, content, reply, server, chunks, world', ran, -, rest⟩ :=
    tended_started.call_indexDirectory wellFormed_started gives_encoder there (resolve_project _)
      ready name (.bool true) false
  exact ⟨result, view, content, reply, server, chunks, world', ran, rest⟩

/-- The project was indexed once.  Whatever files it is to have next, the snapshot tells what
it had then. -/
theorem exists_served {sources : List (String × ByteArray)} (proper : Proper sources) :
    ∃ before kept snapshot record, Server.Served environment place started before ∧
      before.server.current = some place.toString ∧
      Server.Edited environment place before.world (world sources kept snapshot record) ∧
      indexer.Remembers place (world sources kept snapshot record)
        (some (contents (lone "x"))) := by
  obtain ⟨result, view, content, reply, server, chunks, world', ran, effect, attended, index,
    ready'⟩ := call_started .null
  obtain rfl := remembers_of_rebuilt rfl effect
  have history := @Server.Served.after environment place started started ⟨server, world'⟩
    started.world false (.indexDirectory "/project" .null (.bool true)) _ .start
    (.refl tended_started.housed wellFormed_started) (resolve_project _) ran
  have inFolder := attended.folder attended.current chunks index
  have edited := @edited_revised ⟨chunks, world'⟩ sources proper inFolder
  have remembers := ready'.stands.snapshot.of_keeps edited.snapshot
  have later := housed_world ⟨_, remembers,
    ready'.stands.record.imp (fun _ described => edited.record _ described), edited.found⟩
  have indexed : indexer.Edited place ⟨.ofFolder folder, world'⟩ (revised world' sources) := by
    refine ⟨fun kept' files => ?_, edited.snapshot, edited.record, edited.found,
      edited.wellFormed⟩
    have files' := edited.index kept'
    rw [show chunks.folder = folder from inFolder] at files'
    exact files' files
  exact ⟨⟨server, world'⟩, _, _, _, history, attended.current,
    ⟨fun _ => later.storage, fun _ => later.models, fun _ => later.info, indexed⟩, remembers⟩

/-- The one file is not the one of the snapshot exactly if its bytes have another digest. -/
theorem changed_lone_iff {text : String} {kept : Contents} {snapshot record : Option Value}
    {identifier : String} :
    indexer.Changed place (world (lone text) kept snapshot record) (some (contents (lone "x")))
        identifier ↔
      environment.digest "x".toUTF8 ≠ environment.digest text.toUTF8 ∧
        ∃ chunk ∈ indexer.chunksAt place ["a.py"] text.toUTF8, chunk.identifier = identifier := by
  have tracked : (world (lone text) kept snapshot record).contentAt
      (indexer.rulesSince place (some (contents (lone "x")))) place = contents (lone text) :=
    contentAt_world
  rw [Indexer.Changed, tracked]
  constructor
  · rintro ⟨names, bytes, held, differs, made⟩
    obtain ⟨rfl, rfl⟩ := contents_lone_eq_some held
    refine ⟨fun same => differs ?_, made⟩
    exact congrArg some same
  · rintro ⟨different, made⟩
    exact ⟨["a.py"], _, contents_lone text, fun same => different (Option.some.inj same), made⟩

end Sample

open Sample in
/-- A file that was edited before the index was cleared is indexed again. -/
theorem edited_file_is_indexed_after_clearing :
    ∃ before kept snapshot record, Server.Served environment place started before ∧
      Server.Edited environment place before.world (world (lone "xx") kept snapshot record) ∧
      ∃ cleared between reply after chunks,
        runFrom ⟨before.server, world (lone "xx") kept snapshot record⟩
          (Server.call environment false .clearIndex) = (.ok cleared, between) ∧
        cleared.isError = false ∧
        runFrom between (Server.call environment false
          (.indexDirectory "/project" .null (.bool true))) = (.ok reply, after) ∧
        reply.isError = false ∧ after.server.index = some chunks ∧
        (∃ record, (runFrom ⟨chunks, after.world⟩
          (ChunkIndex.recordOf (.text "a.py:1-1:module"))).1 = .ok (some record)) ∧
        "a.py:1-1:module" ∈ chunks.names := by
  obtain ⟨before, kept, snapshot, record, history, current, edited, remembers⟩ :=
    exists_served (proper_lone "xx")
  obtain ⟨cleared, between, reply, after, chunks, ran, noError, ran', noError', index, told⟩ :=
    cleared_project_indexes_changes_only tended_started history edited current
      ⟨["project"], rfl, _, rfl⟩ (resolve_project _) (show (Value.bool true).isTruthy = true from rfl)
      isTotal_encoder gives_encoder remembers .null false false
  obtain ⟨chunk, cut, same⟩ := exists_chunk_lone (.inr rfl)
  have changed := (@changed_lone_iff "xx" kept snapshot record "a.py:1-1:module").mpr
    ⟨by decide, chunk, cut ▸ List.mem_singleton_self chunk, same⟩
  obtain ⟨live, listed⟩ := told "a.py:1-1:module"
  exact ⟨before, kept, snapshot, record, history, edited, cleared, between, reply, after, chunks,
    ran, noError, ran', noError', index, live.mpr changed, listed.mpr changed⟩

open Sample in
/-- A file that is as it was when the project was indexed is not indexed again: after clearing,
the project has a chunk and the index has none. -/
theorem unchanged_file_is_lost_by_clearing :
    ∃ before kept snapshot record, Server.Served environment place started before ∧
      Server.Edited environment place before.world (world (lone "x") kept snapshot record) ∧
      (∃ chunk ∈ indexer.chunksAt place ["a.py"] "x".toUTF8,
        chunk.identifier = "a.py:1-1:module") ∧
      ∃ cleared between reply after chunks,
        runFrom ⟨before.server, world (lone "x") kept snapshot record⟩
          (Server.call environment false .clearIndex) = (.ok cleared, between) ∧
        cleared.isError = false ∧
        runFrom between (Server.call environment false
          (.indexDirectory "/project" .null (.bool true))) = (.ok reply, after) ∧
        reply.isError = false ∧ after.server.index = some chunks ∧
        (∀ identifier record, (runFrom ⟨chunks, after.world⟩
          (ChunkIndex.recordOf (.text identifier))).1 ≠ .ok (some record)) ∧
        chunks.names = [] := by
  obtain ⟨before, kept, snapshot, record, history, current, edited, remembers⟩ :=
    exists_served (proper_lone "x")
  have tended := history.tended tended_started
  have attended : Server.Attended environment place
      ⟨before.server, world (lone "x") kept snapshot record⟩ :=
    ⟨⟨tended.folder, edited.housed tended.housed⟩, current⟩
  obtain ⟨cleared, between, reply, after, chunks, ran, noError, ran', noError', index, told⟩ :=
    attended.clear_then_index edited.indexed.wellFormed ⟨["project"], rfl, _, rfl⟩
      (resolve_project _) (show (Value.bool true).isTruthy = true from rfl) isTotal_encoder
      gives_encoder remembers .null false false
  obtain ⟨chunk, cut, same⟩ := exists_chunk_lone (.inl rfl)
  have nothing : ∀ identifier, ¬ indexer.Changed place (world (lone "x") kept snapshot record)
      (some (contents (lone "x"))) identifier :=
    fun identifier changed => (changed_lone_iff.mp changed).1 rfl
  refine ⟨before, kept, snapshot, record, history, edited,
    ⟨chunk, cut ▸ List.mem_singleton_self chunk, same⟩, cleared, between, reply, after, chunks,
    ran, noError, ran', noError', index, fun identifier record found => ?_, ?_⟩
  · exact nothing identifier ((told identifier).1.mp ⟨record, found⟩)
  · exact List.eq_nil_iff_forall_not_mem.mpr (fun identifier listed =>
      nothing identifier ((told identifier).2.mp listed))

end CodeAtlas
