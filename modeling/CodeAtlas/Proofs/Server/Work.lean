import CodeAtlas.Proofs.Server.Upkeep

/-!
# Work on one project

What the server does in a call changes neither its focus nor the files that are kept for
projects, until it opens a project.  From then on that project is the current one, and the
server works on it alone.
-/

namespace CodeAtlas

open IndexState

variable {after : ServerState}

theorem Path.IsPlace.eq_of_toString {place other : Path} (isPlace : place.IsPlace)
    (isPlace' : other.IsPlace) (same : place.toString = other.toString) : place = other := by
  have read := @Path.resolve_toString place isPlace place
  have read' := @Path.resolve_toString other isPlace' place
  rw [same] at read
  exact read.symm.trans read'

namespace Server

variable {env : Environment} {place : Path} {α : Type} {start state : ServerState}

/-- What the server does with the index of a project. -/
inductive Use (env : Environment) (place : Path) : {α : Type} → IndexAct α → Prop where
  | run (name : Value) (full : Bool) :
      Use env place ((indexerAt env place).run place.toString name full)
  | refresh (maxAge name : Value) :
      Use env place ((indexerAt env place).refresh place.toString maxAge name)
  | describe : Use env place ((indexerAt env place).describe place.toString)
  | statistics : Use env place ChunkIndex.statistics
  | search (request : SearchRequest) : Use env place (answerSearch env request)
  | similar (identifier count : Value) : Use env place (answerSimilar env identifier count)
  | clear : Use env place ChunkIndex.clear

theorem Use.outlived {action : IndexAct α} (use : Use env place action) (isPlace : place.IsPlace)
    (state : IndexState) :
    (indexerAt env place).Outlived place state (runFrom state action).2 := by
  have reading {β : Type} {action : IndexAct β}
      (follows : ∀ start, Preserves (Follows start) action) :
      (indexerAt env place).Outlived place state (runFrom state action).2 :=
    Indexer.Outlived.of_follows follows state (.refl _ _ state)
  cases use with
  | run name full => exact Indexer.run_outlived isPlace (World.resolve_place isPlace _)
  | refresh maxAge name => exact Indexer.refresh_outlived isPlace maxAge name
  | describe => exact reading (fun _ => (indexerAt env place).describe_follows _)
  | statistics => exact reading (fun _ => ChunkIndex.preserves_statistics)
  | search request => exact reading (fun _ => answerSearch_follows request)
  | similar identifier count => exact reading (fun _ => answerSimilar_follows identifier count)
  | clear => exact reading (fun _ => Follows.clear)

/-- The indexes that come of an index, or of opening that of a project anew, by what the server
does with the index of the project. -/
inductive Worked (env : Environment) (place : Path) (first : ChunkIndex) : ChunkIndex → Prop where
  | start : Worked env place first first
  | opened : Worked env place first (.ofFolder (indexFolder env place))
  | use {α : Type} {action : IndexAct α} {chunks : ChunkIndex} {world : World} :
      Worked env place first chunks → Use env place action →
      Worked env place first (runFrom ⟨chunks, world⟩ action).2.chunks

/-- The indexes that manage a project: nothing went into them but what the server did for it. -/
abbrev Managed (env : Environment) (place : Path) : ChunkIndex → Prop :=
  Worked env place (.ofFolder (indexFolder env place))

theorem Worked.trans {first chunks last : ChunkIndex} (earlier : Worked env place first chunks)
    (later : Worked env place chunks last) : Worked env place first last := by
  induction later with
  | start => exact earlier
  | opened => exact .opened
  | use _ use ih => exact .use ih use

theorem Worked.folder {first chunks : ChunkIndex} (worked : Worked env place first chunks)
    (isPlace : place.IsPlace) (inFolder : first.folder = indexFolder env place) :
    chunks.folder = indexFolder env place := by
  induction worked with
  | start => exact inFolder
  | opened => rfl
  | use _ use ih => exact (use.outlived isPlace _).folder.trans ih

/-- Neither the focus of the server nor what is kept for projects changed. -/
structure Calm (env : Environment) (start state : ServerState) : Prop where
  focus : SameFocus start.server state.server
  files : World.Spares (Kept env) start.world state.world

theorem Calm.refl (env : Environment) (start : ServerState) : Calm env start start :=
  ⟨⟨rfl, rfl, rfl⟩, .refl _ _⟩

theorem Calm.trans (first : Calm env start state) (second : Calm env state after) :
    Calm env start after :=
  ⟨first.focus.trans second.focus, first.files.trans second.files⟩

theorem settled_of_calm {property : ServerState → Prop}
    (outlasts : ∀ {state after}, Calm env state after → property state → property after) :
    Settled env property where
  onWorld spares state holds :=
    @outlasts state _ ⟨⟨rfl, rfl, rfl⟩, spares state.world state.world (.refl _ _)⟩ holds
  change same state holds := @outlasts state _ ⟨same state.server, .refl _ _⟩ holds

theorem settled_calm : Settled env (Calm env start) :=
  settled_of_calm (fun later earlier => earlier.trans later)

/-- A project is the current one, and there was work on this project only. -/
structure Confined (env : Environment) (place : Path) (start state : ServerState) : Prop where
  current : state.server.current = some place.toString
  directory : state.world.workingDirectory = start.world.workingDirectory
  searcher : ∀ chunks, state.server.searcher = some (.ofClosed chunks) →
    start.server.searcher ≠ none
  index : ∀ chunks, state.server.index = some chunks →
    Worked env place (shownIndex env place start.server) chunks
  files : (shownIndex env place start.server).folder = indexFolder env place →
    World.Spares (fun path => ∃ other, Apart env place other ∧ KeptFor env other path)
      start.world state.world

theorem Confined.calm {after : ServerState} (confined : Confined env place start state)
    (calm : Calm env state after) : Confined env place start after where
  current := calm.focus.current.trans confined.current
  directory := calm.files.workingDirectory.trans confined.directory
  searcher chunks closed := confined.searcher chunks (calm.focus.searcher.symm.trans closed)
  index chunks known := confined.index chunks (calm.focus.index.symm.trans known)
  files inFolder := (confined.files inFolder).trans
    (calm.files.mono (fun _ kept => kept.imp (fun _ both => both.2)))

theorem settled_confined : Settled env (Confined env place start) :=
  settled_of_calm (fun later earlier => earlier.calm later)

/-- The call did nothing so far, or it works on a project. -/
def Toward (env : Environment) (place : Path) (start state : ServerState) : Prop :=
  Calm env start state ∨ Confined env place start state

theorem Toward.calm {after : ServerState} (toward : Toward env place start state)
    (calm : Calm env state after) : Toward env place start after :=
  toward.imp (fun earlier => earlier.trans calm) (fun confined => confined.calm calm)

theorem settled_toward : Settled env (Toward env place start) :=
  settled_of_calm (fun later earlier => earlier.calm later)

theorem Toward.directory (toward : Toward env place start state) :
    state.world.workingDirectory = start.world.workingDirectory :=
  toward.elim (fun calm => calm.files.workingDirectory) (fun confined => confined.directory)

section Opening

theorem closed_searcher_of_none {server : Server} (missing : server.searcher = none) :
    server.closed.searcher = none := by
  simp [closed, missing]

private theorem Calm.turned (calm : Calm env start state) :
    Confined env place start
      ⟨{ state.server.closed with current := some place.toString }, state.world⟩ where
  current := rfl
  directory := calm.files.workingDirectory
  searcher chunks closed none := by
    rw [closed_searcher_of_none (calm.focus.searcher.trans none)] at closed
    cases closed
  index chunks known := by cases known
  files _ := calm.files.mono (fun _ kept => kept.imp (fun _ both => both.2))

private theorem Calm.confined (calm : Calm env start state)
    (current : state.server.current = some place.toString) : Confined env place start state where
  current := current
  directory := calm.files.workingDirectory
  searcher chunks closed none := by
    rw [calm.focus.searcher.trans none] at closed
    cases closed
  index chunks known := by
    have shown : shownIndex env place start.server = chunks := by
      rw [shownIndex, if_pos (calm.focus.current.symm.trans current), ← calm.focus.index, known]
      rfl
    rw [shown]
    exact .start
  files _ := calm.files.mono (fun _ kept => kept.imp (fun _ both => both.2))

variable (isPlace : place.IsPlace)

include isPlace

theorem Toward.opening (toward : Toward env place start state) :
    Confined env place start (runFrom state (openProject env place.toString)).2 := by
  rw [openProject, runFrom_then (runFrom_here _)]
  refine Preserves.guarded_at (fun switched => ?_) (fun same => ?_) ?_
  · rcases toward with calm | confined
    · exact calm.turned
    · exact absurd confined.current switched
  · rcases toward with calm | confined
    · exact calm.confined (not_not.mp same)
    · exact confined
  · refine .bind (fun _ confined => confined) (fun server => ?_)
    split
    · refine .bind_of_ok (settled_confined.projectFolder _)
        (fun _ made => projectFolder_eq isPlace made) ?_
      rintro _ rfl
      refine .bind (settled_confined.makeSubfolder _ (by decide)) (fun _ => ?_)
      refine .bind_of_ok (settled_confined.onWorld (fun _ => .bind
        (.makeFolder (fun _ _ kept => kept.below) _) (fun _ => .pure _)))
        (fun _ made => openIndex_eq made) ?_
      rintro _ rfl state confined
      refine ⟨confined.current, confined.directory, confined.searcher, ?_, confined.files⟩
      intro chunks known
      rw [← Option.some.inj known]
      exact .opened
    · exact .pure _

end Opening

section Working

theorem KeptFor.of_writes {start : IndexState} {names : List String}
    (inFolder : start.chunks.folder = indexFolder env place)
    (written : (indexerAt env place).Writes place start names) :
    ∃ path, KeptFor env place path ∧ start.world.LeadsTo path names := by
  rcases written with ⟨file, leads⟩ | leads | leads
  · rw [inFolder] at leads
    exact ⟨_, .index file, leads⟩
  · exact ⟨_, .snapshot, leads⟩
  · exact ⟨_, .record, leads⟩

theorem indexerFor_eq {state : ServerState} {indexer : Indexer}
    (made : runFrom state (indexerFor env place.toString) = (.ok indexer, after)) :
    indexer = indexerAt env place := by
  obtain ⟨store, between, opened, rest⟩ := runFrom_bind_ok made
  obtain ⟨outcome, -⟩ := Prod.mk.inj opened
  have kept : runFrom state.world (SnapshotStore.open? (SnapshotStore.standardFolder env)) =
      (.ok store, _) := Prod.ext outcome rfl
  obtain ⟨_, _, -, kept⟩ := runFrom_bind_ok kept
  obtain rfl := Except.ok.inj (congrArg Prod.fst kept)
  exact (Except.ok.inj (congrArg Prod.fst rest)).symm

theorem Confined.withSearcher {searcher : Option Searcher}
    (confined : Confined env place start state)
    (notClosed : ∀ chunks, searcher ≠ some (.ofClosed chunks)) :
    Confined env place start ⟨{ state.server with searcher }, state.world⟩ :=
  ⟨confined.current, confined.directory, fun chunks closed => absurd closed (notClosed chunks),
    confined.index, confined.files⟩

variable (isPlace : place.IsPlace)

include isPlace

theorem confined_onIndex {action : IndexAct α} (use : Use env place action) :
    Preserves (Confined env place start) (ServerAct.onIndex action) := by
  intro state confined
  rw [runFrom_onIndex]
  cases known : state.server.index with
  | none => exact confined
  | some chunks =>
    have worked := confined.index chunks known
    have outlived := use.outlived isPlace ⟨chunks, state.world⟩
    refine ⟨confined.current, outlived.world.workingDirectory.trans confined.directory,
      confined.searcher, ?_, ?_⟩
    · intro later same
      rw [← Option.some.inj same]
      exact .use worked use
    · intro inFolder
      refine (confined.files inFolder).trans (.of_sameApart outlived.world ?_)
      rintro path ⟨other, apart, kept⟩ written
      obtain ⟨path', kept', leads⟩ := KeptFor.of_writes (worked.folder isPlace inFolder) written
      exact apart.resolve_ne kept' kept _ (World.eq_resolve_of_locate leads).symm

/-- What comes of having a searcher made: unless it fails, one of the open index. -/
structure Searchable (env : Environment) (place : Path) (start : ServerState)
    (ran : Except Fault Unit × ServerState) : Prop where
  confined : Confined env place start ran.2
  searcher : ran.1 = .ok () → ran.2.server.searcher = some .ofOpen

theorem Toward.makeSearcher (toward : Toward env place start state) :
    Searchable env place start (runFrom state (makeSearcher env place.toString)) := by
  have opened := toward.opening isPlace
  rw [Server.makeSearcher, runFrom_bind]
  rcases ran : runFrom state (openProject env place.toString) with ⟨fault | _, between⟩
  · rw [ran] at opened
    exact ⟨opened, fun ended => by cases ended⟩
  · rw [ran] at opened
    have ready := settled_confined.setUpModel between opened
    rw [andThen_ok, runFrom_bind]
    rcases made : runFrom between (setUpModel env) with ⟨fault | _, after⟩
    · rw [made] at ready
      exact ⟨ready, fun ended => by cases ended⟩
    · rw [made] at ready
      exact ⟨ready.withSearcher (by simp), fun _ => rfl⟩

omit isPlace in
theorem Toward.eq_of_resolve {path : String} {other : Path}
    (named : (Path.ofString path).hasNull = false →
      (Path.ofString path).resolve start.world.workingDirectory = place)
    (toward : Toward env place start state)
    (resolved : runFrom state (World.resolve path : ServerAct Path) = (.ok other, after)) :
    other = place := by
  rw [runFrom_onWorld] at resolved
  cases null : (Path.ofString path).hasNull with
  | true => simp [World.resolve, null] at resolved
  | false =>
    rw [World.runFrom_resolve null, toward.directory, named null] at resolved
    exact (Except.ok.inj (congrArg Prod.fst resolved)).symm

/-- To index a directory is to work on the project that its path names. -/
theorem toward_indexDirectory {path : String} (named : (Path.ofString path).hasNull = false →
      (Path.ofString path).resolve start.world.workingDirectory = place)
    (name incremental : Value) :
    Preserves (Toward env place start) (indexDirectory env path name incremental) := by
  refine .tryCatch (.bind settled_toward.startPreload (fun _ =>
    .bind_of_ok (of_looking (World.resolve_snd path)) (fun toward => toward.eq_of_resolve named) ?_))
      (fun _ => .pure _)
  rintro _ rfl
  refine .bind (of_looking (World.exists?_snd _)) (fun there => ?_)
  split
  · exact .pure _
  · refine .bind (of_looking (World.isFolder_snd _)) (fun folder => ?_)
    split
    · exact .pure _
    · refine fun state toward => .inr (Preserves.bind_at (toward.opening isPlace) (fun _ =>
        .bind settled_confined.setUpModel (fun _ => .bind_of_ok (settled_confined.indexerFor _)
          (fun _ made => indexerFor_eq made) ?_)))
      rintro _ rfl
      exact .bind (confined_onIndex isPlace (.run _ _)) (fun _ =>
        .bind (confined_onIndex isPlace .describe) (fun _ => .pure _))

theorem toward_ensureIndexed :
    Preserves (Toward env place start) (ensureIndexed env place.toString) := by
  refine .tryCatch (.bind (settled_toward.projectFolder _) (fun folder =>
    .bind (of_looking (World.exists?_snd _)) (fun found => ?_))) (fun _ => .pure _)
  split
  · exact .pure _
  · refine .bind (fun _ toward => toward) (fun state => ?_)
    dsimp only
    split
    · refine .bind (toward_indexDirectory isPlace (fun _ => ?_) _ _) (fun _ => .pure _)
      exact Path.resolve_toString isPlace _
    · exact .pure _

/-- The project that a tool without a path is about: the current one, or the one in the working
directory. -/
inductive Meant (start : ServerState) (place : Path) : Prop where
  | current : start.server.current = some place.toString → Meant start place
  | directory : start.server.current = none → start.world.workingDirectory = place →
      Meant start place

omit isPlace in
theorem Toward.current_or (toward : Toward env place start state) (meant : Meant start place) :
    state.server.current = some place.toString ∨
      start.server.current = none ∧ state.server.current = none ∧
        state.world.workingDirectory = place := by
  rcases toward with calm | confined
  · cases meant with
    | current known => exact .inl (calm.focus.current.trans known)
    | directory missing here =>
      exact .inr ⟨missing, calm.focus.current.trans missing,
        calm.files.workingDirectory.trans here⟩
  · exact .inl confined.current

omit isPlace in
theorem ensureIndexed_ok (project : String) (state : ServerState) :
    ∃ found after, runFrom state (ensureIndexed env project) = (.ok found, after) := by
  rw [ensureIndexed, runFrom_tryCatch]
  rcases runFrom state _ with ⟨fault | found, after⟩
  · exact ⟨false, after, rfl⟩
  · exact ⟨found, after, rfl⟩

section Meant

variable (meant : Meant start place)

include meant

theorem Toward.openCurrent (toward : Toward env place start state) :
    Confined env place start (runFrom state (openCurrent env)).2 := by
  rw [Server.openCurrent, runFrom_then (runFrom_here _)]
  rcases toward.current_or meant with current | ⟨-, missing, here⟩
  · rw [current]
    dsimp only
    exact toward.opening isPlace
  · rw [missing]
    dsimp only
    rw [runFrom_then (runFrom_getThe _), here]
    obtain ⟨found, between, ran⟩ := @ensureIndexed_ok env place.toString state
    have ensured := (toward_ensureIndexed isPlace).after toward ran
    rw [runFrom_then ran]
    exact ensured.opening isPlace

/-- Without a current project there is no searcher, so the one that is there is of the project. -/
theorem Toward.openSearcher (toward : Toward env place start state)
    (idle : start.server.current = none → start.server.searcher = none) :
    Searchable env place start (runFrom state (openSearcher env)) := by
  rw [Server.openSearcher, runFrom_then (runFrom_here _)]
  rcases toward.current_or meant with current | ⟨none, missing, here⟩
  · rw [current]
    dsimp only
    exact toward.makeSearcher isPlace
  · rw [missing]
    dsimp only
    rw [runFrom_then (runFrom_getThe _), here]
    obtain ⟨found, between, ran⟩ := @ensureIndexed_ok env place.toString state
    have ensured := (toward_ensureIndexed isPlace).after toward ran
    rw [runFrom_then ran, runFrom_then (runFrom_here _), runFrom_then (runFrom_here _)]
    split
    · exact ensured.makeSearcher isPlace
    · rename_i kept
      simp only [Bool.or_eq_true, decide_eq_true_eq, not_or, not_not, Option.isNone_iff_eq_none]
        at kept
      obtain ⟨current, there⟩ := kept
      rcases ensured with calm | confined
      · rw [calm.focus.current.trans none] at current
        cases current
      · refine ⟨confined, fun _ => ?_⟩
        rcases known : between.server.searcher with _ | _ | chunks
        · exact absurd known there
        · exact known
        · exact absurd (idle none) (confined.searcher chunks known)

theorem toward_refreshCurrent (maxAge : Value) :
    Preserves (Toward env place start) (refreshCurrent env maxAge) := by
  intro state toward
  rw [Server.refreshCurrent, runFrom_then (runFrom_here _)]
  rcases toward.current_or meant with current | ⟨-, missing, -⟩
  · rw [current]
    refine .inr (Preserves.bind_at (toward.opening isPlace) (fun _ =>
      .bind settled_confined.setUpModel (fun _ => .bind_of_ok (settled_confined.indexerFor _)
        (fun _ made => indexerFor_eq made) ?_)))
    rintro _ rfl
    refine .bind (confined_onIndex isPlace (.refresh _ _)) (fun result => ?_)
    split
    · exact fun _ confined => confined.withSearcher (by simp)
    · exact .pure _
  · rw [missing]
    dsimp only
    exact toward

end Meant

/-- The project is the current one, and the reply comes of an index that came of work on it.  That
index is still open, and what is kept for projects is as the search left it. -/
def Answered (env : Environment) (place : Path) (first : ChunkIndex) (answer : IndexAct ToolReply)
    (state : ServerState) (reply : ToolReply) : Prop :=
  state.server.current = some place.toString ∧
    ∃ chunks world found, Worked env place first chunks ∧
      runFrom ⟨chunks, world⟩ answer = (.ok reply, found) ∧
      state.server.index = some found.chunks ∧ World.Spares (Kept env) found.world state.world

omit isPlace in
theorem Answered.calm {first chunks : ChunkIndex} {answer : IndexAct ToolReply}
    {after : ServerState} {reply : ToolReply}
    (answered : Answered env place chunks answer state reply)
    (worked : Worked env place first chunks) (calm : Calm env state after) :
    Answered env place first answer after reply := by
  obtain ⟨current, index, world, found, worked', ran, opened, files⟩ := answered
  exact ⟨calm.focus.current.trans current, index, world, found, worked.trans worked', ran,
    calm.focus.index.trans opened, files.trans calm.files⟩

/-- A searcher is asked once it is one of the open index. -/
theorem Toward.answering {answer : IndexAct ToolReply}
    (toward : Toward env place start state) (meant : Meant start place)
    (idle : start.server.current = none → start.server.searcher = none)
    (use : Use env place answer) {outcome : Except Fault ToolReply}
    (ran : runFrom state (Server.openSearcher env >>= fun _ => ServerAct.onSearcher answer) =
      (outcome, after)) :
    Confined env place start after ∧ ∀ reply, outcome = .ok reply →
      Answered env place (shownIndex env place start.server) answer after reply := by
  have searchable := toward.openSearcher isPlace meant idle
  rw [runFrom_bind] at ran
  rcases opened : runFrom state (Server.openSearcher env) with ⟨fault | _, between⟩
  · rw [opened] at ran searchable
    obtain ⟨rfl, rfl⟩ := Prod.mk.inj ran
    exact ⟨searchable.confined, fun _ ended => by cases ended⟩
  · rw [opened] at ran searchable
    have confined := confined_onIndex isPlace use between searchable.confined
    rw [andThen_ok, runFrom_onSearcher, searchable.searcher rfl] at ran
    dsimp only at ran
    rw [ran] at confined
    refine ⟨confined, ?_⟩
    rw [runFrom_onIndex] at ran
    rintro reply rfl
    cases known : between.server.index with
    | none => simp [known] at ran
    | some chunks =>
      rw [known] at ran
      obtain ⟨told, rfl⟩ := Prod.mk.inj ran
      exact ⟨confined.current, chunks, between.world, _,
        searchable.confined.index chunks known, Prod.ext told rfl, rfl, .refl _ _⟩

end Working

end Server

end CodeAtlas
