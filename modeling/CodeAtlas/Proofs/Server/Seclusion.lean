import CodeAtlas.Proofs.Indexing.Sample
import CodeAtlas.Proofs.Server.Work

/-!
# Tools act on the current project

A tool leaves the focus of the server and the files that are kept for projects alone, or it makes
one project the current one and works on that project only.  So what is open belongs to the
current project after any history of calls, searches are answered from it, and what is kept for
other projects is not touched.
-/

namespace CodeAtlas

namespace Server

variable {env : Environment} {place : Path} {start state : ServerState}

/-- What holds of a server between calls: what is open belongs to the current project. -/
structure Proper (env : Environment) (state : ServerState) : Prop where
  directory : state.world.workingDirectory.IsPlace
  current : ∀ project, state.server.current = some project →
    ∃ place : Path, place.IsPlace ∧ project = place.toString
  index : ∀ chunks, state.server.index = some chunks →
    ∃ place : Path, place.IsPlace ∧ state.server.current = some place.toString ∧
      Managed env place chunks
  idle : state.server.current = none → state.server.searcher = none

namespace Proper

variable (proper : Proper env start)

include proper

theorem exists_meant :
    ∃ place : Path, place.IsPlace ∧ Meant start place := by
  cases known : start.server.current with
  | none => exact ⟨_, proper.directory, .directory known rfl⟩
  | some project =>
    obtain ⟨place, isPlace, rfl⟩ := proper.current project known
    exact ⟨place, isPlace, .current known⟩

/-- The path of a call names a project; one that is refused may as well be any. -/
theorem exists_named (path : String) :
    ∃ place : Path, place.IsPlace ∧ ((Path.ofString path).hasNull = false →
      (Path.ofString path).resolve start.world.workingDirectory = place) := by
  cases null : (Path.ofString path).hasNull with
  | true => exact ⟨_, proper.directory, fun valid => by cases valid⟩
  | false =>
    exact ⟨_, ⟨rfl, Path.validNames_resolve null proper.directory.valid⟩, fun _ => rfl⟩

theorem managed (isPlace : place.IsPlace) :
    Managed env place (shownIndex env place start.server) := by
  unfold shownIndex
  split
  · rename_i current
    cases known : start.server.index with
    | none => exact .start
    | some chunks =>
      obtain ⟨other, isPlace', current', managed⟩ := proper.index chunks known
      obtain rfl := isPlace.eq_of_toString isPlace'
        (Option.some.inj (current.symm.trans current'))
      exact managed
  · exact .start

theorem after (isPlace : place.IsPlace)
    (toward : Toward env place start state) : Proper env state := by
  have directory := proper.directory
  rw [← toward.directory] at directory
  rcases toward with calm | confined
  · refine ⟨directory, fun project known => ?_, fun chunks known => ?_, fun none => ?_⟩
    · exact proper.current project (calm.focus.current.symm.trans known)
    · obtain ⟨other, isPlace', current, managed⟩ :=
        proper.index chunks (calm.focus.index.symm.trans known)
      exact ⟨other, isPlace', calm.focus.current.trans current, managed⟩
    · rw [calm.focus.searcher]
      exact proper.idle (calm.focus.current.symm.trans none)
  · refine ⟨directory, fun project known => ?_, fun chunks known => ?_, fun none => ?_⟩
    · exact ⟨place, isPlace, Option.some.inj (known.symm.trans confined.current)⟩
    · exact ⟨place, isPlace, confined.current,
        (proper.managed isPlace).trans (confined.index chunks known)⟩
    · rw [confined.current] at none
      cases none

end Proper

/-- The search that a tool makes, if it makes one. -/
def answerOf? (env : Environment) : Tool → Option (IndexAct ToolReply)
  | .searchCode request => some (answerSearch env request)
  | .findSimilarCode identifier count => some (answerSimilar env identifier count)
  | _ => none

section Searching

variable (isPlace : place.IsPlace) (meant : Meant start place)
  (idle : start.server.current = none → start.server.searcher = none)

include isPlace meant idle

/-- A tool that searches works on the project, and what it finds it finds there. -/
theorem Toward.searching {tool : Tool} {answer : IndexAct ToolReply}
    (toward : Toward env place start state) (searches : answerOf? env tool = some answer) :
    Toward env place start (runFrom state (perform env tool)).2 ∧
      ∃ reply, (runFrom state (perform env tool)).1 = .ok reply ∧
        (reply.isError = true ∨ Answered env place (shownIndex env place start.server) answer
          (runFrom state (perform env tool)).2 reply) := by
  -- An error is told, and everything else comes of the search.
  have told {heading : String} {action : ServerAct ToolReply} {state : ServerState}
      (comes : ∀ outcome after, runFrom state action = (outcome, after) →
        Toward env place start after ∧ ∀ reply, outcome = .ok reply →
          Answered env place (shownIndex env place start.server) answer after reply) :
      Toward env place start (runFrom state (telling heading action)).2 ∧
        ∃ reply, (runFrom state (telling heading action)).1 = .ok reply ∧
          (reply.isError = true ∨ Answered env place (shownIndex env place start.server) answer
            (runFrom state (telling heading action)).2 reply) := by
    rw [telling, runFrom_tryCatch]
    rcases ran : runFrom state action with ⟨fault | reply, after⟩
    · exact ⟨(comes _ _ ran).1, _, rfl, .inl rfl⟩
    · exact ⟨(comes _ _ ran).1, reply, rfl, .inr ((comes _ _ ran).2 reply rfl)⟩
  cases tool with
  | searchCode request =>
    obtain rfl := Option.some.inj searches
    refine told (fun outcome after ran => ?_)
    split at ran
    · have refreshed := toward_refreshCurrent isPlace meant request.maxAge state toward
      rw [runFrom_bind] at ran
      rcases tried : runFrom state (refreshCurrent env request.maxAge) with ⟨fault | _, between⟩
      · rw [tried] at ran refreshed
        obtain ⟨rfl, rfl⟩ := Prod.mk.inj ran
        exact ⟨refreshed, fun _ ended => by cases ended⟩
      · rw [tried] at ran refreshed
        exact (refreshed.answering isPlace meant idle (.search request) ran).imp .inr id
    · exact (toward.answering isPlace meant idle (.search request) ran).imp .inr id
  | findSimilarCode identifier count =>
    obtain rfl := Option.some.inj searches
    exact told (fun outcome after ran =>
      (toward.answering isPlace meant idle (.similar identifier count) ran).imp .inr id)
  | indexDirectory path name incremental => cases searches
  | indexStatus => cases searches
  | listProjects => cases searches
  | switchProject path => cases searches
  | indexSample => cases searches
  | clearIndex => cases searches

omit idle in
theorem toward_indexStatus : Preserves (Toward env place start) (indexStatus env) := by
  intro state toward
  rw [indexStatus, telling_snd]
  refine .inr (Preserves.bind_at (toward.openCurrent isPlace meant) (fun _ =>
    .bind (confined_onIndex isPlace .statistics) (fun _ => .bind settled_confined.setUpModel
      (fun _ => .bind settled_confined.storageFolder (fun _ => .pure _)))))

omit idle in
theorem toward_clearIndex : Preserves (Toward env place start) (clearIndex env) := by
  intro state toward
  rw [clearIndex, telling_snd]
  refine Preserves.bind (fun _ toward => toward) (fun server => ?_) state toward
  split
  · exact .pure _
  · exact fun state toward => .inr (Preserves.bind_at (toward.openCurrent isPlace meant) (fun _ =>
      .bind (confined_onIndex isPlace .clear) (fun _ => .pure _)))

end Searching

section Named

variable (isPlace : place.IsPlace)

include isPlace

theorem toward_indexSample (named : (Path.ofString env.sample.toString).hasNull = false →
      (Path.ofString env.sample.toString).resolve start.world.workingDirectory = place) :
    Preserves (Toward env place start) (indexSample env) := by
  refine .bind (of_looking (World.exists?_snd _)) (fun there => ?_)
  split
  · exact .pure _
  · refine .bind (toward_indexDirectory isPlace named _ _) (fun reply => ?_)
    split
    · exact .pure _
    · split
      · exact .pure _
      · exact .pure _

omit isPlace in
/-- A project that is switched to has nothing open. -/
private theorem Toward.switched (toward : Toward env place start state) :
    Confined env place start ⟨{ state.server with
      current := some place.toString, index := none, searcher := none }, state.world⟩ where
  current := rfl
  directory := toward.directory
  searcher _ closed := by cases closed
  index _ known := by cases known
  files inFolder := toward.elim
    (fun calm => calm.files.mono (fun _ kept => kept.imp (fun _ both => both.2)))
    (fun confined => confined.files inFolder)

omit isPlace in
theorem toward_switchProject {path : String} (named : (Path.ofString path).hasNull = false →
      (Path.ofString path).resolve start.world.workingDirectory = place) :
    Preserves (Toward env place start) (switchProject env path) := by
  refine .tryCatch (.bind_of_ok (of_looking (World.resolve_snd path))
    (fun toward => toward.eq_of_resolve named) ?_) (fun _ => .pure _)
  rintro _ rfl
  refine .bind (of_looking (World.exists?_snd _)) (fun there => ?_)
  split
  · exact .pure _
  · refine .bind (settled_toward.projectFolder _) (fun folder =>
      .bind (of_looking (World.exists?_snd _)) (fun indexed => ?_))
    split
    · exact .pure _
    · refine .bind (fun _ toward => .inr toward.switched) (fun _ =>
        .bind (of_looking (World.exists?_snd _)) (fun known => ?_))
      split
      · exact .bind (of_looking (World.documentAt_snd _)) (fun _ => .pure _)
      · exact .pure _

end Named

/-- A tool does nothing, or it works on a project and makes it the current one. -/
theorem Proper.perform (proper : Proper env start) (tool : Tool) (calm : Calm env start state) :
    ∃ place : Path, place.IsPlace ∧ Toward env place start (runFrom state (perform env tool)).2 := by
  obtain ⟨place, isPlace, meant⟩ := proper.exists_meant
  cases tool with
  | searchCode request =>
    exact ⟨place, isPlace, (Toward.searching isPlace meant proper.idle (.inl calm) rfl).1⟩
  | findSimilarCode identifier count =>
    exact ⟨place, isPlace, (Toward.searching isPlace meant proper.idle (.inl calm) rfl).1⟩
  | indexDirectory path name incremental =>
    obtain ⟨place, isPlace, named⟩ := proper.exists_named path
    exact ⟨place, isPlace, toward_indexDirectory isPlace named _ _ state (.inl calm)⟩
  | indexStatus => exact ⟨place, isPlace, toward_indexStatus isPlace meant state (.inl calm)⟩
  | listProjects => exact ⟨place, isPlace, .inl (settled_calm.listProjects state calm)⟩
  | switchProject path =>
    obtain ⟨place, isPlace, named⟩ := proper.exists_named path
    exact ⟨place, isPlace, toward_switchProject named state (.inl calm)⟩
  | indexSample =>
    obtain ⟨place, isPlace, named⟩ := proper.exists_named env.sample.toString
    exact ⟨place, isPlace, toward_indexSample isPlace named state (.inl calm)⟩
  | clearIndex => exact ⟨place, isPlace, toward_clearIndex isPlace meant state (.inl calm)⟩

theorem preload_fst (state : ServerState) : (runFrom state (preload env)).1 = .ok () := by
  rw [preload, runFrom_tryCatch]
  rcases runFrom state (setUpModel env) with ⟨fault | _, after⟩
  · rfl
  · rfl

theorem startPreload_fst (state : ServerState) : (runFrom state (startPreload env)).1 = .ok () := by
  rw [startPreload, runFrom_then (runFrom_here _)]
  split
  · rw [runFrom_then (runFrom_change _ _), runFrom_then (runFrom_here _)]
    split
    · rfl
    · exact preload_fst _
  · rfl

theorem takeTurn_fst (state : ServerState) : (runFrom state (takeTurn env)).1 = .ok () := by
  rw [takeTurn, runFrom_then (runFrom_here _)]
  split
  · rw [runFrom_then (runFrom_change _ _)]
    exact preload_fst _
  · rfl

def within (start : ServerState) (inLoop : Bool) : ServerState :=
  ⟨{ start.server with inLoop }, start.world⟩

theorem calm_within (env : Environment) (start : ServerState) (inLoop : Bool) :
    Calm env start (within start inLoop) :=
  ⟨⟨rfl, rfl, rfl⟩, .refl _ _⟩

/-- A call comes to what its tool comes to, but for things that are done between calls. -/
theorem call_comes (env : Environment) (inLoop : Bool) (tool : Tool) (start : ServerState) :
    ∃ after, Calm env (runFrom (within start inLoop) (perform env tool)).2 after ∧
      runFrom start (call env inLoop tool) =
        ((runFrom (within start inLoop) (perform env tool)).1, after) := by
  have entered : runFrom start (change (fun server => { server with inLoop })) =
      (.ok (), within start inLoop) := rfl
  rw [call, runFrom_then entered, runFrom_bind]
  rcases runFrom (within start inLoop) (perform env tool) with ⟨fault | reply, after⟩
  · exact ⟨after, .refl env after, rfl⟩
  · rw [andThen_ok]
    dsimp only
    split
    · have turn := settled_calm.takeTurn after (.refl env after)
      have done := @takeTurn_fst env after
      rcases ran : runFrom after (takeTurn env) with ⟨outcome, last⟩
      rw [ran] at turn done
      obtain rfl : outcome = .ok () := done
      exact ⟨last, turn, by rw [runFrom_bind, ran]; rfl⟩
    · exact ⟨after, .refl env after, rfl⟩

/-- A path at which there is no directory to index, and how that is told. -/
inductive NoDirectory (world : World) (path : String) : ToolReply → Prop where
  | missing {place : Path} :
      runFrom world (World.resolve path) = (.ok place, world) →
      runFrom world (World.exists? place) = (.ok false, world) →
      NoDirectory world path (.error ("Directory does not exist: " ++ place.toString))
  | notFolder {place : Path} :
      runFrom world (World.resolve path) = (.ok place, world) →
      runFrom world (World.exists? place) = (.ok true, world) →
      runFrom world (World.isFolder place) = (.ok false, world) →
      NoDirectory world path (.error ("Path is not a directory: " ++ place.toString))

/-- The calls whose path is missing, is no directory or is no indexed project, and how that is
told. -/
inductive Refused (env : Environment) (state : ServerState) : Tool → ToolReply → Prop where
  | directory {path : String} {name incremental : Value} {reply : ToolReply} :
      NoDirectory (runFrom state (startPreload env)).2.world path reply →
      Refused env state (.indexDirectory path name incremental) reply
  | noSample :
      runFrom state.world (World.exists? env.sample) = (.ok false, state.world) →
      Refused env state .indexSample ⟨.record [("success", .bool false), ("error",
        .text "Test project not found. The sample project may not be available.")], .spaced⟩
  | sample {reply : ToolReply} :
      runFrom state.world (World.exists? env.sample) = (.ok true, state.world) →
      NoDirectory (runFrom state (startPreload env)).2.world env.sample.toString reply →
      Refused env state .indexSample { reply with layout := .indented }
  | project {path : String} {place : Path} :
      runFrom state.world (World.resolve path) = (.ok place, state.world) →
      runFrom state.world (World.exists? place) = (.ok false, state.world) →
      Refused env state (.switchProject path)
        (.error ("Project path does not exist: " ++ place.toString))
  | notIndexed {path : String} {place folder : Path} {between : ServerState} :
      runFrom state.world (World.resolve path) = (.ok place, state.world) →
      runFrom state.world (World.exists? place) = (.ok true, state.world) →
      runFrom state (projectFolder env place.toString) = (.ok folder, between) →
      runFrom between.world (World.exists? ((folder.child "index").child "code.index")) =
        (.ok false, between.world) →
      Refused env state (.switchProject path)
        ⟨.record [("error", .text ("Project not indexed: " ++ place.toString)), ("suggestion",
          .text ("Run index_directory('" ++ place.toString ++ "') first"))], .spaced⟩

theorem NoDirectory.indexDirectory {path : String} {reply : ToolReply} {name incremental : Value}
    (none : NoDirectory (runFrom state (startPreload env)).2.world path reply) :
    runFrom state (Server.indexDirectory env path name incremental) =
        (.ok reply, (runFrom state (startPreload env)).2) ∧ reply.isError = true := by
  have started := @startPreload_fst env state
  rcases ran : runFrom state (startPreload env) with ⟨outcome, after⟩
  rw [ran] at started none
  obtain rfl : outcome = .ok () := started
  cases none with
  | missing resolved there =>
    refine ⟨telling_ok ?_, rfl⟩
    rw [runFrom_then ran, runFrom_bind, runFrom_onWorld, resolved, andThen_ok,
      runFrom_bind, runFrom_onWorld, there]
    rfl
  | notFolder resolved there folder =>
    refine ⟨telling_ok ?_, rfl⟩
    rw [runFrom_then ran, runFrom_bind, runFrom_onWorld, resolved, andThen_ok,
      runFrom_bind, runFrom_onWorld, there, andThen_ok]
    dsimp only
    rw [if_neg (by decide), runFrom_bind, runFrom_onWorld, folder]
    rfl

/-- A call that is refused changes neither the focus of the server nor what is kept. -/
theorem Refused.perform {tool : Tool} {reply : ToolReply} (refused : Refused env state tool reply) :
    ∃ after, runFrom state (Server.perform env tool) = (.ok reply, after) ∧ reply.isError = true ∧
      Calm env state after := by
  have preloaded := settled_calm.startPreload state (.refl env state)
  cases refused with
  | directory none =>
    obtain ⟨ran, isError⟩ := @NoDirectory.indexDirectory env state _ _ _ _ none
    exact ⟨_, ran, isError, preloaded⟩
  | noSample missing =>
    refine ⟨state, ?_, rfl, .refl env state⟩
    rw [Server.perform, indexSample, runFrom_bind, runFrom_onWorld, missing]
    rfl
  | @sample reply there none =>
    obtain ⟨ran, isError⟩ := @NoDirectory.indexDirectory env state _ _ .null (.bool true) none
    refine ⟨_, ?_, isError, preloaded⟩
    rw [Server.perform, indexSample, runFrom_bind, runFrom_onWorld, there, andThen_ok]
    dsimp only
    rw [if_neg (by decide), runFrom_then ran, if_pos isError]
    rfl
  | project resolved missing =>
    refine ⟨state, telling_ok ?_, rfl, .refl env state⟩
    rw [runFrom_bind, runFrom_onWorld, resolved, andThen_ok, runFrom_bind, runFrom_onWorld,
      missing]
    rfl
  | @notIndexed _ place folder between resolved there made missing =>
    have calm := settled_calm.projectFolder place.toString state (.refl env state)
    rw [made] at calm
    refine ⟨between, telling_ok ?_, rfl, calm⟩
    rw [runFrom_bind, runFrom_onWorld, resolved, andThen_ok, runFrom_bind, runFrom_onWorld,
      there, andThen_ok]
    dsimp only
    rw [if_neg (by decide), runFrom_then made, runFrom_bind, runFrom_onWorld,
      missing]
    rfl

/-- The states of a server after any calls since it was started, and after changes of files by
others in between. -/
inductive Reached (env : Environment) : ServerState → Prop where
  | fresh {world : World} : world.workingDirectory.IsPlace → Reached env ⟨.fresh, world⟩
  | edited {server : Server} {before world : World} : Reached env ⟨server, before⟩ →
      world.workingDirectory = before.workingDirectory → Reached env ⟨server, world⟩
  | called {state : ServerState} (inLoop : Bool) (tool : Tool) : Reached env state →
      Reached env (runFrom state (call env inLoop tool)).2

theorem Proper.call (proper : Proper env start) (inLoop : Bool) (tool : Tool) :
    ∃ place : Path, place.IsPlace ∧
      Toward env place start (runFrom start (Server.call env inLoop tool)).2 := by
  obtain ⟨after, later, ran⟩ := call_comes env inLoop tool start
  obtain ⟨place, isPlace, toward⟩ := proper.perform tool (calm_within env start inLoop)
  rw [ran]
  exact ⟨place, isPlace, toward.calm later⟩

theorem Reached.proper (reached : Reached env state) : Proper env state := by
  induction reached with
  | fresh isPlace => exact ⟨isPlace, by simp [Server.fresh], by simp [Server.fresh], fun _ => rfl⟩
  | edited _ same ih =>
    refine ⟨?_, ih.current, ih.index, ih.idle⟩
    rw [same]
    exact ih.directory
  | called inLoop tool _ ih =>
    obtain ⟨place, isPlace, toward⟩ := ih.call inLoop tool
    exact ih.after isPlace toward

end Server

/-- Tools act on the current project.  After any history of calls, an open index manages the
current project.  Then, whatever is called, a search is answered from the index of the project
that is current, a path that is missing, no directory or not indexed leaves the focus of the
server alone, and nothing that is kept for other projects than the current one changes. -/
theorem tools_act_on_current_project {env : Environment} {state : ServerState}
    (reached : Server.Reached env state) :
    (∀ chunks, state.server.index = some chunks → ∃ place : Path, place.IsPlace ∧
      state.server.current = some place.toString ∧
      chunks.folder = Server.indexFolder env place ∧ Server.Managed env place chunks) ∧
    ∀ inLoop tool outcome after,
      runFrom state (Server.call env inLoop tool) = (outcome, after) →
      (∀ answer, Server.answerOf? env tool = some answer → ∃ reply, outcome = .ok reply ∧
        (reply.isError = true ∨ ∃ place : Path, place.IsPlace ∧
          Server.Answered env place (.ofFolder (Server.indexFolder env place)) answer after
            reply)) ∧
      (∀ reply, Server.Refused env (Server.within state inLoop) tool reply →
        outcome = .ok reply ∧ reply.isError = true ∧
        after.server.current = state.server.current ∧
        after.server.index = state.server.index ∧
        after.server.searcher = state.server.searcher) ∧
      ∀ other : Path, (∀ place : Path, place.IsPlace →
          after.server.current = some place.toString → Server.Apart env place other) →
        ∀ path, Server.KeptFor env other path →
          after.world.stored path = state.world.stored path := by
  have proper := reached.proper
  constructor
  · intro chunks known
    obtain ⟨place, isPlace, current, managed⟩ := proper.index chunks known
    exact ⟨place, isPlace, current, managed.folder isPlace rfl, managed⟩
  intro inLoop tool outcome after ran
  obtain ⟨after', later, comes⟩ := Server.call_comes env inLoop tool state
  rw [comes] at ran
  obtain ⟨rfl, rfl⟩ := Prod.mk.inj ran
  have entered := Server.calm_within env state inLoop
  refine ⟨fun answer searches => ?_, fun reply refused => ?_, fun other apart path kept => ?_⟩
  · obtain ⟨place, isPlace, meant⟩ := proper.exists_meant
    obtain ⟨-, reply, told, answered⟩ :=
      Server.Toward.searching isPlace meant proper.idle (.inl entered) searches
    refine ⟨reply, told, answered.imp_right (fun answered => ⟨place, isPlace, ?_⟩)⟩
    exact answered.calm (proper.managed isPlace) later
  · obtain ⟨between, done, isError, calm⟩ := refused.perform
    rw [done] at later ⊢
    have whole := (entered.trans calm).trans later
    exact ⟨rfl, isError, whole.focus.current, whole.focus.index, whole.focus.searcher⟩
  · obtain ⟨place, isPlace, toward⟩ := proper.perform tool entered
    rcases toward.calm later with calm | confined
    · exact calm.files.stored path ⟨other, kept⟩
    · have inFolder := (proper.managed isPlace).folder isPlace rfl
      exact (confined.files inFolder).stored path
        ⟨other, apart place isPlace confined.current, kept⟩

namespace Sample

/-- Digests of paths tell the project from others. -/
def telling : Environment :=
  { environment with pathDigest := fun bytes => if bytes.size = 8 then "id" else "no" }

/-- The server after it was switched to a project with vectors, and told about its index. -/
def attending : ServerState :=
  (runFrom (runFrom ⟨Server.fresh, world [] (fun file =>
      if file = .vectors then some (.list []) else none) none none⟩
    (Server.call telling false (.switchProject "/project"))).2
    (Server.call telling false .indexStatus)).2

theorem reached_attending : Server.Reached telling attending :=
  .called _ _ (.called _ _ (.fresh ⟨rfl, by decide⟩))

theorem current_attending : attending.server.current = some place.toString := by rfl

theorem index_attending : attending.server.index = some (.ofFolder folder) := by rfl

theorem refused_attending : Server.Refused telling (Server.within attending false)
    (.switchProject "/missing") (.error "Project path does not exist: /missing") := by
  have refused := @Server.Refused.project telling (Server.within attending false) "/missing"
    ⟨.root, ["missing"]⟩ (by rfl) (by rfl)
  exact refused

end Sample

open Sample in
/-- A path that leads nowhere leaves the project open that was open, and what is kept for another
project is not touched. -/
theorem missing_project_is_not_switched_to :
    Server.Managed telling place (.ofFolder folder) ∧
      ∃ after, runFrom attending (Server.call telling false (.switchProject "/missing")) =
          (.ok (.error "Project path does not exist: /missing"), after) ∧
        after.server.current = some "/project" ∧ after.server.index = some (.ofFolder folder) ∧
        ∀ file : KeptFile,
          after.world.stored ((Server.indexFolder telling ⟨.root, ["other"]⟩).child file.name) =
            attending.world.stored
              ((Server.indexFolder telling ⟨.root, ["other"]⟩).child file.name) := by
  obtain ⟨managed, calls⟩ := tools_act_on_current_project reached_attending
  obtain ⟨other, isPlace, current, -, managed⟩ := managed _ index_attending
  have isPlace' : place.IsPlace := ⟨rfl, by decide⟩
  obtain rfl := isPlace.eq_of_toString isPlace'
    (Option.some.inj (current.symm.trans current_attending))
  rcases ran : runFrom attending (Server.call telling false (.switchProject "/missing")) with
    ⟨outcome, after⟩
  obtain ⟨-, refused, spared⟩ := calls false _ outcome after ran
  obtain ⟨rfl, -, current', index, -⟩ := refused _ refused_attending
  refine ⟨managed, after, rfl, current'.trans current_attending, index.trans index_attending, ?_⟩
  refine fun file => spared _ (fun other isPlace'' current'' => ?_) _ (.index file)
  obtain rfl := isPlace''.eq_of_toString isPlace'
    (Option.some.inj (current''.symm.trans (current'.trans current_attending)))
  exact ⟨by decide, by decide⟩

end CodeAtlas
