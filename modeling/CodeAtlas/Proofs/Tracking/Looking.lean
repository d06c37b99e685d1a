import CodeAtlas.Proofs.Tracking.Snapshots

/-!
# Looking for changes

Whoever looks for the changes of a project reads the disk and prints.  What is found depends on
what stands at the project and at its snapshot.  So a second look finds the same, whatever else
happened in the world, and from whatever folder it is made.
-/

namespace CodeAtlas

/-- The world has the disk of another one, and is seen from the same folder. -/
structure World.Still (start world : World) : Prop where
  disk : world.disk = start.disk
  workingDirectory : world.workingDirectory = start.workingDirectory

namespace World.Still

variable {start : World}

theorem refl (world : World) : Still world world :=
  ⟨rfl, rfl⟩

theorem lookUp {world : World} (still : start.Still world) (path : Path) :
    world.lookUp path = start.lookUp path := by
  obtain ⟨disk, workingDirectory⟩ := still
  cases world
  cases start
  subst disk workingDirectory
  rfl

theorem print (line : String) : Preserves (Still start) (World.print line) :=
  fun _ still => ⟨still.disk, still.workingDirectory⟩

theorem readClock : Preserves (Still start) World.readClock :=
  fun _ still => ⟨still.disk, still.workingDirectory⟩

end World.Still

theorem DigestTree.still_build {start : World} (digest : DigestFunction) (rules : IgnoreRules)
    (place : Path) : Preserves start.Still (DigestTree.build digest rules place) := by
  unfold DigestTree.build
  split
  · exact .pure _
  · exact .bind (.of_same (World.find_snd _)) (fun _ => .pure _)

namespace SnapshotStore

open World (Still)

variable {start : World} (env : Environment) (store : SnapshotStore) (project : String)

theorem still_age : Preserves (Still start) (store.age env project) := by
  refine .bind (.of_same (World.resolve_snd _)) (fun place =>
    .bind (.of_same (World.find_snd _)) (fun entry => ?_))
  cases entry with
  | none => exact .pure _
  | some entry =>
    refine .bind Still.readClock (fun _ => ?_)
    cases entry with
    | file stored => exact .bind (fun _ still => still) (fun _ => .pure _)
    | folder entries => exact .pure _

omit env store project in
private theorem still_reading {α : Type} {read : Act α} (reads : Preserves (Still start) read)
    (file : Path) (line : String) :
    Preserves (Still start) (do
      if !(← World.exists? file) then return none
      tryCatch (do return some (← read)) (fun _ => do
        World.print line
        return none)) := by
  refine .bind (.of_same (World.exists?_snd _)) (fun found => ?_)
  split
  · exact .pure _
  · exact .tryCatch (.bind reads (fun _ => .pure _))
      (fun _ => .bind (Still.print _) (fun _ => .pure _))

theorem still_loadRecord : Preserves (Still start) (store.loadRecord env project) :=
  .bind (.of_same (World.resolve_snd _)) (fun _ =>
    still_reading (.of_same (World.documentAt_snd _)) _ _)

theorem still_load : Preserves (Still start) (store.load env project) := by
  have tree : ∀ value, Preserves (Still start) (treeOf value) := by
    intro value
    unfold treeOf
    split
    · rename_i fields
      have rest : Preserves (Still start) (do
          let tree ← orFail (Record.need fields "dag")
          orFail (KeptTree.ofValue (← get).workingDirectory tree)) :=
        .bind (.orFail _) (fun _ => .bind (fun _ still => still) (fun _ => .orFail _))
      dsimp only
      split
      · exact .bind (Still.print _) (fun _ => rest)
      · exact rest
    · exact .throw _
  refine .bind (.of_same (World.resolve_snd _)) (fun place => ?_)
  have reading := @still_reading start _
    (do treeOf (← World.documentAt (store.snapshotFile env place)))
    (.bind (.of_same (World.documentAt_snd _)) tree) (store.snapshotFile env place)
    "Error loading snapshot"
  simpa using reading

theorem still_presentTree : Preserves (Still start) (store.presentTree env project) :=
  .bind (.of_same (World.resolve_snd _)) (fun _ => DigestTree.still_build _ _ _)

theorem still_changesSince : Preserves (Still start) (store.changesSince env project) := by
  refine .bind (store.still_presentTree env project) (fun tree =>
    .bind (store.still_load env project) (fun old => ?_))
  cases old with
  | none => exact .pure _
  | some old => exact .bind (.orFail _) (fun _ => .pure _)

theorem still_hasChanged : Preserves (Still start) (store.hasChanged env project) := by
  refine .bind (store.still_load env project) (fun old => ?_)
  cases old with
  | none => exact .pure _
  | some old => exact .bind (store.still_presentTree env project) (fun _ => .pure _)

end SnapshotStore

namespace KeptTree

/-- The tree of a project, wherever the project is. -/
def unplaced : KeptTree → KeptTree
  | .regular tree => .regular { tree with rootPath := default }
  | .irregular tree => .irregular { tree with rootPath := default }

theorem changesTo_unplaced (old new : KeptTree) :
    old.unplaced.changesTo new = old.changesTo new := by
  cases old <;> cases new <;> rfl

theorem rootDigest_unplaced (tree : KeptTree) : tree.unplaced.rootDigest = tree.rootDigest := by
  cases tree <;> rfl

/-- The working directory decides where the project of a kept tree is, and nothing else. -/
theorem ofValue_unplaced (directory directory' : Path) (value : Value) :
    (ofValue directory value).map unplaced = (ofValue directory' value).map unplaced := by
  unfold ofValue DigestTree.ofValue LooseTree.ofValue
  simp only [bind, Except.bind]
  rcases value.needRecord with _ | fields
  · rfl
  dsimp only
  rcases fields.need "root_path" with _ | named
  · rfl
  dsimp only
  rcases named.needText with _ | rootPath
  · rfl
  dsimp only
  cases (Path.ofString rootPath).hasNull with
  | true => rfl
  | false =>
    rcases fields.need "root_node" with _ | root
    · rfl
    dsimp only
    cases root.isTruthy with
    | false => rfl
    | true =>
      rcases DigestNode.ofValue root with _ | node
      · rcases LooseNode.ofValue root with _ | node
        · rfl
        · rcases listed : LooseTree.listNodes node.preorder with _ | nodes
          · simp [listed]
          · simp [listed]
            rfl
      · rfl

end KeptTree

/-- In both worlds the action comes to the same outcome and prints at most. -/
def ReadsAlike {α : Type} (world later : World) (action : Act α) : Prop :=
  ∃ outcome printed printed', runFrom world action = (outcome, { world with printed }) ∧
    runFrom later action = (outcome, { later with printed := printed' })

namespace World

theorem file_congr {world later : World} {path : Path} {entry : FileTree Stored}
    (found : world.lookUp path = .ok (some entry))
    (found' : later.lookUp path = .ok (some entry)) : later.file path = world.file path := by
  have read : ∀ {world : World}, world.lookUp path = .ok (some entry) →
      world.file path = entry.content?.elim (.error (.disk (.isDirectory path.toString))) .ok := by
    intro world found
    unfold lookUp at found
    split at found
    · rename_i names leads
      have stands : world.disk.find? names = some entry := Except.ok.inj found
      cases entry <;> simp only [file, leads, stands, bind, Except.bind] <;> rfl
    · cases found
    · cases Except.ok.inj found
  rw [read found, read found']

end World

namespace ReadsAlike

variable {α β : Type} {world later : World}

theorem outcome {action : Act α} (alike : ReadsAlike world later action) :
    (runFrom later action).1 = (runFrom world action).1 := by
  obtain ⟨outcome, _, _, ran, ran'⟩ := alike
  rw [ran, ran']

theorem pure (value : α) : ReadsAlike world later (Pure.pure value : Act α) :=
  ⟨.ok value, _, _, rfl, rfl⟩

theorem throw (fault : Fault) : ReadsAlike world later (MonadExcept.throw fault : Act α) :=
  ⟨.error fault, _, _, rfl, rfl⟩

theorem print (line : String) : ReadsAlike world later (World.print line) :=
  ⟨.ok (), _, _, rfl, rfl⟩

theorem orFail (result : Except Fault α) :
    ReadsAlike world later (CodeAtlas.orFail result : Act α) := by
  cases result with
  | ok value => exact .pure value
  | error fault => exact .throw fault

theorem bind {action : Act α} {next : α → Act β} (first : ReadsAlike world later action)
    (second : ∀ value printed printed', ReadsAlike { world with printed }
      { later with printed := printed' } (next value)) :
    ReadsAlike world later (action >>= next) := by
  obtain ⟨outcome, printed, printed', ran, ran'⟩ := first
  rw [ReadsAlike, runFrom_bind, runFrom_bind, ran, ran']
  cases outcome with
  | error fault => exact ⟨.error fault, printed, printed', rfl, rfl⟩
  | ok value => exact second value printed printed'

/-- What is done next may look at less than the first action comes to. -/
theorem through {action : Act α} {view : α → α} {next : α → Act β}
    (first : ReadsAlike world later (view <$> action))
    (enough : ∀ value, next (view value) = next value)
    (second : ∀ value printed printed', ReadsAlike { world with printed }
      { later with printed := printed' } (next value)) :
    ReadsAlike world later (action >>= next) := by
  have alike := first.bind second
  rwa [bind_map_left, funext enough] at alike

theorem tryCatch {action : Act α} {handle : Fault → Act α} {view : α → β}
    (first : ReadsAlike world later (view <$> action))
    (second : ∀ fault printed printed', ReadsAlike { world with printed }
      { later with printed := printed' } (view <$> handle fault)) :
    ReadsAlike world later (view <$> MonadExcept.tryCatch action handle) := by
  have inside : ∀ world, runFrom world (view <$> MonadExcept.tryCatch action handle) =
      runFrom world
        (MonadExcept.tryCatch (view <$> action) (fun fault => view <$> handle fault)) := by
    intro world
    simp only [runFrom_map, runFrom_tryCatch]
    rcases runFrom world action with ⟨_ | _, _⟩ <;> simp
  obtain ⟨outcome, printed, printed', ran, ran'⟩ := first
  rw [ReadsAlike, inside, inside, runFrom_tryCatch, runFrom_tryCatch, ran, ran']
  cases outcome with
  | error fault => exact second fault printed printed'
  | ok value => exact ⟨.ok value, printed, printed', rfl, rfl⟩

theorem asking {found : World → Except Fault α} (same : found later = found world) :
    ReadsAlike world later (do CodeAtlas.orFail (found (← get))) := by
  have ran : ∀ world, runFrom world (do CodeAtlas.orFail (found (← get)) : Act α) =
      (found world, world) := by
    intro world
    rw [runFrom_then (runFrom_get _), runFrom_orFail]
  exact ⟨found world, world.printed, later.printed, ran world, by rw [ran later, same]⟩

theorem build {place : Path} (tree : later.lookUp place = world.lookUp place)
    (digest : DigestFunction) (rules : IgnoreRules) :
    ReadsAlike world later (DigestTree.build digest rules place) := by
  unfold DigestTree.build
  split
  · exact .pure _
  · exact .bind (asking tree) (fun _ _ _ => .pure _)

theorem treeOf (value : Value) :
    ReadsAlike world later (KeptTree.unplaced <$> SnapshotStore.treeOf value) := by
  have seen : ∀ result : Except Fault KeptTree, (KeptTree.unplaced <$> CodeAtlas.orFail result :
      Act KeptTree) = CodeAtlas.orFail (result.map KeptTree.unplaced) := by
    intro result
    cases result <;> rfl
  unfold SnapshotStore.treeOf
  split
  · rename_i fields
    have rest : ∀ printed printed', ReadsAlike { world with printed }
        { later with printed := printed' } (KeptTree.unplaced <$> do
          let tree ← CodeAtlas.orFail (Record.need fields "dag")
          CodeAtlas.orFail (KeptTree.ofValue (← get).workingDirectory tree)) := by
      intro printed printed'
      simp only [map_bind, seen]
      refine .bind (.orFail _) (fun tree _ _ => ?_)
      exact asking (KeptTree.ofValue_unplaced _ _ tree)
    dsimp only
    split
    · rw [map_bind]
      exact .bind (.print _) (fun _ => rest)
    · exact rest _ _
  · exact .throw _

theorem documentAt {path : Path} {entry : FileTree Stored}
    (found : world.lookUp path = .ok (some entry)) (found' : later.lookUp path = .ok (some entry)) :
    ReadsAlike world later (World.documentAt path) := by
  refine .bind (asking (World.file_congr found found')) (fun stored _ _ => ?_)
  split
  · exact .pure _
  · exact .throw _

section Place

variable {env : Environment} {store : SnapshotStore} {project : String} {place : Path}
  (noNull : (Path.ofString project).hasNull = false)
  (here : (Path.ofString project).resolve world.workingDirectory = place)
  (here' : (Path.ofString project).resolve later.workingDirectory = place)

include noNull here here'

theorem resolving {next : Path → Act β} (alike : ReadsAlike world later (next place)) :
    ReadsAlike world later (World.resolve project >>= next) := by
  have resolved : runFrom world (World.resolve project) = (.ok place, world) := by
    rw [World.runFrom_resolve noNull, here]
  have resolved' : runFrom later (World.resolve project) = (.ok place, later) := by
    rw [World.runFrom_resolve noNull, here']
  rwa [ReadsAlike, runFrom_bind, runFrom_bind, resolved, resolved', andThen_ok, andThen_ok]

variable (kept : later.lookUp (store.snapshotFile env place) =
  world.lookUp (store.snapshotFile env place))

include kept

theorem has : ReadsAlike world later (store.has env project) :=
  resolving noNull here here' (.bind (asking kept) (fun _ _ _ => .pure _))

theorem load :
    ReadsAlike world later (Option.map KeptTree.unplaced <$> store.load env project) := by
  rw [SnapshotStore.load, map_bind]
  refine resolving noNull here here' ?_
  cases found : world.lookUp (store.snapshotFile env place) with
  | error fault =>
    exact ⟨.error fault, world.printed, later.printed,
      by simp [World.exists?, World.find, found],
      by simp [World.exists?, World.find, kept, found]⟩
  | ok entry =>
    cases entry with
    | none =>
      exact ⟨.ok none, world.printed, later.printed,
        by simp [World.exists?, World.find, found],
        by simp [World.exists?, World.find, kept, found]⟩
    | some entry =>
      have rest : ReadsAlike world later (Option.map KeptTree.unplaced <$> MonadExcept.tryCatch (do
          return some (← SnapshotStore.treeOf
            (← World.documentAt (store.snapshotFile env place))))
          (fun _ => do
            World.print "Error loading snapshot"
            return none)) := by
        refine .tryCatch ?_ (fun _ _ _ => ?_)
        · simp only [map_bind, map_pure]
          refine .bind (documentAt found (kept.trans found)) (fun value _ _ => ?_)
          exact .through (treeOf value) (fun tree => by cases tree <;> rfl) (fun _ _ _ => .pure _)
        · rw [map_bind]
          exact .bind (.print _) (fun _ _ _ => .pure _)
      simpa [ReadsAlike, World.exists?, World.find, found, kept] using rest

/-- Where the project and its snapshot are the same, the same changes are found. -/
theorem changesSince (tree : later.lookUp place = world.lookUp place) :
    ReadsAlike world later (store.changesSince env project) := by
  refine .bind (resolving noNull here here' (build tree _ _)) (fun tree printed printed' => ?_)
  refine .through (@load { world with printed } { later with printed := printed' } env store
    project place noNull here here' kept) (fun old => ?_) (fun old _ _ => ?_)
  · cases old with
    | none => rfl
    | some old => simp only [Option.map_some, KeptTree.changesTo_unplaced]
  · split
    · exact .pure _
    · exact .bind (.orFail _) (fun _ _ _ => .pure _)

theorem hasChanged (tree : later.lookUp place = world.lookUp place) :
    ReadsAlike world later (store.hasChanged env project) := by
  refine .through (load noNull here here' kept) (fun old => ?_) (fun old printed printed' => ?_)
  · cases old with
    | none => rfl
    | some old => simp only [Option.map_some, KeptTree.rootDigest_unplaced]
  cases old with
  | none => exact .pure _
  | some old =>
    have built := @build { world with printed } { later with printed := printed' } place tree
      env.digest (store.rulesFor project)
    have resolved := @resolving _ { world with printed } { later with printed := printed' }
      project place noNull here here' _ built
    exact .bind resolved (fun _ _ _ => .pure _)

end Place

end ReadsAlike

end CodeAtlas
