import CodeAtlas.Proofs.Indexing.Sample
import CodeAtlas.Proofs.Server.Upkeep
import CodeAtlas.Proofs.Tracking.Edits

/-!
# The first use of a storage

The server makes the folders that it needs when it needs them.  In an empty storage, the first
call to index a project makes them all and leaves the project in shape.
-/

namespace CodeAtlas

/-- A place whose path the file system takes. -/
structure Path.IsTaken (path : Path) : Prop extends path.IsPlace where
  short : ∀ part ∈ path.parts, part.utf8ByteSize ≤ nameLimit
  checked : World.checkPath path = .ok ()

theorem Path.IsTaken.above {folder : Path} {name : String} (taken : (folder.child name).IsTaken) :
    folder.IsTaken := by
  obtain ⟨⟨absolute, valid⟩, short, checked⟩ := taken
  exact ⟨⟨absolute, (List.forall_mem_append.mp valid).1⟩, (List.forall_mem_append.mp short).1,
    World.checkPath_of_child checked⟩

namespace World

variable {world : World} {path folder : Path} {name inner : String}

theorem locate_taken (taken : path.IsTaken)
    (folders : path.parts ≠ [] → world.disk.HasFolder path.parts.dropLast) :
    world.locate path = .ok path.parts := by
  rw [locate_eq, taken.checked, append_absolute _ taken.absolute]
  have followed := @Disk.follow_of_folders _ path.toString [] _ taken.plain folders
  rw [if_pos (by simpa using taken.short)] at followed
  exact congrArg (Except.mapError Fault.disk) followed

theorem hasFolderAt_taken (taken : path.IsTaken) (stands : world.disk.HasFolder path.parts) :
    world.HasFolderAt path :=
  ⟨_, locate_taken taken (fun _ => stands.above (List.dropLast_prefix _)), stands⟩

def withFolder (world : World) (path : Path) : World :=
  { world with disk := world.disk.insert path.parts (.folder []) }

section Child

variable (taken : (folder.child name).IsTaken) (stands : world.disk.HasFolder folder.parts)

include taken stands

theorem locate_child_taken : world.locate (folder.child name) = .ok (folder.child name).parts :=
  locate_taken taken (fun _ => by rwa [Path.child, List.dropLast_concat])

variable (missing : world.disk.find? (folder.child name).parts = none)

include missing

theorem makeSubfolder_new : runFrom world (makeSubfolder (folder.child name)) =
    (.ok (), world.withFolder (folder.child name)) := by
  simp [makeSubfolder, locate_child_taken taken stands, missing, withFolder]

theorem makeWay_new (shown : String) (more : List String) :
    world.disk.makeWay shown [] ((folder.child name).parts ++ more) =
      (world.withFolder (folder.child name)).disk.makeWay shown
        (folder.child name).parts.reverse more := by
  have located := locate_taken taken.above (fun _ => stands.above (List.dropLast_prefix _))
  have followed := (follow_of_locate located).2
  rw [append_absolute _ taken.above.absolute] at followed
  have notUp := taken.plain name (by simp [Path.child])
  have short := taken.short name (by simp [Path.child])
  have way := Disk.makeWay_of_follow shown followed stands (name :: more)
  rw [Path.child] at missing ⊢
  simp [Disk.makeWay, way, notUp, Nat.not_lt.mpr short, missing, withFolder]

theorem makeFolder_new : runFrom world (makeFolder (folder.child name)) =
    (.ok (), world.withFolder (folder.child name)) := by
  have way := makeWay_new taken stands missing (folder.child name).toString []
  rw [List.append_nil, Disk.makeWay] at way
  simp [makeFolder, taken.checked, append_absolute _ taken.absolute, way, withFolder]

/-- A folder is made with the one above it. -/
theorem makeFolder_new_child (deep : ((folder.child name).child inner).IsTaken) :
    runFrom world (makeFolder ((folder.child name).child inner)) =
      (.ok (), (world.withFolder (folder.child name)).withFolder
        ((folder.child name).child inner)) := by
  have way := makeWay_new taken stands missing ((folder.child name).child inner).toString [inner]
  have notUp := deep.plain inner (by simp [Path.child])
  have short := deep.short inner (by simp [Path.child])
  have empty : (world.withFolder (folder.child name)).disk.find?
      ((folder.child name).parts ++ [inner]) = none :=
    FileTree.find?_insert_append _ _ _ [inner]
  simp only [Disk.makeWay, beq_iff_eq, notUp, if_false, Nat.not_lt.mpr short, List.reverse_cons,
    List.reverse_reverse, empty] at way
  have parts : ((folder.child name).child inner).parts = (folder.child name).parts ++ [inner] := rfl
  simp [makeFolder, deep.checked, append_absolute _ deep.absolute, parts, way, withFolder]

end Child

end World

namespace Server

variable {env : Environment} {place : Path} {shelf : String → Option (FileTree Stored)}
variable {world : World}

/-- The file system takes the paths of a project and of what is kept for it.  Snapshots are kept
in the storage, which is apart from the project. -/
structure HasRoom (env : Environment) (place : Path) : Prop where
  project : place.IsTaken
  apart : ¬ place.parts <+: env.storage.parts ∧ ¬ env.storage.parts <+: place.parts
  snapshots : SnapshotStore.standardFolder env = env.storage.child "merkle"
  models : (env.storage.child "models").IsTaken
  info : ((homeOf env place).child "project_info.json").IsTaken
  kept : ∀ path, KeptFor env place path → path.IsTaken

/-- The project stands, and in the storage what is on the shelf. -/
structure Stocked (env : Environment) (place : Path) (shelf : String → Option (FileTree Stored))
    (world : World) : Prop where
  wellFormed : world.WellFormed
  project : world.disk.HasFolder place.parts
  storage : world.disk.HasFolder env.storage.parts
  holds : ∀ name, world.disk.find? (env.storage.parts ++ [name]) = shelf name

/-- What stands in the storage for a project with these entries. -/
def housing (env : Environment) (place : Path) (entries : List (String × FileTree Stored)) :
    FileTree Stored :=
  .folder [(folderName env place, .folder entries)]

namespace Stocked

section Room

variable (room : HasRoom env place) (stocked : Stocked env place shelf world)

include room stocked

theorem insert (after : World) {path : Path} {name : String} {names : List String}
    {entry : FileTree Stored} (taken : path.IsTaken)
    (parts : path.parts = env.storage.parts ++ name :: names) (inner : entry.WellFormed)
    (disk : after.disk = world.disk.insert path.parts entry)
    (directory : after.workingDirectory = world.workingDirectory) :
    Stocked env place (Function.update shelf name
      (some (((shelf name).getD (.folder [])).insert names entry))) after where
  wellFormed := ⟨disk ▸ stocked.wellFormed.disk.insert inner taken.valid,
    directory ▸ stocked.wellFormed.workingDirectory⟩
  project := by
    rw [disk, parts, FileTree.HasFolder, FileTree.find?_insert_apart _ _ _ _ (fun above => ?_)
      (fun below => room.apart.2 ((List.prefix_append _ _).trans below))]
    · exact stocked.project
    · exact (List.prefix_or_prefix_of_prefix above (List.prefix_append _ _)).elim room.apart.1
        room.apart.2
  storage := by
    rw [disk, parts, FileTree.HasFolder, FileTree.find?_insert_above]
    exact ⟨_, rfl⟩
  holds other := by
    rw [disk, parts]
    by_cases same : other = name
    · rw [same, List.append_cons, FileTree.find?_insert_above, stocked.holds, Function.update_self]
    · rw [FileTree.find?_insert_apart _ _ _ _ (by simpa using same) (by simp [Ne.symm same]),
        stocked.holds, Function.update_of_ne same]

/-- A folder that is not on the shelf is made. -/
theorem makeNew {name : String} (taken : (env.storage.child name).IsTaken)
    (new : shelf name = none) :
    ∃ after, runFrom world (World.makeFolder (env.storage.child name)) = (.ok (), after) ∧
      runFrom world (World.makeSubfolder (env.storage.child name)) = (.ok (), after) ∧
      Stocked env place (Function.update shelf name (some (.folder []))) after :=
  have missing := (stocked.holds name).trans new
  ⟨_, World.makeFolder_new taken stocked.storage missing,
    World.makeSubfolder_new taken stocked.storage missing,
    stocked.insert room _ taken rfl FileTree.wellFormed_empty rfl rfl⟩

theorem makeHome (new : shelf "projects" = none) :
    ∃ after, runFrom world (World.makeFolder (homeOf env place)) = (.ok (), after) ∧
      Stocked env place (Function.update shelf "projects" (some (housing env place []))) after := by
  have above := room.info.above
  have later := (stocked.insert room (world.withFolder (env.storage.child "projects"))
    above.above rfl FileTree.wellFormed_empty rfl rfl).insert room (World.withFolder _ _) above
      (List.append_cons _ _ _).symm FileTree.wellFormed_empty rfl rfl
  rw [Function.update_self, Function.update_idem] at later
  exact ⟨_, World.makeFolder_new_child above.above stocked.storage ((stocked.holds _).trans new)
    above, later⟩

end Room

section Home

variable {entries : List (String × FileTree Stored)} (stocked : Stocked env place shelf world)
  (home : shelf "projects" = some (housing env place entries))

include stocked home

theorem find?_home (names : List String) :
    world.disk.find? ((homeOf env place).parts ++ names) =
      (FileTree.folder entries).find? names := by
  rw [FileTree.find?_append, homeOf, Path.child, FileTree.find?_append, Path.child, stocked.holds,
    home]
  simp [housing, FileTree.find?_cons, FileTree.entries]

theorem home_stands : world.disk.find? (homeOf env place).parts = some (.folder entries) := by
  simpa using stocked.find?_home home []

/-- Something is put into the folder of the project. -/
theorem furnish (room : HasRoom env place) (after : World) {name : String}
    {entry : FileTree Stored} (taken : ((homeOf env place).child name).IsTaken)
    (inner : entry.WellFormed)
    (disk : after.disk = world.disk.insert ((homeOf env place).child name).parts entry)
    (directory : after.workingDirectory = world.workingDirectory) :
    Stocked env place (Function.update shelf "projects"
      (some (housing env place (Table.insertEntries name entry entries)))) after := by
  have parts : ((homeOf env place).child name).parts =
      env.storage.parts ++ ["projects", folderName env place, name] := by
    simp [homeOf, Path.child]
  have later := stocked.insert room after taken parts inner disk directory
  simpa [home, housing, FileTree.insert, FileTree.entries, Table.insertEntries] using later

end Home

section Room

variable (room : HasRoom env place) (stocked : Stocked env place shelf world)

include room stocked

/-- The folder of a project is made, with a description and an empty index. -/
theorem found (new : shelf "projects" = none) :
    ∃ home described after value modified,
      runFrom world (World.makeFolder (homeOf env place)) = (.ok (), home) ∧
      runFrom home (World.exists? ((homeOf env place).child "project_info.json")) =
        (.ok false, home) ∧
      runFrom home.tick (World.writeFile ((homeOf env place).child "project_info.json")
        (.document (.record (projectInfo env place (Clock.text home.clock))))) =
          (.ok (), described) ∧
      runFrom described (World.makeSubfolder (indexFolder env place)) = (.ok (), after) ∧
      runFrom after (World.makeFolder (indexFolder env place)) = (.ok (), after) ∧
      Stocked env place (Function.update shelf "projects" (some (housing env place
        [("project_info.json", .file ⟨.document value, modified⟩), ("index", .folder [])])))
        after := by
  obtain ⟨home, made, founded⟩ := stocked.makeHome room new
  have stands := founded.home_stands (Function.update_self ..)
  have located := @World.locate_child_taken home.tick _ _ room.info ⟨_, stands⟩
  have missing : home.Keeps ((homeOf env place).child "project_info.json") none :=
    ⟨_, located, founded.find?_home (Function.update_self ..) _⟩
  have written := World.runFrom_writeFile home.tick ((homeOf env place).child "project_info.json")
    (.document (.record (projectInfo env place (Clock.text home.clock))))
  rw [(World.placeFor_eq_ok_iff _ _ _).mpr ⟨located, missing.notFolder located⟩] at written
  have described := founded.furnish (Function.update_self ..) room (World.put home.tick _ _)
    room.info (FileTree.wellFormed_file
      ⟨.document (.record (projectInfo env place (Clock.text home.clock))), home.now⟩) rfl rfl
  rw [Function.update_idem] at described
  have taken := (room.kept _ (.index .names)).above
  have index := World.makeSubfolder_new taken ⟨_, described.home_stands (Function.update_self ..)⟩
    (described.find?_home (Function.update_self ..) _)
  have indexed := described.furnish (Function.update_self ..) room
    (World.withFolder _ (indexFolder env place)) taken FileTree.wellFormed_empty rfl rfl
  rw [Function.update_idem] at indexed
  exact ⟨home, _, _, _, _, made, missing.exists?, written, index,
    (World.hasFolderAt_taken taken ⟨[], FileTree.find?_insert_self _ _ _⟩).makeFolder, indexed⟩

/-- Once the folders stand, the project is in shape. -/
theorem housed {value : Value} {modified : Int} (models : shelf "models" = some (.folder []))
    (merkle : shelf "merkle" = some (.folder []))
    (home : shelf "projects" = some (housing env place
      [("project_info.json", .file ⟨.document value, modified⟩), ("index", .folder [])])) :
    Housed env place world := by
  have nothing {folder : Path} {name : String} (kept : KeptFor env place (folder.child name))
      (found : world.disk.find? folder.parts = some (.folder [])) :
      world.Keeps (folder.child name) none := by
    refine ⟨_, World.locate_child_taken (room.kept _ kept) ⟨_, found⟩, ?_⟩
    rw [Path.child, FileTree.find?_append, found]
    rfl
  have snapshots : world.disk.find? (SnapshotStore.standardFolder env).parts =
      some (.folder []) := by
    rw [room.snapshots]
    exact (stocked.holds "merkle").trans merkle
  exact
    { absolute := room.project.absolute
      valid := room.project.valid
      storage := World.hasFolderAt_taken room.models.above stocked.storage
      models := World.hasFolderAt_taken room.models ⟨[], (stocked.holds _).trans models⟩
      info := ⟨value, _, World.locate_child_taken room.info ⟨_, stocked.home_stands home⟩,
        modified, stocked.find?_home home _⟩
      index := ⟨fun _ => none, fun file => nothing (.index file) (stocked.find?_home home _)⟩
      stands := ⟨none, nothing .snapshot snapshots, ⟨none, nothing .record snapshots⟩,
        _, (World.hasFolderAt_taken room.project stocked.project).lookUp.choose_spec⟩ }

end Room

end Stocked

/-- In an empty storage, the first call to index a project leaves it in shape.  Histories of
edits and calls can start there. -/
theorem tended_first_call (room : HasRoom env place)
    (stocked : Stocked env place (fun _ => none) world) (name incremental : Value)
    (inLoop : Bool) :
    Tended env place (runFrom ⟨Server.fresh, world⟩
      (call env inLoop (.indexDirectory place.toString name incremental))).2 := by
  have taken : (env.storage.child "merkle").IsTaken :=
    room.snapshots ▸ (room.kept _ .snapshot).above
  have resolved := World.resolve_place room.project.toIsPlace
  have storage := World.hasFolderAt_taken room.models.above stocked.storage
  refine .of_performed ?_
  rw [Server.perform, Server.indexDirectory, telling_snd]
  cases looping : inLoop
  -- The folder of models is made at once, but in a loop not before it is needed.
  case' false =>
    obtain ⟨world₁, -, models, stocked₁⟩ := stocked.makeNew room room.models rfl
    obtain ⟨world₂, world₃, world₄, value, modified, home, looked, written, index, again,
      stocked₄⟩ := stocked₁.found room rfl
    have project := World.hasFolderAt_taken room.project stocked₁.project
  case' true =>
    obtain ⟨world₁, world₂, world₃, value, modified, home, looked, written, index, again,
      stocked₃⟩ := stocked.found room rfl
    obtain ⟨world₄, -, models, stocked₄⟩ := stocked₃.makeNew room room.models rfl
    have project := World.hasFolderAt_taken room.project stocked.project
  all_goals
    obtain ⟨world₅, merkle, -, stocked₅⟩ := stocked₄.makeNew room taken rfl
    have attended : Attended env place ⟨{ Server.fresh with
        current := some place.toString, index := some (.ofFolder (indexFolder env place)),
        storageReady := true, modelReady := true, preloadStarted := true, inLoop,
        preloadPending := inLoop }, world₅⟩ :=
      ⟨⟨fun _ _ known => Option.some.inj known ▸ rfl, stocked₅.housed room rfl rfl rfl⟩, rfl⟩
    have indexed := attended.indexing stocked₅.wellFormed (Indexer.projectName name place)
      incremental
    unfold indexFolder homeOf at *
    simpa [looping, startPreload, preload, setUpModel, storageFolder, openProject, projectFolder,
      indexerFor, SnapshotStore.open?, ChunkIndex.open?, Server.fresh, Server.closed,
      storage.makeFolder, models, resolved, project.exists?, project.isFolder, home, looked,
      World.runFrom_readClock, written, index, again, room.snapshots, merkle, indexerAt]
      using indexed

open Sample in
/-- The standard storage has room for a project, when it is empty. -/
theorem exists_hasRoom : ∃ env place world,
    HasRoom env place ∧ Stocked env place (fun _ => none) world := by
  refine ⟨{ environment with storage := ⟨.root, [".claude_code_search"]⟩ }, place,
    { world [] (fun _ => none) none none with
      disk := .folder [("project", .folder []), (".claude_code_search", .folder [])] },
    ⟨⟨isPlace_place, by decide, rfl⟩, by decide, rfl, ⟨⟨rfl, by decide⟩, by decide, rfl⟩,
      ⟨⟨rfl, by decide⟩, by decide, rfl⟩, fun path kept => ?_⟩,
    ⟨⟨?_, by decide⟩, ⟨[], rfl⟩, ⟨[], rfl⟩, fun _ => rfl⟩⟩
  · rcases kept with file | _ | _
    · cases file <;> exact ⟨⟨rfl, by decide⟩, by decide, rfl⟩
    all_goals exact ⟨⟨rfl, by decide⟩, by decide, rfl⟩
  · exact (FileTree.wellFormed_empty.insert FileTree.wellFormed_empty
      (show ∀ part ∈ ["project"], ValidName part by decide)).insert FileTree.wellFormed_empty
      (show ∀ part ∈ [".claude_code_search"], ValidName part by decide)

end Server

end CodeAtlas
