import CodeAtlas.Proofs.Index.Twins
import CodeAtlas.Proofs.Indexing.Footprint
import CodeAtlas.Proofs.Indexing.Sample
import CodeAtlas.Proofs.Tracking.Holdings

/-!
# Full runs and the past of an index

A full run starts by taking away the files of the index and what is in memory.  Nothing that an
index went through before is left then: indexes with different pasts, on disks that hold the
same project, are twins as soon as they are cleared, and what the run does after that leaves
twins.
-/

namespace CodeAtlas

variable {names : List String} {first second after : IndexState} {result : RunResult}

namespace World

variable {world other : World} {path place : Path} {rules : IgnoreRules}

/-- Where a path leads is the same on all disks on which it leads somewhere. -/
theorem locate_unique {names' : List String}
    (sameDirectory : other.workingDirectory = world.workingDirectory)
    (located : world.locate path = .ok names)
    (located' : other.locate path = .ok names') : names' = names := by
  rw [eq_resolve_of_locate located, eq_resolve_of_locate located', sameDirectory]

/-- What is tracked of the project at a place, by the names that lead to it. -/
def outlineAt (rules : IgnoreRules) (place : Path) (world : World) :
    List String → Option (Option ByteArray) :=
  trackedEntry rules (trackedProject rules place (world.entryAt? place))

theorem contentAt_congr (same : other.outlineAt rules place = world.outlineAt rules place) :
    other.contentAt rules place = world.contentAt rules place := by
  funext names
  rw [contentAt, contentAt, trackedContent_eq, trackedContent_eq]
  exact congrArg Option.join (congrFun same names)

theorem entryAt?_eq (world : World) (path : Path) :
    world.entryAt? path = (world.locate path).toOption.bind world.disk.find? := by
  unfold entryAt? lookUp
  cases world.locate path with
  | ok names => rfl
  | error fault =>
    cases fault with
    | disk fault => cases fault <;> rfl
    | _ => rfl

/-- What is tracked at a place stands on the disk where its names lead. -/
theorem outlineAt_eq (isPlace : place.IsPlace) (names : List String) :
    world.outlineAt rules place names =
      if rules.ignores place.name || names.any rules.ignores then none
      else (world.locate place).toOption.bind (fun _ =>
        (world.disk.find? (place.parts ++ names)).map
          (fun entry => entry.content?.map Stored.bytes)) := by
  unfold outlineAt trackedEntry trackedProject
  rw [entryAt?_eq]
  cases rules.ignores place.name with
  | true => simp
  | false =>
    cases names.any rules.ignores with
    | true => simp
    | false =>
      cases located : world.locate place with
      | error fault => rfl
      | ok found =>
        obtain rfl := eq_parts_of_locate isPlace.absolute isPlace.plain located
        simp [FileTree.find?_append, Except.toOption]

/-- Where files were changed at some spots, and nothing stands there now, all else is tracked
as before. -/
theorem SameApart.outlineAt {spots : List String → Prop} (isPlace : place.IsPlace)
    (same : SameApart spots world other)
    (gone : ∀ names, spots names → other.disk.find? names = none) (names : List String) :
    (spots (place.parts ++ names) → other.outlineAt rules place names = none) ∧
      (¬ spots (place.parts ++ names) →
        other.outlineAt rules place names = world.outlineAt rules place names) := by
  rw [outlineAt_eq isPlace, outlineAt_eq isPlace]
  refine ⟨fun spot => ?_, fun notSpot => ?_⟩
  · simp [gone _ spot]
  · have held : (other.disk.find? (place.parts ++ names)).map
          (fun entry => entry.content?.map Stored.bytes) =
        (world.disk.find? (place.parts ++ names)).map
          (fun entry => entry.content?.map Stored.bytes) := by
      by_cases folder : world.disk.HasFolder (place.parts ++ names)
      · obtain ⟨entries', here'⟩ := (same.folders _).mpr folder
        obtain ⟨entries, here⟩ := folder
        rw [here, here']
        rfl
      · rw [same.files _ notSpot folder]
    cases located : world.locate place with
    | ok found =>
      rw [(same.locate_iff place found).mpr located, held]
    | error fault =>
      cases located' : other.locate place with
      | error fault' => rfl
      | ok found =>
        rw [(same.locate_iff place found).mp located'] at located
        cases located

/-- Both worlds can be looked at from the same directory, and hold the same project. -/
structure SameProject (place : Path) (world other : World) : Prop where
  workingDirectory : other.workingDirectory = world.workingDirectory
  wellFormed : world.WellFormed ∧ other.WellFormed
  found : (∃ files, world.lookUp place = .ok files) ∧ ∃ files, other.lookUp place = .ok files
  outline : other.outlineAt .standard place = world.outlineAt .standard place

theorem SameProject.build (digest : DigestFunction) (same : SameProject place world other) :
    ∃ tree, tree.rootPath = place ∧
      runFrom world (DigestTree.build digest .standard place) = (.ok tree, world) ∧
      runFrom other (DigestTree.build digest .standard place) = (.ok tree, other) := by
  obtain ⟨⟨files, found⟩, files', found'⟩ := same.found
  have trees : DigestTree.ofFiles digest .standard place files' =
      .ofFiles digest .standard place files := by
    refine DigestTree.ofFiles_congr (same.wellFormed.2.lookUp found')
      (same.wellFormed.1.lookUp found) ?_
    have outline := same.outline
    unfold outlineAt entryAt? at outline
    rwa [found, found'] at outline
  exact ⟨_, rfl, DigestTree.runFrom_build digest .standard found,
    trees ▸ DigestTree.runFrom_build digest .standard found'⟩

/-- A file that keeps a document, or could, stays one when documents are written elsewhere or
there. -/
theorem keeps_writeFile {folder : Path} {name : String} (notUp : name ≠ "..") (value : Value) :
    Preserves (fun world => ∃ document, world.Keeps path document)
      (writeFile (folder.child name) (.document value)) := by
  rintro world ⟨document, kept⟩
  rcases result : runFrom world (writeFile (folder.child name) (.document value)) with
    ⟨fault | _, after⟩
  · obtain rfl := writeFile_failed result
    exact ⟨document, kept⟩
  · obtain ⟨⟨spot, leads, stands⟩, same⟩ := writeFile_ok notUp result
    obtain ⟨names, located, -⟩ := id kept
    by_cases here : world.LeadsTo (folder.child name) names
    · obtain rfl : spot = names :=
        Except.ok.inj (((same.locate_iff _ _).mp leads).symm.trans here)
      exact ⟨some value, spot, (same.locate_iff _ _).mpr located, stands⟩
    · refine ⟨document, kept.apart same (fun other located' => ?_)⟩
      obtain rfl : other = names := Except.ok.inj (located'.symm.trans located)
      exact here

theorem keeps_readClock : Preserves (fun world => ∃ document, world.Keeps path document)
    readClock := by
  rintro world ⟨document, kept⟩
  exact ⟨document, kept.apart world.tick_sameApart (fun _ _ => id)⟩

end World

/-- Saving a tree leaves a document, or room for one, where there was. -/
theorem SnapshotStore.keeps_save {env : Environment} {store : SnapshotStore} {path : Path}
    (tree : DigestTree) (record : Record) :
    Preserves (fun world => ∃ document, world.Keeps path document)
      (store.save env tree record) := by
  refine .bind World.keeps_readClock (fun taken => .bind (.orFail _) (fun value => ?_))
  refine .bind (World.keeps_writeFile (snapshotName_ne_up _) _) (fun _ =>
    .bind World.keeps_readClock (fun recorded => .bind (.pure _) (fun described => ?_)))
  exact World.keeps_writeFile (recordName_ne_up _) _

namespace Indexer

open IndexState

variable {indexer : Indexer} {place folder : Path} {state : IndexState} {world : World} {α : Type}

/-- The files of the index in the folder, and those of the snapshot of the project at the place,
keep documents or could be made. -/
structure Room (indexer : Indexer) (place folder : Path) (world : World) : Prop where
  index : ∃ kept, world.KeepsIndex folder kept
  snapshot : ∃ document, world.Keeps (indexer.store.snapshotFile indexer.env place) document
  record : ∃ document, world.Keeps (indexer.store.recordFile indexer.env place) document

/-- An index without graphics processors in its folder, on a disk with room for it. -/
structure HasRoom (indexer : Indexer) (place folder : Path) (state : IndexState) : Prop where
  home : state.IsHome folder
  room : indexer.Room place folder state.world

namespace HasRoom

theorem of_follows {action : IndexAct α} (home : Preserves (IsHome folder) action)
    (follows : ∀ start, Preserves (Follows start) action) :
    Preserves (indexer.HasRoom place folder) action := by
  rintro state ⟨⟨rfl, here⟩, ⟨kept, files⟩, ⟨document, snapshot⟩, ⟨document', record⟩⟩
  have later := follows state state (Follows.refl state)
  exact ⟨home state ⟨rfl, here⟩, later.kept kept files,
    ⟨document, snapshot.apart later.world not_spots_snapshotFile⟩,
    ⟨document', record.apart later.world not_spots_recordFile⟩⟩

theorem of_still {action : Act α} (still : ∀ world : World, Preserves world.Still action) :
    Preserves (indexer.HasRoom place folder) (action : IndexAct α) :=
  of_follows (IsHome.onWorld action) (fun _ => Follows.of_still still)

theorem saveSnapshot (tree : DigestTree) (record : Record) :
    Preserves (indexer.HasRoom place folder)
      (indexer.store.save indexer.env tree record : IndexAct Unit) := by
  rintro state ⟨home, ⟨kept, files⟩, snapshot, described⟩
  have same := @SnapshotStore.sameApart_save indexer.env indexer.store state.world tree record
    state.world (.refl _ _)
  refine ⟨IsHome.onWorld _ state home, ⟨kept, ?_⟩, ?_, ?_⟩
  · exact keepsIndex_of_snapshot files same
  · exact SnapshotStore.keeps_save tree record state.world snapshot
  · exact SnapshotStore.keeps_save tree record state.world described

theorem clear : Preserves (indexer.HasRoom place folder) ChunkIndex.clear :=
  of_follows IsHome.clear (fun _ => Follows.clear)

theorem save (gpu : GpuSupport) :
    Preserves (indexer.HasRoom place folder) (ChunkIndex.save gpu) :=
  of_follows (IsHome.save gpu) (fun _ => Follows.save gpu)

theorem removeFile (path project : Value) :
    Preserves (indexer.HasRoom place folder) (ChunkIndex.removeFile path project) :=
  of_follows (IsHome.removeFile path project) (fun _ => Follows.removeFile path project)

theorem removeFiles (project : Value) (files : List Value) :
    Preserves (indexer.HasRoom place folder) (Indexer.removeFiles project files) := by
  induction files with
  | nil => exact .pure _
  | cons file files ih =>
    exact .bind (removeFile file project) (fun _ => .bind ih (fun _ => .pure _))

section WithoutGpu

variable {gpu : GpuSupport} (noGpu : gpu.isAvailable = false)

include noGpu

theorem add (items : List Embedded) :
    Preserves (indexer.HasRoom place folder) (ChunkIndex.add gpu items) :=
  of_follows ((IsHome.outlasts noGpu).add items) (fun _ => Follows.add gpu items)

theorem call (call : IndexCall) :
    Preserves (indexer.HasRoom place folder) (call.action gpu) := by
  by_cases cleared : call = .clear
  · subst cleared
    exact .bind clear (fun _ => .pure _)
  · exact of_follows ((IsHome.outlasts noGpu).call cleared)
      (fun _ => (Follows.outlasts gpu).call cleared)

end WithoutGpu

private theorem finishing (tree : DigestTree) (record : Record) (outcome : RunResult) :
    Preserves (indexer.HasRoom place folder) (do
      indexer.store.save indexer.env tree record
      ChunkIndex.save indexer.env.gpu
      return outcome : IndexAct RunResult) :=
  .bind (saveSnapshot tree record) (fun _ => .bind (save _) (fun _ => .pure _))

section Runs

variable (noGpu : indexer.env.gpu.isAvailable = false)

include noGpu

private theorem addFiles (other : Path) (project : Value) (files : List String) :
    Preserves (indexer.HasRoom place folder) (indexer.addFiles other project files) :=
  .bind (fun _ holds => holds) (fun _ => .bind (add noGpu _) (fun _ => .pure _))

theorem run (path : String) (name : Value) (full : Bool) :
    Preserves (indexer.HasRoom place folder) (indexer.run path name full) := by
  refine .bind (.of_looking (World.resolve_snd path)) (fun other => ?_)
  refine .tryCatch (.bind (.of_looking (indexer.store.has_snd indexer.env _)) (fun has => ?_))
    (fun _ => .pure _)
  split
  · refine .bind clear (fun _ => .bind (of_still (fun _ => DigestTree.still_build _ _ _))
      (fun tree => .bind (addFiles noGpu other _ _) (fun counts => ?_)))
    exact finishing tree _ _
  · refine .bind (of_still (fun _ => indexer.store.still_changesSince _ _)) (fun found => ?_)
    obtain ⟨changes, tree⟩ := found
    dsimp only
    split
    · exact .pure _
    · refine .bind (.orFail _) (fun toRemove => .bind (removeFiles _ toRemove) (fun removed => ?_))
      refine .bind (.orFail _) (fun toReindex => .bind (.orFail _) (fun files => ?_))
      exact .bind (addFiles noGpu other _ files) (fun _ => finishing tree _ _)

end Runs

end HasRoom

/-- The states that an index in the folder can be in when the project at the place is to be
indexed: it was opened on some disk, and then it was called, indexed projects, and things
happened to the disk, in any order.  There was always room for its files. -/
inductive Past (indexer : Indexer) (place folder : Path) : IndexState → Prop where
  | opened {world : World} :
      indexer.Room place folder world → Past indexer place folder ⟨.ofFolder folder, world⟩
  | edited {state : IndexState} {world : World} :
      Past indexer place folder state → indexer.Room place folder world →
      Past indexer place folder { state with world }
  | called {state : IndexState} (call : IndexCall) :
      Past indexer place folder state →
      Past indexer place folder (IndexCall.after indexer.env.gpu state call)
  | ran {state : IndexState} (call : RunCall) :
      Past indexer place folder state →
      Past indexer place folder (runFrom state (indexer.perform call)).2

theorem Edited.room (edited : indexer.Edited place state world)
    (has : indexer.HasRoom place folder state) : indexer.Room place folder world := by
  obtain ⟨⟨rfl, -⟩, ⟨kept, files⟩, ⟨document, snapshot⟩, ⟨document', record⟩⟩ := has
  exact ⟨⟨kept, edited.index kept files⟩, ⟨document, edited.snapshot document snapshot⟩,
    ⟨document', edited.record document' record⟩⟩

theorem HasRoom.withEncoder (encoder : Encoder) :
    (indexer.withEncoder encoder).HasRoom place folder state ↔
      indexer.HasRoom place folder state :=
  ⟨fun ⟨home, room⟩ => ⟨home, room.index, room.snapshot, room.record⟩,
    fun ⟨home, room⟩ => ⟨home, room.index, room.snapshot, room.record⟩⟩

/-- Whatever an index went through, there is room for it, and it is not on graphics processors
where there are none. -/
theorem Past.hasRoom (noGpu : indexer.env.gpu.isAvailable = false)
    (past : indexer.Past place folder state) : indexer.HasRoom place folder state := by
  induction past with
  | opened room => exact ⟨⟨rfl, rfl⟩, room⟩
  | edited _ room ih => exact ⟨⟨ih.home.folder, ih.home.onGpu⟩, room⟩
  | called call _ ih => exact HasRoom.call noGpu call _ ih
  | ran call _ ih =>
    have before := (HasRoom.withEncoder call.encoder).mpr ih
    exact (HasRoom.withEncoder call.encoder).mp
      (@HasRoom.run (indexer.withEncoder call.encoder) place folder noGpu call.path call.name
        call.full _ before)

theorem Past.of_reached {start : IndexState} {dimension : Nat} {calls : List RunCall}
    (noGpu : indexer.env.gpu.isAvailable = false) (past : indexer.Past place folder start)
    (history : indexer.Reached place dimension start calls state) :
    indexer.Past place folder state := by
  induction history with
  | start => exact past
  | run _ edited _ ih =>
    exact .ran _ (.edited ih (edited.room (ih.hasRoom noGpu)))

theorem HasRoom.cleared (has : indexer.HasRoom place folder state) :
    ∃ cleared, runFrom state ChunkIndex.clear = (.ok (), cleared) ∧
      cleared.chunks = .ofFolder folder ∧ cleared.world.KeepsIndex folder (fun _ => none) ∧
      cleared.Shows .empty ∧ state.Follows cleared ∧
      indexer.HasRoom place folder cleared := by
  have roomy := HasRoom.clear state has
  have follows := Follows.clear state (Follows.refl state)
  obtain ⟨⟨rfl, home⟩, ⟨kept, files⟩, -⟩ := has
  obtain ⟨world, emptied, nothing⟩ := ChunkIndex.runFrom_clear files
  obtain ⟨cleared, again, shows⟩ := Shows.clear files
  obtain rfl := (Prod.mk.inj (emptied.symm.trans again)).2
  rw [emptied] at roomy follows
  exact ⟨_, emptied, congrArg (ChunkIndex.mk _ none [] none) home, nothing, shows, follows, roomy⟩

/-- The files of an index stand at the same places on all disks with room for them. -/
theorem HasRoom.spots (sameDirectory : second.world.workingDirectory = first.world.workingDirectory)
    (has : indexer.HasRoom place folder first)
    (has' : indexer.HasRoom place folder second) (spot : first.Spots names) :
    second.Spots names := by
  obtain ⟨file, leads⟩ := spot
  obtain ⟨kept, files⟩ := has'.room.index
  obtain ⟨names', located, -⟩ := files file
  rw [has.home.folder] at leads
  refine ⟨file, ?_⟩
  rw [has'.home.folder, ← World.locate_unique sameDirectory leads located]
  exact located

/-- After clearing, nothing is tracked where a file of the index was, and elsewhere what was
tracked before. -/
theorem HasRoom.outlineAt {cleared : IndexState} {rules : IgnoreRules} (isPlace : place.IsPlace)
    (has : indexer.HasRoom place folder state) (follows : state.Follows cleared)
    (nothing : cleared.world.KeepsIndex folder (fun _ => none)) (names : List String) :
    (state.Spots (place.parts ++ names) → cleared.world.outlineAt rules place names = none) ∧
      (¬ state.Spots (place.parts ++ names) → cleared.world.outlineAt rules place names =
        state.world.outlineAt rules place names) := by
  refine follows.world.outlineAt isPlace ?_ names
  rintro spot ⟨file, leads⟩
  obtain ⟨spot', located, gone⟩ := nothing file
  rw [has.home.folder] at leads
  obtain rfl : spot' = spot :=
    Except.ok.inj (((follows.world.locate_iff _ _).mp located).symm.trans leads)
  exact gone

/-- Two indexes that are the same in memory and in their files, on disks with room. -/
def Beside (indexer : Indexer) (place folder : Path) (first second : IndexState) : Prop :=
  Twins folder first second ∧ indexer.HasRoom place folder first ∧
    indexer.HasRoom place folder second

/-- Whatever they went through, indexes in one folder are the same once they are cleared, and
the disks still hold the same project. -/
theorem HasRoom.beside (isPlace : place.IsPlace) (has : indexer.HasRoom place folder first)
    (has' : indexer.HasRoom place folder second)
    (same : World.SameProject place first.world second.world) :
    ∃ cleared cleared', runFrom first ChunkIndex.clear = (.ok (), cleared) ∧
      runFrom second ChunkIndex.clear = (.ok (), cleared') ∧ cleared.Shows .empty ∧
      indexer.Beside place folder cleared cleared' ∧
      World.SameProject place cleared.world cleared'.world := by
  obtain ⟨cleared, emptied, opened, nothing, shows, follows, roomy⟩ := has.cleared
  obtain ⟨cleared', emptied', opened', nothing', -, follows', roomy'⟩ := has'.cleared
  have wellFormed := ChunkIndex.wellFormed_clear first same.wellFormed.1
  have wellFormed' := ChunkIndex.wellFormed_clear second same.wellFormed.2
  rw [emptied] at wellFormed
  rw [emptied'] at wellFormed'
  have twins : Twins folder cleared cleared' :=
    ⟨opened'.trans opened.symm, roomy.home, by simp [opened, ChunkIndex.ofFolder], _, nothing,
      nothing'⟩
  refine ⟨cleared, cleared', emptied, emptied', shows, ⟨twins, roomy, roomy'⟩, ?_,
    ⟨wellFormed, wellFormed'⟩, ?_, funext (fun names => ?_)⟩
  · rw [follows'.world.workingDirectory, same.workingDirectory, follows.world.workingDirectory]
  · obtain ⟨⟨_, found⟩, _, found'⟩ := same.found
    exact ⟨follows.world.lookUp_ok found, follows'.world.lookUp_ok found'⟩
  · obtain ⟨gone, kept⟩ := has.outlineAt isPlace follows nothing names
    obtain ⟨gone', kept'⟩ := has'.outlineAt isPlace follows' nothing' names
    by_cases spot : first.Spots (place.parts ++ names)
    · rw [gone spot, gone' (has.spots same.workingDirectory has' spot)]
    · have notSpot : ¬ second.Spots (place.parts ++ names) := fun spot' =>
        spot (has'.spots same.workingDirectory.symm has spot')
      rw [kept spot, kept' notSpot, same.outline]

/-- What a full run notes down about the project. -/
def rebuiltRecord (project : Value) (tree : DigestTree) (chunks : Nat) : Record :=
  [("project_name", project), ("full_index", .bool true), ("total_files", .int tree.files.length),
    ("supported_files", .int (tree.files.filter Language.isSourcePath).length),
    ("chunks_indexed", .int chunks)]

/-- What a full run does once the index is cleared and the files are embedded. -/
def rebuild (indexer : Indexer) (project : Value) (tree : DigestTree) (items : List Embedded) :
    IndexAct RunResult := do
  ChunkIndex.add indexer.env.gpu items
  indexer.store.save indexer.env tree (rebuiltRecord project tree items.length)
  ChunkIndex.save indexer.env.gpu
  return { RunResult.nothing with
    filesAdded := (tree.files.filter Language.isSourcePath).length, chunksAdded := items.length }

/-- An action of a run, with a failed result in place of a fault. -/
def reporting (action : IndexAct RunResult) : IndexAct RunResult :=
  tryCatch action (fun fault => return RunResult.failed fault.message)

section Reporting

variable {action : IndexAct RunResult}

theorem reporting_parallel {related : IndexState → IndexState → Prop}
    (parallel : Parallel related action) : Parallel related (reporting action) :=
  .tryCatch parallel (fun _ => .pure _)

theorem exists_reported (action : IndexAct RunResult) (state : IndexState) :
    ∃ result after, runFrom state (reporting action) = (.ok result, after) := by
  rw [reporting, runFrom_tryCatch]
  rcases runFrom state action with ⟨fault | result, after⟩
  · exact ⟨_, _, rfl⟩
  · exact ⟨_, _, rfl⟩

theorem runFrom_of_success (reported : runFrom state (reporting action) = (.ok result, after))
    (success : result.success = true) : runFrom state action = (.ok result, after) := by
  rw [reporting, runFrom_tryCatch] at reported
  rcases ended : runFrom state action with ⟨fault | other, between⟩
  · rw [ended] at reported
    obtain rfl := Except.ok.inj (congrArg Prod.fst reported)
    cases success
  · rwa [ended] at reported

theorem reported_of_ok (ended : runFrom state action = (.ok result, after)) :
    runFrom state (reporting action) = (.ok result, after) := by
  rw [reporting, runFrom_tryCatch, ended]

end Reporting

section Rebuilding

variable {cleared : IndexState} {tree : DigestTree} {items : List Embedded} {project : Value}

/-- A full run goes on from the cleared index. -/
theorem run_eq_rebuild {path : String} {name : Value} (wellFormed : state.world.WellFormed)
    (resolved : runFrom state.world (World.resolve path) = (.ok place, state.world))
    (has : indexer.HasRoom place folder state)
    (emptied : runFrom state ChunkIndex.clear = (.ok (), cleared))
    (built : runFrom cleared.world (DigestTree.build indexer.env.digest .standard place) =
      (.ok tree, cleared.world))
    (made : items = indexer.embed (projectName name place) (indexer.chunksOf cleared.world place
      (tree.files.filter Language.isSourcePath))) :
    runFrom state (indexer.run path name true) =
      runFrom cleared (reporting (indexer.rebuild (projectName name place) tree items)) := by
  have isPlace := wellFormed.resolve resolved
  obtain ⟨document, kept⟩ := has.room.snapshot
  have full : runFrom state (indexer.fullRun place (projectName name place)) =
      runFrom cleared (indexer.rebuild (projectName name place) tree items) := by
    subst made
    simp [fullRun, rebuild, rebuiltRecord, addFiles, emptied, built]
  rw [run, runFrom_bind, runFrom_lift, resolved, andThen_ok, reporting, runFrom_tryCatch,
    runFrom_tryCatch, runFrom_bind, runFrom_lift, has_of_keeps isPlace kept, andThen_ok,
    Bool.true_or, if_pos rfl, full]

private theorem saveSnapshot_parallel (record : Record) (rooted : tree.rootPath = place) :
    Parallel (indexer.Beside place folder)
      (indexer.store.save indexer.env tree record : IndexAct Unit) := by
  subst rooted
  rintro first second ⟨twins, has, has'⟩
  obtain ⟨kept, files, files'⟩ := twins.files
  obtain ⟨_, snapshot⟩ := has.room.snapshot
  obtain ⟨_, described⟩ := has.room.record
  obtain ⟨_, snapshot'⟩ := has'.room.snapshot
  obtain ⟨_, described'⟩ := has'.room.record
  obtain ⟨world, saved, -⟩ := SnapshotStore.save_of_keeps record snapshot described
  obtain ⟨world', saved', -⟩ := SnapshotStore.save_of_keeps record snapshot' described'
  have roomy := HasRoom.saveSnapshot tree record first has
  have roomy' := HasRoom.saveSnapshot tree record second has'
  rw [runFrom_lift, saved] at roomy
  rw [runFrom_lift, saved'] at roomy'
  rw [runFrom_lift, runFrom_lift, saved, saved']
  exact ⟨rfl, ⟨twins.chunks, roomy.home, twins.vectors, kept,
    keepsIndex_of_snapshot files (SnapshotStore.save_ok saved).2,
    keepsIndex_of_snapshot files' (SnapshotStore.save_ok saved').2⟩, roomy, roomy'⟩

theorem rebuild_parallel (noGpu : indexer.env.gpu.isAvailable = false)
    (rooted : tree.rootPath = place) :
    Parallel (indexer.Beside place folder) (indexer.rebuild project tree items) :=
  .bind ((Twins.add noGpu items).and (HasRoom.add noGpu items)) (fun _ =>
    .bind (saveSnapshot_parallel _ rooted) (fun _ =>
      .bind ((Twins.save _).and (HasRoom.save _)) (fun _ => .pure _)))

theorem rebuild_ok {dimension : Nat} {chunks : List Chunk}
    (noGpu : indexer.env.gpu.isAvailable = false)
    (gives : indexer.env.encoder.Gives dimension) (shows : cleared.Shows .empty)
    (has : indexer.HasRoom place folder cleared) (rooted : tree.rootPath = place) :
    ∃ result after, runFrom cleared (indexer.rebuild project tree
        (indexer.embed project chunks)) = (.ok result, after) ∧ result.success = true := by
  subst rooted
  obtain ⟨inOrder, even, described⟩ :=
    @inOrder_add_embed indexer project dimension .empty gives (.empty dimension) chunks
  obtain ⟨between, added, shows'⟩ :=
    shows.add_of_inOrder (.empty dimension) indexer.env.gpu even described
  have roomy := HasRoom.add noGpu (indexer.embed project chunks) cleared has
  rw [added] at roomy
  obtain ⟨_, snapshot⟩ := roomy.room.snapshot
  obtain ⟨_, record⟩ := roomy.room.record
  obtain ⟨world, saved, -⟩ := SnapshotStore.save_of_keeps
    (rebuiltRecord project tree (indexer.embed project chunks).length) snapshot record
  obtain ⟨after, kept, -⟩ :=
    (shows_of_saveSnapshot shows' saved).save_of_inOrder inOrder indexer.env.gpu
  refine ⟨{ RunResult.nothing with
    filesAdded := (tree.files.filter Language.isSourcePath).length
    chunksAdded := (indexer.embed project chunks).length }, after, ?_, rfl⟩
  simp only [rebuild, runFrom_bind, added, andThen_ok, runFrom_lift, saved, kept, runFrom_pure]

/-- Once it is rebuilt, an index has the tree in its snapshot. -/
theorem load_of_rebuilt (isPlace : place.IsPlace) (rooted : tree.rootPath = place)
    (ended : runFrom cleared (indexer.rebuild project tree items) = (.ok result, after)) :
    runFrom after.world (indexer.store.load indexer.env place.toString) =
      (.ok (some (.regular ⟨place, tree.root, .folderFirst⟩)), after.world) := by
  subst rooted
  obtain ⟨_, between, -, rest⟩ := runFrom_bind_ok ended
  obtain ⟨taken, kept⟩ := keeps_of_saved rest
  exact SnapshotStore.load_of_keeps (Path.hasNull_ofString_toString isPlace)
    (Path.resolve_toString isPlace _).symm isPlace.valid kept

end Rebuilding

/-- What the files of an index keep tells its statistics. -/
theorem statistics_eq {kept : Contents} (files : state.world.KeepsIndex state.chunks.folder kept) :
    runFrom state ChunkIndex.statistics =
      (.ok ((kept .statistics).getD (.record Statistics.emptyRecord)), state) := by
  have here : state.world.Keeps state.chunks.statisticsFile (kept .statistics) :=
    files .statistics
  cases kept : kept .statistics with
  | none =>
    rw [kept] at here
    simp [ChunkIndex.statistics, here.exists?]
  | some value =>
    rw [kept] at here
    simp [ChunkIndex.statistics, here.exists?, here.documentAt]

theorem chunksOf_congr {tree : DigestTree} (isPlace : place.IsPlace)
    (same : World.SameProject place first.world second.world)
    (built : runFrom first.world (DigestTree.build indexer.env.digest .standard place) =
      (.ok tree, first.world)) :
    indexer.chunksOf second.world place (tree.files.filter Language.isSourcePath) =
      indexer.chunksOf first.world place (tree.files.filter Language.isSourcePath) := by
  obtain ⟨wellFormed, wellFormed'⟩ := same.wellFormed
  refine chunksOf_eq_of_content .standard wellFormed' wellFormed isPlace
    (fun file known _ => ?_)
  obtain ⟨names, bytes, content, rfl⟩ :=
    (DigestTree.mem_files_of_build wellFormed built file).mp known
  exact ⟨names, bytes, World.contentAt_congr same.outline ▸ content, content, rfl⟩

/-- Full runs of indexes in one folder, for one project on two disks, come to the same. -/
theorem HasRoom.run_full {first second : IndexState} {path : String} {name : Value}
    (noGpu : indexer.env.gpu.isAvailable = false)
    (has : indexer.HasRoom place folder first) (has' : indexer.HasRoom place folder second)
    (resolved : runFrom first.world (World.resolve path) = (.ok place, first.world))
    (same : World.SameProject place first.world second.world) :
    ∃ result after after',
      runFrom first (indexer.run path name true) = (.ok result, after) ∧
      runFrom second (indexer.run path name true) = (.ok result, after') ∧
      Twins folder after after' ∧
      (result.success = true → ∃ tree,
        runFrom after.world (indexer.store.load indexer.env place.toString) =
          (.ok (some tree), after.world) ∧
        runFrom after'.world (indexer.store.load indexer.env place.toString) =
          (.ok (some tree), after'.world)) ∧
      ∀ dimension, indexer.env.encoder.Gives dimension → result.success = true := by
  have isPlace := same.wellFormed.1.resolve resolved
  obtain ⟨noNull, here⟩ := World.eq_of_resolve resolved
  have resolved' : runFrom second.world (World.resolve path) = (.ok place, second.world) := by
    rw [World.runFrom_resolve noNull, same.workingDirectory, here]
  obtain ⟨cleared, cleared', emptied, emptied', shows, beside, same'⟩ :=
    has.beside isPlace has' same
  obtain ⟨tree, rooted, built, built'⟩ := same'.build indexer.env.digest
  have chunks := chunksOf_congr isPlace same' built
  generalize made : indexer.chunksOf cleared.world place
    (tree.files.filter Language.isSourcePath) = parts at chunks
  have ran := @run_eq_rebuild indexer place folder first cleared tree _ path name
    same.wellFormed.1 resolved has emptied built rfl
  have ran' := @run_eq_rebuild indexer place folder second cleared' tree _ path name
    same.wellFormed.2 resolved' has' emptied' built' rfl
  rw [made] at ran
  rw [chunks] at ran'
  obtain ⟨result, after, reported⟩ := exists_reported (indexer.rebuild (projectName name place)
    tree (indexer.embed (projectName name place) parts)) cleared
  obtain ⟨answer, twins, -, -⟩ :=
    reporting_parallel (rebuild_parallel noGpu rooted) cleared cleared' beside
  rw [reported] at ran answer twins
  rcases reported' : runFrom cleared' (reporting (indexer.rebuild (projectName name place) tree
    (indexer.embed (projectName name place) parts))) with ⟨outcome, after'⟩
  rw [reported'] at ran' answer twins
  obtain rfl : outcome = .ok result := answer
  refine ⟨result, after, after', ran, ran', twins, fun success => ?_, fun dimension gives => ?_⟩
  · exact ⟨_, load_of_rebuilt isPlace rooted (runFrom_of_success reported success),
      load_of_rebuilt isPlace rooted (runFrom_of_success reported' success)⟩
  · obtain ⟨result', _, ended, success⟩ := @rebuild_ok indexer place folder cleared tree
      (projectName name place) dimension parts noGpu gives shows beside.2.1 rooted
    rw [reported_of_ok ended] at reported
    rwa [← Except.ok.inj (congrArg Prod.fst reported)]

/-- A full run leaves nothing of the past of an index.  From any two states that it can be in,
on disks that hold the same project, it comes to the same result, the same index in memory and
in the files, the same statistics and, where it comes to its end, the same tree in the
snapshot.  If the encoder gives vectors of one length it comes to its end, and so to the same
tree, whatever else the encoder refuses. -/
theorem full_run_forgets_past {first second : IndexState} {path : String} {name : Value}
    {encoder : Encoder} (noGpu : indexer.env.gpu.isAvailable = false)
    (past : indexer.Past place folder first) (past' : indexer.Past place folder second)
    (resolved : runFrom first.world (World.resolve path) = (.ok place, first.world))
    (same : World.SameProject place first.world second.world) :
    ∃ result after after',
      runFrom first (indexer.perform ⟨path, name, true, encoder⟩) = (.ok result, after) ∧
      runFrom second (indexer.perform ⟨path, name, true, encoder⟩) = (.ok result, after') ∧
      after'.chunks = after.chunks ∧
      (∃ kept, after.world.KeepsIndex folder kept ∧ after'.world.KeepsIndex folder kept) ∧
      (∃ statistics, runFrom after ChunkIndex.statistics = (.ok statistics, after) ∧
        runFrom after' ChunkIndex.statistics = (.ok statistics, after')) ∧
      (result.success = true ∨ (∃ dimension, encoder.Gives dimension) → ∃ tree,
        runFrom after.world (indexer.store.load indexer.env place.toString) =
          (.ok (some tree), after.world) ∧
        runFrom after'.world (indexer.store.load indexer.env place.toString) =
          (.ok (some tree), after'.world)) ∧
      ∀ dimension, encoder.Gives dimension → result.success = true := by
  have has := (HasRoom.withEncoder encoder).mpr (past.hasRoom noGpu)
  have has' := (HasRoom.withEncoder encoder).mpr (past'.hasRoom noGpu)
  obtain ⟨result, after, after', ran, ran', twins, stored, succeeds⟩ :=
    @HasRoom.run_full (indexer.withEncoder encoder) place folder first second path name noGpu
      has has' resolved same
  obtain ⟨kept, files, files'⟩ := twins.files
  have here' : after'.chunks.folder = folder := by rw [twins.chunks, twins.home.folder]
  refine ⟨result, after, after', ran, ran', twins.chunks, ⟨kept, files, files'⟩, ⟨_,
    statistics_eq (twins.home.folder.symm ▸ files), statistics_eq (here'.symm ▸ files')⟩, ?_,
    succeeds⟩
  rintro (success | ⟨dimension, gives⟩)
  · exact stored success
  · exact stored (succeeds dimension gives)

/-- An index that was just opened, and one that has a file and a snapshot of it. -/
theorem fresh_and_used_index_rebuilt_alike : ∃ first second result after after',
    Sample.indexer.Past Sample.place Sample.folder first ∧
    Sample.indexer.Past Sample.place Sample.folder second ∧
    World.SameProject Sample.place first.world second.world ∧
    first.chunks.names = [] ∧ "a.py:1-1:module" ∈ second.chunks.names ∧
    runFrom first (Sample.indexer.perform (Sample.call true)) = (.ok result, after) ∧
    runFrom second (Sample.indexer.perform (Sample.call true)) = (.ok result, after') ∧
    after'.chunks = after.chunks ∧ result.success = true := by
  have proper := Sample.proper_lone "x"
  obtain ⟨_, _, -, -, inFolder, -⟩ := Sample.indexed_ready proper
  have edited := Sample.edited_revised proper inFolder
  have noGpu : Sample.indexer.env.gpu.isAvailable = false := rfl
  have room : ∀ sources, Sample.indexer.Room Sample.place Sample.folder
      (Sample.world sources (fun _ => none) none none) := fun _ =>
    ⟨⟨_, Sample.keepsIndex_world⟩, ⟨_, Sample.keepsSnapshot_world⟩,
      ⟨_, Sample.keepsRecord_world⟩⟩
  have past := Past.of_reached noGpu (.opened (room [])) (Sample.reached_indexed proper)
  have used := past.edited (edited.room (past.hasRoom noGpu))
  have same : World.SameProject Sample.place
      (Sample.world (Sample.lone "x") (fun _ => none) none none)
      (Sample.revised (Sample.indexed (Sample.lone "x")).world (Sample.lone "x")) := by
    have wellFormed := fun kept snapshot record => @Sample.wellFormed_world (Sample.lone "x") kept
      snapshot record proper.single proper.valid
    exact ⟨rfl, ⟨wellFormed _ _ _, wellFormed _ _ _⟩,
      ⟨⟨_, Sample.lookUp_world⟩, ⟨_, Sample.lookUp_world⟩⟩, rfl⟩
  obtain ⟨result, after, after', ran, ran', chunks, -, -, -, success⟩ :=
    @full_run_forgets_past Sample.indexer Sample.place Sample.folder _ _ "/project"
      (.ofText? (some "project")) Sample.environment.encoder noGpu (.opened (room _)) used
      (Sample.resolve_project _) same
  refine ⟨_, _, result, after, after', .opened (room _), used, same, rfl, ?_, ran, ran', chunks,
    success 1 Sample.gives_encoder⟩
  decide +kernel

end Indexer

end CodeAtlas
