import CodeAtlas.Proofs.Indexing.Chunks

/-!
# What a run leaves in the index

After a run the live records are the entries of tracked source files, and the snapshot is
that of the tree which the run saw.  A full run gives the entries of all files.  A run on
changes gives those of the changed files, and keeps of the others those whose paths do not
overlap with that of a removed or modified file.
-/

namespace CodeAtlas

variable {start : IndexState} {record : Record} {names : List String} {bytes : ByteArray}
  {chunk : Chunk}

theorem DigestTree.build_ok {digest : DigestFunction} {rules : IgnoreRules} {place : Path}
    {world after : World} {tree : DigestTree}
    (result : runFrom world (DigestTree.build digest rules place) = (.ok tree, after)) :
    after = world ∧ tree = .ofFiles digest rules place (world.entryAt? place) := by
  cases found : world.lookUp place with
  | ok files =>
    rw [runFrom_build digest rules found] at result
    obtain ⟨same, rfl⟩ := Prod.mk.inj result
    refine ⟨rfl, ?_⟩
    rw [← Except.ok.inj same, World.entryAt?, found]
  | error fault =>
    unfold build at result
    split at result
    · obtain ⟨same, rfl⟩ := Prod.mk.inj result
      refine ⟨rfl, ?_⟩
      rw [← Except.ok.inj same, World.entryAt?, found]
    · simp [World.find, found] at result

/-- A tree that was built lists the tracked files. -/
theorem DigestTree.mem_files_of_build {digest : DigestFunction} {rules : IgnoreRules}
    {place : Path} {world : World} {tree : DigestTree} (wellFormed : world.WellFormed)
    (built : runFrom world (DigestTree.build digest rules place) = (.ok tree, world))
    (file : String) :
    file ∈ tree.files ↔ ∃ names bytes, world.contentAt rules place names = some bytes ∧
      file = trackedPath names := by
  obtain ⟨-, rfl⟩ := DigestTree.build_ok built
  rw [DigestTree.ofFiles_eq, mem_files_ofProject (trackedProject_wellFormed wellFormed.entryAt?)]
  rfl

theorem World.wellFormed_discard (path : Path) :
    Preserves World.WellFormed (World.discard path) := by
  intro world wellFormed
  have delete : (runFrom world (World.deleteFile path)).2.WellFormed := by
    cases located : world.locate path with
    | error fault => simpa [World.deleteFile, located] using wellFormed
    | ok names =>
      cases found : world.disk.find? names with
      | none => simpa [World.deleteFile, located, found] using wellFormed
      | some entry =>
        cases entry with
        | folder entries => simpa [World.deleteFile, located, found] using wellFormed
        | file stored =>
          have erased : World.WellFormed { world with disk := world.disk.erase names } :=
            ⟨wellFormed.disk.erase names, wellFormed.workingDirectory⟩
          simpa [World.deleteFile, located, found] using erased
  cases found : world.lookUp path with
  | error fault => simpa [World.discard, World.exists?, World.find, found] using wellFormed
  | ok entry =>
    cases entry with
    | none => simpa [World.discard, World.exists?, World.find, found] using wellFormed
    | some entry => simpa [World.discard, World.exists?, World.find, found] using delete

theorem ChunkIndex.wellFormed_clear :
    Preserves (fun state : IndexState => state.world.WellFormed) ChunkIndex.clear := by
  have lifted : ∀ path, Preserves (fun state : IndexState => state.world.WellFormed)
      (World.discard path : IndexAct Unit) := by
    intro path state wellFormed
    rw [runFrom_lift]
    exact World.wellFormed_discard path state.world wellFormed
  have all : ∀ paths : List Path, Preserves (fun state : IndexState => state.world.WellFormed)
      (paths.forM (fun path => (World.discard path : IndexAct Unit))) := by
    intro paths
    induction paths with
    | nil => exact .pure _
    | cons path paths ih => exact .bind (lifted path) (fun _ => ih)
  refine .bind (fun _ wellFormed => wellFormed) (fun _ => .bind (fun _ wellFormed => wellFormed)
    (fun chunks => .bind (all _) (fun _ => ?_)))
  exact fun _ wellFormed => wellFormed

namespace LooseChanges

theorem texts?_ofChanges (changes : Changes) : (ofChanges changes).texts? = some changes := by
  have each : ∀ texts : List String, (texts.map Value.text).mapM Value.asText? = some texts := by
    intro texts
    rw [List.mapM_map]
    exact List.mapM_pure.trans (congrArg some (List.map_id texts))
  simp [texts?, ofChanges, each]

theorem toRemove_ofChanges (changes : Changes) :
    (ofChanges changes).toRemove = .ok (changes.toRemove.map .text) := by
  rw [toRemove, texts?_ofChanges]

theorem toReindex_ofChanges (changes : Changes) :
    (ofChanges changes).toReindex = .ok (changes.toReindex.map .text) := by
  rw [toReindex, texts?_ofChanges]

theorem mapM_needText (texts : List String) :
    (texts.map Value.text).mapM Value.needText = .ok texts := by
  rw [List.mapM_map]
  exact List.mapM_pure.trans (congrArg Except.ok (List.map_id texts))

end LooseChanges

namespace SnapshotStore

variable {env : Environment} {store : SnapshotStore} {taken : String} {world after : World}
  {changes : LooseChanges}

private theorem changesSince_ok {project : String} {tree tree' : DigestTree}
    (noNull : (Path.ofString project).hasNull = false)
    (same : tree.rootPath = (Path.ofString project).resolve world.workingDirectory)
    (valid : ∀ part ∈ tree.rootPath.parts, ValidName part)
    (keeps : world.Keeps (store.snapshotFile env tree.rootPath)
      (some (treeDocument taken tree.toValue)))
    (result : runFrom world (store.changesSince env project) = (.ok (changes, tree'), after)) :
    after = world ∧ tree' = .ofFiles env.digest (store.rulesFor project) tree.rootPath
        (world.entryAt? tree.rootPath) ∧
      changes = .ofChanges (Changes.between ⟨tree.rootPath, tree.root, .folderFirst⟩ tree') := by
  obtain ⟨present, between, first, rest⟩ := runFrom_bind_ok result
  have built : runFrom world (DigestTree.build env.digest (store.rulesFor project)
      tree.rootPath) = (.ok present, between) := by
    simpa [presentTree, World.runFrom_resolve noNull, ← same] using first
  obtain ⟨rfl, rfl⟩ := DigestTree.build_ok built
  simp only [runFrom_bind, load_of_keeps noNull same valid keeps, andThen_ok,
    KeptTree.changesTo, runFrom_orFail, runFrom_pure, Prod.mk.injEq, Except.ok.injEq] at rest
  obtain ⟨⟨rfl, rfl⟩, rfl⟩ := rest
  exact ⟨rfl, rfl, rfl⟩

section Told

variable {place : Path} {rules : IgnoreRules} {files : Option (FileTree Stored)}
  {tree : DigestTree} {old new : FileContents} (isPlace : place.IsPlace)
  (keeps : world.Keeps (store.snapshotFile env place)
    (some (treeDocument taken (DigestTree.ofFiles env.digest rules place files).toValue)))
  (oldWellFormed : ∀ tree ∈ files, tree.WellFormed) (wellFormed : world.WellFormed)
  (before : old = trackedContent rules (trackedProject rules place files))
  (now : new = world.contentAt (store.rulesFor place.toString) place)

include isPlace keeps oldWellFormed wellFormed before now

/-- The changes since a snapshot, told by the digests of the files then and now. -/
theorem changesSince_digests (result : runFrom world (store.changesSince env place.toString) =
      (.ok (changes, tree), after)) :
    after = world ∧ tree = .ofFiles env.digest (store.rulesFor place.toString) place
        (world.entryAt? place) ∧
      ∃ found : Changes, changes = .ofChanges found ∧
        (found.hasChanges = false ↔
          ∀ names, (old names).map env.digest = (new names).map env.digest) ∧
        (∀ file, file ∈ found.toRemove ↔ ∃ names, old names ≠ none ∧
          (old names).map env.digest ≠ (new names).map env.digest ∧ file = trackedPath names) ∧
        (∀ file, file ∈ found.toReindex ↔ ∃ names bytes, new names = some bytes ∧
          (old names).map env.digest ≠ (new names).map env.digest ∧
            file = trackedPath names) := by
  subst before now
  have noNull := Path.hasNull_ofString_toString isPlace
  have here : (DigestTree.ofFiles env.digest rules place files).rootPath =
      (Path.ofString place.toString).resolve world.workingDirectory :=
    (Path.resolve_toString isPlace _).symm
  obtain ⟨rfl, rfl, rfl⟩ := changesSince_ok noNull here isPlace.valid keeps result
  have oldFiles : ∀ tree ∈ trackedProject rules place files, tree.WellFormed :=
    trackedProject_wellFormed oldWellFormed
  have newFiles : ∀ tree ∈ trackedProject (store.rulesFor place.toString) place
      (after.entryAt? place), tree.WellFormed :=
    trackedProject_wellFormed wellFormed.entryAt?
  refine ⟨rfl, rfl, _, rfl, ?_, fun file => ?_, fun file => ?_⟩
  all_goals
    rw [DigestTree.ofFiles_eq, DigestTree.ofFiles_eq]
  · exact Changes.hasChanges_digests place .folderFirst .childrenFirst oldFiles newFiles
  · exact Changes.mem_toRemove_digests place .folderFirst .childrenFirst oldFiles newFiles
  · exact Changes.mem_toReindex_digests place .folderFirst .childrenFirst oldFiles newFiles

/-- The changes since a snapshot, told by the contents of the files then and now. -/
theorem changesSince_content
    (distinct : ∀ names bytes bytes', old names = some bytes → new names = some bytes' →
      env.digest bytes = env.digest bytes' → bytes = bytes')
    (result : runFrom world (store.changesSince env place.toString) =
      (.ok (changes, tree), after)) :
    after = world ∧ tree = .ofFiles env.digest (store.rulesFor place.toString) place
        (world.entryAt? place) ∧
      ∃ found : Changes, changes = .ofChanges found ∧
        (found.hasChanges = false ↔ ∀ names, old names = new names) ∧
        (∀ file, file ∈ found.toRemove ↔ ∃ names, old names ≠ none ∧ old names ≠ new names ∧
          file = trackedPath names) ∧
        (∀ file, file ∈ found.toReindex ↔ ∃ names bytes, new names = some bytes ∧
          old names ≠ new names ∧ file = trackedPath names) := by
  have told := changesSince_digests isPlace keeps oldWellFormed wellFormed before now result
  simpa only [ne_eq, map_digest_eq_iff (distinct _)] using told

end Told

end SnapshotStore

theorem SnapshotStore.has_snd (store : SnapshotStore) (env : Environment) (project : String)
    (world : World) : (runFrom world (store.has env project)).2 = world := by
  cases null : (Path.ofString project).hasNull with
  | true => simp [has, World.resolve, null]
  | false => simp [has, World.runFrom_resolve null world, World.exists?_snd]

namespace Indexer

open IndexState

variable {indexer : Indexer} {place : Path} {state after : IndexState} {live : LiveRecords}

theorem removeFiles_lists {project : Value} {files : List Value} {count : Nat}
    (lists : state.Lists live)
    (result : runFrom state (removeFiles project files) = (.ok count, after)) :
    Lists (fun identifier => (live identifier).filter (fun record =>
      files.all (fun file => !Catalog.isOwned file project record))) after := by
  induction files generalizing state live count with
  | nil =>
    obtain rfl : state = after := congrArg Prod.snd result
    have all : (fun identifier => (live identifier).filter (fun _ => true)) = live := by
      funext identifier
      cases live identifier <;> rfl
    simpa [all] using lists
  | cons file files ih =>
    rw [removeFiles] at result
    obtain ⟨first, between, removed, later⟩ := runFrom_bind_ok result
    obtain ⟨second, last, removed', same⟩ := runFrom_bind_ok later
    obtain rfl : last = after := congrArg Prod.snd same
    have done := ih (lists.removeFile removed) removed'
    simpa [Option.filter_filter, and_comm] using done

theorem removeFiles_follows (project : Value) (files : List Value) :
    Preserves start.Follows (removeFiles project files) := by
  induction files with
  | nil => exact .pure _
  | cons file files ih =>
    exact .bind (Follows.removeFile file project) (fun _ => .bind ih (fun _ => .pure _))

theorem addFiles_follows {start : IndexState} (project : Value) (files : List String) :
    Preserves start.Follows (indexer.addFiles place project files) :=
  .bind (fun _ follows => follows) (fun _ => .bind (Follows.add _ _) (fun _ => .pure _))

theorem addFiles_lists {project : Value} {files : List String} {counts : Nat × Nat}
    (total : indexer.env.encoder.IsTotal) (lists : state.Lists live)
    (result : runFrom state (indexer.addFiles place project files) = (.ok counts, after)) :
    Lists (fun identifier =>
      (((indexer.chunksOf state.world place (files.filter Language.isSourcePath)).map
        (Chunk.entry project)).reverse.lookup identifier).or (live identifier)) after := by
  simp only [addFiles, runFrom_bind, runFrom_getThe, andThen_ok] at result
  obtain ⟨_, between, added, same⟩ := andThen_eq_ok_iff.mp result
  obtain rfl : between = after := congrArg Prod.snd same
  have done := lists.add added
  rwa [embed_entries (total.answers _)] at done

/-- Names of files in which snapshots are kept are longer than those of the index. -/
theorem keptName_ne {ending : String} (long : 13 < ending.length) (id : String)
    (file : KeptFile) : file.name ≠ id ++ ending := by
  intro same
  have sizes := congrArg String.length same
  rw [String.length_append] at sizes
  have short : file.name.length ≤ 13 := by cases file <;> decide
  omega

theorem not_spots_snapshotFile (names : List String)
    (located : state.world.locate (indexer.store.snapshotFile indexer.env place) = .ok names) :
    ¬ state.Spots names := by
  rintro ⟨file, leads⟩
  exact World.notLeadsTo_of_ne file.name_notUp (SnapshotStore.snapshotName_ne_up _)
    (keptName_ne (by decide) _ file).symm names located leads

theorem not_spots_recordFile (names : List String)
    (located : state.world.locate (indexer.store.recordFile indexer.env place) = .ok names) :
    ¬ state.Spots names := by
  rintro ⟨file, leads⟩
  exact World.notLeadsTo_of_ne file.name_notUp (SnapshotStore.recordName_ne_up _)
    (keptName_ne (by decide) _ file).symm names located leads

theorem keepsIndex_of_snapshot {store : SnapshotStore} {env : Environment} {folder : Path}
    {kept : Contents} {world later : World} (files : world.KeepsIndex folder kept)
    (same : World.SameApart (store.Spots env place world) world later) :
    later.KeepsIndex folder kept := by
  refine fun file => (files file).apart same (fun names located spot => ?_)
  rcases spot with snapshot | described
  · exact World.notLeadsTo_of_ne (SnapshotStore.snapshotName_ne_up _) file.name_notUp
      (keptName_ne (by decide) _ file) names located snapshot
  · exact World.notLeadsTo_of_ne (SnapshotStore.recordName_ne_up _) file.name_notUp
      (keptName_ne (by decide) _ file) names located described

theorem shows_of_saveSnapshot {view : IndexView} {tree : DigestTree} {world : World}
    (shows : state.Shows view)
    (result : runFrom state.world (indexer.store.save indexer.env tree record) =
      (.ok (), world)) : Shows view { state with world } :=
  shows.edited (fun _ files => keepsIndex_of_snapshot files (SnapshotStore.save_ok result).2)

theorem keeps_of_saved {tree : DigestTree} {result outcome : RunResult} (ended : runFrom state (do
      indexer.store.save indexer.env tree record
      ChunkIndex.save indexer.env.gpu
      return outcome) = (.ok result, after)) :
    ∃ taken, after.world.Keeps (indexer.store.snapshotFile indexer.env tree.rootPath)
      (some (SnapshotStore.treeDocument taken tree.toValue)) := by
  obtain ⟨_, between, first, second⟩ := runFrom_bind_ok ended
  obtain ⟨_, last, third, same⟩ := runFrom_bind_ok second
  obtain rfl : last = after := congrArg Prod.snd same
  obtain ⟨world, written, rfl⟩ := runFrom_lift_ok first
  obtain ⟨⟨taken, kept⟩, -⟩ := SnapshotStore.save_ok written
  have follows := (Follows.save indexer.env.gpu).after (Follows.refl { state with world }) third
  exact ⟨taken, kept.apart follows.world
    (@not_spots_snapshotFile indexer tree.rootPath { state with world })⟩

theorem lists_of_saved {tree : DigestTree} {result outcome : RunResult}
    (lists : state.Lists live) (ended : runFrom state (do
      indexer.store.save indexer.env tree record
      ChunkIndex.save indexer.env.gpu
      return outcome) = (.ok result, after)) : Lists live after := by
  obtain ⟨_, between, first, second⟩ := runFrom_bind_ok ended
  obtain ⟨_, last, third, same⟩ := runFrom_bind_ok second
  obtain rfl : last = after := congrArg Prod.snd same
  obtain ⟨world, written, rfl⟩ := runFrom_lift_ok first
  obtain ⟨view, shows, seen, named⟩ := lists
  have shows' := (shows_of_saveSnapshot shows written).save indexer.env.gpu
  rw [third] at shows'
  exact ⟨view, shows', seen, named⟩

/-- Chunks of different files have different identifiers. -/
def IdentifiersApart (indexer : Indexer) (place : Path) (content : FileContents) : Prop :=
  ∀ names names' bytes bytes', content names = some bytes → content names' = some bytes' →
    ∀ chunk ∈ indexer.chunksAt place names bytes,
      ∀ chunk' ∈ indexer.chunksAt place names' bytes',
        chunk.identifier = chunk'.identifier → names = names'

theorem exists_chunk_of_lookup {project : Value} {identifier : String}
    (looked : (indexer.entriesAt place project names bytes).reverse.lookup identifier =
      some record) :
    ∃ chunk ∈ indexer.chunksAt place names bytes,
      chunk.entry project = (identifier, record) :=
  List.mem_map.mp (List.mem_reverse.mp (Table.mem_of_lookup looked))

theorem isSource_of_mem_chunksAt (member : chunk ∈ indexer.chunksAt place names bytes) :
    Language.isSourcePath (trackedPath names) = true := by
  unfold chunksAt at member
  split at member
  · rename_i both
    exact (Bool.and_eq_true_iff.mp both).1
  · cases member

section Place

variable (isPlace : place.IsPlace)

include isPlace

/-- A chunk of a tracked file is one of those that a run makes of its files. -/
theorem mem_chunksOf {rules : IgnoreRules} {files : List String}
    (wellFormed : start.world.WellFormed)
    (held : start.world.contentAt rules place names = some bytes)
    (listed : trackedPath names ∈ files) (member : chunk ∈ indexer.chunksAt place names bytes) :
    chunk ∈ indexer.chunksOf start.world place (files.filter Language.isSourcePath) := by
  have source := isSource_of_mem_chunksAt member
  refine List.mem_flatMap.mpr ⟨_, List.mem_filter.mpr ⟨listed, source⟩, ?_⟩
  rwa [chunksOfFile_of_tracked (.refl start) wellFormed isPlace held source]

/-- The chunks of files of a project are those of the files that were chosen. -/
theorem mem_identifiers_iff {start : IndexState} {rules : IgnoreRules} {files : List String}
    {chosen : List String → ByteArray → Prop} (wellFormed : start.world.WellFormed)
    (listed : ∀ file, file ∈ files ↔ ∃ names bytes,
      start.world.contentAt rules place names = some bytes ∧ chosen names bytes ∧
        file = trackedPath names) (identifier : String) :
    identifier ∈ (indexer.chunksOf start.world place
        (files.filter Language.isSourcePath)).map Chunk.identifier ↔
      ∃ names bytes, start.world.contentAt rules place names = some bytes ∧
        chosen names bytes ∧
        ∃ chunk ∈ indexer.chunksAt place names bytes, chunk.identifier = identifier := by
  rw [List.mem_map]
  constructor
  · rintro ⟨chunk, member, same⟩
    obtain ⟨file, known, made⟩ := List.mem_flatMap.mp member
    obtain ⟨known, source⟩ := List.mem_filter.mp known
    obtain ⟨names, bytes, held, taken, rfl⟩ := (listed file).mp known
    rw [chunksOfFile_of_tracked (.refl start) wellFormed isPlace held source] at made
    exact ⟨names, bytes, held, taken, chunk, made, same⟩
  · rintro ⟨names, bytes, held, taken, chunk, made, same⟩
    have known := (listed _).mpr ⟨names, bytes, held, taken, rfl⟩
    exact ⟨chunk, mem_chunksOf isPlace wellFormed held known made, same⟩

/-- What is found among the entries of the chosen files is an entry of one of them. -/
theorem lookup_entries {start : IndexState} {rules : IgnoreRules} {project : Value}
    {files : List String} {chosen : List String → Prop} (follows : start.Follows state)
    (wellFormed : start.world.WellFormed)
    (apart : indexer.IdentifiersApart place (start.world.contentAt rules place))
    (listed : ∀ file, file ∈ files ↔ ∃ names bytes,
      start.world.contentAt rules place names = some bytes ∧ chosen names ∧
        file = trackedPath names) {identifier : String} {record : Record} :
    ((indexer.chunksOf state.world place (files.filter Language.isSourcePath)).map
        (Chunk.entry project)).reverse.lookup identifier = some record ↔
      ∃ names bytes, start.world.contentAt rules place names = some bytes ∧ chosen names ∧
        (indexer.entriesAt place project names bytes).reverse.lookup identifier =
          some record := by
  rw [chunksOf, List.map_flatMap]
  generalize made : (fun file => (chunksOfFile indexer.env state.world indexer.root
    (place ++ Path.ofString file).toString).map (Chunk.entry project)) = parts
  have each : ∀ {names : List String} {bytes : ByteArray},
      start.world.contentAt rules place names = some bytes →
      Language.isSourcePath (trackedPath names) = true →
        parts (trackedPath names) = indexer.entriesAt place project names bytes := by
    intro names bytes content source
    rw [← made, entriesAt,
      ← chunksOfFile_of_tracked follows wellFormed isPlace content source]
  rw [Table.lookup_reverse_flatMap]
  · constructor
    · rintro ⟨file, member, looked⟩
      obtain ⟨known, source⟩ := List.mem_filter.mp member
      obtain ⟨names, bytes, content, taken, rfl⟩ := (listed file).mp known
      rw [each content source] at looked
      exact ⟨names, bytes, content, taken, looked⟩
    · rintro ⟨names, bytes, content, taken, looked⟩
      obtain ⟨chunk, inside, -⟩ := exists_chunk_of_lookup looked
      have source := isSource_of_mem_chunksAt inside
      refine ⟨trackedPath names, List.mem_filter.mpr ⟨?_, source⟩, ?_⟩
      · exact (listed _).mpr ⟨names, bytes, content, taken, rfl⟩
      · rw [each content source]
        exact looked
  · -- An identifier tells the file of its chunk.
    intro first member second member' here here'
    obtain ⟨known, source⟩ := List.mem_filter.mp member
    obtain ⟨known', source'⟩ := List.mem_filter.mp member'
    obtain ⟨names, bytes, content, -, rfl⟩ := (listed first).mp known
    obtain ⟨names', bytes', content', -, rfl⟩ := (listed second).mp known'
    rw [each content source, entriesAt, List.map_map, List.mem_map] at here
    rw [each content' source', entriesAt, List.map_map, List.mem_map] at here'
    obtain ⟨chunk, inside, same⟩ := here
    obtain ⟨chunk', inside', same'⟩ := here'
    rw [apart names names' bytes bytes' content content' chunk inside chunk' inside'
      (same.trans same'.symm)]

/-- A chunk of a file is found under the path of another one exactly if the two paths
overlap. -/
theorem isOwned_of_mem_chunksAt (validNames : ∀ part ∈ names, ValidName part)
    (member : chunk ∈ indexer.chunksAt place names bytes) (project content : String)
    (other : List String) :
    Catalog.isOwned (.text (trackedPath other)) (.text project)
        (chunk.recordIn (.text project) content) = place.overlaps other names := by
  have path := filePath_of_mem_chunksAt isPlace validNames member
  have notEmpty : chunk.filePath ≠ "" := by
    have absolute : (place.below names).anchor = .root := isPlace.absolute
    rw [path, Path.toString_absolute absolute]
    intro empty
    have start := congrArg String.toList empty
    simp at start
  rw [Chunk.isOwned_recordIn _ _ _ notEmpty, path, Path.overlaps]

theorem overlaps_of_mem_chunksAt (validNames : ∀ part ∈ names, ValidName part)
    (member : chunk ∈ indexer.chunksAt place names bytes) :
    place.overlaps names names = true := by
  have notRoot : names ≠ [] := by
    rintro rfl
    exact absurd (isSource_of_mem_chunksAt member) (by decide)
  exact Path.overlaps_self isPlace.absolute validNames notRoot

end Place

theorem has_of_keeps {world : World} {document : Option Value} (isPlace : place.IsPlace)
    (kept : world.Keeps (indexer.store.snapshotFile indexer.env place) document) :
    runFrom world (indexer.store.has indexer.env place.toString) =
      (.ok document.isSome, world) := by
  simp [SnapshotStore.has, World.resolve_place isPlace, kept.exists?]

/-- A run that succeeds is a full one that was asked for or had to be, or a run on changes. -/
theorem run_cases {path : String} {name : Value} {full : Bool} {result : RunResult}
    (ended : runFrom state (indexer.run path name full) = (.ok result, after))
    (success : result.success = true)
    (here : (Path.ofString path).resolve state.world.workingDirectory = place) :
    (Path.ofString path).hasNull = false ∧
      ((full = true ∨
          (runFrom state.world (indexer.store.has indexer.env place.toString)).1 = .ok false) ∧
        runFrom state (indexer.fullRun place (projectName name place)) = (.ok result, after) ∨
      full = false ∧
        (runFrom state.world (indexer.store.has indexer.env place.toString)).1 = .ok true ∧
        runFrom state (indexer.changeRun place (projectName name place)) =
          (.ok result, after)) := by
  have noNull : (Path.ofString path).hasNull = false := by
    cases null : (Path.ofString path).hasNull with
    | false => rfl
    | true => simp [run, World.resolve, null] at ended
  refine ⟨noNull, ?_⟩
  have same := indexer.store.has_snd indexer.env place.toString state.world
  rcases asked : runFrom state.world (indexer.store.has indexer.env place.toString) with
    ⟨fault | has, world⟩
  all_goals
    obtain rfl : world = state.world := by rw [← same, asked]
    simp only [run, runFrom_bind, runFrom_lift, World.runFrom_resolve noNull, andThen_ok, here,
      runFrom_tryCatch, asked] at ended
  · obtain rfl := Except.ok.inj (congrArg Prod.fst ended)
    cases success
  · split at ended
    · rename_i inner
      obtain ⟨rfl, rfl⟩ : _ = result ∧ _ = after := by simpa using ended
      cases full <;> cases has <;> simpa using inner
    · obtain rfl := Except.ok.inj (congrArg Prod.fst ended)
      cases success

theorem exists_projectName (name : Option String) (place : Path) :
    ∃ project, projectName (.ofText? name) place = .text project := by
  unfold projectName
  split
  · rename_i given
    cases name with
    | none => cases given
    | some name => exact ⟨name, rfl⟩
  · exact ⟨place.name, rfl⟩

/-- The snapshot of a project tells what its tracked files held, or there is none. -/
def Remembers (indexer : Indexer) (place : Path) (world : World) : Option FileContents → Prop
  | none => world.Keeps (indexer.store.snapshotFile indexer.env place) none
  | some content => ∃ taken rules files, world.Keeps
        (indexer.store.snapshotFile indexer.env place)
        (some (SnapshotStore.treeDocument taken
          (DigestTree.ofFiles indexer.env.digest rules place files).toValue)) ∧
      (∀ tree ∈ files, tree.WellFormed) ∧
        content = trackedContent rules (trackedProject rules place files)

/-- The live records are the entries of the spared files of a project, and the snapshot
tells what its files held. -/
structure Reflects (indexer : Indexer) (place : Path) (project : String)
    (content : FileContents) (spared : List String → Prop) (state : IndexState) : Prop where
  listed : ∃ live, state.Lists live ∧ ∀ identifier record, live identifier = some record ↔
    ∃ names bytes, content names = some bytes ∧ spared names ∧
      (indexer.entriesAt place (.text project) names bytes).reverse.lookup identifier =
        some record
  snapshot : indexer.Remembers place state.world (some content)

section Runs

variable (isPlace : place.IsPlace)
  (total : indexer.env.encoder.IsTotal) {project : String} {result : RunResult}

include isPlace total

/-- A full run that succeeds gives the entries of all files that it finds. -/
theorem fullRun_reflects {kept : Contents} (files : start.world.KeepsIndex start.chunks.folder kept)
    (wellFormed : (runFrom start ChunkIndex.clear).2.world.WellFormed)
    (apart : indexer.IdentifiersApart place
      ((runFrom start ChunkIndex.clear).2.world.contentAt .standard place))
    (ended : runFrom start (indexer.fullRun place (.text project)) = (.ok result, after)) :
    indexer.Reflects place project
      ((runFrom start ChunkIndex.clear).2.world.contentAt .standard place) (fun _ => True)
      after := by
  have lists := Lists.clear files
  obtain ⟨_, cleared, first, rest⟩ := runFrom_bind_ok ended
  rw [first] at lists wellFormed apart ⊢
  obtain ⟨tree, built, second, rest'⟩ := runFrom_bind_ok rest
  obtain ⟨_, looked, rfl⟩ := runFrom_lift_ok second
  obtain ⟨rfl, rfl⟩ := DigestTree.build_ok looked
  obtain ⟨counts, added, third, last⟩ := runFrom_bind_ok rest'
  have lists' := lists_of_saved (addFiles_lists total lists third) last
  obtain ⟨taken, kept'⟩ := keeps_of_saved last
  refine ⟨⟨_, lists', fun identifier record => ?_⟩, taken, .standard, _, kept',
    wellFormed.entryAt?, rfl⟩
  rw [Option.or_none]
  refine lookup_entries isPlace (Follows.refl cleared) wellFormed apart (fun file => ?_)
  rw [DigestTree.ofFiles_eq, mem_files_ofProject
    (trackedProject_wellFormed wellFormed.entryAt?)]
  simp [World.contentAt]

/-- The files whose entries are there after a run on changes: those that changed, and those
that were spared before and do not overlap with one that was removed or modified. -/
def Spares (place : Path) (old new : FileContents) (spared : List String → Prop)
    (names : List String) : Prop :=
  old names ≠ new names ∨ spared names ∧ ∀ other, old other ≠ none → old other ≠ new other →
    place.overlaps other names = false

omit total in
/-- Where the entries of changed files come in and those found under a removed or modified
file go, the entries of the spared files are left. -/
theorem entries_after_changes {old new : FileContents} {spared : List String → Prop}
    {live added : LiveRecords} {stays : Record → Bool}
    (validOld : ∀ names bytes, old names = some bytes → ∀ part ∈ names, ValidName part)
    (apart : indexer.IdentifiersApart place new)
    (before : ∀ identifier record, live identifier = some record ↔
      ∃ names bytes, old names = some bytes ∧ spared names ∧
        (indexer.entriesAt place (.text project) names bytes).reverse.lookup identifier =
          some record)
    (added_iff : ∀ identifier record, added identifier = some record ↔
      ∃ names bytes, new names = some bytes ∧ old names ≠ new names ∧
        (indexer.entriesAt place (.text project) names bytes).reverse.lookup identifier =
          some record)
    (stays_iff : ∀ record, stays record = true ↔ ∀ other, old other ≠ none →
      old other ≠ new other →
        Catalog.isOwned (.text (trackedPath other)) (.text project) record = false)
    (identifier : String) (record : Record) :
    (added identifier).or ((live identifier).filter stays) = some record ↔
      ∃ names bytes, new names = some bytes ∧ Spares place old new spared names ∧
        (indexer.entriesAt place (.text project) names bytes).reverse.lookup identifier =
          some record := by
  have untouched : ∀ {names : List String} {bytes : ByteArray}, old names = some bytes →
      (indexer.entriesAt place (.text project) names bytes).reverse.lookup identifier =
        some record →
      (stays record = true ↔ ∀ other, old other ≠ none → old other ≠ new other →
        place.overlaps other names = false) := by
    intro names bytes content looked
    obtain ⟨chunk, member, same⟩ := exists_chunk_of_lookup looked
    have owned := isOwned_of_mem_chunksAt isPlace (validOld names bytes content) member
      project chunk.content
    rw [show chunk.recordIn (.text project) chunk.content = record from
      congrArg Prod.snd same] at owned
    simp only [stays_iff, owned]
  constructor
  · intro found
    cases new? : added identifier with
    | some record' =>
      rw [new?, Option.some_or] at found
      obtain ⟨names, bytes, content, changed, looked⟩ :=
        (added_iff identifier record).mp (new?.trans found)
      exact ⟨names, bytes, content, .inl changed, looked⟩
    | none =>
      rw [new?, Option.none_or, Option.filter_eq_some_iff] at found
      obtain ⟨known, remains⟩ := found
      obtain ⟨names, bytes, content, spared', looked⟩ := (before identifier record).mp known
      have apartFrom := (untouched content looked).mp remains
      -- The entries of a file that changed are found under its own path.
      have same : old names = new names := by
        by_contra changed
        obtain ⟨chunk, member, -⟩ := exists_chunk_of_lookup looked
        have overlaps := overlaps_of_mem_chunksAt isPlace (validOld names bytes content) member
        rw [apartFrom names (by simp [content]) changed] at overlaps
        cases overlaps
      exact ⟨names, bytes, same ▸ content, .inr ⟨spared', apartFrom⟩, looked⟩
  · rintro ⟨names, bytes, content, spares, looked⟩
    by_cases changed : old names = new names
    · obtain ⟨spared', apartFrom⟩ := spares.resolve_left (fun different => different changed)
      have none : added identifier = none := by
        rw [Option.eq_none_iff_forall_ne_some]
        intro record' found
        obtain ⟨names', bytes', content', changed', looked'⟩ :=
          (added_iff identifier record').mp found
        obtain ⟨chunk, member, same⟩ := exists_chunk_of_lookup looked
        obtain ⟨chunk', member', same'⟩ := exists_chunk_of_lookup looked'
        have identifiers : chunk.identifier = chunk'.identifier :=
          (congrArg Prod.fst same).trans (congrArg Prod.fst same').symm
        obtain rfl := apart names names' bytes bytes' content content' chunk member chunk' member'
          identifiers
        exact changed' changed
      rw [none, Option.none_or, Option.filter_eq_some_iff]
      have content' : old names = some bytes := changed.trans content
      exact ⟨(before identifier record).mpr ⟨names, bytes, content', spared', looked⟩,
        (untouched content' looked).mpr apartFrom⟩
    · rw [(added_iff identifier record).mpr ⟨names, bytes, content, changed, looked⟩,
        Option.some_or]

/-- A run on changes that succeeds gives the entries of the files that are spared. -/
theorem changeRun_reflects {old new : FileContents} {spared : List String → Prop}
    (reflects : indexer.Reflects place project old spared state)
    (wellFormed : state.world.WellFormed)
    (now : state.world.contentAt (indexer.store.rulesFor place.toString) place = new)
    (distinct : ∀ names bytes bytes', old names = some bytes → new names = some bytes' →
      indexer.env.digest bytes = indexer.env.digest bytes' → bytes = bytes')
    (apart : indexer.IdentifiersApart place new)
    (ended : runFrom state (indexer.changeRun place (.text project)) = (.ok result, after)) :
    indexer.Reflects place project new (Spares place old new spared) after := by
  subst now
  obtain ⟨⟨live, lists, spec⟩, taken, rules, files, kept, filesWellFormed, told⟩ := reflects
  obtain ⟨⟨changes, tree⟩, looked, first, rest⟩ := runFrom_bind_ok ended
  obtain ⟨_, found, rfl⟩ := runFrom_lift_ok first
  obtain ⟨rfl, rfl, changes, rfl, noChanges, removes, reindexes⟩ :=
    SnapshotStore.changesSince_content isPlace kept filesWellFormed wellFormed told rfl
      distinct found
  have validOld : ∀ names bytes, old names = some bytes → ∀ part ∈ names, ValidName part := by
    intro names bytes held
    rw [told] at held
    exact validNames_of_trackedContent (trackedProject_wellFormed filesWellFormed) held
  dsimp only at rest
  rw [LooseChanges.hasChanges_ofChanges] at rest
  cases some : changes.hasChanges with
  | false =>
    rw [some] at rest
    obtain rfl : state = after := congrArg Prod.snd rest
    have same := funext (noChanges.mp some)
    have still : Spares place old old spared = spared := by
      funext names
      simp [Spares]
    rw [← same, still]
    exact ⟨⟨live, lists, spec⟩, taken, rules, files, kept, filesWellFormed, told⟩
  | true =>
    rw [some] at rest
    obtain ⟨toRemove, _, chosen, rest⟩ := runFrom_bind_ok rest
    rw [runFrom_orFail, LooseChanges.toRemove_ofChanges] at chosen
    obtain ⟨⟨rfl⟩, rfl⟩ := Prod.mk.inj chosen
    obtain ⟨count, between, removal, rest⟩ := runFrom_bind_ok rest
    obtain ⟨toReindex, _, chosen', rest⟩ := runFrom_bind_ok rest
    rw [runFrom_orFail, LooseChanges.toReindex_ofChanges] at chosen'
    obtain ⟨⟨rfl⟩, rfl⟩ := Prod.mk.inj chosen'
    obtain ⟨texts, _, read, rest⟩ := runFrom_bind_ok rest
    rw [runFrom_orFail, LooseChanges.mapM_needText] at read
    obtain ⟨⟨rfl⟩, rfl⟩ := Prod.mk.inj read
    obtain ⟨counts, extended, addition, last⟩ := runFrom_bind_ok rest
    have follows := removeFiles_follows (.text project) (changes.toRemove.map .text) state
      (Follows.refl state)
    rw [removal] at follows
    have removedLists := removeFiles_lists lists removal
    have lists' := lists_of_saved (addFiles_lists total removedLists addition) last
    obtain ⟨taken', kept'⟩ := keeps_of_saved last
    refine ⟨⟨_, lists', ?_⟩, taken', _, _, kept', wellFormed.entryAt?, rfl⟩
    refine entries_after_changes isPlace validOld apart spec (fun identifier record => ?_)
      (fun record => ?_)
    · exact lookup_entries isPlace follows wellFormed apart reindexes
    · rw [List.all_map, List.all_eq_true]
      constructor
      · intro stays other tracked different
        have found := stays (trackedPath other)
          ((removes _).mpr ⟨other, tracked, different, rfl⟩)
        simpa using found
      · intro stays file member
        obtain ⟨other, tracked, different, rfl⟩ := (removes file).mp member
        simpa using stays other tracked different

end Runs

end Indexer

end CodeAtlas
