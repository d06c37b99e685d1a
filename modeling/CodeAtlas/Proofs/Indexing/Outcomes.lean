import CodeAtlas.Proofs.Indexing.Runs

/-!
# How indexing runs end

A run that finds its index in working order, and a disk that takes what it writes, ends in one
of four ways: it rebuilds the index, finds nothing changed, brings in what changed, or is
stopped by a removal.  One relation says what each of them does to the index and to the
snapshot.
-/

namespace CodeAtlas

variable {world : World} {start : IndexState}

/-- All vectors that the encoder gives have one length. -/
def Encoder.Gives (encoder : Encoder) (dimension : Nat) : Prop :=
  ∀ before texts vectors, encoder.encode before texts = .ok vectors → ∀ vector ∈ vectors,
    vector.length = dimension

theorem World.eq_of_resolve {path : String} {place : Path}
    (resolved : runFrom world (World.resolve path) = (.ok place, world)) :
    (Path.ofString path).hasNull = false ∧
      (Path.ofString path).resolve world.workingDirectory = place := by
  cases null : (Path.ofString path).hasNull with
  | true => simp [World.resolve, null] at resolved
  | false => simpa [World.resolve, null] using resolved

theorem World.WellFormed.resolve {path : String} {place : Path} (wellFormed : world.WellFormed)
    (resolved : runFrom world (World.resolve path) = (.ok place, world)) :
    place.IsPlace := by
  obtain ⟨noNull, rfl⟩ := World.eq_of_resolve resolved
  exact ⟨rfl, Path.validNames_resolve noNull wellFormed.workingDirectory⟩

namespace IndexView

variable {view : IndexView}

theorem without_without (first second : Record → Bool) :
    (view.without first).without second =
      view.without (fun record => first record || second record) := by
  have live : ((view.without first).without second).live =
      (view.without (fun record => first record || second record)).live := by
    funext identifier
    by_cases listed : identifier ∈ view.names
    · simp [without, listed, Option.filter_filter]
    · simp [without, listed]
  exact congrArg (IndexView.mk view.dimension view.names) live

theorem without_none : view.without (fun _ => false) = view := by
  have live : (view.without (fun _ => false)).live = view.live := by
    funext identifier
    cases known : view.live identifier <;> simp [without, known]
  exact congrArg (IndexView.mk view.dimension view.names) live

/-- The records that stay are those of other kinds, and those whose names are not known. -/
theorem live_without_iff {owned : Record → Bool} {identifier : String} {record : Record} :
    (view.without owned).live identifier = some record ↔
      view.live identifier = some record ∧ (identifier ∈ view.names → owned record = false) := by
  by_cases listed : identifier ∈ view.names
  · simp [without, listed, Option.filter_eq_some_iff]
  · simp [without, listed]

end IndexView

namespace Indexer

open IndexState

variable {indexer : Indexer} {place : Path} {project : Value} {dimension : Nat}
  {state after : IndexState} {view : IndexView} {snapshot : Option FileContents}

theorem of_mem_embed {chunks : List Chunk} {item : Embedded}
    (member : item ∈ indexer.embed project chunks) :
    ∃ chunk ∈ chunks, ∃ content batch vectors, item.identifier = chunk.identifier ∧
      item.record = chunk.recordIn project content ∧
      indexer.env.encoder.answer batch = .ok vectors ∧ item.embedding ∈ vectors := by
  rw [embed_eq_annotate, annotate, ← List.map_uncurry_zip_eq_zipWith] at member
  obtain ⟨⟨other, inner⟩, paired, rfl⟩ := List.mem_map.mp member
  obtain ⟨batch, cut, made⟩ := List.mem_flatMap.mp (List.of_mem_zip paired).2
  unfold Encoder.embedBatch at made
  split at made
  · rename_i vectors encoded
    obtain ⟨⟨chunk, vector⟩, joined, rfl⟩ := List.mem_map.mp made
    obtain ⟨inBatch, inVectors⟩ := List.of_mem_zip joined
    have inChunks : chunk ∈ chunks := by
      rw [← flatMap_zipIdx_batches 32 chunks]
      exact List.mem_flatMap_of_mem cut inBatch
    exact ⟨chunk, inChunks, other.content, batch, vectors, rfl, rfl, encoded, inVectors⟩
  · cases made

/-- What is embedded comes into an index in order. -/
theorem inOrder_add_embed (gives : indexer.env.encoder.Gives dimension)
    (inOrder : view.InOrder dimension) (chunks : List Chunk) :
    (view.add (indexer.embed project chunks)).InOrder dimension ∧
      (∀ item ∈ indexer.embed project chunks, item.embedding.length = dimension) ∧
      ∀ item ∈ indexer.embed project chunks, item.record.DescribesChunk := by
  have even : ∀ item ∈ indexer.embed project chunks, item.embedding.length = dimension := by
    intro item member
    obtain ⟨_, _, _, batch, vectors, _, _, encoded, inside⟩ := of_mem_embed member
    exact gives _ _ vectors encoded item.embedding inside
  have described : ∀ item ∈ indexer.embed project chunks, item.record.DescribesChunk := by
    intro item member
    obtain ⟨chunk, _, content, _, _, _, same, _, _⟩ := of_mem_embed member
    exact ⟨chunk, project, content, same⟩
  exact ⟨inOrder.add even described, even, described⟩

theorem addFiles_ok {files : List String} {items : List Embedded}
    (gives : indexer.env.encoder.Gives dimension) (shows : state.Shows view)
    (inOrder : view.InOrder dimension) (made : items = indexer.embed project
      (indexer.chunksOf state.world place (files.filter Language.isSourcePath))) :
    ∃ after, runFrom state (indexer.addFiles place project files) =
        (.ok ((files.filter Language.isSourcePath).length, items.length), after) ∧
      after.Shows (view.add items) ∧ (view.add items).InOrder dimension ∧
        state.Follows after := by
  subst made
  obtain ⟨inOrder', even, described⟩ := @inOrder_add_embed indexer project dimension view gives
    inOrder (indexer.chunksOf state.world place (files.filter Language.isSourcePath))
  obtain ⟨after, added, shows'⟩ := shows.add_of_inOrder inOrder indexer.env.gpu even described
  have ran : runFrom state (indexer.addFiles place project files) =
      (.ok ((files.filter Language.isSourcePath).length, (indexer.embed project
        (indexer.chunksOf state.world place (files.filter Language.isSourcePath))).length),
        after) := by
    simp [addFiles, added]
  have follows := @addFiles_follows indexer place state project files state (Follows.refl state)
  rw [ran] at follows
  exact ⟨after, ran, shows', inOrder', follows⟩

/-- The records that belong to one of the files. -/
def ownedBy (project : Value) (files : List String) (record : Record) : Bool :=
  files.any (fun file => Catalog.isOwned (.text file) project record)

/-- Files are removed one after the other, unless the name of one of their records is known
twice. -/
theorem removeFiles_cases (shows : state.Shows view) (inOrder : view.InOrder dimension)
    (project : Value) (files : List String) :
    (view.Once (ownedBy project files) ∧ ∃ count after,
        runFrom state (removeFiles project (files.map .text)) = (.ok count, after) ∧
          after.Shows (view.without (ownedBy project files))) ∨
      ∃ name record live after, view.live name = some record ∧
        ownedBy project files record = true ∧ 1 < view.names.count name ∧
        runFrom state (removeFiles project (files.map .text)) =
          (.error (.missingKey (.text name)), after) ∧
        after.Shows { view with live } ∧
        ∀ identifier record, live identifier = some record →
          view.live identifier = some record := by
  induction files generalizing state view with
  | nil =>
    refine .inl ⟨fun _ _ _ owned => absurd owned (by simp [ownedBy]), 0, state, rfl, ?_⟩
    have nothing : ownedBy project [] = fun _ => false := rfl
    rw [nothing, IndexView.without_none]
    exact shows
  | cons file files ih =>
    have both : ownedBy project (file :: files) = fun record =>
        Catalog.isOwned (.text file) project record || ownedBy project files record := rfl
    rcases shows.removeFile_cases inOrder file project with
      ⟨once, count, between, removed, shows'⟩ |
      ⟨name, record, live, after, known, owned, twice, failed, shows', fewer⟩
    · rcases ih shows' (inOrder.without _) with
        ⟨once', count', after, removed', shows''⟩ |
        ⟨name, record, live, after, known, owned, twice, failed, shows'', fewer⟩
      · refine .inl ⟨fun name record known owned => ?_, count + count', after, ?_, ?_⟩
        · cases first : Catalog.isOwned (.text file) project record with
          | true => exact once name record known first
          | false =>
            rw [both] at owned
            simp only [first, Bool.false_or] at owned
            have stays := IndexView.live_without_iff.mpr ⟨known, fun _ => first⟩
            exact once' name record stays owned
        · simp [removeFiles, removed, removed']
        · rwa [IndexView.without_without, ← both] at shows''
      · have known' := (IndexView.live_without_iff.mp known).1
        refine .inr ⟨name, record, live, after, known', ?_, twice, ?_, shows'', ?_⟩
        · simp [both, owned]
        · simp [removeFiles, removed, failed]
        · intro identifier record found
          exact (IndexView.live_without_iff.mp (fewer identifier record found)).1
    · refine .inr ⟨name, record, live, after, known, ?_, twice, ?_, shows', fewer⟩
      · simp [both, owned]
      · simp [removeFiles, failed]

/-- What a run needs of the disk: it can look for the project, and the snapshot and the record
about the project are kept or could be. -/
structure Stands (indexer : Indexer) (place : Path) (snapshot : Option FileContents)
    (world : World) : Prop where
  snapshot : indexer.Remembers place world snapshot
  record : ∃ fields : Option Record,
    world.Keeps (indexer.store.recordFile indexer.env place) (fields.map .record)
  found : ∃ files, world.lookUp place = .ok files

theorem Remembers.keeps (remembers : indexer.Remembers place world snapshot) :
    ∃ document, world.Keeps (indexer.store.snapshotFile indexer.env place) document ∧
      document.isSome = snapshot.isSome := by
  cases snapshot with
  | none => exact ⟨none, remembers, rfl⟩
  | some content =>
    obtain ⟨taken, rules, files, kept, -⟩ := remembers
    exact ⟨_, kept, rfl⟩

theorem Remembers.of_keeps {later : World} (remembers : indexer.Remembers place world snapshot)
    (keeps : ∀ document, world.Keeps (indexer.store.snapshotFile indexer.env place) document →
      later.Keeps (indexer.store.snapshotFile indexer.env place) document) :
    indexer.Remembers place later snapshot := by
  cases snapshot with
  | none => exact keeps none remembers
  | some content =>
    obtain ⟨taken, rules, files, kept, told⟩ := remembers
    exact ⟨taken, rules, files, keeps _ kept, told⟩

namespace Stands

theorem follows {start : IndexState} (stands : indexer.Stands place snapshot start.world)
    (follows : start.Follows state) : indexer.Stands place snapshot state.world := by
  obtain ⟨remembers, ⟨document, record⟩, files, found⟩ := stands
  exact ⟨remembers.of_keeps (fun _ kept => kept.apart follows.world not_spots_snapshotFile),
    ⟨document, record.apart follows.world not_spots_recordFile⟩, follows.world.lookUp_ok found⟩

theorem save {rules : IgnoreRules} {files : Option (FileTree Stored)} {world : World}
    (stands : indexer.Stands place snapshot world) (wellFormed : ∀ tree ∈ files, tree.WellFormed)
    (record : Record) :
    ∃ later, runFrom world (indexer.store.save indexer.env
        (.ofFiles indexer.env.digest rules place files) record) = (.ok (), later) ∧
      indexer.Stands place (some (trackedContent rules (trackedProject rules place files)))
        later := by
  obtain ⟨remembers, ⟨document, described⟩, found, looked⟩ := stands
  obtain ⟨_, kept, -⟩ := remembers.keeps
  obtain ⟨later, written, value, described'⟩ := @SnapshotStore.save_of_keeps indexer.env
    indexer.store world (.ofFiles indexer.env.digest rules place files) _ _ record kept described
  obtain ⟨⟨taken, kept'⟩, same⟩ := SnapshotStore.save_ok written
  exact ⟨later, written, ⟨taken, rules, files, kept', wellFormed, rfl⟩, ⟨some value, described'⟩,
    same.lookUp_ok looked⟩

end Stands

/-- An index in order that shows a view, on a disk that stands as a run needs it. -/
structure Ready (indexer : Indexer) (place : Path) (dimension : Nat) (view : IndexView)
    (snapshot : Option FileContents) (state : IndexState) : Prop where
  shows : state.Shows view
  inOrder : view.InOrder dimension
  stands : indexer.Stands place snapshot state.world

theorem Stands.saving {rules : IgnoreRules} {files : Option (FileTree Stored)}
    (stands : indexer.Stands place snapshot state.world) (shows : state.Shows view)
    (inOrder : view.InOrder dimension) (wellFormed : ∀ tree ∈ files, tree.WellFormed)
    (record : Record) (outcome : RunResult) :
    ∃ after, runFrom state (do
        indexer.store.save indexer.env (.ofFiles indexer.env.digest rules place files) record
        ChunkIndex.save indexer.env.gpu
        return outcome) = (.ok outcome, after) ∧ after.chunks.folder = state.chunks.folder ∧
      indexer.Ready place dimension view
        (some (trackedContent rules (trackedProject rules place files))) after := by
  obtain ⟨world, written, between⟩ := @Stands.save indexer place snapshot rules files state.world
    stands wellFormed record
  obtain ⟨after, saved, shows'⟩ :=
    (shows_of_saveSnapshot shows written).save_of_inOrder inOrder indexer.env.gpu
  have later := Follows.save indexer.env.gpu _ (Follows.refl { state with world })
  rw [saved] at later
  exact ⟨after, by simp [written, saved], later.folder, shows', inOrder,
    @Stands.follows _ _ after _ { state with world } between later⟩

/-- The changes that a run finds. -/
def Finds (indexer : Indexer) (place : Path) (world : World) (changes : Changes) : Prop :=
  ∃ tree, runFrom world (indexer.store.changesSince indexer.env place.toString) =
    (.ok (.ofChanges changes, tree), world)

/-- What a run makes of the view of an index and of what is remembered of the files. -/
inductive Effect (indexer : Indexer) (place : Path) (project : Value) (start : IndexState)
    (view : IndexView) (full : Bool) (snapshot : Option FileContents) :
    RunResult → IndexView → Option FileContents → Prop where
  /-- The index is made anew. -/
  | rebuilt {cleared : IndexState} {tree : DigestTree} {items : List Embedded} :
      full = true ∨ snapshot = none →
      runFrom start ChunkIndex.clear = (.ok (), cleared) →
      runFrom cleared.world (DigestTree.build indexer.env.digest .standard place) =
        (.ok tree, cleared.world) →
      items = indexer.embed project (indexer.chunksOf cleared.world place
        (tree.files.filter Language.isSourcePath)) →
      Effect indexer place project start view full snapshot
        { RunResult.nothing with
          filesAdded := (tree.files.filter Language.isSourcePath).length
          chunksAdded := items.length }
        (IndexView.empty.add items) (some (cleared.world.contentAt .standard place))
  /-- There is nothing to do. -/
  | unchanged {old : FileContents} {changes : Changes} :
      full = false → snapshot = some old → indexer.Finds place start.world changes →
      changes.hasChanges = false →
      Effect indexer place project start view full snapshot .nothing view snapshot
  /-- What changed is brought in. -/
  | updated {old : FileContents} {changes : Changes} {items : List Embedded} {count : Nat} :
      full = false → snapshot = some old → indexer.Finds place start.world changes →
      changes.hasChanges = true → view.Once (ownedBy project changes.toRemove) →
      items = indexer.embed project (indexer.chunksOf start.world place
        (changes.toReindex.filter Language.isSourcePath)) →
      Effect indexer place project start view full snapshot
        ⟨changes.added.length, changes.removed.length, changes.modified.length, items.length,
          count, none⟩
        ((view.without (ownedBy project changes.toRemove)).add items)
        (some (start.world.contentAt (indexer.store.rulesFor place.toString) place))
  /-- The removal of a file comes to a name a second time. -/
  | stopped {old : FileContents} {changes : Changes} {name : String} {record : Record}
      {live : LiveRecords} :
      full = false → snapshot = some old → indexer.Finds place start.world changes →
      changes.hasChanges = true → view.live name = some record →
      ownedBy project changes.toRemove record = true → 1 < view.names.count name →
      (∀ identifier record, live identifier = some record →
        view.live identifier = some record) →
      Effect indexer place project start view full snapshot
        (.failed (Fault.missingKey (.text name)).message) { view with live } snapshot

/-- A run on an index that knows each identifier once succeeds. -/
theorem Effect.success_of_nodup {full : Bool} {result : RunResult} {view' : IndexView}
    {snapshot' : Option FileContents}
    (effect : indexer.Effect place project start view full snapshot result view' snapshot')
    (single : view.names.Nodup) : result.success = true := by
  cases effect with
  | stopped _ _ _ _ _ _ twice =>
    have once := List.nodup_iff_count_le_one.mp single
    exact absurd twice (Nat.not_lt.mpr (once _))
  | _ => rfl

theorem fullRun_effect {start : IndexState} {full : Bool}
    (ready : indexer.Ready place dimension view snapshot start)
    (wellFormed : start.world.WellFormed) (gives : indexer.env.encoder.Gives dimension)
    (wanted : full = true ∨ snapshot = none) :
    ∃ result view' snapshot' after,
      runFrom start (indexer.fullRun place project) = (.ok result, after) ∧
      indexer.Effect place project start view full snapshot result view' snapshot' ∧
      after.chunks.folder = start.chunks.folder ∧
      indexer.Ready place dimension view' snapshot' after := by
  obtain ⟨⟨-, -, kept, keeps, -⟩, -, stands⟩ := ready
  obtain ⟨cleared, emptied, shows⟩ := Shows.clear keeps
  have wellFormed' := ChunkIndex.wellFormed_clear start wellFormed
  have follows := Follows.clear start (Follows.refl start)
  rw [emptied] at wellFormed' follows
  have stands' := stands.follows follows
  obtain ⟨files, found⟩ := stands'.found
  have built := DigestTree.runFrom_build indexer.env.digest .standard found
  obtain ⟨between, added, shows', inOrder, follows'⟩ := @addFiles_ok indexer place project
    dimension cleared .empty (DigestTree.ofFiles indexer.env.digest .standard place files).files _
    gives shows (.empty dimension) rfl
  have content : cleared.world.contentAt .standard place =
      trackedContent .standard (trackedProject .standard place files) := by
    rw [World.contentAt, World.entryAt?, found]
  obtain ⟨after, saved, folder, ready⟩ := (stands'.follows follows').saving shows' inOrder
    (wellFormed'.lookUp found) _ _
  rw [← content] at ready
  refine ⟨_, _, _, after, ?_, .rebuilt wanted emptied built rfl,
    folder.trans (follows'.folder.trans follows.folder), ready⟩
  rw [fullRun, runFrom_then emptied, runFrom_bind, runFrom_lift, built, andThen_ok,
    runFrom_then added]
  exact saved

/-- Where files of the project are told by what was tracked, their chunks do not change with
the files of the index. -/
theorem chunksOf_follows {start : IndexState} {rules : IgnoreRules} {files : List String}
    (follows : start.Follows state) (wellFormed : start.world.WellFormed) (isPlace : place.IsPlace)
    (listed : ∀ file ∈ files, ∃ names bytes,
      start.world.contentAt rules place names = some bytes ∧ file = trackedPath names) :
    indexer.chunksOf state.world place (files.filter Language.isSourcePath) =
      indexer.chunksOf start.world place (files.filter Language.isSourcePath) := by
  refine List.flatMap_congr (fun file member => ?_)
  obtain ⟨known, source⟩ := List.mem_filter.mp member
  obtain ⟨names, bytes, content, rfl⟩ := listed file known
  rw [chunksOfFile_of_tracked follows wellFormed isPlace content source,
    chunksOfFile_of_tracked (Follows.refl start) wellFormed isPlace content source]

/-- Where source files have the same contents, the same chunks are made of them. -/
theorem chunksOf_eq_of_content {files : List String} (rules : IgnoreRules)
    (wellFormed : start.world.WellFormed) (wellFormed' : state.world.WellFormed)
    (isPlace : place.IsPlace)
    (listed : ∀ file ∈ files, Language.isSourcePath file = true → ∃ names bytes,
      start.world.contentAt rules place names = some bytes ∧
        state.world.contentAt rules place names = some bytes ∧ file = trackedPath names) :
    indexer.chunksOf start.world place (files.filter Language.isSourcePath) =
      indexer.chunksOf state.world place (files.filter Language.isSourcePath) := by
  refine List.flatMap_congr (fun file member => ?_)
  obtain ⟨known, source⟩ := List.mem_filter.mp member
  obtain ⟨names, bytes, content, content', rfl⟩ := listed file known source
  rw [chunksOfFile_of_tracked (Follows.refl start) wellFormed isPlace content source,
    chunksOfFile_of_tracked (Follows.refl state) wellFormed' isPlace content' source]

section Place

variable (isPlace : place.IsPlace)

include isPlace

theorem Stands.has {world : World} (stands : indexer.Stands place snapshot world) :
    runFrom world (indexer.store.has indexer.env place.toString) =
      (.ok snapshot.isSome, world) := by
  obtain ⟨document, kept, same⟩ := stands.snapshot.keeps
  rw [has_of_keeps isPlace kept, same]

/-- With a snapshot the changes since then are found. -/
theorem Stands.changesSince {world : World} {old : FileContents}
    (stands : indexer.Stands place (some old) world) :
    ∃ changes, runFrom world (indexer.store.changesSince indexer.env place.toString) =
      (.ok (.ofChanges changes, .ofFiles indexer.env.digest
        (indexer.store.rulesFor place.toString) place (world.entryAt? place)), world) := by
  obtain ⟨⟨taken, rules, files, kept, -⟩, -, found, looked⟩ := stands
  have entry : world.entryAt? place = found := by
    rw [World.entryAt?, looked]
  have here : (DigestTree.ofFiles indexer.env.digest rules place files).rootPath =
      (Path.ofString place.toString).resolve world.workingDirectory :=
    (Path.resolve_toString isPlace _).symm
  rw [entry]
  exact ⟨_, SnapshotStore.changesSince_of_keeps
    (Path.hasNull_ofString_toString isPlace) here isPlace.valid kept looked⟩

/-- The changes that a run finds, told by the digests of the files then and now. -/
theorem Finds.digests {world : World} {old : FileContents} {changes : Changes}
    (finds : indexer.Finds place world changes) (wellFormed : world.WellFormed)
    (remembers : indexer.Remembers place world (some old)) :
    (changes.hasChanges = false ↔ ∀ names, (old names).map indexer.env.digest =
        (world.contentAt (indexer.store.rulesFor place.toString) place names).map
          indexer.env.digest) ∧
      (∀ file, file ∈ changes.toRemove ↔ ∃ names, old names ≠ none ∧
        (old names).map indexer.env.digest ≠
          (world.contentAt (indexer.store.rulesFor place.toString) place names).map
            indexer.env.digest ∧ file = trackedPath names) ∧
      (∀ file, file ∈ changes.toReindex ↔ ∃ names bytes,
        world.contentAt (indexer.store.rulesFor place.toString) place names = some bytes ∧
        (old names).map indexer.env.digest ≠
          (world.contentAt (indexer.store.rulesFor place.toString) place names).map
            indexer.env.digest ∧ file = trackedPath names) := by
  obtain ⟨tree, found⟩ := finds
  obtain ⟨taken, rules, files, kept, filesWellFormed, told⟩ := remembers
  obtain ⟨-, -, changes', same, digests⟩ := SnapshotStore.changesSince_digests isPlace kept
    filesWellFormed wellFormed told rfl found
  obtain rfl : changes = changes' := by
    have texts := congrArg LooseChanges.texts? same
    rwa [LooseChanges.texts?_ofChanges, LooseChanges.texts?_ofChanges, Option.some.injEq] at texts
  exact digests

omit isPlace in
/-- A run that found changes removes files, adds files and saves. -/
private theorem changeRun_eq {start : IndexState} {changes : Changes} {tree : DigestTree}
    (found : runFrom start.world (indexer.store.changesSince indexer.env place.toString) =
      (.ok (.ofChanges changes, tree), start.world)) (changed : changes.hasChanges = true) :
    runFrom start (indexer.changeRun place project) =
      andThen (runFrom start (removeFiles project (changes.toRemove.map .text)))
        (fun removed between => runFrom between (do
          let (_, added) ← indexer.addFiles place project changes.toReindex
          indexer.store.save indexer.env tree [("project_name", project),
            ("incremental_update", .bool true), ("files_added", .int changes.added.length),
            ("files_removed", .int changes.removed.length),
            ("files_modified", .int changes.modified.length)]
          ChunkIndex.save indexer.env.gpu
          return ⟨changes.added.length, changes.removed.length, changes.modified.length, added,
            removed, none⟩)) := by
  have lengths : (LooseChanges.ofChanges changes).added.length = changes.added.length ∧
      (LooseChanges.ofChanges changes).removed.length = changes.removed.length ∧
      (LooseChanges.ofChanges changes).modified.length = changes.modified.length := by
    simp [LooseChanges.ofChanges]
  simp only [changeRun, runFrom_bind, runFrom_lift, found, andThen_ok,
    LooseChanges.hasChanges_ofChanges, changed, Bool.not_true, Bool.false_eq_true, if_false,
    runFrom_orFail, LooseChanges.toRemove_ofChanges, LooseChanges.toReindex_ofChanges,
    LooseChanges.mapM_needText, lengths]

/-- A run on changes comes to its end, or is stopped by a removal. -/
theorem changeRun_effect {old : FileContents}
    (ready : indexer.Ready place dimension view (some old) start)
    (wellFormed : start.world.WellFormed) (gives : indexer.env.encoder.Gives dimension) :
    ∃ result view' snapshot' after,
      runFrom start (tryCatch (indexer.changeRun place project)
        (fun fault => return RunResult.failed fault.message)) = (.ok result, after) ∧
      indexer.Effect place project start view false (some old) result view' snapshot' ∧
      after.chunks.folder = start.chunks.folder ∧
      indexer.Ready place dimension view' snapshot' after := by
  obtain ⟨shows, inOrder, stands⟩ := id ready
  obtain ⟨changes, found⟩ := stands.changesSince isPlace
  have finds : indexer.Finds place start.world changes := ⟨_, found⟩
  obtain ⟨-, -, reindexes⟩ := finds.digests isPlace wellFormed stands.snapshot
  cases changed : changes.hasChanges with
  | false =>
    refine ⟨_, _, _, start, ?_, .unchanged rfl rfl finds changed, rfl, ready⟩
    simp [changeRun, found, LooseChanges.hasChanges_ofChanges, changed]
  | true =>
    have same := @changeRun_eq indexer place project start changes _ found changed
    have follows := removeFiles_follows project (changes.toRemove.map .text) start
      (Follows.refl start)
    rcases removeFiles_cases shows inOrder project changes.toRemove with
      ⟨once, count, between, removed, cut⟩ |
      ⟨name, record, live, after, known, owned, twice, failed, cut, fewer⟩
    · rw [removed] at follows
      have chunks := @chunksOf_follows indexer place between start
        (indexer.store.rulesFor place.toString) changes.toReindex follows wellFormed isPlace
        (fun file member => by
          obtain ⟨names, bytes, held, -, same⟩ := (reindexes file).mp member
          exact ⟨names, bytes, held, same⟩)
      obtain ⟨extended, added, shows', inOrder', follows'⟩ := @addFiles_ok indexer place project
        dimension between _ changes.toReindex _ gives cut (inOrder.without _) rfl
      rw [chunks] at added shows' inOrder'
      obtain ⟨after, saved, folder, ready'⟩ :=
        ((stands.follows follows).follows follows').saving shows' inOrder'
          (@World.WellFormed.entryAt? start.world place wellFormed) _ _
      refine ⟨_, _, _, after, ?_, @Effect.updated indexer place project start view false
        (some old) old changes _ count rfl rfl finds changed once rfl,
        folder.trans (follows'.folder.trans follows.folder), ready'⟩
      rw [runFrom_tryCatch, same, removed, andThen_ok, runFrom_then added]
      rw [saved]
    · rw [failed] at follows
      refine ⟨_, _, _, after, ?_, .stopped rfl rfl finds changed known owned twice fewer,
        follows.folder, cut, inOrder.fewer fewer, stands.follows follows⟩
      rw [runFrom_tryCatch, same, failed, andThen_error]
      rfl

end Place

/-- A run always comes to a result, and what it does to the index is one of the effects. -/
theorem run_effect {start : IndexState} {path : String} {name : Value} (full : Bool)
    (ready : indexer.Ready place dimension view snapshot start)
    (wellFormed : start.world.WellFormed) (gives : indexer.env.encoder.Gives dimension)
    (resolved : runFrom start.world (World.resolve path) = (.ok place, start.world)) :
    ∃ result view' snapshot' after,
      runFrom start (indexer.run path name full) = (.ok result, after) ∧
      indexer.Effect place (projectName name place) start view full snapshot result view'
        snapshot' ∧
      after.chunks.folder = start.chunks.folder ∧
      indexer.Ready place dimension view' snapshot' after := by
  have isPlace := wellFormed.resolve resolved
  have chosen : runFrom start (indexer.run path name full) =
      runFrom start (tryCatch
        (if full || !snapshot.isSome then indexer.fullRun place (projectName name place)
          else indexer.changeRun place (projectName name place))
        (fun fault => return RunResult.failed fault.message)) := by
    simp only [run, runFrom_bind, runFrom_lift, resolved, andThen_ok, runFrom_tryCatch,
      ready.stands.has isPlace]
  rw [chosen]
  by_cases wanted : full = true ∨ snapshot = none
  · obtain ⟨result, view', snapshot', after, ran, rest⟩ := @fullRun_effect indexer place
      (projectName name place) dimension view snapshot start full ready wellFormed gives wanted
    have taken : (full || !snapshot.isSome) = true := by simpa using wanted
    refine ⟨result, view', snapshot', after, ?_, rest⟩
    rw [if_pos taken, runFrom_tryCatch, ran]
  · obtain ⟨old, rfl⟩ : ∃ old, snapshot = some old :=
      Option.ne_none_iff_exists'.mp (fun none => wanted (.inr none))
    obtain rfl : full = false := Bool.eq_false_iff.mpr (fun yes => wanted (.inl yes))
    exact changeRun_effect isPlace ready wellFormed gives

end Indexer

end CodeAtlas
