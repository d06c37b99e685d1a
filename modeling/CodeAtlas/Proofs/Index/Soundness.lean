import CodeAtlas.Proofs.Index.Ledger

/-!
# Sound states of a chunk index

Vectors, names and catalog are changed by different calls, and a call that fails stops
between the changes.  One invariant ties them, and the files in which they are kept, to
the ledger of the calls.  It holds after every call, whatever its outcome.
-/

namespace CodeAtlas

/-- The index holds the normalized vectors of the chunks that were given, and can tell them. -/
structure Ledger.Fills (ledger : Ledger) (gpu : GpuSupport) (index : VectorIndex) :
    Prop where
  dimension : ledger.dimension.map Int.ofNat = some index.dimension
  vectors : index.vectors =
    ledger.items.map (fun item => gpu.library.normalize item.embedding)
  directMap : index.directMap = true
  whole : index.reach = none
  flat : ledger.flat = true → index.kind = .flat
  atHome : gpu.isAvailable = false → index.onGpu = false

/-- The state of an index goes with the ledger of the calls that were made. -/
structure IndexState.Sound (gpu : GpuSupport) (ledger : Ledger) (kept : Contents)
    (state : IndexState) : Prop where
  files : state.world.KeepsIndex state.chunks.folder kept
  names : state.chunks.names = ledger.items.map Embedded.identifier
  withoutVectors : state.chunks.vectors = none →
    ledger = Ledger.empty ∧ kept .vectors = none
  withVectors : ∀ index, state.chunks.vectors = some index → ledger.Fills gpu index
  inMemory : ∀ catalog, state.chunks.catalog = some catalog →
    Ledger.Places ledger.items catalog ∧
      ∃ stored, kept .catalog = some (Catalog.toValue stored) ∧ catalog.Within stored
  onDisk : ∀ value, kept .catalog = some value →
    ∃ stored, value = Catalog.toValue stored ∧ Ledger.Places ledger.items stored
  atHome : gpu.isAvailable = false → state.chunks.onGpu = false

namespace IndexState

namespace Sound

open ChunkIndex

variable {gpu : GpuSupport} {ledger : Ledger} {kept : Contents} {state : IndexState}

/-- Where nothing is kept, an index starts soundly. -/
theorem start (gpu : GpuSupport) {folder : Path} {world : World}
    (nothing : world.KeepsIndex folder (fun _ => none)) :
    Sound gpu Ledger.empty (fun _ => none) ⟨ofFolder folder, world⟩ where
  files := nothing
  names := rfl
  withoutVectors _ := ⟨rfl, rfl⟩
  withVectors index found := by cases found
  inMemory catalog found := by cases found
  onDisk value found := by cases found
  atHome _ := rfl

/-- The files other than that of the vectors keep the given contents. -/
private def KeepsOthers (folder : Path) (kept : Contents) (world : World) : Prop :=
  ∃ document, world.KeepsIndex folder (Function.update kept .vectors document)

/-- The attempts to write the vectors do not fail, and change no other file. -/
private theorem runFrom_writeVectors (gpu : GpuSupport) {folder : Path}
    {kept : Contents} {world : World} (files : world.KeepsIndex folder kept)
    (onGpu : Bool) (index : VectorIndex) :
    ∃ after document, runFrom world (tryCatch
          (ChunkIndex.writeVectors gpu onGpu index (folder.child KeptFile.vectors.name))
          (fun _ => tryCatch (do
            World.writeFile (folder.child KeptFile.vectors.name)
              (.document (← gpu.bringBack index).toValue)) (fun _ => pure ()))) =
        (.ok (), after) ∧
      after.KeepsIndex folder (Function.update kept .vectors document) ∧
      (onGpu = false → index.onGpu = false → document = some index.toValue) := by
  by_cases home : onGpu = false ∧ index.onGpu = false
  · obtain ⟨rfl, here⟩ := home
    obtain ⟨after, written, files'⟩ := files.writeFile .vectors index.toValue
    refine ⟨after, some index.toValue, ?_, files', fun _ _ => rfl⟩
    simp [ChunkIndex.writeVectors, here, written]
  · have write : ∀ index : VectorIndex, Preserves (KeepsOthers folder kept)
        (World.writeFile (folder.child KeptFile.vectors.name)
          (.document index.toValue)) := by
      rintro index world ⟨document, files⟩
      obtain ⟨after, written, files'⟩ := files.writeFile .vectors index.toValue
      exact ⟨some index.toValue, by simpa [written] using files'⟩
    have count : ∀ world, KeepsOthers folder kept world →
        KeepsOthers folder kept { world with transfers := world.transfers + 1 } := by
      rintro world ⟨document, files⟩
      exact ⟨document, files.of_disk rfl rfl⟩
    obtain ⟨document, files'⟩ := writeVectors_preserves gpu write count onGpu index world
      ⟨kept .vectors, by simpa using files⟩
    refine ⟨_, document, Prod.ext ?_ rfl, files', fun off here => (home ⟨off, here⟩).elim⟩
    exact runFrom_tryCatch_handled
      (fun _ => runFrom_tryCatch_handled (fun _ _ => rfl)) world

variable (sound : Sound gpu ledger kept state)
include sound

/-- A file that the invariant does not read may keep anything. -/
theorem rewritten {world : World} {kept' : Contents}
    (files : world.KeepsIndex state.chunks.folder kept')
    (vectors : state.chunks.vectors = none → kept' .vectors = kept .vectors)
    (catalog : kept' .catalog = kept .catalog) :
    Sound gpu ledger kept' { state with world } where
  files := files
  names := sound.names
  withoutVectors none := by
    rw [vectors none]
    exact sound.withoutVectors none
  withVectors := sound.withVectors
  inMemory := by
    rw [catalog]
    exact sound.inMemory
  onDisk := by
    rw [catalog]
    exact sound.onDisk
  atHome := sound.atHome

theorem seenCatalog_places :
    Ledger.Places ledger.items (state.chunks.seenCatalog kept) := by
  unfold seenCatalog
  cases inMemory : state.chunks.catalog with
  | some catalog => exact (sound.inMemory catalog inMemory).1
  | none =>
    cases onDisk : kept .catalog with
    | none => exact Ledger.Places.empty _
    | some value =>
      obtain ⟨stored, rfl, places⟩ := sound.onDisk value onDisk
      simpa [Catalog.ofValue_toValue] using places

/-- Where the catalog was read, the state is sound. -/
private theorem read {world : World}
    (files : world.KeepsIndex state.chunks.folder (state.chunks.keptOnceRead kept)) :
    Sound gpu ledger (state.chunks.keptOnceRead kept)
      ⟨{ state.chunks with catalog := some (state.chunks.seenCatalog kept) }, world⟩ := by
  have places := sound.seenCatalog_places
  have stored : ∃ stored,
      state.chunks.keptOnceRead kept .catalog = some (Catalog.toValue stored) ∧
        (state.chunks.seenCatalog kept).Within stored ∧
          Ledger.Places ledger.items stored := by
    unfold keptOnceRead seenCatalog
    cases inMemory : state.chunks.catalog with
    | some catalog =>
      obtain ⟨-, stored, keptHere, within⟩ := sound.inMemory catalog inMemory
      obtain ⟨stored', same, places'⟩ := sound.onDisk _ keptHere
      obtain rfl : stored = stored' := by
        rw [← Catalog.ofValue_toValue stored, same, Catalog.ofValue_toValue]
      exact ⟨stored, by simpa using keptHere, within, places'⟩
    | none =>
      cases onDisk : kept .catalog with
      | none => exact ⟨Table.empty, by simp, Catalog.Within.refl _, Ledger.Places.empty _⟩
      | some value =>
        obtain ⟨stored, rfl, places'⟩ := sound.onDisk value onDisk
        refine ⟨stored, by simp, ?_, places'⟩
        simpa [Catalog.ofValue_toValue] using Catalog.Within.refl stored
  obtain ⟨stored, keptHere, within, storedPlaces⟩ := stored
  refine ⟨files, sound.names, ?_, sound.withVectors, ?_, ?_, sound.atHome⟩
  · intro none
    rw [keptOnceRead_of_ne (by decide)]
    exact sound.withoutVectors none
  · intro catalog same
    obtain rfl : state.chunks.seenCatalog kept = catalog := by simpa using same
    exact ⟨places, stored, keptHere, within⟩
  · intro value same
    rw [keptHere] at same
    obtain rfl : stored.toValue = value := by simpa using same
    exact ⟨stored, rfl, storedPlaces⟩

/-- The catalog can be read, and the state stays sound. -/
theorem catalog! :
    ∃ world, runFrom state ChunkIndex.catalog! =
        (.ok (state.chunks.seenCatalog kept),
          ⟨{ state.chunks with catalog := some (state.chunks.seenCatalog kept) }, world⟩) ∧
      Sound gpu ledger (state.chunks.keptOnceRead kept)
        ⟨{ state.chunks with catalog := some (state.chunks.seenCatalog kept) }, world⟩ := by
  obtain ⟨world, result, files⟩ := runFrom_catalog! sound.files
  exact ⟨world, result, sound.read files⟩

theorem runFrom_vectors! :
    runFrom state (vectors! gpu) = (.ok state.chunks.vectors, state) := by
  refine runFrom_vectors!_again sound.files (fun vectors => ?_)
  obtain ⟨rfl, noFile⟩ := sound.withoutVectors vectors
  exact ⟨sound.names, noFile⟩

private theorem statisticsOf (gathered : Except Fault Statistics) :
    ∃ kept' world, (runFrom state (do
        let statistics ← orFail gathered
        World.writeFile state.chunks.statisticsFile
          (.document (.record statistics.toRecord)) : IndexAct Unit)).2 =
        { state with world } ∧
      Sound gpu ledger kept' { state with world } ∧
      kept' .vectors = kept .vectors ∧ kept' .names = kept .names := by
  cases gathered with
  | error fault => exact ⟨kept, state.world, by simp, sound, rfl, rfl⟩
  | ok statistics =>
    obtain ⟨world, written, files⟩ :=
      sound.files.writeFile .statistics (.record statistics.toRecord)
    have written' : runFrom state.world (World.writeFile state.chunks.statisticsFile
        (.document (.record statistics.toRecord))) = (.ok (), world) := written
    exact ⟨_, world, by simp [written'],
      sound.rewritten files (fun _ => by simp) (by simp), by simp, by simp⟩

/-- Writing the statistics reads the catalog at most, and leaves vectors and names as
they are kept. -/
theorem writeStatistics :
    ∃ kept' catalog world, (runFrom state ChunkIndex.writeStatistics).2 =
        ⟨{ state.chunks with catalog }, world⟩ ∧
      Sound gpu ledger kept' ⟨{ state.chunks with catalog }, world⟩ ∧
      kept' .vectors = kept .vectors ∧ kept' .names = kept .names := by
  by_cases empty : state.chunks.names = []
  · obtain ⟨⟨folder, vectors, _, catalog, onGpu⟩, _⟩ := state
    simp only at empty
    subst empty
    obtain ⟨kept', world, result, sound', same⟩ := sound.statisticsOf
      (Statistics.gather vectors Table.empty [])
    refine ⟨kept', catalog, world, ?_, sound', same⟩
    simpa [ChunkIndex.writeStatistics] using result
  · obtain ⟨world, read, sound'⟩ := sound.catalog!
    obtain ⟨kept', world', result, sound'', vectors, names⟩ := sound'.statisticsOf
      (Statistics.gather state.chunks.vectors (state.chunks.seenCatalog kept)
        state.chunks.names)
    refine ⟨kept', some (state.chunks.seenCatalog kept), world', ?_, sound'', ?_, ?_⟩
    · simpa [ChunkIndex.writeStatistics, empty, read, statisticsFile] using result
    · rw [vectors, keptOnceRead_of_ne (by decide)]
    · rw [names, keptOnceRead_of_ne (by decide)]

private theorem saveNames :
    ∃ kept' catalog world, (runFrom state (do
        World.writeFile state.chunks.nameFile (.document (.ofTexts state.chunks.names))
        ChunkIndex.writeStatistics : IndexAct Unit)).2 =
        ⟨{ state.chunks with catalog }, world⟩ ∧
      Sound gpu ledger kept' ⟨{ state.chunks with catalog }, world⟩ ∧
      kept' .vectors = kept .vectors ∧
      kept' .names = some (.ofTexts state.chunks.names) := by
  obtain ⟨world, written, files⟩ :=
    sound.files.writeFile .names (.ofTexts state.chunks.names)
  have written' : runFrom state.world (World.writeFile state.chunks.nameFile
      (.document (.ofTexts state.chunks.names))) = (.ok (), world) := written
  obtain ⟨kept', catalog, world', result, sound', vectors, names⟩ :=
    (sound.rewritten files (fun _ => by simp) (by simp)).writeStatistics
  exact ⟨kept', catalog, world', by simpa [written'] using result, sound',
    by simpa using vectors, by simpa using names⟩

/-- Saving reads the catalog at most; it keeps the names, and the vectors as far as they
can be written. -/
theorem save :
    ∃ kept' catalog world, (runFrom state (ChunkIndex.save gpu)).2 =
        ⟨{ state.chunks with catalog }, world⟩ ∧
      Sound gpu ledger kept' ⟨{ state.chunks with catalog }, world⟩ ∧
      kept' .names = some (.ofTexts state.chunks.names) ∧
      (gpu.isAvailable = false →
        kept' .vectors = state.chunks.vectors.map VectorIndex.toValue) := by
  cases vectors : state.chunks.vectors with
  | none =>
    obtain ⟨kept', catalog, world, result, sound', same, names⟩ := sound.saveNames
    refine ⟨kept', catalog, world, ?_, by simpa [vectors] using sound', names, fun _ => ?_⟩
    · simpa [ChunkIndex.save, vectors] using result
    · rw [same, (sound.withoutVectors vectors).2]
      rfl
  | some index =>
    obtain ⟨world, document, written, files, known⟩ :=
      runFrom_writeVectors gpu sound.files state.chunks.onGpu index
    have sound₁ := sound.rewritten files
      (fun none => by simp [vectors] at none) (by simp)
    obtain ⟨kept', catalog, world', result, sound', same, names⟩ := sound₁.saveNames
    have written' : runFrom state.world (tryCatch
        (ChunkIndex.writeVectors gpu state.chunks.onGpu index state.chunks.vectorFile)
        (fun _ => tryCatch (do
          World.writeFile state.chunks.vectorFile
            (.document (← gpu.bringBack index).toValue)) (fun _ => pure ()))) =
          (.ok (), world) := written
    refine ⟨kept', catalog, world', ?_, by simpa [vectors] using sound', names,
      fun absent => ?_⟩
    · unfold ChunkIndex.save
      simp only [runFrom_bind, runFrom_current, andThen_ok, vectors, runFrom_lift, written']
      simpa [vectors] using result
    · rw [same, known (sound.atHome absent) ((sound.withVectors index vectors).atHome absent)]
      simp

private theorem create (none : state.chunks.vectors = none) (dimension : Nat) {large : Prop}
    [Decidable large] {flat : Bool} (small : flat = true → ¬ large) :
    ∃ after, runFrom state (ChunkIndex.create gpu dimension
          (.text (if large then "ivf" else "flat"))) = (.ok (), after) ∧
      (∃ index, after.chunks.vectors = some index) ∧
      Sound gpu ⟨some dimension, flat, ledger.items⟩ kept after := by
  obtain ⟨rfl, noFile⟩ := sound.withoutVectors none
  obtain ⟨index, onGpu, created, sameDimension, holdsNothing, direct, whole, kind, home⟩ :=
    runFrom_create gpu state dimension large
  refine ⟨_, created, ⟨_, rfl⟩, sound.files, sound.names, ?_, ?_, sound.inMemory,
    sound.onDisk, ?_⟩
  · intro missing
    cases missing
  · rintro _ ⟨⟩
    exact ⟨by simp [sameDimension], holdsNothing, direct, whole, kind ∘ small,
      fun absent => (home absent).1⟩
  · intro absent
    exact (home absent).2.trans (sound.atHome absent)

private theorem train :
    Sound gpu ledger kept { state with chunks := { state.chunks with
      vectors := state.chunks.vectors.map VectorIndex.train } } where
  files := sound.files
  names := sound.names
  withoutVectors missing := sound.withoutVectors (by simpa using missing)
  withVectors index found := by
    obtain ⟨before, here, rfl⟩ := Option.map_eq_some_iff.mp found
    have fills := sound.withVectors before here
    exact ⟨fills.dimension, fills.vectors, fills.directMap, fills.whole, fills.flat,
      fills.atHome⟩
  inMemory := sound.inMemory
  onDisk := sound.onDisk
  atHome := sound.atHome

/-- The names, vectors and entries of new chunks come in together. -/
private theorem extend {index : VectorIndex}
    (vectors : state.chunks.vectors = some index) (items : List Embedded) :
    ∃ kept', Sound gpu { ledger with items := ledger.items ++ items } kept'
      (runFrom state (ChunkIndex.enter { index with
        vectors := index.vectors ++
          items.map (fun item => gpu.library.normalize item.embedding) } items)).2 := by
  obtain ⟨world, read, sound₁⟩ := sound.catalog!
  have places := sound.seenCatalog_places.enter items
  have start : state.chunks.names.length = ledger.items.length := by simp [sound.names]
  have fills := sound.withVectors index vectors
  generalize state.chunks.seenCatalog kept = catalog at *
  obtain ⟨world', committed, files⟩ := @runFrom_commit
    ⟨{ state.chunks with
      vectors := some { index with
        vectors := index.vectors ++
          items.map (fun item => gpu.library.normalize item.embedding) }
      names := state.chunks.names ++ items.map Embedded.identifier
      catalog := some (catalog.enter ledger.items.length items) }, world⟩
    _ sound₁.files _ rfl
  have sound₂ : Sound gpu { ledger with items := ledger.items ++ items } _ ⟨_, world'⟩ := {
    files := files
    names := by simp [sound.names]
    withoutVectors := by simp
    withVectors := by
      rintro _ ⟨⟩
      exact ⟨fills.dimension, by simp [fills.vectors], fills.directMap, fills.whole,
        fills.flat, fills.atHome⟩
    inMemory := by
      rintro _ ⟨⟩
      exact ⟨places, _, by simp, Catalog.Within.refl _⟩
    onDisk := by
      intro value found
      exact ⟨_, by simpa using found.symm, places⟩
    atHome := sound.atHome }
  obtain ⟨kept', _, _, result, sound', -⟩ := sound₂.writeStatistics
  exact ⟨kept', by simpa [ChunkIndex.enter, read, start, committed, result] using sound'⟩

private theorem add_of_vectors {index : VectorIndex}
    (vectors : state.chunks.vectors = some index) (first : Embedded) (rest : List Embedded) :
    ∃ kept', Sound gpu (ledger.add (first :: rest)) kept'
      (runFrom state (ChunkIndex.add gpu (first :: rest))).2 := by
  obtain ⟨dimension, known, equal⟩ :=
    Option.map_eq_some_iff.mp (sound.withVectors index vectors).dimension
  have fits : (∀ item ∈ first :: rest, (item.embedding.length : Int) = index.dimension) ↔
      ∀ item ∈ first :: rest, item.embedding.length = dimension := by
    have equal : (dimension : Int) = index.dimension := equal
    simp only [← equal, Int.natCast_inj]
  have trained := sound.train
  rw [vectors] at trained
  rcases ChunkIndex.add_of_vectors gpu vectors first rest with
    ⟨even, ran⟩ | ⟨odd, fault, after, ran, same⟩
  · rw [Ledger.add, known, Option.getD_some, Option.elim_some, if_pos (fits.mp even), ran,
      ← known]
    exact trained.extend rfl (first :: rest)
  · rw [Ledger.add, known, Option.getD_some, Option.elim_some, if_neg (mt fits.mpr odd), ran,
      ← known]
    rcases same with ⟨-, rfl⟩ | ⟨-, rfl⟩
    · exact ⟨kept, trained⟩
    · exact ⟨kept, sound⟩

theorem add (items : List Embedded) :
    ∃ kept', Sound gpu (ledger.add items) kept'
      (runFrom state (ChunkIndex.add gpu items)).2 := by
  cases items with
  | nil => exact ⟨kept, by simpa [ChunkIndex.add, Ledger.add] using sound⟩
  | cons first rest =>
    cases vectors : state.chunks.vectors with
    | some index => exact sound.add_of_vectors vectors first rest
    | none =>
      have small : decide ((first :: rest).length ≤ 10000) = true →
          ¬ 10000 < (first :: rest).length := by simp
      obtain ⟨after, created, ⟨index, vectors'⟩, sound'⟩ :=
        sound.create vectors first.embedding.length small
      obtain ⟨kept', sound''⟩ := sound'.add_of_vectors vectors' first rest
      obtain ⟨rfl, -⟩ := sound.withoutVectors vectors
      rw [ChunkIndex.add_of_created vectors created vectors']
      exact ⟨kept', sound''⟩

theorem removeFile (path project : Value) :
    ∃ kept', Sound gpu ledger kept'
      (runFrom state (ChunkIndex.removeFile path project)).2 := by
  obtain ⟨world, files, described⟩ := runFrom_removeFile sound.files path project
  have sound₁ := sound.read files
  generalize state.chunks.seenCatalog kept = catalog at *
  cases collected : catalog.belonging path project state.chunks.names with
  | error fault =>
    rw [collected] at described
    rw [described]
    exact ⟨_, sound₁⟩
  | ok found =>
    rw [collected] at described
    obtain ⟨rest, outcome, after, kept', removed, ran, files', same⟩ := described
    obtain ⟨places, stored, keptHere, within⟩ := sound₁.inMemory catalog rfl
    obtain ⟨places', within'⟩ := Catalog.removeAll_induction
      (fun rest => Ledger.Places ledger.items rest ∧ rest.Within stored)
      (fun _ name both => ⟨both.1.erase name, both.2.erase name⟩) found catalog ⟨places, within⟩
    rw [removed] at places' within'
    rw [ran]
    refine ⟨kept', files', sound.names, ?_, sound.withVectors, ?_, ?_, sound.atHome⟩
    · rcases same with rfl | rfl
      · exact sound₁.withoutVectors
      · simpa using sound₁.withoutVectors
    · rintro _ ⟨⟩
      rcases same with rfl | rfl
      · exact ⟨places', stored, keptHere, within'⟩
      · exact ⟨places', rest, by simp, Catalog.Within.refl _⟩
    · rcases same with rfl | rfl
      · exact sound₁.onDisk
      · exact fun value found => ⟨rest, by simpa using found.symm, places'⟩

theorem clear :
    Sound gpu Ledger.empty (fun _ => none) (runFrom state ChunkIndex.clear).2 := by
  obtain ⟨world, cleared, nothing⟩ := runFrom_clear sound.files
  rw [cleared]
  exact ⟨nothing, rfl, fun _ => ⟨rfl, rfl⟩, by simp, by simp, by simp, sound.atHome⟩

end Sound

/-- Some contents of the files make the state sound. -/
def IsSound (gpu : GpuSupport) (ledger : Ledger) (state : IndexState) : Prop :=
  ∃ kept, Sound gpu ledger kept state

namespace IsSound

open ChunkIndex

variable {gpu : GpuSupport} {ledger : Ledger}

private theorem vectors! : Preserves (IsSound gpu ledger) (ChunkIndex.vectors! gpu) := by
  rintro state ⟨kept, sound⟩
  exact ⟨kept, by simpa [sound.runFrom_vectors!] using sound⟩

private theorem catalog! : Preserves (IsSound gpu ledger) ChunkIndex.catalog! := by
  rintro state ⟨kept, sound⟩
  obtain ⟨world, read, sound'⟩ := sound.catalog!
  exact ⟨_, by simpa [read] using sound'⟩

private theorem outlastsReading : OutlastsReading gpu (IsSound gpu ledger) :=
  ⟨vectors!, catalog!⟩

/-- Every call leaves a sound state, whatever its outcome. -/
theorem call {state : IndexState} (sound : IsSound gpu ledger state) (call : IndexCall) :
    IsSound gpu (ledger.record call) (call.after gpu state) := by
  obtain ⟨kept, sound⟩ := sound
  unfold IndexCall.after
  cases call with
  | add items =>
    rw [IndexCall.action, runFrom_bind_pure]
    exact sound.add items
  | removeFile path project =>
    rw [IndexCall.action, runFrom_bind_pure]
    exact sound.removeFile path project
  | search query count filter =>
    rw [IndexCall.action, runFrom_bind_pure]
    exact outlastsReading.searchUpTo query count filter state ⟨kept, sound⟩
  | similar identifier count =>
    rw [IndexCall.action, runFrom_bind_pure]
    exact outlastsReading.similarUpTo identifier count state ⟨kept, sound⟩
  | recordOf identifier =>
    rw [IndexCall.action, runFrom_bind_pure]
    exact Preserves.bind (outlastsReading.entryOf identifier) (fun _ => .pure _) state
      ⟨kept, sound⟩
  | save =>
    rw [IndexCall.action, runFrom_bind_pure]
    obtain ⟨kept', _, _, result, sound', -⟩ := sound.save
    exact ⟨kept', result ▸ sound'⟩
  | clear =>
    rw [IndexCall.action, runFrom_bind_pure]
    exact ⟨_, sound.clear⟩

theorem calls {state : IndexState} (sound : IsSound gpu ledger state) (calls : List IndexCall) :
    IsSound gpu (calls.foldl Ledger.record ledger)
      (IndexCall.stateAfter gpu calls state) := by
  induction calls generalizing ledger state with
  | nil => exact sound
  | cons call calls ih => exact ih (sound.call call)

end IsSound

end IndexState

end CodeAtlas
