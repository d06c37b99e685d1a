import CodeAtlas.Proofs.Index.Live

/-!
# Indexes that are the same in all that is read of them

Two states of an index are twins if they are the same in memory and their files keep the
same documents, whatever else stands on the two disks.  Twins answer alike and stay twins.
Without graphics processors no index leaves the memory of the program, so what is written is
what is in memory.
-/

namespace CodeAtlas

namespace IndexState

variable {gpu : GpuSupport} {folder : Path} {α : Type}

/-- The index is in the folder, and was not moved to graphics processors. -/
structure IsHome (folder : Path) (state : IndexState) : Prop where
  folder : state.chunks.folder = folder
  onGpu : state.chunks.onGpu = false

namespace IsHome

theorem onWorld (action : Act α) : Preserves (IsHome folder) (action : IndexAct α) :=
  fun _ here => ⟨here.folder, here.onGpu⟩

/-- Without graphics processors an index in main memory stays there. -/
theorem outlasts (noGpu : gpu.isAvailable = false) : OutlastsSteps gpu folder (IsHome folder) where
  inFolder _ here := here.folder
  written _ _ _ here := ⟨here.folder, here.onGpu⟩
  counted _ here := ⟨here.folder, here.onGpu⟩
  remembered _ _ _ here := ⟨here.folder, here.onGpu⟩
  exchanged _ _ _ here _ _ := ⟨here.folder, here.onGpu⟩
  started _ _ here _ _ := by
    rw [ChunkIndex.runFrom_moveToGpu_of_noGpu noGpu]
    exact ⟨here.folder, here.onGpu⟩

theorem save (gpu : GpuSupport) : Preserves (IsHome folder) (ChunkIndex.save gpu) :=
  (outlasts (show GpuSupport.none.isAvailable = false from rfl)).toOutlasts.save gpu

theorem removeFile (path project : Value) :
    Preserves (IsHome folder) (ChunkIndex.removeFile path project) :=
  (outlasts (show GpuSupport.none.isAvailable = false from rfl)).removeFile path project

theorem clear : Preserves (IsHome folder) ChunkIndex.clear := by
  intro state here
  obtain ⟨world, cleared | ⟨fault, failed⟩⟩ := runFrom_clear_or state
  · rw [cleared]
    exact ⟨here.folder, here.onGpu⟩
  · rw [failed]
    exact ⟨here.folder, here.onGpu⟩

end IsHome

private theorem onGpu_add {index extended : VectorIndex} {vectors : List Embedding}
    (added : index.add vectors = .ok extended) : extended.onGpu = index.onGpu := by
  unfold VectorIndex.add at added
  split at added
  · rw [← Except.ok.inj added]
  · cases added

/-- Both states have the same index in memory, which is all in the program's own memory, and the
files of the index keep the same. -/
structure Twins (folder : Path) (first second : IndexState) : Prop where
  chunks : second.chunks = first.chunks
  home : first.IsHome folder
  vectors : ∀ index, first.chunks.vectors = some index → index.onGpu = false
  files : ∃ kept, first.world.KeepsIndex folder kept ∧ second.world.KeepsIndex folder kept

namespace Twins

private theorem current {next : ChunkIndex → IndexAct α}
    (each : ∀ chunks, chunks.folder = folder → chunks.onGpu = false →
      (∀ index, chunks.vectors = some index → index.onGpu = false) →
        Parallel (Twins folder) (next chunks)) :
    Parallel (Twins folder) (ChunkIndex.current >>= next) := by
  intro first second twins
  simp only [runFrom_bind, runFrom_current, andThen_ok, twins.chunks]
  exact each first.chunks twins.home.folder twins.home.onGpu twins.vectors first second twins

private theorem change {update : ChunkIndex → ChunkIndex}
    (sameFolder : ∀ chunks, (update chunks).folder = chunks.folder)
    (sameHome : ∀ chunks, (update chunks).onGpu = chunks.onGpu)
    (vectors : ∀ chunks, (∀ index, chunks.vectors = some index → index.onGpu = false) →
      ∀ index, (update chunks).vectors = some index → index.onGpu = false) :
    Parallel (Twins folder) (ChunkIndex.change update) := by
  intro first second twins
  refine ⟨rfl, congrArg update twins.chunks, ⟨?_, ?_⟩, vectors _ twins.vectors, twins.files⟩
  · exact (sameFolder first.chunks).trans twins.home.folder
  · exact (sameHome first.chunks).trans twins.home.onGpu

private theorem writeFile (file : KeptFile) (value : Value) :
    Parallel (Twins folder)
      (World.writeFile (folder.child file.name) (.document value) : IndexAct Unit) := by
  intro first second twins
  obtain ⟨kept, files, files'⟩ := twins.files
  obtain ⟨world, written, after⟩ := files.writeFile file value
  obtain ⟨world', written', after'⟩ := files'.writeFile file value
  rw [runFrom_lift, runFrom_lift, written, written']
  exact ⟨rfl, twins.chunks, ⟨twins.home.folder, twins.home.onGpu⟩, twins.vectors, _, after,
    after'⟩

private theorem keep (catalog : Catalog) :
    Parallel (Twins folder) (ChunkIndex.keep catalog) := by
  intro first second twins
  obtain ⟨same, ⟨rfl, home⟩, vectors, kept, files, files'⟩ := twins
  rw [← same] at files'
  obtain ⟨world, written, after⟩ := ChunkIndex.runFrom_keep files catalog
  obtain ⟨world', written', after'⟩ := ChunkIndex.runFrom_keep files' catalog
  rw [written, written']
  rw [same] at after'
  exact ⟨rfl, same, ⟨rfl, home⟩, vectors, _, after, after'⟩

theorem catalog! : Parallel (Twins folder) ChunkIndex.catalog! := by
  intro first second twins
  obtain ⟨same, ⟨rfl, home⟩, vectors, kept, files, files'⟩ := twins
  rw [← same] at files'
  obtain ⟨world, read, after⟩ := ChunkIndex.runFrom_catalog! files
  obtain ⟨world', read', after'⟩ := ChunkIndex.runFrom_catalog! files'
  rw [read, read']
  rw [same] at after' ⊢
  exact ⟨rfl, rfl, ⟨rfl, home⟩, vectors, _, after, after'⟩

private theorem writeStatistics : Parallel (Twins folder) ChunkIndex.writeStatistics := by
  refine current (fun chunks here _ _ => ?_)
  have rest : ∀ catalog : Catalog, Parallel (Twins folder) (do
      let statistics ← orFail (Statistics.gather chunks.vectors catalog chunks.names)
      World.writeFile chunks.statisticsFile
        (.document (.record statistics.toRecord)) : IndexAct Unit) := by
    intro catalog
    refine .bind (.orFail _) (fun statistics => ?_)
    rw [ChunkIndex.statisticsFile, here]
    exact writeFile .statistics _
  dsimp only
  split
  · exact .bind (.pure _) rest
  · exact .bind catalog! rest

theorem save (gpu : GpuSupport) : Parallel (Twins folder) (ChunkIndex.save gpu) := by
  refine current (fun chunks here home vectors => ?_)
  have rest : Parallel (Twins folder) (do
      World.writeFile chunks.nameFile (.document (.ofTexts chunks.names))
      ChunkIndex.writeStatistics : IndexAct Unit) := by
    refine .bind ?_ (fun _ => writeStatistics)
    rw [ChunkIndex.nameFile, here]
    exact writeFile .names _
  dsimp only
  split
  · exact rest
  · rename_i index inMemory
    refine .bind ?_ (fun _ => rest)
    rw [ChunkIndex.vectorFile, here, home]
    -- an index at home is written at the first attempt
    intro first second twins
    obtain ⟨kept, files, files'⟩ := twins.files
    obtain ⟨world, written, after⟩ := files.writeFile .vectors index.toValue
    obtain ⟨world', written', after'⟩ := files'.writeFile .vectors index.toValue
    simp only [KeptFile.name] at written written'
    simp only [runFrom_lift, runFrom_tryCatch, ChunkIndex.writeVectors, vectors index inMemory,
      Bool.false_and, Bool.false_eq_true, if_false, runFrom_bind, runFrom_pure, andThen_ok,
      written, written']
    exact ⟨trivial, twins.chunks, ⟨twins.home.folder, twins.home.onGpu⟩, twins.vectors, _, after,
      after'⟩

section WithoutGpu

variable (noGpu : gpu.isAvailable = false)

include noGpu

private theorem moveToGpu : Parallel (Twins folder) (ChunkIndex.moveToGpu gpu) := by
  intro first second twins
  rw [ChunkIndex.runFrom_moveToGpu_of_noGpu noGpu, ChunkIndex.runFrom_moveToGpu_of_noGpu noGpu]
  exact ⟨rfl, twins⟩

private theorem create (dimension : Int) (kind : Value) :
    Parallel (Twins folder) (ChunkIndex.create gpu dimension kind) := by
  have rest : ∀ index : VectorIndex, index.onGpu = false → Parallel (Twins folder) (do
      ChunkIndex.change (fun chunks => { chunks with vectors := some index })
      ChunkIndex.moveToGpu gpu) := fun index home =>
    .bind (change (fun _ => rfl) (fun _ => rfl)
      (fun _ _ _ same => Option.some.inj same ▸ home)) (fun _ => moveToGpu noGpu)
  unfold ChunkIndex.create
  dsimp only
  split
  · exact rest _ rfl
  · exact rest _ rfl
  · exact fun _ _ twins => ⟨rfl, twins⟩

theorem add (items : List Embedded) :
    Parallel (Twins folder) (ChunkIndex.add gpu items) := by
  cases items with
  | nil => exact .pure _
  | cons first rest =>
    refine current (fun chunks _ _ _ => .guarded (create noGpu _ _) ?_)
    refine .bind (.orFail _) (fun rows => .bind (change (fun _ => rfl) (fun _ => rfl) ?_)
      (fun _ => current (fun chunks _ _ home => ?_)))
    · intro chunks home index trained
      obtain ⟨before, inMemory, rfl⟩ := Option.map_eq_some_iff.mp trained
      exact home before inMemory
    · dsimp only
      split
      · exact .pure _
      · rename_i vectors inMemory
        refine .orFail_bind (fun extended added => current (fun _ _ _ _ => .bind catalog!
          (fun catalog => .bind (change (fun _ => rfl) (fun _ => rfl) ?_) (fun _ =>
            .bind (.bind catalog! keep) (fun _ => writeStatistics)))))
        rintro _ _ _ ⟨⟩
        exact (onGpu_add added).trans (home vectors inMemory)

end WithoutGpu

end Twins

end IndexState

end CodeAtlas
