import CodeAtlas.Proofs.Indexing.FailedBatches

/-!
# The contents that are stored with embedded chunks

What is embedded gets its content by position: the first embedded chunk gets that of the first
chunk, and so on.  Chunks in batches that were left out are counted among the chunks, but not
among those that were embedded.  So the stored contents are the right ones exactly if what was
embedded comes first.
-/

namespace CodeAtlas

namespace Encoder

variable {encoder : Encoder} {chunks : List Chunk}

/-- The chunks of a batch that get a vector, with their vectors. -/
def pairedBatch (encoder : Encoder) (batch : List Chunk × Nat) : List (Chunk × Embedding) :=
  match encoder.answer batch with
  | .ok vectors => batch.1.zip vectors
  | .error _ => []

def paired (encoder : Encoder) (chunks : List Chunk) : List (Chunk × Embedding) :=
  (batches 32 chunks).zipIdx.flatMap encoder.pairedBatch

theorem embedBatch_eq (encoder : Encoder) (batch : List Chunk × Nat) :
    encoder.embedBatch batch =
      (encoder.pairedBatch batch).map (fun pair => pair.1.embeddedAs pair.2) := by
  unfold embedBatch pairedBatch
  cases encoder.answer batch with
  | ok vectors => rfl
  | error fault => rfl

theorem flatMap_embedBatch (encoder : Encoder) (chunks : List Chunk) :
    (batches 32 chunks).zipIdx.flatMap encoder.embedBatch =
      (encoder.paired chunks).map (fun pair => pair.1.embeddedAs pair.2) := by
  rw [paired, List.map_flatMap]
  exact List.flatMap_congr (fun batch _ => encoder.embedBatch_eq batch)

theorem pairedBatch_isPrefix (encoder : Encoder) (batch : List Chunk × Nat) :
    (encoder.pairedBatch batch).map Prod.fst <+: batch.1 := by
  unfold pairedBatch
  cases encoder.answer batch with
  | error fault => exact List.nil_prefix
  | ok vectors =>
    dsimp only
    rw [List.zip_eq_zip_take_min, List.map_fst_zip (by simp)]
    exact List.take_prefix _ _

theorem flatMap_pairedBatch_sublist (encoder : Encoder) (cut : List (List Chunk × Nat)) :
    ((cut.flatMap encoder.pairedBatch).map Prod.fst).Sublist (cut.flatMap Prod.fst) := by
  induction cut with
  | nil => exact .refl _
  | cons batch rest ih =>
    rw [List.flatMap_cons, List.map_append, List.flatMap_cons]
    exact (encoder.pairedBatch_isPrefix batch).sublist.append ih

theorem length_paired (encoder : Encoder) (chunks : List Chunk) :
    (encoder.paired chunks).length ≤ chunks.length := by
  have fewer := (encoder.flatMap_pairedBatch_sublist (batches 32 chunks).zipIdx).length_le
  rwa [flatMap_zipIdx_batches, List.length_map] at fewer

end Encoder

namespace ChunkIndex

def rows (chunks : ChunkIndex) : List Embedding :=
  (chunks.vectors.map VectorIndex.vectors).getD []

end ChunkIndex

namespace IndexState

open ChunkIndex

variable {state after : IndexState} {items : List Embedded}

/-- The items were added: their names, vectors and entries follow those that there were. -/
structure Received (gpu : GpuSupport) (items : List Embedded) (state after : IndexState) :
    Prop where
  names : after.chunks.names = state.chunks.names ++ items.map Embedded.identifier
  rows : after.chunks.rows = state.chunks.rows ++
    items.map (fun item => gpu.library.normalize item.embedding)
  entered : items ≠ [] → ∃ catalog : Catalog,
    after.chunks.catalog = some (catalog.enter state.chunks.names.length items)

structure Declined (state after : IndexState) : Prop where
  names : after.chunks.names = state.chunks.names
  rows : after.chunks.rows = state.chunks.rows
  catalog : after.chunks.catalog = state.chunks.catalog

theorem keep_chunks (state : IndexState) (catalog : Catalog) :
    (runFrom state (keep catalog)).2.chunks = state.chunks := by
  obtain ⟨world, kept⟩ := runFrom_keep_any state catalog
  rw [kept]

/-- Reading the catalog changes nothing else in memory, and nothing at all if it fails. -/
theorem catalog!_chunks (state : IndexState) :
    (runFrom state catalog!).2.chunks = { state.chunks with
      catalog := (runFrom state catalog!).1.toOption.or state.chunks.catalog } := by
  obtain ⟨⟨folder, vectors, names, catalog, onGpu⟩, world⟩ := state
  obtain ⟨after, ran⟩ := exists_catalog! folder catalog world
  rw [ran]
  split <;> rfl

section Finishing

variable {chunks : ChunkIndex} (known : chunks.catalog ≠ none)

include known

private theorem reading_chunks :
    Preserves (fun state : IndexState => state.chunks = chunks) catalog! := by
  rintro state rfl
  obtain ⟨catalog, found⟩ := Option.ne_none_iff_exists'.mp known
  simp [catalog!, found]

/-- With the catalog in memory, committing and counting change nothing in memory. -/
private theorem finishing_chunks :
    Preserves (fun state : IndexState => state.chunks = chunks) (do
      commit
      writeStatistics) := by
  have keeping : ∀ catalog : Catalog,
      Preserves (fun state : IndexState => state.chunks = chunks) (keep catalog) :=
    fun catalog state same => (state.keep_chunks catalog).trans same
  refine .bind (.bind (reading_chunks known) keeping) (fun _ => ?_)
  refine .bind (.of_same (fun state => rfl)) (fun present => ?_)
  refine .either (.pure _) (reading_chunks known) (fun catalog => ?_)
  exact .bind (.orFail _) (fun statistics state same => same)

end Finishing

/-- Items that are entered at the end are received, unless the catalog cannot be read. -/
private theorem entering (gpu : GpuSupport) (state : IndexState) (extended : VectorIndex)
    (items : List Embedded) (vectors : extended.vectors = state.chunks.rows ++
      items.map (fun item => gpu.library.normalize item.embedding)) :
    let ran := runFrom state (enter extended items)
    Received gpu items state ran.2 ∨ (∃ fault, ran.1 = .error fault) ∧ Declined state ran.2 := by
  have reading := state.catalog!_chunks
  rw [enter, runFrom_then (runFrom_current _), runFrom_bind]
  rcases ran : runFrom state catalog! with ⟨fault | catalog, between⟩
  · rw [ran] at reading
    have same : between.chunks = state.chunks := reading
    exact .inr ⟨⟨fault, rfl⟩, by rw [andThen_error, same], by rw [andThen_error, same],
      by rw [andThen_error, same]⟩
  · rw [ran] at reading
    have same : between.chunks = { state.chunks with catalog := some catalog } := reading
    left
    rw [andThen_ok, runFrom_then (runFrom_change _ _)]
    have finished : ∀ chunks : ChunkIndex, chunks.catalog ≠ none →
        (runFrom { between with chunks } (do
          commit
          writeStatistics)).2.chunks = chunks := fun chunks known =>
      finishing_chunks known { between with chunks } rfl
    refine ⟨?_, ?_, fun _ => ⟨catalog, ?_⟩⟩
    · rw [finished _ (by simp), same]
    · rw [finished _ (by simp), rows]
      exact vectors
    · rw [finished _ (by simp)]

private theorem add_cases_of_vectors (gpu : GpuSupport) (first : Embedded) (rest : List Embedded)
    {index : VectorIndex} (known : state.chunks.vectors = some index) :
    let ran := runFrom state (ChunkIndex.add gpu (first :: rest))
    Received gpu (first :: rest) state ran.2 ∨
      (∃ fault, ran.1 = .error fault) ∧ Declined state ran.2 := by
  have before : index.vectors = state.chunks.rows := by
    simp [ChunkIndex.rows, known]
  intro ran
  rcases ChunkIndex.add_of_vectors gpu known first rest with
    ⟨-, entered⟩ | ⟨-, fault, after, failed, same⟩
  · have outcome := entering gpu { state with chunks := { state.chunks with
      vectors := some index.train } } { index.train with
        vectors := index.vectors ++
          (first :: rest).map (fun item => gpu.library.normalize item.embedding) }
      (first :: rest) rfl
    rw [← entered] at outcome
    rcases outcome with ⟨names, rows, entered⟩ | ⟨failed, names, rows, catalog⟩
    · exact .inl ⟨names, rows.trans (by rw [← before]; rfl), entered⟩
    · exact .inr ⟨failed, names, rows.trans before, catalog⟩
  · refine .inr ⟨⟨fault, congrArg Prod.fst failed⟩, ?_⟩
    rw [show ran = _ from failed]
    rcases same with ⟨-, rfl⟩ | ⟨-, rfl⟩
    · exact ⟨rfl, before, rfl⟩
    · exact ⟨rfl, rfl, rfl⟩

/-- Items are received, or the action fails and nothing was added. -/
theorem add_cases (gpu : GpuSupport) (items : List Embedded) (state : IndexState) :
    let ran := runFrom state (ChunkIndex.add gpu items)
    Received gpu items state ran.2 ∨ (∃ fault, ran.1 = .error fault) ∧ Declined state ran.2 := by
  cases items with
  | nil => exact .inl ⟨(List.append_nil _).symm, (List.append_nil _).symm, nofun⟩
  | cons first rest =>
    cases vectors : state.chunks.vectors with
    | some index => exact add_cases_of_vectors gpu first rest vectors
    | none =>
      obtain ⟨index, onGpu, created, -, nothing, -⟩ := runFrom_create gpu state
        first.embedding.length (10000 < (first :: rest).length)
      have before : index.vectors = state.chunks.rows := by
        simp [ChunkIndex.rows, vectors, nothing]
      have outcome := @add_cases_of_vectors { state with chunks := { state.chunks with
        vectors := some index, onGpu } } gpu first rest index rfl
      rw [add_of_created vectors created rfl]
      rcases outcome with ⟨names, rows, entered⟩ | ⟨failed, names, rows, catalog⟩
      · exact .inl ⟨names, rows.trans (by rw [← before]; rfl), entered⟩
      · exact .inr ⟨failed, names, rows.trans before, catalog⟩

end IndexState

namespace Indexer

open IndexState

variable {indexer : Indexer}

end Indexer

namespace Sample

open Indexer

def contentAndStart? (record : Record) : Option (String × Int) :=
  match record.lookup "content", record.lookup "start_line" with
  | some (.text content), some (.int line) => some (content, line)
  | _, _ => none

theorem lookup_of_contentAndStart? {record : Record} {content : String} {line : Int}
    (told : contentAndStart? record = some (content, line)) :
    record.lookup "content" = some (.text content) ∧
      record.lookup "start_line" = some (.int line) := by
  unfold contentAndStart? at told
  split at told
  · obtain ⟨rfl, rfl⟩ := Prod.mk.inj (Option.some.inj told)
    exact ⟨‹_›, ‹_›⟩
  · cases told

end Sample

end CodeAtlas
