import CodeAtlas.Proofs.Index.Soundness

/-!
# Alignment of vectors, names and catalog

After any calls on an index that started with nothing, a live chunk sits where its entry
says: at that position are its name and the vector that it was given last.  So the chunks
that are similar to it are found by its own vector.
-/

namespace CodeAtlas

namespace ChunkIndex

/-- A live chunk is at its position, with its own name and the vector that it was given
last. -/
structure Aligned (gpu : GpuSupport) (chunks : ChunkIndex) (ledger : Ledger) (identifier : String)
    (entry : Entry) (item : Embedded) : Prop where
  inRange : entry.position < (chunks.vectors.map VectorIndex.size).getD 0
  named : chunks.names[entry.position]? = some identifier
  given : ledger.last? identifier = some item
  vector : chunks.vectors.bind (fun index => index.vectors[entry.position]?) =
    some (gpu.library.normalize item.embedding)

def othersLike (gpu : GpuSupport) (vector : Embedding) (identifier : String)
    (count : Value) : IndexAct (List Hit) := do
  let hits ← searchUpTo gpu vector (← orFail count.successor) .null
  let others := hits.filter (fun hit => hit.identifier ≠ identifier)
  return firstOf (← orFail count.sliceEnd) others

theorem othersLike_ne {gpu : GpuSupport} {vector : Embedding} {identifier : String}
    {count : Value} {state after : IndexState} {hits : List Hit}
    (result : runFrom state (othersLike gpu vector identifier count) = (.ok hits, after)) :
    ∀ hit ∈ hits, hit.identifier ≠ identifier := by
  obtain ⟨more, _, -, searched⟩ := runFrom_bind_ok result
  obtain ⟨found, _, -, filtered⟩ := runFrom_bind_ok searched
  obtain ⟨number, _, -, returned⟩ := runFrom_bind_ok filtered
  have same : firstOf number (found.filter (fun hit => hit.identifier ≠ identifier)) =
      hits := by
    have both := congrArg Prod.fst returned
    simpa using both
  intro hit member
  rw [← same] at member
  simpa using (List.mem_filter.mp (List.mem_of_mem_take member)).2

end ChunkIndex

namespace IndexState.Sound

open ChunkIndex

variable {gpu : GpuSupport} {ledger : Ledger} {kept : Contents} {state : IndexState}

theorem length_names (sound : Sound gpu ledger kept state) :
    state.chunks.names.length =
      (state.chunks.vectors.map VectorIndex.size).getD 0 := by
  cases vectors : state.chunks.vectors with
  | none =>
    obtain ⟨rfl, -⟩ := sound.withoutVectors vectors
    simp [sound.names, Ledger.empty]
  | some index =>
    simp [sound.names, VectorIndex.size, (sound.withVectors index vectors).vectors]

theorem aligned (sound : Sound gpu ledger kept state) {identifier : String} {entry : Entry}
    (live : (state.chunks.seenCatalog kept).get? identifier = some entry) :
    ∃ item, state.chunks.Aligned gpu ledger identifier entry item := by
  obtain ⟨item, lastAt, -⟩ := sound.seenCatalog_places identifier entry live
  refine ⟨item, ?_, ?_, lastAt.find?, ?_⟩
  · rw [← sound.length_names, sound.names, List.length_map]
    exact lastAt.lt
  · simp [sound.names, lastAt.found, lastAt.named]
  · cases vectors : state.chunks.vectors with
    | none =>
      obtain ⟨rfl, -⟩ := sound.withoutVectors vectors
      cases lastAt.found
    | some index => simp [(sound.withVectors index vectors).vectors, lastAt.found]

/-- The chunks similar to a live one are found by its own vector. -/
theorem similarUpTo_eq (sound : Sound gpu ledger kept state) {identifier : String}
    {entry : Entry} {item : Embedded}
    (live : (state.chunks.seenCatalog kept).get? identifier = some entry)
    (aligned : state.chunks.Aligned gpu ledger identifier entry item) (count : Value) :
    runFrom state (similarUpTo gpu (.text identifier) count) =
      runFrom state (do
        let _ ← ChunkIndex.catalog!
        othersLike gpu (gpu.library.normalize item.embedding) identifier count) := by
  obtain ⟨world, read, -⟩ := sound.catalog!
  have told : state.chunks.vectors.bind
      (fun vectors => vectors.reconstruct entry.position) =
        some (gpu.library.normalize item.embedding) := by
    have vector := aligned.vector
    cases vectors : state.chunks.vectors with
    | none => simp [vectors] at vector
    | some index =>
      simpa [vectors, VectorIndex.reconstruct,
        (sound.withVectors index vectors).directMap] using vector
  have others : (fun hit : Hit => !(Value.text hit.identifier).agrees (.text identifier)) =
      fun hit => decide (hit.identifier ≠ identifier) := by
    funext hit
    simp [Value.agrees, beq_eq_decide]
  simp only [similarUpTo, vectorOf, entryOf, othersLike, runFrom_bind, read, andThen_ok,
    runFrom_pure, live, runFrom_current, told, others]

end IndexState.Sound

open ChunkIndex in
/-- There is one name for each vector, and every live chunk is aligned: what is similar to
it is found by its own vector, and it is not found itself. -/
def IndexState.AllAligned (gpu : GpuSupport) (ledger : Ledger) (state : IndexState) :
    Prop :=
  state.chunks.names.length = (state.chunks.vectors.map VectorIndex.size).getD 0 ∧
    ∃ catalog, (runFrom state catalog!).1 = .ok catalog ∧
      ∀ identifier entry, catalog.get? identifier = some entry →
        ∃ item, state.chunks.Aligned gpu ledger identifier entry item ∧
          ∀ count,
            runFrom state (similarUpTo gpu (.text identifier) count) =
              runFrom state (do
                let _ ← catalog!
                othersLike gpu (gpu.library.normalize item.embedding) identifier count) ∧
            ∀ hits,
              (runFrom state (similarUpTo gpu (.text identifier) count)).1 = .ok hits →
                ∀ hit ∈ hits, hit.identifier ≠ identifier

theorem IndexState.Sound.allAligned {gpu : GpuSupport} {ledger : Ledger}
    {kept : Contents} {state : IndexState} (sound : Sound gpu ledger kept state) :
    state.AllAligned gpu ledger := by
  obtain ⟨after, read, -⟩ := sound.catalog!
  refine ⟨sound.length_names, state.chunks.seenCatalog kept, by rw [read], ?_⟩
  intro identifier entry live
  obtain ⟨item, aligned⟩ := sound.aligned live
  refine ⟨item, aligned, fun count => ?_⟩
  have own := sound.similarUpTo_eq live aligned count
  refine ⟨own, fun hits found => ?_⟩
  rw [own, runFrom_then read] at found
  exact ChunkIndex.othersLike_ne (Prod.ext found rfl)

/-- After any calls on an index that started with nothing, and whatever their outcomes,
vectors, names and live chunks are aligned. -/
theorem calls_keep_alignment (gpu : GpuSupport) {folder : Path} {world : World}
    (nothing : world.KeepsIndex folder (fun _ => none)) (calls : List IndexCall) :
    (IndexCall.stateAfter gpu calls ⟨ChunkIndex.ofFolder folder, world⟩).AllAligned gpu
      (Ledger.ofCalls calls) := by
  obtain ⟨kept, sound⟩ :=
    IndexState.IsSound.calls ⟨_, IndexState.Sound.start gpu nothing⟩ calls
  exact sound.allAligned

/-- A chunk is added twice, removed and added again; a shorter vector is refused. -/
theorem readded_chunk_aligned :
    let folder : Path := ⟨.root, ["store"]⟩
    let calls : List IndexCall := [
      .add [⟨"a", [1.0, 0.0], [("file_path", .text "a.py")]⟩,
        ⟨"a", [0.0, 1.0], [("file_path", .text "a.py")]⟩],
      .removeFile (.text "a.py") .null,
      .add [⟨"a", [3.0, 4.0], [("file_path", .text "a.py")]⟩],
      .add [⟨"b", [1.0], [("file_path", .text "b.py")]⟩],
      .similar (.text "a") (.int 5), .save]
    (World.bare folder).KeepsIndex folder (fun _ => none) ∧
      (IndexCall.stateAfter .none calls
        ⟨ChunkIndex.ofFolder folder, World.bare folder⟩).AllAligned .none
          (Ledger.ofCalls calls) :=
  ⟨World.bare_keepsIndex, calls_keep_alignment .none World.bare_keepsIndex _⟩

end CodeAtlas
