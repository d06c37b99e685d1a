import CodeAtlas.Proofs.Index.Soundness
import CodeAtlas.Proofs.Index.Trailing

/-!
# Opening a saved index again

An index that was saved and is opened again has read nothing yet.  A search reads vectors
and names, and most calls read the catalog; but adding, removing, saving and looking for
similar chunks go on with the vectors and names in memory, whether they were read or not.
So the opened index answers like the saved one if a search comes first, and if the
changes of the catalog were committed.
-/

namespace CodeAtlas

namespace VectorIndex

theorem vectorOf_list (vector : Embedding) :
    vectorOf (.list (vector.map .real)) = vector := by
  simp [vectorOf, Function.comp_def, numberOf]

/-- An index in main memory is read back from the form in which it is kept. -/
theorem ofValue?_toValue {index : VectorIndex} (home : index.onGpu = false) :
    ofValue? index.toValue = some index := by
  obtain ⟨kind, dimension, trained, directMap, onGpu, reach, vectors⟩ := index
  simp only at home
  subst home
  cases kind <;> cases reach <;>
    simp [toValue, ofValue?, Value.field?, List.lookup_cons, Function.comp_def, vectorOf_list]

end VectorIndex

namespace IndexCall

/-- Before a search nothing is done but asking for records. -/
def SearchFirst : List IndexCall → Prop
  | [] => True
  | .search .. :: _ => True
  | .recordOf _ :: calls => SearchFirst calls
  | _ :: _ => False

end IndexCall

namespace IndexState

open ChunkIndex

def reopened (state : IndexState) : IndexState :=
  ⟨ofFolder state.chunks.folder, state.world⟩

def Committed (state : IndexState) : Prop :=
  ∀ catalog, state.chunks.catalog = some catalog →
    state.world.Keeps state.chunks.catalogFile (some catalog.toValue)

def unloaded (state : IndexState) : IndexState :=
  { state with chunks := { state.chunks with vectors := none, names := [] } }

theorem runFrom_unloaded_catalog! (state : IndexState) :
    runFrom state.unloaded catalog! =
      ((runFrom state catalog!).1, (runFrom state catalog!).2.unloaded) := by
  obtain ⟨⟨folder, vectors, names, catalog, onGpu⟩, world⟩ := state
  obtain ⟨after, ran⟩ := exists_catalog! folder catalog world
  have same : (IndexState.mk ⟨folder, none, [], catalog, onGpu⟩ world).readCatalog =
      (IndexState.mk ⟨folder, vectors, names, catalog, onGpu⟩ world).readCatalog := rfl
  simp only [unloaded, ran, same]
  split <;> rfl

theorem runFrom_unloaded_recordOf (state : IndexState) (identifier : Value) :
    runFrom state.unloaded (recordOf identifier) =
      ((runFrom state (recordOf identifier)).1,
        (runFrom state (recordOf identifier)).2.unloaded) := by
  simp only [recordOf, entryOf, runFrom_bind, runFrom_unloaded_catalog!]
  rcases runFrom state catalog! with ⟨fault | catalog, after⟩
  · rfl
  · simp only [andThen_ok]
    split
    · rfl
    · split <;> rfl

/-- Vectors and names are kept as they are in memory. -/
structure Saved (kept : Contents) (state : IndexState) : Prop where
  files : state.world.KeepsIndex state.chunks.folder kept
  vectors : kept .vectors = state.chunks.vectors.map VectorIndex.toValue
  names : kept .names = some (.ofTexts state.chunks.names)
  empty : state.chunks.vectors = none → state.chunks.names = []
  atHome : ∀ index, state.chunks.vectors = some index → index.onGpu = false

namespace Saved

variable {gpu : GpuSupport} {kept : Contents} {state : IndexState}

theorem runFrom_vectors! (saved : Saved kept state) (absent : gpu.isAvailable = false) :
    runFrom state.unloaded (vectors! gpu) = (.ok state.chunks.vectors, state) := by
  obtain ⟨⟨folder, vectors, names, catalog, onGpu⟩, world⟩ := state
  cases vectors with
  | none =>
    obtain rfl : names = [] := saved.empty rfl
    exact runFrom_vectors!_again saved.files (fun _ => ⟨rfl, saved.vectors⟩)
  | some index =>
    have keptVectors := saved.files .vectors
    rw [saved.vectors] at keptVectors
    have keptNames := saved.files .names
    rw [saved.names] at keptNames
    have present : runFrom world (World.exists?
        (ChunkIndex.vectorFile ⟨folder, none, [], catalog, onGpu⟩)) =
          (.ok true, world) := keptVectors.exists?
    have read : runFrom world (World.documentAt
        (ChunkIndex.vectorFile ⟨folder, none, [], catalog, onGpu⟩)) =
          (.ok index.toValue, world) := keptVectors.documentAt
    have presentNames : runFrom world (World.exists?
        (ChunkIndex.nameFile ⟨folder, none, [], catalog, onGpu⟩)) =
          (.ok true, world) := keptNames.exists?
    have readNames : runFrom world (World.namesAt
        (ChunkIndex.nameFile ⟨folder, none, [], catalog, onGpu⟩)) =
          (.ok names, world) := keptNames.namesAt
    exact runFrom_vectors!_of_load rfl (runFrom_load_kept absent present read
      (VectorIndex.ofValue?_toValue (saved.atHome index rfl)) presentNames readNames)

theorem unread (saved : Saved kept state) : Saved kept state.unread :=
  ⟨saved.files, saved.vectors, saved.names, saved.empty, saved.atHome⟩

theorem rereadVectors (saved : Saved kept state) :
    runFrom state (vectors! gpu) = (.ok state.chunks.vectors, state) :=
  runFrom_vectors!_again saved.files (fun none => ⟨saved.empty none,
    saved.vectors.trans (congrArg (Option.map _) none)⟩)

theorem recordOf (saved : Saved kept state) (identifier : Value) :
    ∃ kept', Saved kept' (runFrom state (ChunkIndex.recordOf identifier)).2 := by
  obtain ⟨world, read, files⟩ := runFrom_catalog! saved.files
  have saved' : Saved (state.chunks.keptOnceRead kept)
      ⟨{ state.chunks with catalog := some (state.chunks.seenCatalog kept) }, world⟩ :=
    ⟨files, by rw [keptOnceRead_of_ne (by decide)]; exact saved.vectors,
      by rw [keptOnceRead_of_ne (by decide)]; exact saved.names, saved.empty, saved.atHome⟩
  refine ⟨state.chunks.keptOnceRead kept, ?_⟩
  simp only [ChunkIndex.recordOf, entryOf, runFrom_bind, read, andThen_ok]
  split
  · exact saved'
  · split
    · exact saved'
    · exact saved'

end Saved

/-- The second state is the first one before it read vectors, names and perhaps the
catalog. -/
def Lags (folder : Path) (ahead behind : IndexState) : Prop :=
  ∃ kept middle, Saved kept ahead ∧ Trails folder ahead middle ∧
    behind = middle.unloaded

namespace Lags

variable {gpu : GpuSupport} {folder : Path} {ahead behind : IndexState}

/-- Where a search comes first, the answers are the same. -/
theorem answers_eq (lags : Lags folder ahead behind) (absent : gpu.isAvailable = false)
    {calls : List IndexCall} (searchFirst : IndexCall.SearchFirst calls) :
    IndexCall.answers gpu calls behind = IndexCall.answers gpu calls ahead := by
  induction calls generalizing ahead behind with
  | nil => rfl
  | cons call calls ih =>
    obtain ⟨kept, middle, saved, trails, rfl⟩ := lags
    cases call with
    | search query count filter =>
      have saved' : Saved kept middle := by
        cases trails with
        | same => exact saved
        | unread => exact saved.unread
      have caughtUp : runFrom middle.unloaded
            (IndexCall.action gpu (.search query count filter)) =
          runFrom middle (IndexCall.action gpu (.search query count filter)) := by
        simp only [IndexCall.action, searchUpTo, runFrom_bind,
          saved'.runFrom_vectors! absent, saved'.rereadVectors]
      rw [← trails.answers_eq gpu]
      simp only [IndexCall.answers, IndexCall.after, caughtUp]
    | recordOf identifier =>
      obtain ⟨answer, trails'⟩ := Simulated.call gpu (.recordOf identifier) _ _ trails
      obtain ⟨kept', saved'⟩ := saved.recordOf identifier
      have apart : runFrom middle.unloaded (IndexCall.action gpu (.recordOf identifier)) =
          ((runFrom middle (IndexCall.action gpu (.recordOf identifier))).1,
            (runFrom middle
              (IndexCall.action gpu (.recordOf identifier))).2.unloaded) := by
        simp only [IndexCall.action, runFrom_bind_pure, runFrom_unloaded_recordOf]
      have lags' : Lags folder
          (IndexCall.after gpu ahead (.recordOf identifier))
          (runFrom middle
            (IndexCall.action gpu (.recordOf identifier))).2.unloaded := by
        refine ⟨kept', _, ?_, trails', rfl⟩
        simpa only [IndexCall.after, IndexCall.action, runFrom_bind_pure] using saved'
      simp only [IndexCall.answers, IndexCall.after, apart, answer]
      exact congrArg _ (ih lags' searchFirst)
    | _ => exact searchFirst.elim

end Lags

variable {gpu : GpuSupport} {ledger : Ledger} {kept : Contents} {state : IndexState}

/-- Saving a sound state keeps what is in memory. -/
theorem Sound.saved (sound : Sound gpu ledger kept state) (absent : gpu.isAvailable = false) :
    ∃ kept', Sound gpu ledger kept' (IndexCall.after gpu state .save) ∧
      Saved kept' (IndexCall.after gpu state .save) := by
  obtain ⟨kept', catalog, world, result, sound', names, vectors⟩ := sound.save
  have after : IndexCall.after gpu state .save =
      ⟨{ state.chunks with catalog }, world⟩ := by
    rw [IndexCall.after, IndexCall.action, runFrom_bind_pure, result]
  rw [after]
  refine ⟨kept', sound', sound'.files, vectors absent, names, ?_, ?_⟩
  · intro none
    obtain ⟨rfl, -⟩ := sound.withoutVectors none
    exact sound.names
  · intro index found
    exact (sound.withVectors index found).atHome absent

private theorem reopened_eq (home : state.chunks.onGpu = false) :
    state.reopened = state.unread.unloaded := by
  obtain ⟨⟨folder, vectors, names, catalog, _⟩, world⟩ := state
  simp only at home
  subst home
  rfl

/-- Where the changes of the catalog were committed, it can be read again. -/
theorem Committed.trails (committed : Committed state) :
    Trails state.chunks.folder state state.unread := by
  cases inMemory : state.chunks.catalog with
  | some catalog => exact .unread catalog rfl inMemory (committed catalog inMemory)
  | none =>
    have same : state.unread = state := by
      obtain ⟨⟨folder, vectors, names, _, onGpu⟩, world⟩ := state
      simp only at inMemory
      subst inMemory
      rfl
    rw [same]
    exact .same state

theorem Saved.trails_reopened (saved : Saved kept state)
    (home : state.chunks.onGpu = false) (committed : Committed state)
    (vectors : state.chunks.vectors = none) :
    Trails state.chunks.folder state state.reopened := by
  have names := saved.empty vectors
  have same : state.reopened = state.unread := by
    rw [reopened_eq home]
    obtain ⟨⟨folder, _, _, catalog, onGpu⟩, world⟩ := state
    simp only at vectors names
    subst vectors names
    rfl
  rw [same]
  exact committed.trails

/-- A record that was removed without a commit is there again. -/
theorem Sound.committed_of_answers (sound : Sound gpu ledger kept state)
    (same : ∀ identifier, IndexCall.answers gpu [.recordOf identifier] state.reopened =
      IndexCall.answers gpu [.recordOf identifier] state) :
    Committed state := by
  intro catalog inMemory
  obtain ⟨-, stored, onDisk, within⟩ := sound.inMemory catalog inMemory
  have file := sound.files .catalog
  rw [onDisk] at file
  rcases within.eq_or_missing with rfl | ⟨name, entry, found, missing⟩
  · exact file
  · obtain ⟨_, read, -⟩ := runFrom_catalog! sound.files
    obtain ⟨_, read', -⟩ := @runFrom_catalog! state.reopened kept sound.files
    have seen : state.chunks.seenCatalog kept = catalog := by
      simp [seenCatalog, inMemory]
    have seen' : state.reopened.chunks.seenCatalog kept = stored := by
      simp [seenCatalog, reopened, ofFolder, onDisk, Catalog.ofValue_toValue]
    have differ := same (.text name)
    simp [IndexCall.answers, IndexCall.action, ChunkIndex.recordOf, entryOf, read, read',
      seen, seen', found, missing] at differ

/-- A chunk of any dimension can be added where no vectors were read. -/
private theorem add_to_nothing (files : state.world.KeepsIndex state.chunks.folder kept)
    (absent : gpu.isAvailable = false) (vectors : state.chunks.vectors = none)
    (names : state.chunks.names = []) (embedding : Embedding) :
    (runFrom state (ChunkIndex.add gpu [⟨"", embedding, []⟩])).1 = .ok () := by
  obtain ⟨⟨folder, _, _, catalog, onGpu⟩, world⟩ := state
  simp only at vectors names
  subst vectors names
  have trained : (VectorIndex.flat embedding.length).train =
      VectorIndex.flat embedding.length := rfl
  obtain ⟨index, extended⟩ : ∃ index,
      (VectorIndex.flat embedding.length).add [gpu.library.normalize embedding] = .ok index :=
    ⟨_, if_pos (by simp [VectorIndex.fits, VectorIndex.flat])⟩
  obtain ⟨world₁, read, files₁⟩ := @runFrom_catalog!
    ⟨⟨folder, some (VectorIndex.flat embedding.length), [], catalog, onGpu⟩, world⟩
    kept files
  generalize ChunkIndex.seenCatalog _ kept = catalog' at read
  obtain ⟨entered, enters⟩ : ∃ entered,
      entered = catalog'.enter 0 [⟨"", embedding, []⟩] := ⟨_, rfl⟩
  obtain ⟨world₂, committed, files₂⟩ := @runFrom_commit
    ⟨⟨folder, some index, [""], some entered, onGpu⟩, world₁⟩ _ files₁ _ rfl
  have live : Statistics.liveRecords entered [""] = [[]] := by
    simp [enters, Statistics.liveRecords, Catalog.enter]
  obtain ⟨statistics, gathered⟩ : ∃ statistics,
      Statistics.gather (some index) entered [""] = .ok statistics := by
    rw [Statistics.gather, live]
    exact ⟨_, rfl⟩
  obtain ⟨_, _, written, -⟩ := @runFrom_writeStatistics
    ⟨⟨folder, some index, [""], some entered, onGpu⟩, world₂⟩ _ files₂ _ gathered
  simp [ChunkIndex.add, create, moveToGpu, absent, evenRows, trained, extended, read,
    ← enters, committed, written]

/-- If all chunks are refused alike, no dimension was fixed before the index was saved. -/
theorem Sound.vectors_none_of_answers (sound : Sound gpu ledger kept state)
    (absent : gpu.isAvailable = false)
    (same : ∀ items, IndexCall.answers gpu [.add items] state.reopened =
      IndexCall.answers gpu [.add items] state) :
    state.chunks.vectors = none := by
  cases vectors : state.chunks.vectors with
  | none => rfl
  | some index =>
    obtain ⟨dimension, -, known⟩ :=
      Option.map_eq_some_iff.mp (sound.withVectors index vectors).dimension
    let embedding : Embedding := List.replicate (dimension + 1) 0.0
    have tooLong : index.train.add [gpu.library.normalize embedding] =
        .error .dimensionMismatch := by
      refine if_neg ?_
      have dimension' : (dimension : Int) = index.dimension := known
      simp only [List.all_cons, List.all_nil, Bool.and_true, VectorIndex.fits,
        VectorIndex.train, embedding, VectorLibrary.length_normalize,
        List.length_replicate, decide_eq_true_eq]
      omega
    have refused : (runFrom state (ChunkIndex.add gpu [⟨"", embedding, []⟩])).1 =
        .error .dimensionMismatch := by
      simp [ChunkIndex.add, vectors, evenRows, tooLong]
    have accepted := @add_to_nothing gpu kept state.reopened sound.files absent rfl rfl
      embedding
    have differ := same [⟨"", embedding, []⟩]
    simp only [IndexCall.answers, IndexCall.action, runFrom_bind_pure, accepted, refused]
      at differ
    cases differ

end IndexState

open IndexState ChunkIndex in
/-- Opening a saved index again reads nothing.  The opened index answers like the saved
one, if a search comes before the other calls, exactly if the catalog
was committed; and to all calls but clearing, exactly if in addition it holds no vectors. -/
theorem reopened_index_answers (gpu : GpuSupport) (absent : gpu.isAvailable = false)
    {folder : Path} {world : World}
    (nothing : world.KeepsIndex folder (fun _ => none)) (calls : List IndexCall) :
    let saved := IndexCall.stateAfter gpu (calls ++ [.save]) ⟨ofFolder folder, world⟩
    runFrom saved.world (open? saved.chunks.folder) =
        (.ok saved.reopened.chunks, saved.reopened.world) ∧
      ((∀ later, IndexCall.SearchFirst later →
          IndexCall.answers gpu later saved.reopened = IndexCall.answers gpu later saved) ↔
        Committed saved) ∧
      ((∀ later, .clear ∉ later →
          IndexCall.answers gpu later saved.reopened = IndexCall.answers gpu later saved) ↔
        Committed saved ∧ saved.chunks.vectors = none) := by
  intro saved
  obtain ⟨before, sound⟩ : IsSound gpu (Ledger.ofCalls calls)
      (IndexCall.stateAfter gpu calls ⟨ofFolder folder, world⟩) :=
    IsSound.calls ⟨_, Sound.start gpu nothing⟩ calls
  obtain ⟨kept, sound', isSaved⟩ := sound.saved absent
  have split : saved = IndexCall.after gpu
      (IndexCall.stateAfter gpu calls ⟨ofFolder folder, world⟩) .save := by
    simp [saved, IndexCall.stateAfter]
  rw [← split] at sound' isSaved
  have home := sound'.atHome absent
  refine ⟨?_, ⟨fun same => ?_, fun committed later searchFirst => ?_⟩,
    ⟨fun same => ⟨?_, ?_⟩, fun both later _ => ?_⟩⟩
  · have made : runFrom saved.world (World.makeFolder saved.chunks.folder) =
        (.ok (), saved.world) :=
      (sound'.files .vectors).makeFolder KeptFile.vectors.name_notUp
    simp [open?, made, reopened]
  · exact sound'.committed_of_answers (fun identifier => same _ trivial)
  · have lags : Lags saved.chunks.folder saved saved.reopened :=
      ⟨kept, saved.unread, isSaved, committed.trails, reopened_eq home⟩
    exact lags.answers_eq absent searchFirst
  · exact sound'.committed_of_answers (fun identifier => same _ (by simp))
  · exact sound'.vectors_none_of_answers absent (fun items => same _ (by simp))
  · exact (isSaved.trails_reopened home both.1 both.2).answers_eq gpu later

open IndexState ChunkIndex in
/-- A chunk is given twice, and removed with a fault before the commit. -/
theorem reopened_index_answers_after_removal :
    let folder : Path := ⟨.root, ["store"]⟩
    let calls : List IndexCall := [
      .add [⟨"a", [1.0], [("file_path", .text "a.py")]⟩],
      .add [⟨"a", [2.0], [("file_path", .text "a.py")]⟩],
      .removeFile (.text "a.py") .null]
    let saved := IndexCall.stateAfter .none (calls ++ [.save])
      ⟨ofFolder folder, World.bare folder⟩
    (World.bare folder).KeepsIndex folder (fun _ => none) ∧
      ((∀ later, IndexCall.SearchFirst later →
          IndexCall.answers .none later saved.reopened =
            IndexCall.answers .none later saved) ↔ Committed saved) :=
  ⟨World.bare_keepsIndex, (reopened_index_answers .none rfl World.bare_keepsIndex _).2.1⟩

open IndexState ChunkIndex in
/-- An index with one chunk is not the same once it is opened again. -/
theorem reopened_index_forgets_vectors :
    let folder : Path := ⟨.root, ["store"]⟩
    let saved := IndexCall.stateAfter .none [.add [⟨"a", [1.0], []⟩], .save]
      ⟨ofFolder folder, World.bare folder⟩
    ¬ ∀ items, IndexCall.answers .none [.add items] saved.reopened =
      IndexCall.answers .none [.add items] saved := by
  intro folder saved same
  obtain ⟨kept, sound⟩ : IsSound .none
      (Ledger.ofCalls [.add [⟨"a", [1.0], []⟩], .save]) saved :=
    IsSound.calls ⟨_, Sound.start .none World.bare_keepsIndex⟩ _
  obtain ⟨empty, -⟩ := sound.withoutVectors (sound.vectors_none_of_answers rfl same)
  have dimension : some 1 = Option.none := congrArg Ledger.dimension empty
  cases dimension

end CodeAtlas
