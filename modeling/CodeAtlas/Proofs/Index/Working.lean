import CodeAtlas.Proofs.Index.Counts
import CodeAtlas.Proofs.Index.Live

/-!
# An index of chunk records in working order

Where the files of an index can be written, its records describe chunks and its vectors have
one length, its actions succeed.  The one exception is removal: it fails exactly if the name
of a record to remove is known twice.
-/

namespace CodeAtlas

variable {items : List Embedded}

/-- The record of a chunk in the index of a project, with a content beside it. -/
def Chunk.recordIn (project : Value) (content : String) (chunk : Chunk) : Record :=
  chunk.indexRecord.update [("project_name", project), ("content", .text content)]

/-- The record describes a chunk of some project. -/
def Record.DescribesChunk (record : Record) : Prop :=
  ∃ (chunk : Chunk) (project : Value) (content : String), record = chunk.recordIn project content

namespace Chunk

theorem lookup_projectName (chunk : Chunk) (project : Value) (content : String) :
    (chunk.recordIn project content).lookup "project_name" = some project := by
  simp [recordIn, Record.update, Record.lookup_set]

theorem belongsTo_recordIn (chunk : Chunk) (project other : Value) (content path : String) :
    ∃ answer, Catalog.belongsTo (.text path) other (chunk.recordIn project content) =
      .ok answer := by
  have file : (chunk.recordIn project content).lookup "file_path" =
      some (.text chunk.filePath) := rfl
  have relative : (chunk.recordIn project content).lookup "relative_path" =
      some (.text chunk.relativePath) := rfl
  unfold Catalog.belongsTo Catalog.filePath
  simp only [file, relative, Option.getD_some, Value.isTruthy]
  by_cases first : chunk.filePath.isEmpty = true
  · by_cases second : chunk.relativePath.isEmpty = true
    · simp [first, second, pure, Except.pure]
    · simp only [first, second, Filter.occurs, Bool.not_true, Bool.not_false, if_true,
        bind, Except.bind, Bool.false_eq_true, if_false]
      split <;> simp [pure, Except.pure]
  · simp only [first, Filter.occurs, Bool.not_false, if_true, bind, Except.bind]
    split <;> simp [pure, Except.pure]

theorem hasTexts_recordIn (chunk : Chunk) (project : Value) (content : String) :
    (chunk.recordIn project content).HasTexts := by
  constructor
  all_goals
    rintro value ⟨⟩
    exact ⟨_, rfl⟩

end Chunk

namespace Catalog

variable {catalog : Catalog} {names : List String}

theorem belonging_of_describes {path : String} {project : Value}
    (described : ∀ name ∈ names, ∀ record, catalog.records name = some record →
      record.DescribesChunk) :
    ∃ found, catalog.belonging (.text path) project names = .ok found := by
  rcases catalog.belonging_cases (.text path) project names with
    told | ⟨fault, -, name, member, entry, found, odd⟩
  · exact ⟨_, told⟩
  · obtain ⟨chunk, owner, content, same⟩ :=
      described name member entry.record (by simp [records, found])
    obtain ⟨answer, judged⟩ := chunk.belongsTo_recordIn owner project content path
    rw [same, judged] at odd
    cases odd

/-- Where a name is not there to be removed, it never was or comes up twice.  What is left was
there before. -/
theorem removeAll_cases (catalog : Catalog) (names : List String) :
    ∃ rest outcome, catalog.removeAll names = (rest, outcome) ∧
      (∀ identifier record, rest.records identifier = some record →
        catalog.records identifier = some record) ∧
      (outcome = .ok () ∧ names.Nodup ∧ (∀ name ∈ names, catalog.records name ≠ none) ∨
        ∃ name ∈ names, outcome = .error (.missingKey (.text name)) ∧
          (catalog.records name = none ∨ 1 < names.count name)) := by
  obtain ⟨cut, rest, single, there, left, ended⟩ := catalog.removeAll_stops names
  have before (identifier : String) (record : Record)
      (found : rest.records identifier = some record) :
      catalog.records identifier = some record := by
    rw [records, left] at found
    split at found
    · cases found
    · exact found
  rcases ended with ⟨rfl, done⟩ | ⟨name, later, rfl, gone, failed⟩
  · exact ⟨rest, _, done, before, .inl ⟨rfl, single, by simpa [records] using there⟩⟩
  · refine ⟨rest, _, failed, before, .inr ⟨name, by simp, rfl, ?_⟩⟩
    rw [left] at gone
    by_cases member : name ∈ cut
    · have once := List.count_pos_iff.mpr member
      right
      rw [List.count_append, List.count_cons_self]
      omega
    · left
      simpa [records, member] using gone

end Catalog

namespace IndexView

variable {view : IndexView} {dimension : Nat} {owned : Record → Bool}

/-- A live record after items were added is that of an item, or was there before and has a name
that none of them has. -/
theorem live_of_add {identifier : String} {record : Record}
    (found : (view.add items).live identifier = some record) :
    (∃ item ∈ items, item.identifier = identifier ∧ item.record = record) ∨
      identifier ∉ items.map Embedded.identifier ∧ view.live identifier = some record := by
  simp only [IndexView.add] at found
  cases new : (items.map Catalog.entryOf).reverse.lookup identifier with
  | some record' =>
    obtain rfl : record' = record := by simpa [new] using found
    have inside : (identifier, record') ∈ items.map Catalog.entryOf :=
      List.mem_reverse.mp (Table.mem_of_lookup new)
    obtain ⟨item, known, same⟩ := List.mem_map.mp inside
    obtain ⟨first, second⟩ := Prod.mk.inj same
    exact .inl ⟨item, known, first, second⟩
  | none =>
    rw [new, Option.none_or] at found
    refine .inr ⟨fun member => ?_, found⟩
    obtain ⟨item, known, rfl⟩ := List.mem_map.mp member
    have absent := List.lookup_eq_none_iff.mp new (Catalog.entryOf item)
      (List.mem_reverse.mpr (List.mem_map_of_mem known))
    simp [Catalog.entryOf] at absent

theorem live_add_iff {identifier : String} :
    (view.add items).live identifier ≠ none ↔
      identifier ∈ items.map Embedded.identifier ∨ view.live identifier ≠ none := by
  have keys : (items.map Catalog.entryOf).reverse.map Prod.fst =
      (items.map Embedded.identifier).reverse := by
    rw [List.map_reverse, List.map_map]
    rfl
  rw [← Option.isSome_iff_ne_none, ← Option.isSome_iff_ne_none, add, Option.isSome_or,
    Bool.or_eq_true, Table.isSome_lookup_iff, keys, List.mem_reverse]

/-- The records under the known names describe chunks, and the vectors have the given
dimension. -/
structure InOrder (dimension : Nat) (view : IndexView) : Prop where
  even : ∀ known, view.dimension = some known → known = dimension
  described : ∀ name ∈ view.names, ∀ record, view.live name = some record →
    record.DescribesChunk

def Once (view : IndexView) (owned : Record → Bool) : Prop :=
  ∀ name record, view.live name = some record → owned record = true → view.names.count name ≤ 1

namespace InOrder

theorem empty (dimension : Nat) : InOrder dimension .empty := by
  constructor
  · intro known same
    cases same
  · intro name member
    cases member

variable (inOrder : view.InOrder dimension)
include inOrder

theorem fewer {live : LiveRecords} (before : ∀ identifier record, live identifier = some record →
      view.live identifier = some record) :
    InOrder dimension { view with live } := by
  constructor
  · exact inOrder.even
  · intro name member record found
    exact inOrder.described name member record (before name record found)

theorem without (owned : Record → Bool) :
    InOrder dimension (view.without owned) := by
  apply inOrder.fewer
  intro identifier record found
  split at found
  · exact (Option.filter_eq_some_iff.mp found).1
  · exact found

theorem add (even : ∀ item ∈ items, item.embedding.length = dimension)
    (described : ∀ item ∈ items, item.record.DescribesChunk) :
    InOrder dimension (view.add items) := by
  constructor
  · intro known same
    cases before : view.dimension with
    | some known' =>
      obtain rfl : known' = known := by simpa [IndexView.add, before] using same
      exact inOrder.even known' before
    | none =>
      cases items with
      | nil => simp [IndexView.add, before] at same
      | cons first rest =>
        have first' := even first (by simp)
        simp [IndexView.add, before, first'] at same
        exact same.symm
  · intro name member record found
    rcases live_of_add found with ⟨item, known, -, rfl⟩ | ⟨other, before⟩
    · exact described item known
    · rcases List.mem_append.mp member with old | added
      · exact inOrder.described name old record before
      · exact absurd added other

theorem fits (even : ∀ item ∈ items, item.embedding.length = dimension) : view.Fits items := by
  intro item member
  rw [even item member]
  cases before : view.dimension with
  | some known =>
    rw [inOrder.even known before] at before
    simp [IndexView.add, before]
  | none =>
    cases items with
    | nil => cases member
    | cons first rest => simp [IndexView.add, before, even first (by simp)]

end InOrder

end IndexView

namespace IndexState.Shows

open ChunkIndex

variable {view : IndexView} {dimension : Nat} {state : IndexState}

variable (shows : state.Shows view) (inOrder : view.InOrder dimension)
include shows inOrder

/-- Removing a file succeeds if the name of no record that belongs to it is known twice, and
otherwise names one that is. -/
theorem removeFile_cases (path : String) (project : Value) :
    (view.Once (Catalog.isOwned (.text path) project) ∧ ∃ count after,
        runFrom state (ChunkIndex.removeFile (.text path) project) = (.ok count, after) ∧
          after.Shows (view.without (Catalog.isOwned (.text path) project))) ∨
      ∃ name record live after, view.live name = some record ∧
        Catalog.isOwned (.text path) project record = true ∧ 1 < view.names.count name ∧
        runFrom state (ChunkIndex.removeFile (.text path) project) =
          (.error (.missingKey (.text name)), after) ∧
        after.Shows { view with live } ∧
        ∀ identifier record, live identifier = some record →
          view.live identifier = some record := by
  obtain ⟨catalog, after, same, told⟩ := shows.removeFile (.text path) project
  obtain ⟨found, collected⟩ := @Catalog.belonging_of_describes catalog view.names path project
    (by rw [same]; exact inOrder.described)
  rw [collected] at told
  obtain ⟨rest, outcome, removed, ran, shows'⟩ := told
  obtain ⟨_, _, removed', before, cases⟩ := catalog.removeAll_cases found
  rw [removed] at removed'
  obtain ⟨rfl, rfl⟩ := Prod.mk.inj removed'
  have filtered := Catalog.belonging_eq_filter collected
  rw [same] at before filtered cases
  -- A name stands among those to remove as often as it is known.
  have often : ∀ name record, view.live name = some record →
      Catalog.isOwned (.text path) project record = true →
        found.count name = view.names.count name := by
    intro name record known owned
    rw [filtered]
    exact List.count_filter (by simp [known, owned])
  rcases cases with ⟨rfl, single, -⟩ | ⟨name, member, rfl, missing⟩
  · refine .inl ⟨fun name record known owned => ?_, found.length, after, ran, ?_⟩
    · rw [← often name record known owned]
      exact List.nodup_iff_count_le_one.mp single name
    · exact shows.removeFile_ok ran
  · right
    have chosen := member
    rw [filtered, List.mem_filter] at chosen
    cases known : view.live name with
    | none => simp [known] at chosen
    | some record =>
      have owned : Catalog.isOwned (.text path) project record = true := by
        simpa [known] using chosen.2
      have twice : 1 < found.count name := missing.resolve_left (by simp [known])
      rw [often name record known owned] at twice
      exact ⟨name, record, rest.records, after, known, owned, twice, ran, shows', before⟩

theorem writeStatistics_ok :
    ∃ after, runFrom state ChunkIndex.writeStatistics = (.ok (), after) ∧ after.Shows view := by
  have last := shows.writeStatistics
  obtain ⟨-, names, kept, files, same⟩ := shows
  have texts : ∀ record ∈ Statistics.liveRecords (state.chunks.seenCatalog kept)
      state.chunks.names, record.HasTexts := by
    intro record member
    obtain ⟨name, known, found⟩ := List.mem_filterMap.mp member
    obtain ⟨chunk, project, content, rfl⟩ :=
      inOrder.described name (names ▸ known) record (by rw [← same]; exact found)
    exact chunk.hasTexts_recordIn project content
  obtain ⟨statistics, gathered, -⟩ := Statistics.gather_describes state.chunks.vectors texts
  obtain ⟨after, _, written, -⟩ := runFrom_writeStatistics files gathered
  rw [written] at last
  exact ⟨after, written, last⟩

theorem add_of_inOrder (gpu : GpuSupport) (even : ∀ item ∈ items, item.embedding.length = dimension)
    (described : ∀ item ∈ items, item.record.DescribesChunk) :
    ∃ after, runFrom state (ChunkIndex.add gpu items) = (.ok (), after) ∧
      after.Shows (view.add items) := by
  by_cases empty : items = []
  · subst empty
    exact ⟨state, rfl, by simpa [IndexView.add] using shows⟩
  · rcases shows.add_cases empty with ⟨-, between, shows', ran⟩ | ⟨misfit, -⟩
    · rw [ran]
      exact shows'.writeStatistics_ok (inOrder.add even described)
    · exact absurd (inOrder.fits even) misfit

private theorem saveNames_ok :
    ∃ after, runFrom state (do
        World.writeFile state.chunks.nameFile (.document (.ofTexts state.chunks.names))
        ChunkIndex.writeStatistics) = (.ok (), after) ∧ after.Shows view := by
  obtain ⟨same, known, kept, files, seen⟩ := shows
  obtain ⟨world, written, files'⟩ := files.writeFile .names (.ofTexts state.chunks.names)
  have written' : runFrom state.world (World.writeFile state.chunks.nameFile
      (.document (.ofTexts state.chunks.names))) = (.ok (), world) := written
  have shows' : Shows view { state with world } := by
    refine ⟨same, known, _, files', ?_⟩
    simpa [seenCatalog] using seen
  obtain ⟨after, done, last⟩ := shows'.writeStatistics_ok inOrder
  exact ⟨after, by simpa [written'] using done, last⟩

theorem save_of_inOrder (gpu : GpuSupport) :
    ∃ after, runFrom state (ChunkIndex.save gpu) = (.ok (), after) ∧ after.Shows view := by
  unfold ChunkIndex.save
  simp only [runFrom_bind, runFrom_current, andThen_ok]
  cases vectors : state.chunks.vectors with
  | none => exact shows.saveNames_ok inOrder
  | some index =>
    have write : ∀ other : VectorIndex, Preserves (fun world => Shows view { state with world })
        (World.writeFile state.chunks.vectorFile (.document other.toValue)) :=
      fun other world shows' => ((outlasts state.chunks.folder view).write .vectors
        other.toValue { state with world } (by decide) ⟨rfl, shows'⟩).2
    have count : ∀ world, Shows view { state with world } →
        Shows view { state with world := { world with transfers := world.transfers + 1 } } :=
      fun world shows' => ((outlasts state.chunks.folder view).count { state with world }
        ⟨rfl, shows'⟩).2
    have attempt := writeVectors_preserves gpu write count state.chunks.onGpu index state.world
      shows
    have ends : ∀ world, (runFrom world (tryCatch (writeVectors gpu state.chunks.onGpu index
        state.chunks.vectorFile) (fun _ => tryCatch (do
          World.writeFile state.chunks.vectorFile
            (.document (← gpu.bringBack index).toValue)) (fun _ => pure ())))).1 = .ok () :=
      runFrom_tryCatch_handled (fun _ => runFrom_tryCatch_handled (fun _ _ => rfl))
    dsimp only
    rw [runFrom_bind, runFrom_lift, ends, andThen_ok]
    exact attempt.saveNames_ok inOrder

end IndexState.Shows

end CodeAtlas
