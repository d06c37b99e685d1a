import CodeAtlas.Files.Listing
import CodeAtlas.Proofs.Files.Keeping
import Mathlib.Logic.Function.Basic

/-!
# The files of a chunk index

A chunk index keeps its vectors, its catalog, its names and its statistics in four files
of one folder.  Each basic action of the index is described by what these files keep
before and after it.
-/

namespace CodeAtlas

variable {file : KeptFile} {index : VectorIndex}

/-- One of the files in which an index is kept. -/
inductive KeptFile where
  | vectors
  | catalog
  | names
  | statistics
deriving DecidableEq

namespace KeptFile

def name : KeptFile → String
  | .vectors => "code.index"
  | .catalog => "metadata.db"
  | .names => "chunk_ids.pkl"
  | .statistics => "stats.json"

theorem name_notUp (file : KeptFile) : file.name ≠ ".." := by
  cases file <;> decide

theorem name_injective {other : KeptFile} (same : file.name = other.name) :
    file = other := by
  cases file <;> cases other <;> first | rfl | exact absurd same (by decide)

end KeptFile

abbrev Contents := KeptFile → Option Value

namespace World

/-- The files of the index in a folder keep the given contents. -/
def KeepsIndex (world : World) (folder : Path) (kept : Contents) : Prop :=
  ∀ file : KeptFile, world.Keeps (folder.child file.name) (kept file)

namespace KeepsIndex

variable {world after : World} {folder : Path} {kept : Contents}
variable (keeps : world.KeepsIndex folder kept)

include keeps

theorem of_disk (disk : after.disk = world.disk)
    (workingDirectory : after.workingDirectory = world.workingDirectory) :
    after.KeepsIndex folder kept :=
  fun file => (keeps file).apart
    (SameApart.of_disk disk workingDirectory : SameApart (fun _ => False) world after)
    (fun _ _ => id)

/-- Only the file that was changed keeps something else. -/
theorem changed {document : Option Value} (here : after.Keeps (folder.child file.name) document)
    (same : SameApart (world.LeadsTo (folder.child file.name)) world after) :
    after.KeepsIndex folder (Function.update kept file document) := by
  intro other
  by_cases equal : other = file
  · subst other
    simpa using here
  · rw [Function.update_of_ne equal]
    exact (keeps other).beside file.name_notUp same other.name_notUp
      (fun names => equal (KeptFile.name_injective names))

theorem writeFile (file : KeptFile) (value : Value) :
    ∃ after, runFrom world
        (World.writeFile (folder.child file.name) (.document value)) = (.ok (), after) ∧
      after.KeepsIndex folder (Function.update kept file (some value)) := by
  obtain ⟨after, written, here, same⟩ :=
    (keeps file).writeFile file.name_notUp value
  exact ⟨after, written, keeps.changed here same⟩

theorem discard (file : KeptFile) :
    ∃ after, runFrom world (World.discard (folder.child file.name)) = (.ok (), after) ∧
      after.KeepsIndex folder (Function.update kept file none) := by
  obtain ⟨after, deleted, here, same⟩ := (keeps file).discard file.name_notUp
  exact ⟨after, deleted, keeps.changed here same⟩

end KeepsIndex

/-- Nothing is kept in the folder of a world that holds nothing else. -/
theorem bare_keepsIndex :
    (bare ⟨.root, ["store"]⟩).KeepsIndex ⟨.root, ["store"]⟩ (fun _ => none) := by
  intro file
  refine ⟨["store", file.name], ?_, ?_⟩
  · cases file <;> rfl
  · cases file <;> rfl

end World

namespace Catalog

theorem ofValue_toValue (catalog : Catalog) :
    Catalog.ofValue catalog.toValue = catalog := by
  obtain ⟨entries⟩ := catalog
  have each : ∀ entry : Entry,
      entryOf? (.record [("index_id", .int entry.position),
        ("metadata", .record entry.record)]) = some entry := by
    intro entry
    have second : List.lookup "metadata" [("index_id", Value.int entry.position),
        ("metadata", .record entry.record)] = some (.record entry.record) := by
      rw [List.lookup_cons]
      rfl
    simp [entryOf?, Value.field?, second]
  simp only [toValue, ofValue, List.filterMap_map, Function.comp_def, each, Option.map_some]
  exact congrArg Table.mk List.filterMap_some

end Catalog

namespace IndexState

/-- The catalog that is read: the one in memory, or else the kept one. -/
def readCatalog (state : IndexState) : Except Fault Catalog :=
  match state.chunks.catalog with
  | some catalog => .ok catalog
  | none =>
    (state.world.lookUp state.chunks.catalogFile).bind (fun found =>
      if found.isNone then .ok Table.empty
      else ((state.world.file state.chunks.catalogFile).bind Stored.document).map
        Catalog.ofValue)

end IndexState

namespace ChunkIndex

variable {state : IndexState} {kept : Contents}

theorem evenRows_of_length {items : List Embedded} {dimension : Nat}
    (even : ∀ item ∈ items, item.embedding.length = dimension) :
    evenRows (items.map Embedded.embedding) = .ok (items.map Embedded.embedding) := by
  cases items with
  | nil => rfl
  | cons first rest =>
    have all : ∀ item ∈ rest, item.embedding.length = first.embedding.length := by
      intro item member
      rw [even item (by simp [member]), even first (by simp)]
    simpa [evenRows] using all

theorem evenRows_eq_ok {vectors rows : List Embedding}
    (even : evenRows vectors = .ok rows) : rows = vectors := by
  unfold evenRows at even
  split at even
  · exact (Except.ok.inj even).symm
  · split at even
    · exact (Except.ok.inj even).symm
    · cases even

theorem evenRows_error {vectors : List Embedding} {fault : Fault}
    (odd : evenRows vectors = .error fault) : ∃ shape, fault = .uneven 1 shape := by
  unfold evenRows at odd
  split at odd
  · cases odd
  · split at odd
    · cases odd
    · exact ⟨_, (Except.error.inj odd).symm⟩

/-- The catalog that calls see: the one in memory, or else the kept one. -/
def seenCatalog (chunks : ChunkIndex) (kept : Contents) : Catalog :=
  chunks.catalog.getD (((kept .catalog).map Catalog.ofValue).getD Table.empty)

def keptOnceRead (chunks : ChunkIndex) (kept : Contents) : Contents :=
  if chunks.catalog.isSome then kept
  else Function.update kept .catalog
    (some ((kept .catalog).getD (Catalog.toValue Table.empty)))

theorem keptOnceRead_of_ne (other : file ≠ .catalog) (chunks : ChunkIndex)
    (kept : Contents) : chunks.keptOnceRead kept file = kept file := by
  unfold keptOnceRead
  split
  · rfl
  · exact Function.update_of_ne other _ _

theorem runFrom_keep (keeps : state.world.KeepsIndex state.chunks.folder kept) (catalog : Catalog) :
    ∃ world, runFrom state (keep catalog) = (.ok (), { state with world }) ∧
      world.KeepsIndex state.chunks.folder
        (Function.update kept .catalog (some catalog.toValue)) := by
  obtain ⟨world, written, keeps'⟩ := keeps.writeFile .catalog catalog.toValue
  have written' : runFrom state.world (World.writeFile state.chunks.catalogFile
      (.document catalog.toValue)) = (.ok (), world) := written
  exact ⟨world, by simp [keep, written'], keeps'⟩

/-- The disk may refuse to keep a catalog, which does no harm. -/
theorem runFrom_keep_any (state : IndexState) (catalog : Catalog) :
    ∃ world, runFrom state (keep catalog) = (.ok (), { state with world }) := by
  rcases written : runFrom state.world (World.writeFile state.chunks.catalogFile
    (.document catalog.toValue)) with ⟨fault | _, world⟩
  · exact ⟨world, by simp [keep, written]⟩
  · exact ⟨world, by simp [keep, written]⟩

/-- Reading the catalog fails and changes nothing, or leaves the catalog in memory.  It looks at
the catalog and the disk only. -/
theorem exists_catalog! (folder : Path) (catalog : Option Catalog) (world : World) :
    ∃ after, ∀ vectors names onGpu,
      runFrom (IndexState.mk ⟨folder, vectors, names, catalog, onGpu⟩ world) catalog! =
        match (IndexState.mk ⟨folder, vectors, names, catalog, onGpu⟩ world).readCatalog with
        | .error fault => (.error fault, ⟨⟨folder, vectors, names, catalog, onGpu⟩, world⟩)
        | .ok known => (.ok known, ⟨⟨folder, vectors, names, some known, onGpu⟩, after⟩) := by
  cases catalog with
  | some known => exact ⟨world, by simp [catalog!, IndexState.readCatalog]⟩
  | none =>
    simp only [IndexState.readCatalog, catalogFile]
    rcases found : world.lookUp (folder.child "metadata.db") with fault | _ | tree
    · exact ⟨world, by simp [catalog!, catalogFile, World.exists?, World.find, found,
        Except.bind]⟩
    · rcases written : runFrom world (World.writeFile (folder.child "metadata.db")
        (.document (Catalog.toValue Table.empty))) with ⟨_ | _, after⟩
      · exact ⟨after, by simp [catalog!, catalogFile, World.exists?, World.find, found, keep,
          written, Except.bind]⟩
      · exact ⟨after, by simp [catalog!, catalogFile, World.exists?, World.find, found, keep,
          written, Except.bind]⟩
    · refine ⟨world, ?_⟩
      rcases read : world.file (folder.child "metadata.db") with fault | stored
      · simp [catalog!, catalogFile, World.exists?, World.find, found, World.documentAt,
          World.fileAt, read, Except.bind, Except.map]
      · cases document : stored.document with
        | error fault =>
          simp [catalog!, catalogFile, World.exists?, World.find, found, World.documentAt,
            World.fileAt, read, document, Except.bind, Except.map]
        | ok value =>
          simp [catalog!, catalogFile, World.exists?, World.find, found, World.documentAt,
            World.fileAt, read, document, Except.bind, Except.map]

/-- Reading the catalog changes nothing else, and gives what calls see. -/
theorem runFrom_catalog! (keeps : state.world.KeepsIndex state.chunks.folder kept) :
    ∃ world, runFrom state catalog! =
        (.ok (state.chunks.seenCatalog kept),
          ⟨{ state.chunks with catalog := some (state.chunks.seenCatalog kept) }, world⟩) ∧
      world.KeepsIndex state.chunks.folder (state.chunks.keptOnceRead kept) := by
  obtain ⟨chunks, world⟩ := state
  cases inMemory : chunks.catalog with
  | some catalog =>
    refine ⟨world, ?_, by simpa [keptOnceRead, inMemory] using keeps⟩
    obtain ⟨folder, vectors, names, _, onGpu⟩ := chunks
    simp only at inMemory
    subst inMemory
    simp [catalog!, seenCatalog]
  | none =>
    have found : runFrom world (World.exists? chunks.catalogFile) =
        (.ok (kept .catalog).isSome, world) := (keeps .catalog).exists?
    cases onDisk : kept .catalog with
    | some value =>
      have read : runFrom world (World.documentAt chunks.catalogFile) =
          (.ok value, world) := by
        have here := keeps .catalog
        rw [onDisk] at here
        exact here.documentAt
      refine ⟨world, ?_, ?_⟩
      · simp [catalog!, inMemory, found, onDisk, read, seenCatalog]
      · have unchanged : Function.update kept KeptFile.catalog (some value) = kept := by
          rw [← onDisk, Function.update_eq_self]
        simpa [keptOnceRead, inMemory, onDisk, unchanged] using keeps
    | none =>
      obtain ⟨after, written, keeps'⟩ :=
        @runFrom_keep ⟨chunks, world⟩ kept keeps Table.empty
      refine ⟨after, ?_, by simpa [keptOnceRead, inMemory, onDisk] using keeps'⟩
      simp [catalog!, inMemory, found, onDisk, written, seenCatalog]

theorem runFrom_writeStatistics (keeps : state.world.KeepsIndex state.chunks.folder kept)
    {statistics : Statistics} (gathered : Statistics.gather state.chunks.vectors
      (state.chunks.seenCatalog kept) state.chunks.names = .ok statistics) :
    ∃ after kept', runFrom state writeStatistics = (.ok (), after) ∧
      after.world.KeepsIndex state.chunks.folder kept' ∧
      kept' .statistics = some (.record statistics.toRecord) := by
  by_cases empty : state.chunks.names = []
  · obtain ⟨world, written, keeps'⟩ := keeps.writeFile .statistics (.record statistics.toRecord)
    have written' : runFrom state.world (World.writeFile state.chunks.statisticsFile
        (.document (.record statistics.toRecord))) = (.ok (), world) := written
    have gathered' : Statistics.gather state.chunks.vectors Table.empty [] = .ok statistics := by
      rw [empty] at gathered
      exact gathered
    refine ⟨{ state with world }, _, ?_, keeps', Function.update_self _ _ _⟩
    simp [writeStatistics, empty, gathered', written']
  · obtain ⟨world, read, keeps'⟩ := runFrom_catalog! keeps
    obtain ⟨world', written, keeps''⟩ := keeps'.writeFile .statistics (.record statistics.toRecord)
    have written' : runFrom world (World.writeFile state.chunks.statisticsFile
        (.document (.record statistics.toRecord))) = (.ok (), world') := written
    refine ⟨⟨{ state.chunks with catalog := some (state.chunks.seenCatalog kept) }, world'⟩, _, ?_,
      keeps'', Function.update_self _ _ _⟩
    simp [writeStatistics, empty, read, gathered, written']

theorem runFrom_commit (keeps : state.world.KeepsIndex state.chunks.folder kept)
    {catalog : Catalog} (inMemory : state.chunks.catalog = some catalog) :
    ∃ world, runFrom state commit = (.ok (), { state with world }) ∧
      world.KeepsIndex state.chunks.folder
        (Function.update kept .catalog (some catalog.toValue)) := by
  obtain ⟨world, written, keeps'⟩ := runFrom_keep keeps catalog
  refine ⟨world, ?_, keeps'⟩
  simp [commit, catalog!, inMemory, written]

/-- Removing a file reads the catalog and looks for the names whose records belong to the
file.  They are taken out one after the other, and that is committed if none is missing. -/
theorem removeFile_of_read {catalog : Catalog} {world : World} (read : runFrom state catalog! =
      (.ok catalog, ⟨{ state.chunks with catalog := some catalog }, world⟩))
    (path project : Value) :
    runFrom state (removeFile path project) =
      match catalog.belonging path project state.chunks.names with
      | .error fault => (.error fault, ⟨{ state.chunks with catalog := some catalog }, world⟩)
      | .ok found =>
        runFrom ⟨{ state.chunks with catalog := some (catalog.removeAll found).1 }, world⟩ (do
          orFail (catalog.removeAll found).2
          commit
          return found.length) := by
  by_cases empty : state.chunks.names = []
  -- The first reading is left out where there are no names, and nothing is found then.
  · simp [removeFile, empty, Catalog.belonging, read, setCatalog]
  · have again : runFrom (IndexState.mk { state.chunks with catalog := some catalog } world)
        catalog! = (.ok catalog, ⟨{ state.chunks with catalog := some catalog }, world⟩) := by
      simp [catalog!]
    cases collected : catalog.belonging path project state.chunks.names with
    | error fault => simp [removeFile, empty, read, collected]
    | ok found => simp [removeFile, empty, read, collected, again, setCatalog]

theorem runFrom_removeFile (keeps : state.world.KeepsIndex state.chunks.folder kept)
    (path project : Value) :
    ∃ world, world.KeepsIndex state.chunks.folder (state.chunks.keptOnceRead kept) ∧
      match (state.chunks.seenCatalog kept).belonging path project state.chunks.names with
      | .error fault => runFrom state (removeFile path project) = (.error fault,
          ⟨{ state.chunks with catalog := some (state.chunks.seenCatalog kept) }, world⟩)
      | .ok found => ∃ rest outcome after kept',
          (state.chunks.seenCatalog kept).removeAll found = (rest, outcome) ∧
          runFrom state (removeFile path project) = (outcome.map (fun _ => found.length),
            ⟨{ state.chunks with catalog := some rest }, after⟩) ∧
          after.KeepsIndex state.chunks.folder kept' ∧
          (kept' = state.chunks.keptOnceRead kept ∨ kept' =
            Function.update (state.chunks.keptOnceRead kept) .catalog (some rest.toValue)) := by
  obtain ⟨world, read, files⟩ := runFrom_catalog! keeps
  generalize state.chunks.seenCatalog kept = catalog at *
  rw [removeFile_of_read read]
  refine ⟨world, files, ?_⟩
  cases catalog.belonging path project state.chunks.names with
  | error fault => rfl
  | ok found =>
    rcases removed : catalog.removeAll found with ⟨rest, fault | _⟩
    · exact ⟨rest, _, world, _, removed, by simp [removed, Except.map], files, .inl rfl⟩
    · obtain ⟨after, done, files'⟩ := @runFrom_commit
        ⟨{ state.chunks with catalog := some rest }, world⟩ _ files rest rfl
      exact ⟨rest, _, after, _, removed, by simp [removed, done, Except.map], files', .inr rfl⟩

/-- The attempts to write the vectors keep what writing them and counting transfers
keeps. -/
theorem writeVectors_preserves (gpu : GpuSupport) {property : World → Prop} {path : Path}
    (write : ∀ index : VectorIndex,
      Preserves property (World.writeFile path (.document index.toValue)))
    (count : ∀ world, property world →
      property { world with transfers := world.transfers + 1 })
    (onGpu : Bool) (index : VectorIndex) :
    Preserves property (tryCatch (writeVectors gpu onGpu index path) (fun _ =>
      tryCatch (do
        World.writeFile path (.document (← gpu.bringBack index).toValue))
        (fun _ => pure ()))) := by
  have back : Preserves property (gpu.bringBack index) := by
    intro world holds
    unfold GpuSupport.bringBack
    cases gpu.back with
    | works => simpa using holds
    | missing => simpa using holds
    | fails => simpa using holds
    | failsOnce =>
      have counted := count world holds
      by_cases first : world.transfers = 0
      · simpa [first] using counted
      · simpa [first] using counted
  have send : ∀ index : VectorIndex, Preserves property (do
      if index.onGpu then throw (.modelFailed "index is on the GPU")
      World.writeFile path (.document index.toValue)) := by
    intro index
    split
    · exact .bind (.throw _) (fun _ => write index)
    · exact write index
  refine .tryCatch ?_ (fun _ => .tryCatch (back.bind write) (fun _ => .pure ()))
  unfold writeVectors
  split
  · exact .bind back send
  · exact .bind (.pure index) send

theorem runFrom_moveToGpu (gpu : GpuSupport) (state : IndexState)
    (vectors : state.chunks.vectors = some index) :
    ∃ moved onGpu, runFrom state (moveToGpu gpu) = (.ok (), { state with
        chunks := { state.chunks with
          vectors := some { index with onGpu := moved }, onGpu } }) ∧
      (gpu.isAvailable = false → moved = index.onGpu ∧ onGpu = state.chunks.onGpu) := by
  obtain ⟨⟨folder, _, names, catalog, before⟩, world⟩ := state
  simp only at vectors
  subst vectors
  cases before with
  | true => exact ⟨index.onGpu, true, by simp [moveToGpu], fun _ => ⟨rfl, rfl⟩⟩
  | false =>
    cases available : gpu.isAvailable with
    | false =>
      exact ⟨index.onGpu, false, by simp [moveToGpu, available], fun _ => ⟨rfl, rfl⟩⟩
    | true =>
      cases moves : gpu.moves with
      | true =>
        exact ⟨true, true, by simp [moveToGpu, available, GpuSupport.move, moves],
          by simp⟩
      | false =>
        exact ⟨index.onGpu, false, by simp [moveToGpu, GpuSupport.move, moves],
          by simp⟩

theorem runFrom_moveToGpu_of_noGpu {gpu : GpuSupport} (noGpu : gpu.isAvailable = false)
    (state : IndexState) : runFrom state (moveToGpu gpu) = (.ok (), state) := by
  obtain ⟨⟨_, vectors, _, _, _⟩, _⟩ := state
  cases vectors <;> simp [moveToGpu, noGpu]

section Loading

variable {gpu : GpuSupport}

theorem runFrom_load_missing
    (missing : runFrom state.world (World.exists? state.chunks.vectorFile) =
      (.ok false, state.world)) :
    runFrom state (load gpu) =
      (.ok (), { state with chunks := { state.chunks with vectors := none, names := [] } }) := by
  rw [load, runFrom_then (runFrom_current _), runFrom_bind, runFrom_lift, missing,
    andThen_ok]
  rfl

theorem runFrom_load_kept {document : Value} {names : List String} (noGpu : gpu.isAvailable = false)
    (present : runFrom state.world (World.exists? state.chunks.vectorFile) =
      (.ok true, state.world))
    (read : runFrom state.world (World.documentAt state.chunks.vectorFile) =
      (.ok document, state.world)) (told : VectorIndex.ofValue? document = some index)
    (presentNames : runFrom state.world (World.exists? state.chunks.nameFile) =
      (.ok true, state.world))
    (readNames : runFrom state.world (World.namesAt state.chunks.nameFile) =
      (.ok names, state.world)) :
    runFrom state (load gpu) =
      (.ok (), { state with chunks := { state.chunks with vectors := some index, names } }) := by
  rw [load, runFrom_then (runFrom_current _), runFrom_bind, runFrom_lift, present,
    andThen_ok, if_pos rfl, runFrom_bind, runFrom_lift, read, andThen_ok]
  dsimp only
  rw [told]
  dsimp only
  rw [runFrom_then (runFrom_change _ _), runFrom_then (runFrom_moveToGpu_of_noGpu noGpu _),
    runFrom_bind, runFrom_lift, presentNames, andThen_ok, if_pos rfl, runFrom_bind, runFrom_lift,
    readNames, andThen_ok, runFrom_change]

theorem runFrom_vectors!_of_load {after : IndexState} (nothing : state.chunks.vectors = none)
    (loaded : runFrom state (load gpu) = (.ok (), after)) :
    runFrom state (vectors! gpu) = (.ok after.chunks.vectors, after) := by
  rw [vectors!, runFrom_then (runFrom_current _), nothing, Option.isNone_none, if_pos rfl,
    runFrom_then loaded, runFrom_then (runFrom_current _), runFrom_pure]

/-- Vectors that were read are not read again. -/
theorem runFrom_vectors!_again {kept : Contents}
    (keeps : state.world.KeepsIndex state.chunks.folder kept)
    (nothing : state.chunks.vectors = none → state.chunks.names = [] ∧ kept .vectors = none) :
    runFrom state (vectors! gpu) = (.ok state.chunks.vectors, state) := by
  cases vectors : state.chunks.vectors with
  | some index => simp [vectors!, vectors]
  | none =>
    obtain ⟨names, noFile⟩ := nothing vectors
    have missing : runFrom state.world (World.exists? state.chunks.vectorFile) =
        (.ok false, state.world) := by
      have here := keeps .vectors
      rw [noFile] at here
      exact here.exists?
    have same : { state with chunks := { state.chunks with vectors := none, names := [] } } =
        state := by
      obtain ⟨⟨folder, _, _, catalog, onGpu⟩, world⟩ := state
      simp only at vectors names
      subst vectors names
      rfl
    have loaded := @runFrom_load_missing state gpu missing
    rw [same] at loaded
    rw [runFrom_vectors!_of_load vectors loaded, vectors]

end Loading

/-- New vectors are made in main memory, and moved. -/
theorem runFrom_create_eq (gpu : GpuSupport) (state : IndexState) (dimension : Nat)
    (large : Prop) [Decidable large] :
    ∃ index : VectorIndex, runFrom state (create gpu dimension
          (.text (if large then "ivf" else "flat"))) =
        runFrom { state with chunks := { state.chunks with vectors := some index } }
          (moveToGpu gpu) ∧
      index.dimension = dimension ∧ index.vectors = [] ∧ index.directMap = true ∧
        index.reach = none ∧ (¬ large → index.kind = .flat) ∧ index.onGpu = false := by
  by_cases large
  · exact ⟨.inverted dimension, by simp [create, *], rfl, rfl, rfl, rfl, by simp [*], rfl⟩
  · exact ⟨.flat dimension, by simp [create, *], rfl, rfl, rfl, rfl, fun _ => rfl, rfl⟩

theorem runFrom_create (gpu : GpuSupport) (state : IndexState) (dimension : Nat)
    (large : Prop) [Decidable large] :
    ∃ index onGpu, runFrom state (create gpu dimension
          (.text (if large then "ivf" else "flat"))) = (.ok (), { state with
        chunks := { state.chunks with vectors := some index, onGpu } }) ∧
      index.dimension = dimension ∧ index.vectors = [] ∧ index.directMap = true ∧
      index.reach = none ∧ (¬ large → index.kind = .flat) ∧
      (gpu.isAvailable = false → index.onGpu = false ∧ onGpu = state.chunks.onGpu) := by
  obtain ⟨index, created, sameDimension, holdsNothing, direct, whole, flat, atHome⟩ :=
    runFrom_create_eq gpu state dimension large
  obtain ⟨moved, onGpu, result, home⟩ := runFrom_moveToGpu gpu
    { state with chunks := { state.chunks with vectors := some index } } rfl
  exact ⟨_, onGpu, created.trans result, sameDimension, holdsNothing, direct, whole, flat,
    fun absent => ⟨(home absent).1.trans atHome, (home absent).2⟩⟩

theorem add_of_created {gpu : GpuSupport} {after : IndexState} {first : Embedded}
    {rest : List Embedded} (vectors : state.chunks.vectors = none)
    (created : runFrom state (create gpu first.embedding.length
      (.text (if 10000 < (first :: rest).length then "ivf" else "flat"))) = (.ok (), after))
    (made : after.chunks.vectors = some index) :
    runFrom state (add gpu (first :: rest)) = runFrom after (add gpu (first :: rest)) := by
  unfold add
  simp only [runFrom_bind, runFrom_current, andThen_ok, vectors, made, Option.isNone_some,
    Option.isNone_none, if_true, Bool.false_eq_true, if_false, created]

/-- The last part of adding items: with their vectors, their names and records come in. -/
def enter (extended : VectorIndex) (items : List Embedded) : IndexAct Unit := do
  let start := (← current).names.length
  let catalog ← catalog!
  change (fun chunks => { chunks with
    vectors := some extended
    names := chunks.names ++ items.map Embedded.identifier
    catalog := some (catalog.enter start items) })
  commit
  writeStatistics

/-- Where there are vectors, items are entered if theirs have the same dimension, and refused
otherwise. -/
theorem add_of_vectors (gpu : GpuSupport) {index : VectorIndex}
    (vectors : state.chunks.vectors = some index) (first : Embedded) (rest : List Embedded) :
    let trained := { state with chunks := { state.chunks with vectors := some index.train } }
    let fits := ∀ item ∈ first :: rest, (item.embedding.length : Int) = index.dimension
    fits ∧ runFrom state (add gpu (first :: rest)) = runFrom trained (enter { index.train with
        vectors := index.vectors ++
          (first :: rest).map (fun item => gpu.library.normalize item.embedding) }
        (first :: rest)) ∨
      ¬ fits ∧ ∃ fault after, runFrom state (add gpu (first :: rest)) = (.error fault, after) ∧
        (fault = .dimensionMismatch ∧ after = trained ∨
          (∃ shape, fault = .uneven 1 shape) ∧ after = state) := by
  intro trained fits
  have all : ((first :: rest).map Embedded.embedding |>.map gpu.library.normalize).all
      index.train.fits = true ↔ fits := by
    simp [fits, VectorIndex.fits, VectorIndex.train]
  by_cases even : fits
  · refine .inl ⟨even, ?_⟩
    have rows : evenRows ((first :: rest).map Embedded.embedding) =
        .ok ((first :: rest).map Embedded.embedding) := by
      refine @evenRows_of_length _ first.embedding.length (fun item member => ?_)
      exact Int.natCast_inj.mp ((even item member).trans (even first (by simp)).symm)
    have joined : (first :: rest).map (fun item => gpu.library.normalize item.embedding) =
        ((first :: rest).map Embedded.embedding).map gpu.library.normalize := by
      rw [List.map_map]
      rfl
    unfold add enter
    simp only [runFrom_bind, runFrom_current, andThen_ok, vectors, Option.isNone_some,
      Bool.false_eq_true, if_false, rows, runFrom_orFail, runFrom_change, Option.map_some,
      VectorIndex.add, all.mpr even, if_true, joined]
    rfl
  · refine .inr ⟨even, ?_⟩
    unfold add
    cases rows : evenRows ((first :: rest).map Embedded.embedding) with
    | error fault =>
      refine ⟨fault, state, ?_, .inr ⟨evenRows_error rows, rfl⟩⟩
      simp only [runFrom_bind, runFrom_current, andThen_ok, vectors, Option.isNone_some,
        Bool.false_eq_true, if_false, runFrom_orFail, andThen_error]
    | ok rows' =>
      obtain rfl := evenRows_eq_ok rows
      refine ⟨.dimensionMismatch, trained, ?_, .inl ⟨rfl, rfl⟩⟩
      simp only [runFrom_bind, runFrom_current, andThen_ok, vectors, Option.isNone_some,
        Bool.false_eq_true, if_false, runFrom_orFail, runFrom_change, Option.map_some,
        VectorIndex.add, if_neg (mt all.mp even), andThen_error]
      rfl

/-- A property of the states of an index that outlasts reading the vectors and the catalog.  It
outlasts every search. -/
structure OutlastsReading (gpu : GpuSupport) (property : IndexState → Prop) : Prop where
  vectors : Preserves property (vectors! gpu)
  catalog : Preserves property catalog!

namespace OutlastsReading

variable {gpu : GpuSupport} {property : IndexState → Prop}
variable (outlasts : OutlastsReading gpu property)

include outlasts

theorem search (query : Embedding) (count : Int)
    (filter : Value) : Preserves property (ChunkIndex.search gpu query count filter) := by
  refine .bind outlasts.vectors (fun found => ?_)
  cases found with
  | none => exact .pure _
  | some index =>
    dsimp only
    split
    · exact .pure _
    · refine .bind (.orFail _) (fun found => ?_)
      split
      · exact .pure _
      · exact .bind outlasts.catalog (fun _ => .bind (fun _ holds => holds)
          (fun _ => .orFail _))

theorem searchUpTo (query : Embedding) (count filter : Value) :
    Preserves property (ChunkIndex.searchUpTo gpu query count filter) := by
  refine .bind outlasts.vectors (fun found => ?_)
  cases found with
  | none => exact .pure _
  | some index =>
    dsimp only
    split
    · exact .pure _
    · cases countAmong index.size count with
      | ok number => exact outlasts.search query number filter
      | error fault =>
        dsimp only
        split
        · split
          · exact .throw _
          · exact .throw _
        · exact .throw _

theorem entryOf (identifier : Value) :
    Preserves property (ChunkIndex.entryOf identifier) := by
  refine .bind outlasts.catalog (fun catalog => ?_)
  split
  · exact .pure _
  · split
    · exact .pure _
    · exact .throw _

theorem vectorOf (identifier : Value) :
    Preserves property (ChunkIndex.vectorOf identifier) := by
  refine .bind (outlasts.entryOf identifier) (fun entry => ?_)
  cases entry with
  | none => exact .pure _
  | some entry => exact .bind (fun _ holds => holds) (fun _ => .pure _)

theorem similar (identifier : String) (count : Int) :
    Preserves property (ChunkIndex.similar gpu identifier count) := by
  refine .bind (outlasts.vectorOf _) (fun vector => ?_)
  cases vector with
  | none => exact .pure _
  | some vector => exact .bind (outlasts.search _ _ _) (fun _ => .pure _)

theorem similarUpTo (identifier count : Value) :
    Preserves property (ChunkIndex.similarUpTo gpu identifier count) := by
  refine .bind (outlasts.vectorOf _) (fun vector => ?_)
  cases vector with
  | none => exact .pure _
  | some vector =>
    exact .bind (.orFail _) (fun _ => .bind (outlasts.searchUpTo _ _ _)
      (fun _ => .bind (.orFail _) (fun _ => .pure _)))

end OutlastsReading

/-- Clearing takes away all files and forgets all but the folder. -/
theorem runFrom_clear (keeps : state.world.KeepsIndex state.chunks.folder kept) :
    ∃ world, runFrom state clear =
        (.ok (), ⟨{ state.chunks with vectors := none, names := [], catalog := none }, world⟩) ∧
      world.KeepsIndex state.chunks.folder (fun _ => none) := by
  obtain ⟨world₁, gone₁, files₁⟩ := keeps.discard .vectors
  obtain ⟨world₂, gone₂, files₂⟩ := files₁.discard .catalog
  obtain ⟨world₃, gone₃, files₃⟩ := files₂.discard .names
  obtain ⟨world₄, gone₄, files₄⟩ := files₃.discard .statistics
  -- Rewriting file by file keeps the term small that is checked in the end.
  have next : ∀ {chunks : ChunkIndex} {path : Path} {paths : List Path} {world later : World},
      runFrom world (World.discard path) = (.ok (), later) →
      runFrom (IndexState.mk chunks world) (forM (path :: paths)
          (fun file => liftM (World.discard file))) =
        runFrom (IndexState.mk chunks later) (forM paths
          (fun file => liftM (World.discard file))) := by
    intro chunks path paths world later gone
    rw [List.forM_cons, runFrom_bind, runFrom_lift, gone, andThen_ok]
  have paths : keptFiles { state.chunks with catalog := none } =
      [state.chunks.folder.child KeptFile.vectors.name,
        state.chunks.folder.child KeptFile.catalog.name,
        state.chunks.folder.child KeptFile.names.name,
        state.chunks.folder.child KeptFile.statistics.name] := rfl
  refine ⟨world₄, ?_, ?_⟩
  · rw [clear, runFrom_then (runFrom_change _ _), runFrom_then (runFrom_current _),
      paths, List.forM_eq_forM, runFrom_bind, next gone₁, next gone₂, next gone₃, next gone₄,
      List.forM_nil, runFrom_pure, andThen_ok, runFrom_change]
  · intro file
    have here := files₄ file
    cases file <;> simpa [Function.update] using here

end ChunkIndex

end CodeAtlas
