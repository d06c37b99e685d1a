import CodeAtlas.Proofs.Index.Calls

/-!
# What outlasts the calls of an index

A call reads the catalog, writes files, extends the vectors or starts new ones, and changes
names and catalog in memory.  A property of the states of an index that outlasts these steps
outlasts every call, except that clearing also forgets the vectors and takes the files away.
-/

namespace CodeAtlas

theorem VectorIndex.onGpu_of_ofValue? {value : Value} {index : VectorIndex}
    (told : ofValue? value = some index) : index.onGpu = false := by
  unfold ofValue? at told
  split at told
  · rw [← Option.some.inj told]
  · cases told

namespace IndexState

open ChunkIndex

variable {α β : Type} {gpu : GpuSupport} {folder : Path} {property : IndexState → Prop}

/-- Reading the catalog keeps what keeping and setting one keeps. -/
theorem catalog!_preserves (kept : ∀ catalog, Preserves property (keep catalog))
    (set : ∀ catalog, Preserves property (setCatalog catalog)) :
    Preserves property ChunkIndex.catalog! := by
  refine .bind (fun _ holds => holds) (fun chunks => ?_)
  dsimp only
  split
  · exact .pure _
  · refine .bind (.of_looking (World.exists?_snd _)) (fun found => ?_)
    have rest : ∀ catalog : Catalog, Preserves property (do
        if !found then ChunkIndex.keep catalog
        ChunkIndex.change (fun chunks => { chunks with catalog := some catalog })
        return catalog : IndexAct Catalog) := fun catalog =>
      .guarded (kept catalog) ((set catalog).bind (fun _ => .pure _))
    split
    · exact .bind (.of_looking (World.documentAt_snd _)) (fun _ => rest _)
    · exact rest _

/-- Clearing forgets the vectors, unless a file cannot be taken away. -/
theorem runFrom_clear_or (state : IndexState) : ∃ world,
    runFrom state ChunkIndex.clear =
        (.ok (), ⟨{ state.chunks with vectors := none, names := [], catalog := none }, world⟩) ∨
      ∃ fault, runFrom state ChunkIndex.clear =
        (.error fault, ⟨{ state.chunks with catalog := none }, world⟩) := by
  have discarding : ∀ (paths : List Path) (state : IndexState), ∃ outcome world,
      runFrom state (forM paths (fun path => (World.discard path : IndexAct Unit))) =
        (outcome, { state with world }) := by
    intro paths
    induction paths with
    | nil => exact fun state => ⟨_, state.world, rfl⟩
    | cons path paths ih =>
      intro state
      rw [List.forM_cons, runFrom_bind, runFrom_lift]
      rcases (runFrom state.world (World.discard path)).1 with fault | _
      · exact ⟨_, _, rfl⟩
      · exact ih _
  obtain ⟨fault | _, world, result⟩ := discarding (keptFiles { state.chunks with catalog := none })
    { state with chunks := { state.chunks with catalog := none } }
  all_goals
    refine ⟨world, ?_⟩
    rw [clear, runFrom_then (runFrom_change _ _), runFrom_then (runFrom_current _),
      List.forM_eq_forM, runFrom_bind, result]
  · exact .inr ⟨fault, rfl⟩
  · exact .inl rfl

/-- A property of the states of an index in one folder that outlasts reading the catalog and
writing the other files. -/
structure Outlasts (folder : Path) (property : IndexState → Prop) : Prop where
  inFolder : ∀ state, property state → state.chunks.folder = folder
  read : Preserves property ChunkIndex.catalog!
  write : ∀ (file : KeptFile) (value : Value) (state : IndexState), file ≠ .catalog →
    property state → property { state with
      world := (runFrom state.world
        (World.writeFile (folder.child file.name) (.document value))).2 }
  count : ∀ state : IndexState, property state → property { state with
    world := { state.world with transfers := state.world.transfers + 1 } }

namespace Outlasts

variable (outlasts : Outlasts folder property)

include outlasts

private theorem current {next : ChunkIndex → IndexAct α}
    (each : ∀ chunks, chunks.folder = folder → Preserves property (next chunks)) :
    Preserves property (ChunkIndex.current >>= next) := by
  intro state holds
  rw [runFrom_then (runFrom_current _)]
  exact each state.chunks (outlasts.inFolder state holds) state holds

private theorem writing {file : KeptFile} (other : file ≠ .catalog) (value : Value) :
    Preserves property (liftM (World.writeFile (folder.child file.name) (.document value)) :
      IndexAct Unit) :=
  fun state holds => outlasts.write file value state other holds

theorem writeStatistics :
    Preserves property ChunkIndex.writeStatistics := by
  refine outlasts.current (fun chunks same => ?_)
  have rest : ∀ catalog : Catalog, Preserves property (do
      let statistics ← orFail (Statistics.gather chunks.vectors catalog chunks.names)
      World.writeFile chunks.statisticsFile
        (.document (.record statistics.toRecord)) : IndexAct Unit) := by
    intro catalog
    refine .bind (.orFail _) (fun statistics => ?_)
    rw [statisticsFile, same]
    exact outlasts.writing (by decide : KeptFile.statistics ≠ .catalog) _
  dsimp only
  split
  · exact .bind (.pure _) rest
  · exact .bind outlasts.read rest

theorem save (gpu : GpuSupport) :
    Preserves property (ChunkIndex.save gpu) := by
  refine outlasts.current (fun chunks same => ?_)
  have rest : Preserves property (do
      World.writeFile chunks.nameFile (.document (.ofTexts chunks.names))
      ChunkIndex.writeStatistics : IndexAct Unit) := by
    refine .bind ?_ (fun _ => outlasts.writeStatistics)
    rw [nameFile, same]
    exact outlasts.writing (by decide : KeptFile.names ≠ .catalog) _
  dsimp only
  split
  · exact rest
  · refine .bind (fun state holds => ?_) (fun _ => rest)
    rw [vectorFile, same, runFrom_lift]
    have write : ∀ index : VectorIndex,
        Preserves (fun world => property { state with world })
          (World.writeFile (folder.child KeptFile.vectors.name) (.document index.toValue)) :=
      fun index world holds =>
        outlasts.write .vectors index.toValue { state with world } (by decide) holds
    exact writeVectors_preserves gpu write
      (fun world holds => outlasts.count { state with world } holds) _ _ state.world holds

end Outlasts

/-- A property of the states of an index in one folder that outlasts writing its files, changing
names and catalog in memory, exchanging vectors for others in the same place, and starting with
new vectors. -/
structure OutlastsSteps (gpu : GpuSupport) (folder : Path) (property : IndexState → Prop) :
    Prop where
  inFolder : ∀ state, property state → state.chunks.folder = folder
  written : ∀ (file : KeptFile) (value : Value) (state : IndexState), property state →
    property { state with
      world := (runFrom state.world
        (World.writeFile (folder.child file.name) (.document value))).2 }
  counted : ∀ state : IndexState, property state → property { state with
    world := { state.world with transfers := state.world.transfers + 1 } }
  remembered : ∀ (state : IndexState) names catalog, property state →
    property { state with chunks := { state.chunks with names, catalog } }
  exchanged : ∀ (state : IndexState) (index other : VectorIndex), property state →
    state.chunks.vectors = some index → other.onGpu = index.onGpu →
    property { state with chunks := { state.chunks with vectors := some other } }
  started : ∀ (state : IndexState) (index : VectorIndex), property state →
    state.chunks.vectors = none → index.onGpu = false →
    property (runFrom
      { state with chunks := { state.chunks with vectors := some index } } (moveToGpu gpu)).2

namespace OutlastsSteps

variable (outlasts : OutlastsSteps gpu folder property)

include outlasts

private theorem keeping (vectors : Option VectorIndex) (catalog : Catalog) :
    Preserves (fun state => property state ∧ state.chunks.vectors = vectors)
      (ChunkIndex.keep catalog) := by
  rintro state ⟨holds, same⟩
  have written := outlasts.written .catalog catalog.toValue state holds
  rw [← outlasts.inFolder state holds] at written
  change property { state with world := (runFrom state.world
    (World.writeFile state.chunks.catalogFile (.document catalog.toValue))).2 } at written
  cases result : runFrom state.world (World.writeFile state.chunks.catalogFile
      (.document catalog.toValue)) with
  | mk outcome after =>
    rw [result] at written
    cases outcome <;> simpa [ChunkIndex.keep, result] using ⟨written, same⟩

private theorem reading (vectors : Option VectorIndex) :
    Preserves (fun state => property state ∧ state.chunks.vectors = vectors)
      ChunkIndex.catalog! :=
  catalog!_preserves (outlasts.keeping vectors)
    (fun _ _ ⟨holds, same⟩ => ⟨outlasts.remembered _ _ _ holds, same⟩)

theorem catalog! : Preserves property ChunkIndex.catalog! :=
  fun state holds => (outlasts.reading _ state ⟨holds, rfl⟩).1

private theorem commit : Preserves property ChunkIndex.commit :=
  .bind outlasts.catalog! (fun catalog state holds =>
    (outlasts.keeping _ catalog state ⟨holds, rfl⟩).1)

theorem toOutlasts : Outlasts folder property where
  inFolder := outlasts.inFolder
  read := outlasts.catalog!
  write file value state _ holds := outlasts.written file value state holds
  count := outlasts.counted

theorem removeFile (path project : Value) :
    Preserves property (ChunkIndex.removeFile path project) := by
  refine .bind (fun _ holds => holds) (fun chunks => .either (.pure _) outlasts.catalog!
    (fun catalog => .bind (.orFail _) (fun found => .bind outlasts.catalog! (fun catalog => ?_))))
  refine .bind (fun state holds => outlasts.remembered state _ _ holds) (fun _ => ?_)
  exact .bind (.orFail _) (fun _ => .bind outlasts.commit (fun _ => .pure _))

/-- An index that is read starts where there was none. -/
private theorem load {state : IndexState} (holds : property state)
    (none : state.chunks.vectors = none) : property (runFrom state (ChunkIndex.load gpu)).2 := by
  have names : ∀ names : List String, Preserves property
      (ChunkIndex.change (fun chunks => { chunks with names })) :=
    fun names state holds => outlasts.remembered state names _ holds
  obtain ⟨chunks, world⟩ := state
  rw [ChunkIndex.load, runFrom_then (runFrom_current _), runFrom_bind, runFrom_lift,
    World.exists?_snd]
  rcases (runFrom world (World.exists? chunks.vectorFile)).1 with fault | _ | _
  · exact holds
  · have same := outlasts.remembered _ [] chunks.catalog holds
    rw [show chunks = { chunks with vectors := Option.none } by rw [← none]] at same
    exact same
  · rw [andThen_ok, if_pos rfl, runFrom_bind, runFrom_lift, World.documentAt_snd]
    rcases (runFrom world (World.documentAt chunks.vectorFile)).1 with fault | value
    · exact holds
    · rw [andThen_ok]
      cases told : VectorIndex.ofValue? value with
      | none => exact holds
      | some index =>
        dsimp only
        rw [runFrom_then (runFrom_change _ _)]
        refine Preserves.bind_at (outlasts.started _ index holds none
          (VectorIndex.onGpu_of_ofValue? told)) (fun _ => ?_)
        refine .bind (.of_looking (World.exists?_snd _)) (fun found => ?_)
        split
        · exact .bind (.of_looking (World.namesAt_snd _)) names
        · exact .pure _

theorem outlastsReading : OutlastsReading gpu property where
  vectors := by
    intro state holds
    rw [ChunkIndex.vectors!, runFrom_then (runFrom_current _)]
    refine Preserves.guarded_at (fun none => ?_) (fun _ => holds)
      (.bind (fun _ holds => holds) (fun _ => .pure _))
    exact outlasts.load holds (Option.isNone_iff_eq_none.mp none)
  catalog := outlasts.catalog!

/-- Items are entered with vectors in the place of the earlier ones. -/
private theorem enter {state : IndexState} {index extended : VectorIndex} (holds : property state)
    (vectors : state.chunks.vectors = some index) (place : extended.onGpu = index.onGpu)
    (items : List Embedded) : property (runFrom state (ChunkIndex.enter extended items)).2 := by
  rw [ChunkIndex.enter, runFrom_then (runFrom_current _), runFrom_bind]
  rcases read : runFrom state ChunkIndex.catalog! with ⟨fault | catalog, after⟩
  · exact ((outlasts.reading _).after ⟨holds, vectors⟩ read).1
  · obtain ⟨holds', vectors'⟩ := (outlasts.reading _).after ⟨holds, vectors⟩ read
    rw [andThen_ok, runFrom_then (runFrom_change _ _)]
    refine Preserves.bind outlasts.commit (fun _ => outlasts.toOutlasts.writeStatistics) _ ?_
    exact outlasts.remembered _ _ _ (outlasts.exchanged _ index extended holds' vectors' place)

theorem add (items : List Embedded) : Preserves property (ChunkIndex.add gpu items) := by
  cases items with
  | nil => exact .pure _
  | cons first rest =>
    have adding {state : IndexState} {index : VectorIndex} (holds : property state)
        (vectors : state.chunks.vectors = some index) :
        property (runFrom state (ChunkIndex.add gpu (first :: rest))).2 := by
      have trained := outlasts.exchanged state index index.train holds vectors rfl
      rcases add_of_vectors gpu vectors first rest with
        ⟨-, entered⟩ | ⟨-, fault, after, refused, ⟨-, rfl⟩ | ⟨-, rfl⟩⟩
      · rw [entered]
        refine @enter gpu folder property outlasts _ index.train _ trained ?_ ?_ _
        · rfl
        · rfl
      · rw [refused]
        exact trained
      · rw [refused]
        exact holds
    intro state holds
    cases vectors : state.chunks.vectors with
    | some index => exact adding holds vectors
    | none =>
      obtain ⟨index, made, -, -, -, -, -, atHome⟩ := runFrom_create_eq gpu state
        first.embedding.length (10000 < (first :: rest).length)
      obtain ⟨moved, onGpu, result, -⟩ := runFrom_moveToGpu gpu
        { state with chunks := { state.chunks with vectors := some index } } rfl
      have started := outlasts.started state index holds vectors atHome
      rw [add_of_created vectors (made.trans result) rfl]
      rw [result] at started
      exact adding started rfl

/-- The property outlasts every call but clearing. -/
theorem call {call : IndexCall} (stays : call ≠ .clear) : Preserves property (call.action gpu) := by
  have reading := outlasts.outlastsReading
  cases call with
  | add items => exact .bind (outlasts.add items) (fun _ => .pure _)
  | removeFile path project => exact .bind (outlasts.removeFile path project) (fun _ => .pure _)
  | search query count filter =>
    exact .bind (reading.searchUpTo query count filter) (fun _ => .pure _)
  | similar identifier count =>
    exact .bind (reading.similarUpTo identifier count) (fun _ => .pure _)
  | recordOf identifier =>
    exact .bind (.bind (reading.entryOf identifier) (fun _ => .pure _)) (fun _ => .pure _)
  | save => exact .bind (outlasts.toOutlasts.save gpu) (fun _ => .pure _)
  | clear => exact absurd rfl stays

end OutlastsSteps

end IndexState

end CodeAtlas
