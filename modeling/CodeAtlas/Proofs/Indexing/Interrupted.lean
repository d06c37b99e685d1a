import CodeAtlas.Proofs.Indexing.Failures
import CodeAtlas.Proofs.Indexing.Footprint

/-!
# Interrupted runs

A run on changes removes the chunks of each file that was removed or modified, and then adds new
ones.  There is no way back: what was taken out before a fault stays out.  The names, the
vectors and the snapshot are as they were, and of the live entries exactly those are lost that
the removal had come to.
-/

namespace CodeAtlas

namespace IndexState

open ChunkIndex

variable {before between after : IndexState} {project : Value}

/-- The live entry of an identifier, as calls see it. -/
def entry (state : IndexState) (identifier : String) : Except Fault (Option Entry) :=
  (runFrom state (entryOf (.text identifier))).1

def stored (state : IndexState) : List Embedding :=
  (state.chunks.vectors.map VectorIndex.vectors).getD []

/-- Whether a known identifier has a live entry that belongs to one of some files. -/
def owns (state : IndexState) (project : Value) (files : List Value) (identifier : String) :
    Bool :=
  state.chunks.names.contains identifier &&
    (state.entry identifier).toOption.join.any (fun entry =>
      files.any (fun file => Catalog.isOwned file project entry.record))

/-- The second state has the names and vectors of the first one, and of its live entries all but
the lost ones.  An index may count as trained, and an empty one may have come up. -/
structure Loses (lost : String → Prop) (before after : IndexState) : Prop where
  names : after.chunks.names = before.chunks.names
  stored : after.stored = before.stored
  vectors : ∀ index, before.chunks.vectors = some index →
    after.chunks.vectors = some index ∨ after.chunks.vectors = some index.train
  gone : ∀ identifier, lost identifier → after.entry identifier = .ok none
  others : ∀ identifier, ¬ lost identifier → after.entry identifier = before.entry identifier

theorem runFrom_catalog!_inMemory (chunks : ChunkIndex) (catalog : Catalog) (world : World) :
    runFrom (⟨{ chunks with catalog := some catalog }, world⟩ : IndexState) catalog! =
      (.ok catalog, ⟨{ chunks with catalog := some catalog }, world⟩) := by
  simp [catalog!]

theorem runFrom_catalog!_eq (state : IndexState) :
    ∃ world, runFrom state catalog! =
      match state.readCatalog with
      | .error fault => (.error fault, state)
      | .ok catalog => (.ok catalog, ⟨{ state.chunks with catalog := some catalog }, world⟩) :=
  (exists_catalog! state.chunks.folder state.chunks.catalog state.world).imp
    (fun _ ran => ran _ _ _)

/-- Entries are looked up in the catalog that is read. -/
theorem entry_eq (state : IndexState) (identifier : String) :
    state.entry identifier = state.readCatalog.map (fun catalog => catalog.get? identifier) := by
  obtain ⟨world, read⟩ := runFrom_catalog!_eq state
  unfold entry entryOf
  rw [runFrom_bind_pure, read]
  cases state.readCatalog <;> rfl

@[simp]
theorem entry_inMemory (chunks : ChunkIndex) (catalog : Catalog) (world : World)
    (identifier : String) :
    entry ⟨{ chunks with catalog := some catalog }, world⟩ identifier =
      .ok (catalog.get? identifier) := by
  rw [entry_eq]
  rfl

/-- What the catalog says depends on what is in memory, and else on what is on the disk. -/
theorem entry_congr {state later : IndexState} (folder : later.chunks.folder = state.chunks.folder)
    (catalog : later.chunks.catalog = state.chunks.catalog)
    (still : state.world.Still later.world) (identifier : String) :
    later.entry identifier = state.entry identifier := by
  have located : ∀ path, later.world.locate path = state.world.locate path := by
    intro path
    rw [World.locate_eq, World.locate_eq, still.disk, still.workingDirectory]
  have named : later.chunks.catalogFile = state.chunks.catalogFile :=
    congrArg (Path.child · "metadata.db") folder
  have same : later.readCatalog = state.readCatalog := by
    unfold readCatalog World.lookUp World.file
    rw [catalog, named, located, still.disk]
  rw [entry_eq, entry_eq, same]

namespace Loses

theorem refl (state : IndexState) : state.Loses (fun _ => False) state where
  names := rfl
  stored := rfl
  vectors _ found := .inl found
  gone _ lost := lost.elim
  others _ _ := rfl

theorem trans {first second : String → Prop} (earlier : before.Loses first between)
    (later : between.Loses second after) :
    before.Loses (fun identifier => first identifier ∨ second identifier) after where
  names := later.names.trans earlier.names
  stored := later.stored.trans earlier.stored
  vectors index found := by
    rcases earlier.vectors index found with same | trained
    · exact later.vectors index same
    · rcases later.vectors index.train trained with same | again
      · exact .inr same
      · exact .inr again
  gone identifier lost := by
    by_cases again : second identifier
    · exact later.gone identifier again
    · rw [later.others identifier again]
      exact earlier.gone identifier (lost.resolve_right again)
  others identifier kept := by
    rw [later.others identifier (fun lost => kept (.inr lost)),
      earlier.others identifier (fun lost => kept (.inl lost))]

theorem congr {lost lost' : String → Prop} (loses : before.Loses lost after)
    (same : ∀ identifier, lost identifier ↔ lost' identifier) : before.Loses lost' after where
  names := loses.names
  stored := loses.stored
  vectors := loses.vectors
  gone identifier gone := loses.gone identifier ((same identifier).mpr gone)
  others identifier kept := loses.others identifier (fun gone => kept ((same identifier).mp gone))

/-- What is left belongs to the files that it belonged to. -/
theorem owns {lost : String → Bool} (loses : before.Loses (fun name => lost name = true) after)
    (project : Value) (files : List Value) (identifier : String) :
    after.owns project files identifier =
      (before.owns project files identifier && !lost identifier) := by
  unfold IndexState.owns
  rw [loses.names]
  cases gone : lost identifier with
  | true => simp [loses.gone identifier gone, Except.toOption]
  | false => simp [loses.others identifier (by simp [gone])]

end Loses

/-- What belongs to a file cannot be told: there are no entries to read, or one of them cannot be
compared with the file. -/
def Unclear (state : IndexState) (project file : Value) (fault : Fault) : Prop :=
  (∀ identifier, state.entry identifier = .error fault) ∨
    ∃ identifier ∈ state.chunks.names, ∃ entry, state.entry identifier = .ok (some entry) ∧
      Catalog.belongsTo file project entry.record = .error fault

/-- How a removal comes to a fault at a file, after those that are done: it cannot be told what
belongs to the file, or one of its names stands twice and is missing the second time.  The names
before it were taken out. -/
def StopsAt (state : IndexState) (project : Value) (done : List Value) (file : Value)
    (cut : List String) (fault : Fault) : Prop :=
  cut = [] ∧ state.Unclear project file fault ∨
    ∃ name later, state.chunks.names.filter (fun name =>
        state.owns project [file] name && !state.owns project done name) = cut ++ name :: later ∧
      cut.Nodup ∧ name ∈ cut ∧ fault = .missingKey (.text name)

/-- What cannot be told after a removal could not be told before. -/
theorem Loses.unclear {lost : String → Prop} {file : Value} {fault : Fault}
    (loses : before.Loses lost after) (unclear : after.Unclear project file fault) :
    before.Unclear project file fault := by
  rcases unclear with unread | ⟨identifier, member, entry, found, odd⟩
  · left
    intro identifier
    have kept : ¬ lost identifier := by
      intro gone
      have known := loses.gone identifier gone
      rw [unread identifier] at known
      cases known
    rw [← loses.others identifier kept]
    exact unread identifier
  · right
    have kept : ¬ lost identifier := by
      intro gone
      rw [loses.gone identifier gone] at found
      cases found
    rw [loses.names] at member
    rw [loses.others identifier kept] at found
    exact ⟨identifier, member, entry, found, odd⟩

theorem mem_names_of_owns {state : IndexState} {files : List Value} {name : String}
    (owned : state.owns project files name = true) : name ∈ state.chunks.names := by
  simp only [IndexState.owns, Bool.and_eq_true] at owned
  exact List.contains_iff_mem.mp owned.1

theorem owns_nil (state : IndexState) (project : Value) (name : String) :
    state.owns project [] name = false := by
  cases state.entry name <;> simp [IndexState.owns]

theorem owns_cons (state : IndexState) (project file : Value) (files : List Value) (name : String) :
    state.owns project (file :: files) name =
      (state.owns project [file] name || state.owns project files name) := by
  unfold IndexState.owns
  rw [← Bool.and_or_distrib_left]
  cases (state.entry name).toOption.join with
  | none => rfl
  | some entry => simp

/-- A catalog in memory that names were taken out of. -/
private theorem loses_of_cut {state : IndexState} {catalog rest : Catalog} {cut : List String}
    (read : state.readCatalog = .ok catalog) (left : ∀ identifier, rest.get? identifier =
      if identifier ∈ cut then none else catalog.get? identifier) (world' : World) :
    state.Loses (· ∈ cut) ⟨{ state.chunks with catalog := some rest }, world'⟩ where
  names := rfl
  stored := rfl
  vectors _ found := .inl found
  gone identifier lost := by rw [entry_inMemory, left, if_pos lost]
  others identifier kept := by rw [entry_inMemory, left, if_neg kept, entry_eq, read]; rfl

/-- The names to take out are those of the live entries that belong to the file. -/
private theorem belonging_eq_owns {state : IndexState} {catalog : Catalog} {path : Value}
    {found : List String} (read : state.readCatalog = .ok catalog)
    (collected : catalog.belonging path project state.chunks.names = .ok found) :
    found = state.chunks.names.filter (state.owns project [path]) := by
  rw [Catalog.belonging_eq_filter collected]
  apply List.filter_congr
  intro name member
  rw [IndexState.owns, List.contains_iff_mem.mpr member, Bool.true_and, entry_eq, read]
  cases entry : catalog.get? name with
  | none => simp [Catalog.records, entry, Except.map, Except.toOption]
  | some entry => simp [Catalog.records, entry, Except.map, Except.toOption]

/-- Where the names to take out cannot be told, there is an entry that cannot be compared. -/
private theorem exists_odd {state : IndexState} {catalog : Catalog} {path : Value} {fault : Fault}
    (read : state.readCatalog = .ok catalog)
    (failed : catalog.belonging path project state.chunks.names = .error fault) :
    ∃ identifier ∈ state.chunks.names, ∃ entry, state.entry identifier = .ok (some entry) ∧
      Catalog.belongsTo path project entry.record = .error fault := by
  rcases catalog.belonging_cases path project state.chunks.names with
    told | ⟨fault', failed', name, member, entry, found, odd⟩
  · cases failed.symm.trans told
  · obtain rfl := Except.error.inj (failed.symm.trans failed')
    refine ⟨name, member, entry, ?_, odd⟩
    rw [entry_eq, read]
    exact congrArg Except.ok found

/-- Removing a file takes out its live entries in order.  After a fault the others stay. -/
theorem removeFile_ends (state : IndexState) (path project : Value) :
    ∃ outcome after cut, runFrom state (removeFile path project) = (outcome, after) ∧
      state.Loses (· ∈ cut) after ∧
      match outcome with
      | .ok _ => cut = state.chunks.names.filter (state.owns project [path])
      | .error fault => state.StopsAt project [] path cut fault := by
  obtain ⟨world, read⟩ := runFrom_catalog!_eq state
  cases known : state.readCatalog with
  | error fault =>
    rw [known] at read
    have unread : ∀ identifier, state.entry identifier = .error fault := by
      intro identifier
      rw [entry_eq, known]
      rfl
    refine ⟨.error fault, state, [], ?_, (Loses.refl state).congr (by simp),
      .inl ⟨rfl, .inl unread⟩⟩
    by_cases empty : state.chunks.names = []
    · simp [removeFile, empty, Catalog.belonging, read]
    · simp [removeFile, empty, read]
  | ok catalog =>
    rw [known] at read
    rw [removeFile_of_read read]
    cases collected : catalog.belonging path project state.chunks.names with
    | error fault =>
      exact ⟨.error fault, _, [], rfl, @loses_of_cut state catalog catalog [] known (by simp) world,
        .inl ⟨rfl, .inr (exists_odd known collected)⟩⟩
    | ok found =>
      have wanted := belonging_eq_owns known collected
      obtain ⟨cut, rest, single, there, left, ended⟩ := catalog.removeAll_stops found
      rcases ended with ⟨whole, done⟩ | ⟨name, later, split, gone, failed⟩
      · obtain ⟨world', kept⟩ := runFrom_keep_any
          ⟨{ state.chunks with catalog := some rest }, world⟩ rest
        refine ⟨.ok found.length, ⟨{ state.chunks with catalog := some rest }, world'⟩, cut, ?_,
          loses_of_cut known left world', whole.symm.trans wanted⟩
        simp [done, commit, runFrom_catalog!_inMemory, kept]
      · refine ⟨.error (.missingKey (.text name)), _, cut, by simp [failed],
          loses_of_cut known left world, .inr ⟨name, later, ?_⟩⟩
        refine ⟨?_, single, ?_, rfl⟩
        · simpa [owns_nil] using wanted.symm.trans split
        -- The name has a live entry, so that it can be missing only once it was taken out.
        by_contra apart
        have member : name ∈ state.chunks.names.filter (state.owns project [path]) := by
          rw [← wanted, split]
          simp
        rw [left, if_neg apart] at gone
        have owned := (List.mem_filter.mp member).2
        simp [IndexState.owns, entry_eq, known, gone, Except.map, Except.toOption] at owned

private theorem removeFile_loses {file : Value} {count : Nat}
    (removed : runFrom before (removeFile file project) = (.ok count, after)) :
    before.Loses (fun name => before.owns project [file] name = true) after := by
  obtain ⟨outcome, next, cut, ran, loses, told⟩ := removeFile_ends before file project
  obtain ⟨rfl, rfl⟩ := Prod.mk.inj (ran.symm.trans removed)
  obtain rfl : cut = _ := told
  apply loses.congr
  intro name
  rw [List.mem_filter]
  exact ⟨And.right, fun owned => ⟨mem_names_of_owns owned, owned⟩⟩

section Still

variable {world : World} (still : before.world.Still world)

include still

theorem entry_still (identifier : String) :
    entry { before with world } identifier = before.entry identifier := by
  apply entry_congr
  · rfl
  · rfl
  · exact still

theorem owns_still (project : Value) (files : List Value) (identifier : String) :
    IndexState.owns { before with world } project files identifier =
      before.owns project files identifier := by
  unfold IndexState.owns
  rw [entry_still still]

theorem Loses.of_still {lost : String → Prop} (loses : Loses lost { before with world } after) :
    before.Loses lost after where
  names := loses.names
  stored := loses.stored
  vectors := loses.vectors
  gone := loses.gone
  others identifier kept := (loses.others identifier kept).trans (entry_still still identifier)

theorem StopsAt.of_still {done : List Value} {file : Value} {cut : List String} {fault : Fault}
    (stops : StopsAt { before with world } project done file cut fault) :
    before.StopsAt project done file cut fault := by
  unfold StopsAt Unclear at stops ⊢
  simpa only [owns_still still, entry_still still] using stops

end Still

/-- The dimension that items are added with: that of the index, or that of the first item where
there is no index yet. -/
def dimensionFor (state : IndexState) (items : List Embedded) : Option Int :=
  (state.chunks.vectors.map VectorIndex.dimension).or
    (items.head?.map (fun item => (item.embedding.length : Int)))

/-- One of the items has a vector of another dimension. -/
def Misfit (state : IndexState) (items : List Embedded) : Prop :=
  ∃ item ∈ items, some (item.embedding.length : Int) ≠ state.dimensionFor items

theorem even_of_evenRows {first : Embedded} {rest : List Embedded} {rows : List Embedding}
    (even : evenRows ((first :: rest).map Embedded.embedding) = .ok rows) :
    ∀ item ∈ first :: rest, item.embedding.length = first.embedding.length := by
  simp only [evenRows, List.map_cons] at even
  split at even
  · rename_i all
    simpa using all
  · cases even

private theorem loses_nothing {state : IndexState} {vectors : Option VectorIndex} {onGpu : Bool}
    (stored : (vectors.map VectorIndex.vectors).getD [] = state.stored)
    (same : ∀ index, state.chunks.vectors = some index →
      vectors = some index ∨ vectors = some index.train) :
    state.Loses (fun _ => False)
      { state with chunks := { state.chunks with vectors, onGpu } } where
  names := rfl
  stored := stored
  vectors := same
  gone _ lost := lost.elim
  others identifier _ := by
    apply entry_congr
    · rfl
    · rfl
    · exact .refl _

/-- Items of which one does not fit are refused before anything is entered. -/
theorem add_misfit {state : IndexState} {items : List Embedded} (gpu : GpuSupport)
    (misfit : state.Misfit items) :
    ∃ fault after, runFrom state (ChunkIndex.add gpu items) = (.error fault, after) ∧
      (fault = .dimensionMismatch ∨ ∃ shape, fault = .uneven 1 shape) ∧
      state.Loses (fun _ => False) after := by
  obtain ⟨item, member, different⟩ := misfit
  obtain ⟨first, rest, rfl⟩ := List.exists_cons_of_ne_nil (List.ne_nil_of_mem member)
  cases vectors : state.chunks.vectors with
  | none =>
    obtain ⟨index, onGpu, created, -, empty, -⟩ := runFrom_create gpu state
      first.embedding.length (10000 < (first :: rest).length)
    cases rows : evenRows ((first :: rest).map Embedded.embedding) with
    | ok rows' =>
      -- The first item decides the dimension, and the others have it too.
      exfalso
      apply different
      have even := even_of_evenRows rows item member
      simp [dimensionFor, vectors, even]
    | error fault =>
      refine ⟨fault, { state with chunks := { state.chunks with
        vectors := some index, onGpu } }, ?_, .inr (evenRows_error rows), ?_⟩
      · unfold ChunkIndex.add
        simp only [runFrom_bind, runFrom_current, andThen_ok, vectors, Option.isNone_none,
          if_true, created, rows, runFrom_orFail, andThen_error]
      · apply loses_nothing
        · simp [IndexState.stored, vectors, empty]
        · simp [vectors]
  | some index =>
    rcases ChunkIndex.add_of_vectors gpu vectors first rest with
      ⟨even, -⟩ | ⟨-, fault, after, failed, same⟩
    · exact (different (by simp [dimensionFor, vectors, even item member])).elim
    · refine ⟨fault, after, failed, same.imp And.left And.left, ?_⟩
      rcases same with ⟨-, rfl⟩ | ⟨-, rfl⟩
      · apply loses_nothing
        · rw [IndexState.stored, vectors]
          rfl
        · intro index' found
          obtain rfl := Option.some.inj (vectors.symm.trans found)
          exact .inr rfl
      · exact Loses.refl _

end IndexState

namespace Indexer

open IndexState

variable {indexer : Indexer} {place : Path} {project : Value} {state after : IndexState}

/-- Files that are removed without a fault lose their live entries, and no others do. -/
theorem removeFiles_loses {files : List Value} {count : Nat}
    (removed : runFrom state (removeFiles project files) = (.ok count, after)) :
    state.Loses (fun name => state.owns project files name = true) after := by
  induction files generalizing state count with
  | nil =>
    obtain rfl : state = after := congrArg Prod.snd removed
    exact (Loses.refl state).congr (by simp [owns_nil])
  | cons file files ih =>
    obtain ⟨first, between, here, rest⟩ := runFrom_bind_ok removed
    obtain ⟨more, last, later, same⟩ := runFrom_bind_ok rest
    obtain rfl : last = after := congrArg Prod.snd same
    have earlier := removeFile_loses here
    apply (earlier.trans (ih later)).congr
    intro name
    rw [earlier.owns, owns_cons state project file files]
    cases state.owns project [file] name <;> simp

/-- A removal that comes to a fault does so at one of the files.  The live entries of the files
before it are gone, and those of its own that it had come to. -/
theorem removeFiles_stops {files : List Value} {fault : Fault}
    (failed : runFrom state (removeFiles project files) = (.error fault, after)) :
    ∃ done file later cut, files = done ++ file :: later ∧
      state.StopsAt project done file cut fault ∧
      state.Loses (fun name => state.owns project done name = true ∨ name ∈ cut) after := by
  induction files generalizing state with
  | nil => cases congrArg Prod.fst failed
  | cons file files ih =>
    rw [removeFiles, runFrom_bind] at failed
    obtain ⟨outcome, between, cut, ran, loses, told⟩ := removeFile_ends state file project
    rw [ran] at failed
    cases outcome with
    | error fault' =>
      obtain ⟨same, rfl⟩ := Prod.mk.inj failed
      obtain rfl := Except.error.inj same
      exact ⟨[], file, files, cut, rfl, told, loses.congr (by simp [owns_nil])⟩
    | ok count =>
      have earlier := removeFile_loses ran
      rw [andThen_ok, runFrom_bind] at failed
      rcases rest : runFrom between (removeFiles project files) with ⟨fault' | more, last⟩
      · rw [rest] at failed
        obtain ⟨same, rfl⟩ := Prod.mk.inj failed
        obtain rfl := Except.error.inj same
        obtain ⟨done, stopped, later, cut, rfl, stops, loses'⟩ := ih rest
        refine ⟨file :: done, stopped, later, cut, rfl, ?_, ?_⟩
        · rcases stops with ⟨rfl, unclear⟩ | ⟨name, later, split, rest⟩
          · exact .inl ⟨rfl, earlier.unclear unclear⟩
          · refine .inr ⟨name, later, ?_, rest⟩
            rw [earlier.names] at split
            rw [← split]
            apply List.filter_congr
            intro name member
            rw [earlier.owns, earlier.owns, owns_cons state project file done]
            cases state.owns project [file] name <;> simp
        · apply (earlier.trans loses').congr
          intro name
          rw [earlier.owns, owns_cons state project file done]
          cases state.owns project [file] name <;> simp
      · rw [rest] at failed
        cases congrArg Prod.fst failed

/-- The files of a project's snapshot hold in both worlds the same. -/
def SameSnapshot (indexer : Indexer) (place : Path) (before after : World) : Prop :=
  ∀ file ∈ [indexer.store.snapshotFile indexer.env place,
    indexer.store.recordFile indexer.env place],
    (after.file file).toOption = (before.file file).toOption

theorem sameSnapshot_of_follows (follows : state.Follows after) :
    indexer.SameSnapshot place state.world after.world := by
  intro file member
  simp only [List.mem_cons, List.not_mem_nil, or_false] at member
  rcases member with rfl | rfl
  · exact follows.world.file_toOption not_spots_snapshotFile
  · exact follows.world.file_toOption not_spots_recordFile

theorem run_of_fault {path : String} {name : Value} {fault : Fault}
    (resolved : runFrom state.world (World.resolve path) = (.ok place, state.world))
    (known : (runFrom state.world (indexer.store.has indexer.env place.toString)).1 = .ok true)
    (failed : runFrom state (indexer.changeRun place (projectName name place)) =
      (.error fault, after)) :
    runFrom state (indexer.run path name false) = (.ok (.failed fault.message), after) := by
  have asked : runFrom state.world (indexer.store.has indexer.env place.toString) =
      (.ok true, state.world) := Prod.ext known (SnapshotStore.has_snd _ _ _ _)
  simp [run, resolved, asked, failed]

theorem addFiles_of_misfit {files : List String} (misfit : state.Misfit (indexer.embed project
      (indexer.chunksOf state.world place (files.filter Language.isSourcePath)))) :
    ∃ fault after, runFrom state (indexer.addFiles place project files) = (.error fault, after) ∧
      (fault = .dimensionMismatch ∨ ∃ shape, fault = .uneven 1 shape) ∧
      state.Loses (fun _ => False) after := by
  obtain ⟨fault, after, added, told, loses⟩ := add_misfit indexer.env.gpu misfit
  exact ⟨fault, after, by simp [addFiles, added], told, loses⟩

section Found

variable {changes : LooseChanges} {tree : DigestTree} {world : World} {removed : List Value}
  (found : runFrom state.world (indexer.store.changesSince indexer.env place.toString) =
    (.ok (changes, tree), world))
  (changed : changes.hasChanges = true) (listed : changes.toRemove = .ok removed)

include found changed listed

theorem changeRun_of_removing {fault : Fault}
    (failed : runFrom { state with world } (removeFiles project removed) = (.error fault, after)) :
    runFrom state (indexer.changeRun place project) = (.error fault, after) := by
  simp [changeRun, found, changed, listed, failed]

theorem changeRun_of_adding {count : Nat} {between : IndexState} {files : List String}
    {fault : Fault}
    (done : runFrom { state with world } (removeFiles project removed) = (.ok count, between))
    (wanted : changes.toReindex.bind (fun files => files.mapM Value.needText) = .ok files)
    (failed : runFrom between (indexer.addFiles place project files) = (.error fault, after)) :
    runFrom state (indexer.changeRun place project) = (.error fault, after) := by
  cases reindexed : changes.toReindex with
  | error fault => simp [reindexed, Except.bind] at wanted
  | ok values =>
    have texts : values.mapM Value.needText = .ok files := by
      simpa [reindexed, Except.bind] using wanted
    simp [changeRun, found, changed, listed, done, reindexed, texts, failed]

end Found

end Indexer

open Indexer IndexState in
/-- A run on changes that a removal or a vector of another dimension stops says so, and leaves
the names, the vectors and the snapshot as they were.  No live entry comes up or is altered.
Where the removal stopped, those of the files before are gone and the first ones of the file that
it stopped at.  Where it came to its end, those of all files that were removed or modified are. -/
theorem interrupted_run_loses_entries_only {indexer : Indexer} {place : Path} {path : String}
    {name : Value} {state : IndexState} {world : World} {changes : LooseChanges}
    {tree : DigestTree} {removed : List Value}
    (resolved : runFrom state.world (World.resolve path) = (.ok place, state.world))
    (known : (runFrom state.world (indexer.store.has indexer.env place.toString)).1 = .ok true)
    (found : runFrom state.world (indexer.store.changesSince indexer.env place.toString) =
      (.ok (changes, tree), world))
    (changed : changes.hasChanges = true) (listed : changes.toRemove = .ok removed) :
    (∀ fault after, runFrom { state with world }
        (removeFiles (projectName name place) removed) = (.error fault, after) →
      runFrom state (indexer.run path name false) = (.ok (.failed fault.message), after) ∧
      indexer.SameSnapshot place state.world after.world ∧
      ∃ done file later cut, removed = done ++ file :: later ∧
        state.StopsAt (projectName name place) done file cut fault ∧
        state.Loses (fun identifier =>
          state.owns (projectName name place) done identifier = true ∨ identifier ∈ cut) after) ∧
    ∀ count between files, runFrom { state with world }
        (removeFiles (projectName name place) removed) = (.ok count, between) →
      changes.toReindex.bind (fun values => values.mapM Value.needText) = .ok files →
      between.Misfit (indexer.embed (projectName name place)
        (indexer.chunksOf between.world place (files.filter Language.isSourcePath))) →
      ∃ (fault : Fault) (after : IndexState),
        (fault = .dimensionMismatch ∨ ∃ shape, fault = .uneven 1 shape) ∧
        runFrom state (indexer.run path name false) = (.ok (.failed fault.message), after) ∧
        indexer.SameSnapshot place state.world after.world ∧
        state.Loses (fun identifier =>
          state.owns (projectName name place) removed identifier = true) after := by
  have looking := indexer.store.still_changesSince indexer.env place.toString state.world
    (World.Still.refl state.world)
  rw [found] at looking
  have start : state.Follows { state with world } :=
    (Follows.refl state).of_disk looking.disk looking.workingDirectory
  have removing := removeFiles_follows (projectName name place) removed _ start
  constructor
  · intro fault after failed
    rw [failed] at removing
    obtain ⟨done, file, later, cut, split, stops, loses⟩ := removeFiles_stops failed
    refine ⟨run_of_fault resolved known (changeRun_of_removing found changed listed failed),
      sameSnapshot_of_follows removing, done, file, later, cut, split, stops.of_still looking, ?_⟩
    simpa only [owns_still looking] using loses.of_still looking
  · intro count between files done wanted misfit
    rw [done] at removing
    obtain ⟨fault, after, failed, told, kept⟩ := addFiles_of_misfit misfit
    have adding := (addFiles_follows _ files).after removing failed
    have loses := (removeFiles_loses done).trans kept
    refine ⟨fault, after, told, run_of_fault resolved known
      (changeRun_of_adding found changed listed done wanted failed),
      sameSnapshot_of_follows adding, ?_⟩
    simpa only [owns_still looking, or_false] using loses.of_still looking

namespace Sample

open Indexer

def longer : Encoder :=
  ⟨fun _ texts => .ok (texts.map (fun _ => [1.0, 1.0]))⟩

def wider : Indexer :=
  indexer.withEncoder longer

/-- The index of a project whose file was modified since, once or twice. -/
def modified : IndexState :=
  { indexed (lone "x") with world := revised (indexed (lone "x")).world (lone "xx") }

def modifiedTwice : IndexState :=
  { reindexed with world := revised reindexed.world (lone "xxx") }

def takingOut (state : IndexState) : Except Fault Nat × IndexState :=
  runFrom state (removeFiles (.text "project") [.text "a.py"])

def replacements : List Embedded :=
  wider.embed (.text "project") (wider.chunksOf (takingOut modified).2.world place ["a.py"])

end Sample

open Indexer IndexState Sample in
/-- A file is modified and then indexed with longer vectors: its entry is lost. -/
theorem longer_vectors_lose_entries_only :
    ∃ before world changes tree,
      indexer.Reached place 1 opened [call false] before ∧ indexer.Edited place before world ∧
      runFrom world (World.resolve "/project") = (.ok place, world) ∧
      (runFrom world (wider.store.has wider.env place.toString)).1 = .ok true ∧
      runFrom world (wider.store.changesSince wider.env place.toString) =
        (.ok (changes, tree), world) ∧
      changes.hasChanges = true ∧
      ∃ removed, changes.toRemove = .ok removed ∧ .text "a.py" ∈ removed ∧
      ∃ count between files,
        runFrom { before with world } (removeFiles (projectName (.text "project") place) removed) =
          (.ok count, between) ∧
        changes.toReindex.bind (fun values => values.mapM Value.needText) = .ok files ∧
        between.Misfit (wider.embed (projectName (.text "project") place)
          (wider.chunksOf between.world place (files.filter Language.isSourcePath))) ∧
      ∃ (fault : Fault) (after : IndexState),
        (fault = .dimensionMismatch ∨ ∃ shape, fault = .uneven 1 shape) ∧
        runFrom { before with world } (wider.run "/project" (.text "project") false) =
          (.ok (.failed fault.message), after) ∧
        wider.SameSnapshot place world after.world ∧
        Loses (fun identifier => owns { before with world }
          (projectName (.text "project") place) removed identifier = true)
          { before with world } after := by
  obtain ⟨_, view, -, -, inFolder, ready⟩ := indexed_ready (proper_lone "x")
  have edited := edited_revised (proper_lone "xx") inFolder
  have stands := ((edited.ready ready).withEncoder longer).stands
  have told : changesIn wider modified.world = some ⟨[], [], ["a.py"], []⟩ ∧
      (takingOut modified).1.toOption.map id = some 1 ∧
      replacements.any (fun item => some (item.embedding.length : Int) !=
        (takingOut modified).2.dimensionFor replacements) = true := by
    decide +kernel
  obtain ⟨changes, removed, odd⟩ := told
  obtain ⟨tree, found⟩ := finds_of_changesIn stands changes
  obtain ⟨count, done, -⟩ := exists_result removed
  obtain ⟨item, member, other⟩ := List.any_eq_true.mp odd
  have known := congrArg Prod.fst (stands.has isPlace_place)
  have listed := LooseChanges.toRemove_ofChanges ⟨[], [], ["a.py"], []⟩
  have wanted : (LooseChanges.ofChanges ⟨[], [], ["a.py"], []⟩).toReindex.bind
      (fun values => values.mapM Value.needText) = .ok ["a.py"] := rfl
  have misfit : (takingOut modified).2.Misfit replacements := ⟨item, member, bne_iff_ne.mp other⟩
  exact ⟨_, _, _, tree, reached_indexed (proper_lone "x"), edited, resolve_project _, known, found,
    rfl, _, listed, List.mem_singleton_self _, count, _, ["a.py"], done, wanted, misfit,
    (@interrupted_run_loses_entries_only wider place "/project" (.text "project") modified _ _ _ _
      (resolve_project _) known found rfl listed).2 count _ _ done wanted misfit⟩

open Indexer IndexState Sample in
/-- The second change of a file stops the run at its removal, and a live entry is lost. -/
theorem second_change_loses_entry :
    ∃ before world changes tree fault after identifier entry,
      indexer.Ready place 1 .empty none opened ∧
      indexer.Reached place 1 opened [call false, call false] before ∧
      indexer.Edited place before world ∧
      (runFrom world (indexer.store.has indexer.env place.toString)).1 = .ok true ∧
      runFrom world (indexer.store.changesSince indexer.env place.toString) =
        (.ok (.ofChanges changes, tree), world) ∧
      runFrom { before with world } (removeFiles (.text "project") (changes.toRemove.map .text)) =
        (.error fault, after) ∧
      runFrom { before with world } (indexer.run "/project" (.text "project") false) =
        (.ok (.failed fault.message), after) ∧
      IndexState.entry { before with world } identifier = .ok (some entry) ∧
      after.entry identifier = .ok none := by
  have edited := edited_revised (proper_lone "xxx") reindexed_eq.1
  have told : (runFrom modifiedTwice.world
        (indexer.store.has indexer.env place.toString)).1.toOption = some true ∧
      changesIn indexer modifiedTwice.world = some ⟨[], [], ["a.py"], []⟩ ∧
      (takingOut modifiedTwice).1.toOption = none ∧
      (runFrom modifiedTwice (ChunkIndex.entryOf
        (.text "a.py:1-1:module"))).1.toOption.map Option.isSome = some true ∧
      (runFrom (takingOut modifiedTwice).2 (ChunkIndex.entryOf
        (.text "a.py:1-1:module"))).1.toOption.map Option.isNone = some true := by
    decide +kernel
  obtain ⟨has, changes, stops, live, gone⟩ := told
  have known := eq_ok_of_toOption has
  obtain ⟨view, snapshot, ready⟩ := reached_reindexed.ready ready_opened
  have stands := (edited.ready ready).stands
  obtain ⟨old, rfl⟩ : ∃ old, snapshot = some old := by
    refine Option.isSome_iff_exists.mp (Except.ok.inj (Eq.trans ?_ known))
    exact (congrArg Prod.fst (stands.has isPlace_place)).symm
  obtain ⟨tree, found⟩ := finds_of_changesIn stands changes
  obtain ⟨fault, failed⟩ := exists_fault stops
  obtain ⟨known', here, isSome⟩ := exists_result live
  obtain ⟨entry, rfl⟩ := Option.isSome_iff_exists.mp isSome
  obtain ⟨_, lost, isNone⟩ := exists_result gone
  obtain rfl := Option.isNone_iff_eq_none.mp isNone
  have stopped := @changeRun_of_removing indexer place (projectName (.text "project") place)
    modifiedTwice _ _ tree _ _ found rfl (LooseChanges.toRemove_ofChanges _) _ failed
  exact ⟨reindexed, _, _, tree, fault, _, "a.py:1-1:module", entry, ready_opened,
    reached_reindexed, edited, known, found, failed, run_of_fault (resolve_project _) known stopped,
    congrArg Prod.fst here, congrArg Prod.fst lost⟩

end CodeAtlas
