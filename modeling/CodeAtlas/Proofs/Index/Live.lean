import CodeAtlas.Proofs.Index.Outlasting

/-!
# The live chunks of an index

A reader of an index sees the records of its live chunks by identifier.  Each action of an
indexing run is described by what it does to these records, where it succeeds, and by the
files that it leaves alone.
-/

namespace CodeAtlas

variable {names found : List String} {world : World} {items : List Embedded}

abbrev LiveRecords := String → Option Record

namespace Catalog

variable {catalog : Catalog} {path project : Value}

def records (catalog : Catalog) : LiveRecords :=
  fun identifier => (catalog.get? identifier).map Entry.record

/-- Whether a record is found to belong to a file. -/
def isOwned (path project : Value) (record : Record) : Bool :=
  (belongsTo path project record).toOption.getD false

/-- The names that belong to a file are told, unless the record of one cannot be compared. -/
theorem belonging_cases (catalog : Catalog) (path project : Value) (names : List String) :
    catalog.belonging path project names =
        .ok (names.filter (fun name => (catalog.records name).any (isOwned path project))) ∨
      ∃ fault, catalog.belonging path project names = .error fault ∧
        ∃ name ∈ names, ∃ entry, catalog.get? name = some entry ∧
          belongsTo path project entry.record = .error fault := by
  induction names with
  | nil => exact .inl rfl
  | cons name names ih =>
    rw [belonging]
    cases found : catalog.get? name with
    | none =>
      rw [List.filter_cons_of_neg (by simp [records, found])]
      rcases ih with rest | ⟨fault, failed, other, member, odd⟩
      · exact .inl rest
      · exact .inr ⟨fault, failed, other, List.mem_cons_of_mem _ member, odd⟩
    | some entry =>
      cases judged : belongsTo path project entry.record with
      | error fault =>
        refine .inr ⟨fault, ?_, name, List.mem_cons_self, entry, found, judged⟩
        simp [judged, bind, Except.bind]
      | ok belongs =>
        rcases ih with rest | ⟨fault, failed, other, member, odd⟩
        · left
          cases belongs <;> simp [judged, rest, records, found, isOwned, Except.toOption, bind,
            Except.bind, pure, Except.pure]
        · refine .inr ⟨fault, ?_, other, List.mem_cons_of_mem _ member, odd⟩
          cases belongs <;> simp [judged, failed, bind, Except.bind]

theorem belonging_eq_filter (collected : catalog.belonging path project names = .ok found) :
    found = names.filter (fun name => (catalog.records name).any (isOwned path project)) := by
  rcases catalog.belonging_cases path project names with told | ⟨fault, failed, -⟩
  · exact Except.ok.inj (collected.symm.trans told)
  · cases collected.symm.trans failed

/-- Without the names that belong to a file, the records that do not belong to it are
left, and those of other names. -/
theorem records_without_belonging
    (collected : catalog.belonging path project names = .ok found) (identifier : String) :
    (if identifier ∈ found then none else catalog.records identifier) =
      if identifier ∈ names then
        (catalog.records identifier).filter (fun record => !isOwned path project record)
      else catalog.records identifier := by
  have member : identifier ∈ found ↔ identifier ∈ names ∧
      (catalog.records identifier).any (isOwned path project) = true := by
    rw [belonging_eq_filter collected, List.mem_filter]
  by_cases listed : identifier ∈ names
  · cases known : catalog.records identifier with
    | none => simp
    | some record =>
      cases owned : isOwned path project record <;>
        simp [member, known, listed, owned, Option.filter]
  · simp [member, listed]

/-- Names are taken out up to the first that is not there, or not there any more. -/
theorem removeAll_stops (catalog : Catalog) (names : List String) :
    ∃ cut rest, cut.Nodup ∧ (∀ name ∈ cut, catalog.get? name ≠ none) ∧
      (∀ identifier, rest.get? identifier =
        if identifier ∈ cut then none else catalog.get? identifier) ∧
      (names = cut ∧ catalog.removeAll names = (rest, .ok ()) ∨
        ∃ name later, names = cut ++ name :: later ∧ rest.get? name = none ∧
          catalog.removeAll names = (rest, .error (.missingKey (.text name)))) := by
  induction names generalizing catalog with
  | nil => exact ⟨[], catalog, .nil, by simp, by simp, .inl ⟨rfl, rfl⟩⟩
  | cons name names ih =>
    rw [removeAll]
    cases found : catalog.get? name with
    | none =>
      have missing : catalog.contains name = false := by simp [Table.contains, found]
      refine ⟨[], catalog, .nil, by simp, by simp, .inr ⟨name, names, rfl, found, ?_⟩⟩
      rw [missing]
      rfl
    | some entry =>
      have here : catalog.contains name = true := by simp [Table.contains, found]
      obtain ⟨cut, rest, single, there, left, ended⟩ := ih (catalog.erase name)
      rw [if_pos here]
      refine ⟨name :: cut, rest, List.nodup_cons.mpr ⟨?_, single⟩, ?_, ?_, ?_⟩
      · intro member
        apply there name member
        simp
      · intro other member
        rcases List.mem_cons.mp member with rfl | later
        · simp [found]
        · intro none
          apply there other later
          simp [none]
      · intro identifier
        rw [left]
        by_cases same : identifier = name
        · simp [same]
        · simp [same]
      · rcases ended with ⟨rfl, removed⟩ | ⟨other, later, rfl, gone, removed⟩
        · exact .inl ⟨rfl, removed⟩
        · exact .inr ⟨other, later, rfl, gone, removed⟩

theorem records_removeAll {rest : Catalog}
    (removed : catalog.removeAll names = (rest, .ok ())) (identifier : String) :
    rest.records identifier =
      if identifier ∈ names then none else catalog.records identifier := by
  obtain ⟨cut, _, -, -, left, ⟨rfl, done⟩ | ⟨_, _, -, -, failed⟩⟩ := catalog.removeAll_stops names
  · obtain rfl := congrArg Prod.fst (removed.symm.trans done)
    rw [records, left]
    split <;> rfl
  · cases congrArg Prod.snd (removed.symm.trans failed)

def entryOf (item : Embedded) : String × Record :=
  (item.identifier, item.record)

/-- Of the items with one identifier the last one counts. -/
theorem records_enter (start : Nat) (items : List Embedded) (identifier : String) :
    (catalog.enter start items).records identifier =
      ((items.map entryOf).reverse.lookup identifier).or (catalog.records identifier) := by
  induction items generalizing catalog start with
  | nil => simp [enter]
  | cons item items ih =>
    have step : catalog.enter start (item :: items) =
        Catalog.enter (Table.insert catalog item.identifier ⟨start, item.record⟩) (start + 1)
          items := by
      simp [enter, List.zipIdx_cons]
    rw [step, ih, List.map_cons, List.reverse_cons, List.lookup_append]
    by_cases here : identifier = item.identifier
    · simp [records, here, entryOf]
    · have other : (identifier == item.identifier) = false := by simpa using here
      simp [records, other, entryOf, List.lookup_cons]

end Catalog

/-- What can be told about an index without its vectors: their dimension, once there are any,
the names of the chunks by position and the live records. -/
structure IndexView where
  dimension : Option Int
  names : List String
  live : LiveRecords

namespace IndexView

def empty : IndexView :=
  ⟨none, [], fun _ => none⟩

/-- The view after the records of a kind were taken out, as far as their names are known. -/
def without (view : IndexView) (owned : Record → Bool) : IndexView :=
  { view with live := fun identifier =>
      if identifier ∈ view.names then
        (view.live identifier).filter (fun record => !owned record)
      else view.live identifier }

/-- The view after items were added.  The first one decides the dimension of an index without
vectors, and of the items with one identifier the last one counts. -/
def add (view : IndexView) (items : List Embedded) : IndexView where
  dimension := view.dimension.or (items.head?.map (fun item => (item.embedding.length : Int)))
  names := view.names ++ items.map Embedded.identifier
  live identifier :=
    ((items.map Catalog.entryOf).reverse.lookup identifier).or (view.live identifier)

/-- The vectors of the items have the dimension that they are added with. -/
def Fits (view : IndexView) (items : List Embedded) : Prop :=
  ∀ item ∈ items, some (item.embedding.length : Int) = (view.add items).dimension

end IndexView

namespace IndexState

open ChunkIndex

variable {live : LiveRecords} {view : IndexView} {state after : IndexState} {gpu : GpuSupport}

/-- The index shows a view: what is in memory agrees with it, and the catalog that calls see
lists its live records. -/
def Shows (view : IndexView) (state : IndexState) : Prop :=
  state.chunks.vectors.map VectorIndex.dimension = view.dimension ∧
    state.chunks.names = view.names ∧
    ∃ kept, state.world.KeepsIndex state.chunks.folder kept ∧
      (state.chunks.seenCatalog kept).records = view.live

namespace Shows

private theorem committed {catalog : Catalog} {kept : Contents}
    (files : state.world.KeepsIndex state.chunks.folder kept)
    (inMemory : state.chunks.catalog = some catalog) :
    ∃ world, runFrom state commit = (.ok (), { state with world }) ∧
      Shows ⟨state.chunks.vectors.map VectorIndex.dimension, state.chunks.names,
        catalog.records⟩ { state with world } := by
  obtain ⟨world, done, files'⟩ := runFrom_commit files inMemory
  refine ⟨world, done, rfl, rfl, _, files', ?_⟩
  simp [seenCatalog, inMemory]

theorem clear {kept : Contents} (files : state.world.KeepsIndex state.chunks.folder kept) :
    ∃ after, runFrom state ChunkIndex.clear = (.ok (), after) ∧ after.Shows .empty := by
  obtain ⟨world, cleared, nothing⟩ := runFrom_clear files
  exact ⟨_, cleared, rfl, rfl, _, nothing, rfl⟩

theorem catalog! (shows : state.Shows view) :
    ∃ catalog world, runFrom state ChunkIndex.catalog! =
        (.ok catalog, ⟨{ state.chunks with catalog := some catalog }, world⟩) ∧
      catalog.records = view.live ∧
        Shows view ⟨{ state.chunks with catalog := some catalog }, world⟩ := by
  obtain ⟨dimension, names, kept, files, same⟩ := shows
  obtain ⟨world, read, files'⟩ := runFrom_catalog! files
  exact ⟨_, world, read, same, dimension, names, _, files', same⟩

/-- The view outlasts what does not change it. -/
theorem outlasts (folder : Path) (view : IndexView) :
    Outlasts folder (fun state => state.chunks.folder = folder ∧ Shows view state) where
  inFolder _ holds := holds.1
  read := by
    rintro state ⟨same, shows⟩
    obtain ⟨catalog, world, read, -, shows'⟩ := shows.catalog!
    rw [read]
    exact ⟨same, shows'⟩
  write := by
    rintro file value state other ⟨rfl, dimension, names, kept, files, same⟩
    obtain ⟨world, written, files'⟩ := files.writeFile file value
    rw [written]
    refine ⟨rfl, dimension, names, _, files', ?_⟩
    rw [← same]
    simp [seenCatalog, Function.update_of_ne other.symm]
  count := by
    rintro state ⟨same, dimension, names, kept, files, seen⟩
    exact ⟨same, dimension, names, kept, files.of_disk rfl rfl, seen⟩

variable (shows : state.Shows view)

include shows

theorem recordOf (identifier : String) :
    (runFrom state (ChunkIndex.recordOf (.text identifier))).1 = .ok (view.live identifier) := by
  obtain ⟨catalog, world, read, same, -⟩ := shows.catalog!
  simp [ChunkIndex.recordOf, ChunkIndex.entryOf, read, ← same, Catalog.records]

/-- The view stays as it is where the files of the index are left alone. -/
theorem edited (index : ∀ kept, state.world.KeepsIndex state.chunks.folder kept →
      world.KeepsIndex state.chunks.folder kept) : Shows view { state with world } := by
  obtain ⟨dimension, names, kept, files, same⟩ := shows
  exact ⟨dimension, names, kept, index kept files, same⟩

/-- What is taken out of the catalog is not listed any more, also if a fault stops the
removal. -/
theorem removeFile (path project : Value) :
    ∃ (catalog : Catalog) (after : IndexState), catalog.records = view.live ∧
      match catalog.belonging path project view.names with
      | .error fault =>
        runFrom state (ChunkIndex.removeFile path project) = (.error fault, after) ∧
          Shows view after
      | .ok found =>
        ∃ rest outcome, catalog.removeAll found = (rest, outcome) ∧
          runFrom state (ChunkIndex.removeFile path project) =
            (outcome.map (fun _ => found.length), after) ∧
          Shows { view with live := rest.records } after := by
  obtain ⟨dimension, names, kept, files, same⟩ := shows
  obtain ⟨world, files', described⟩ := runFrom_removeFile files path project
  rw [names] at described
  refine ⟨_, (runFrom state (ChunkIndex.removeFile path project)).2, same, ?_⟩
  cases collected : (state.chunks.seenCatalog kept).belonging path project view.names with
  | error fault =>
    rw [collected] at described
    rw [described]
    exact ⟨rfl, dimension, names, _, files', same⟩
  | ok found =>
    rw [collected] at described
    obtain ⟨rest, outcome, after, kept', removed, ran, files'', -⟩ := described
    rw [ran]
    exact ⟨rest, outcome, removed, rfl, dimension, names, kept', files'', rfl⟩

/-- A file that was removed without a fault has no records under the known names. -/
theorem removeFile_ok {path project : Value} {count : Nat}
    (result : runFrom state (ChunkIndex.removeFile path project) = (.ok count, after)) :
    Shows (view.without (Catalog.isOwned path project)) after := by
  obtain ⟨catalog, last, same, described⟩ := shows.removeFile path project
  cases collected : catalog.belonging path project view.names with
  | error fault =>
    rw [collected] at described
    rw [described.1] at result
    cases congrArg Prod.fst result
  | ok found =>
    rw [collected] at described
    obtain ⟨rest, outcome, removed, ran, shows'⟩ := described
    rw [ran] at result
    cases outcome with
    | error fault => cases congrArg Prod.fst result
    | ok _ =>
      obtain rfl : last = after := congrArg Prod.snd result
      have left : rest.records = (view.without (Catalog.isOwned path project)).live := by
        funext identifier
        rw [Catalog.records_removeAll removed,
          Catalog.records_without_belonging collected, same]
        rfl
      rw [left] at shows'
      exact shows'

theorem save (gpu : GpuSupport) : Shows view (runFrom state (ChunkIndex.save gpu)).2 :=
  ((outlasts state.chunks.folder view).save gpu state ⟨rfl, shows⟩).2

theorem writeStatistics : Shows view (runFrom state ChunkIndex.writeStatistics).2 :=
  ((outlasts state.chunks.folder view).writeStatistics state ⟨rfl, shows⟩).2

/-- Items that are entered and committed are live before the statistics are written. -/
private theorem entering (index : VectorIndex) (items : List Embedded) :
    ∃ between, Shows { view.add items with dimension := some index.dimension } between ∧
      runFrom state (ChunkIndex.enter index items) =
        runFrom between ChunkIndex.writeStatistics := by
  obtain ⟨catalog, world, read, same, -, names, kept, files, -⟩ := shows.catalog!
  obtain ⟨world', done, shows'⟩ := @committed
    ⟨{ state.chunks with
      vectors := some index
      names := state.chunks.names ++ items.map Embedded.identifier
      catalog := some (catalog.enter state.chunks.names.length items) }, world⟩
    _ kept files rfl
  have entered : (catalog.enter state.chunks.names.length items).records =
      (view.add items).live := by
    funext identifier
    rw [Catalog.records_enter, same]
    rfl
  have listed : state.chunks.names ++ items.map Embedded.identifier =
      (view.add items).names := by
    rw [show state.chunks.names = view.names from names]
    rfl
  obtain ⟨dimension, -, kept', files', seen⟩ := shows'
  refine ⟨_, ⟨dimension, listed, kept', files', seen.trans entered⟩, ?_⟩
  simp only [ChunkIndex.enter, runFrom_bind, runFrom_current, andThen_ok, read, runFrom_change,
    done]

/-- Where there are vectors, items are added exactly if theirs have the same dimension. -/
private theorem add_of_vectors {index : VectorIndex} {first : Embedded} {rest : List Embedded}
    (vectors : state.chunks.vectors = some index) :
    (view.Fits (first :: rest) ∧ ∃ between, Shows (view.add (first :: rest)) between ∧
        runFrom state (ChunkIndex.add gpu (first :: rest)) =
          runFrom between ChunkIndex.writeStatistics) ∨
      ¬ view.Fits (first :: rest) ∧ ∃ fault,
        (runFrom state (ChunkIndex.add gpu (first :: rest))).1 = .error fault := by
  have dimension : view.dimension = some index.dimension := by
    rw [← shows.1, vectors]
    rfl
  have fits : view.Fits (first :: rest) ↔
      ∀ item ∈ first :: rest, (item.embedding.length : Int) = index.dimension := by
    simp [IndexView.Fits, IndexView.add, dimension]
  have trained : Shows view { state with chunks := { state.chunks with
      vectors := some index.train } } := by
    refine ⟨?_, shows.2⟩
    rw [dimension]
    rfl
  rw [fits]
  rcases ChunkIndex.add_of_vectors gpu vectors first rest with ⟨even, ran⟩ | ⟨odd, fault, _, ran, -⟩
  · obtain ⟨between, shows', entered⟩ := trained.entering _ (first :: rest)
    refine .inl ⟨even, between, ?_, ran.trans entered⟩
    simpa [IndexView.add, dimension, VectorIndex.train] using shows'
  · exact .inr ⟨odd, fault, congrArg Prod.fst ran⟩

/-- Items are added exactly if their vectors fit; the statistics are written last. -/
theorem add_cases (some : items ≠ []) :
    (view.Fits items ∧ ∃ between, Shows (view.add items) between ∧
        runFrom state (ChunkIndex.add gpu items) =
          runFrom between ChunkIndex.writeStatistics) ∨
      ¬ view.Fits items ∧ ∃ fault,
        (runFrom state (ChunkIndex.add gpu items)).1 = .error fault := by
  obtain ⟨first, rest, rfl⟩ := List.exists_cons_of_ne_nil some
  cases vectors : state.chunks.vectors with
  | some index => exact shows.add_of_vectors vectors
  | none =>
    obtain ⟨index, onGpu, created, dimension, -⟩ := runFrom_create gpu state
      first.embedding.length (10000 < (first :: rest).length)
    have none : view.dimension = Option.none := by
      rw [← shows.1, vectors]
      rfl
    have made : Shows { view with dimension := Option.some index.dimension } { state with
        chunks := { state.chunks with vectors := Option.some index, onGpu } } :=
      ⟨rfl, shows.2⟩
    have view' : IndexView.add { view with dimension := Option.some index.dimension }
        (first :: rest) = view.add (first :: rest) := by
      simp [IndexView.add, none, dimension]
    have outcome := @add_of_vectors _ _ gpu made _ first rest rfl
    rw [IndexView.Fits, view'] at outcome
    rw [ChunkIndex.add_of_created vectors created rfl]
    exact outcome

theorem add_ok (result : runFrom state (ChunkIndex.add gpu items) = (.ok (), after)) :
    Shows (view.add items) after := by
  by_cases empty : items = []
  · subst empty
    obtain rfl : state = after := by simpa [ChunkIndex.add] using result
    simpa [IndexView.add] using shows
  · rcases shows.add_cases empty with ⟨-, between, shows', ran⟩ | ⟨-, fault, failed⟩
    · have last := shows'.writeStatistics
      rwa [← ran, result] at last
    · rw [result] at failed
      cases failed

end Shows

/-- The index lists the given records as live, and knows the names of their chunks. -/
def Lists (live : LiveRecords) (state : IndexState) : Prop :=
  ∃ view, state.Shows view ∧ view.live = live ∧
    ∀ identifier, live identifier ≠ none → identifier ∈ view.names

namespace Lists

theorem recordOf (lists : state.Lists live) (identifier : String) :
    (runFrom state (ChunkIndex.recordOf (.text identifier))).1 = .ok (live identifier) := by
  obtain ⟨view, shows, rfl, -⟩ := lists
  exact shows.recordOf identifier

theorem removeFile {path project : Value} {count : Nat} (lists : state.Lists live)
    (result : runFrom state (ChunkIndex.removeFile path project) = (.ok count, after)) :
    Lists (fun identifier =>
      (live identifier).filter (fun record => !Catalog.isOwned path project record)) after := by
  obtain ⟨view, shows, rfl, named⟩ := lists
  refine ⟨_, shows.removeFile_ok result, ?_, ?_⟩
  · funext identifier
    cases known : view.live identifier with
    | none => simp [IndexView.without, known]
    | some record => simp [IndexView.without, known, named identifier (by simp [known])]
  · intro identifier stays
    apply named identifier
    intro none
    simp [none] at stays

theorem clear {kept : Contents} (files : state.world.KeepsIndex state.chunks.folder kept) :
    Lists (fun _ => none) (runFrom state ChunkIndex.clear).2 := by
  obtain ⟨after, cleared, shows⟩ := Shows.clear files
  rw [cleared]
  exact ⟨_, shows, rfl, fun _ live => absurd rfl live⟩

theorem add (lists : state.Lists live)
    (result : runFrom state (ChunkIndex.add gpu items) = (.ok (), after)) :
    Lists (fun identifier => ((items.map Catalog.entryOf).reverse.lookup identifier).or
      (live identifier)) after := by
  obtain ⟨view, shows, rfl, named⟩ := lists
  refine ⟨_, shows.add_ok result, rfl, fun identifier stays => ?_⟩
  cases new : (items.map Catalog.entryOf).reverse.lookup identifier with
  | none =>
    simp only [new, Option.none_or] at stays
    exact List.mem_append_left _ (named identifier stays)
  | some record =>
    have known := Table.isSome_lookup_iff.mp (Option.isSome_of_mem new)
    rw [List.map_reverse, List.mem_reverse, List.map_map] at known
    exact List.mem_append_right _ known

end Lists

/-- The places of the files of an index. -/
def Spots (state : IndexState) (names : List String) : Prop :=
  ∃ file : KeptFile, state.world.LeadsTo (state.chunks.folder.child file.name) names

/-- A later state of the same index, where only its own files may have changed.  Where they kept
documents they still do. -/
structure Follows (start state : IndexState) : Prop where
  folder : state.chunks.folder = start.chunks.folder
  world : World.SameApart start.Spots start.world state.world
  kept : ∀ kept, start.world.KeepsIndex start.chunks.folder kept →
    ∃ kept', state.world.KeepsIndex start.chunks.folder kept'

namespace Follows

variable {start : IndexState}

theorem refl (start : IndexState) : Follows start start :=
  ⟨rfl, .refl _ _, fun kept files => ⟨kept, files⟩⟩

theorem of_disk {state : IndexState} (follows : Follows start state)
    (disk : world.disk = state.world.disk)
    (workingDirectory : world.workingDirectory = state.world.workingDirectory) :
    Follows start { state with world } := by
  refine ⟨follows.folder, follows.world.trans (.of_disk disk workingDirectory), ?_⟩
  intro kept files
  obtain ⟨kept', files'⟩ := follows.kept kept files
  exact ⟨kept', files'.of_disk disk workingDirectory⟩

private theorem write (file : KeptFile) (value : Value) (state : IndexState)
    (follows : Follows start state) :
    Follows start { state with
      world := (runFrom state.world
        (World.writeFile (start.chunks.folder.child file.name) (.document value))).2 } := by
  cases result : runFrom state.world
      (World.writeFile (start.chunks.folder.child file.name) (.document value)) with
  | mk outcome after =>
    cases outcome with
    | error fault =>
      obtain rfl := World.writeFile_failed result
      exact follows
    | ok _ =>
      obtain ⟨-, changed⟩ := World.writeFile_ok file.name_notUp result
      refine ⟨follows.folder, follows.world.trans (changed.mono (fun names leads => ?_)), ?_⟩
      · exact ⟨file, (follows.world.locate_iff _ names).mp leads⟩
      · intro kept files
        obtain ⟨kept', files'⟩ := follows.kept kept files
        obtain ⟨world, written, files''⟩ := files'.writeFile file value
        obtain rfl : after = world := congrArg Prod.snd (result.symm.trans written)
        exact ⟨_, files''⟩

private theorem updating {update : ChunkIndex → ChunkIndex}
    (same : ∀ chunks, (update chunks).folder = chunks.folder) :
    Preserves (Follows start) (ChunkIndex.change update) :=
  fun state follows => ⟨(same state.chunks).trans follows.folder, follows.world, follows.kept⟩

theorem outlasts (gpu : GpuSupport) : OutlastsSteps gpu start.chunks.folder (Follows start) where
  inFolder _ follows := follows.folder
  written := write
  counted _ follows := follows.of_disk rfl rfl
  remembered _ _ _ follows := ⟨follows.folder, follows.world, follows.kept⟩
  exchanged _ _ _ follows _ _ := ⟨follows.folder, follows.world, follows.kept⟩
  started state index follows _ _ := by
    obtain ⟨moved, onGpu, result, -⟩ := runFrom_moveToGpu gpu
      { state with chunks := { state.chunks with vectors := some index } } rfl
    rw [result]
    exact ⟨follows.folder, follows.world, follows.kept⟩

theorem removeFile (path project : Value) :
    Preserves (Follows start) (ChunkIndex.removeFile path project) :=
  (outlasts .none).removeFile path project

theorem save (gpu : GpuSupport) : Preserves (Follows start) (ChunkIndex.save gpu) :=
  (outlasts gpu).toOutlasts.save gpu

theorem outlastsReading (gpu : GpuSupport) : OutlastsReading gpu (Follows start) :=
  (outlasts gpu).outlastsReading

theorem add (gpu : GpuSupport) (items : List Embedded) :
    Preserves (Follows start) (ChunkIndex.add gpu items) :=
  (outlasts gpu).add items

theorem clear : Preserves (Follows start) ChunkIndex.clear := by
  have discard : ∀ file : KeptFile, Preserves (Follows start)
      (World.discard (start.chunks.folder.child file.name) : IndexAct Unit) := by
    intro file state follows
    rw [runFrom_lift]
    have changed := World.discard_sameApart file.name_notUp state.world start.chunks.folder
    refine ⟨follows.folder, follows.world.trans (changed.mono (fun names leads => ?_)), ?_⟩
    · exact ⟨file, (follows.world.locate_iff _ names).mp leads⟩
    · intro kept files
      obtain ⟨kept', files'⟩ := follows.kept kept files
      obtain ⟨world, deleted, files''⟩ := files'.discard file
      rw [deleted]
      exact ⟨_, files''⟩
  refine .bind (updating (fun _ => rfl)) (fun _ => ?_)
  intro state follows
  rw [runFrom_then (runFrom_current _)]
  have files : state.chunks.keptFiles = [KeptFile.vectors, .catalog, .names, .statistics].map
      (fun file => start.chunks.folder.child file.name) := by
    rw [← follows.folder]
    rfl
  rw [files]
  have last : Preserves (Follows start) (ChunkIndex.change (fun chunks =>
      { chunks with vectors := none, names := [] })) := updating (fun _ => rfl)
  refine Preserves.bind ?_ (fun _ => last) state follows
  exact .bind (discard .vectors) (fun _ => .bind (discard .catalog) (fun _ =>
    .bind (discard .names) (fun _ => .bind (discard .statistics) (fun _ => .pure _))))

end Follows

end IndexState

end CodeAtlas
