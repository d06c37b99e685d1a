import CodeAtlas.Proofs.Tracking.Shelf

/-!
# The store of snapshots is a map

Whatever was saved, deleted and cleaned up, the store answers as a map from the paths of
projects to what was saved of them last, for every spelling of a path, and lists one
record for each project, newest first.
-/

namespace CodeAtlas

variable {workingDirectory : Path} {holding : Holding}

/-! ## Trees that can be saved -/

namespace KeptTree

/-- The second tree tells of the same files and folders as the first. -/
structure Alike (saved loaded : KeptTree) : Prop where
  rootPath : loaded.rootPath = saved.rootPath
  record : loaded.toValue = saved.toValue
  files : loaded.files = saved.files
  fileDigests : loaded.fileDigests = saved.fileDigests
  rootDigest : loaded.rootDigest = saved.rootDigest

/-- The trees that there are: built from the files of a project, not built yet, or read from
a record. -/
inductive Made (workingDirectory : Path) : KeptTree → Prop where
  | built {world after : World} {digest : DigestFunction} {rules : IgnoreRules} {place : Path}
      {tree : DigestTree} (sound : world.WellFormed) (absolute : place.anchor = .root)
      (valid : ∀ part ∈ place.parts, ValidName part)
      (made : runFrom world (DigestTree.build digest rules place) = (.ok tree, after)) :
      Made workingDirectory (.regular tree)
  | unbuilt {place : Path} (absolute : place.anchor = .root)
      (valid : ∀ part ∈ place.parts, ValidName part) :
      Made workingDirectory (.regular (.empty place))
  | read {value : Value} {tree : KeptTree} (read : ofValue workingDirectory value = .ok tree) :
      Made workingDirectory tree

private theorem alike_listing {tree : DigestTree}
    (files : (DigestTree.mk tree.rootPath tree.root .folderFirst).fileEntries = tree.fileEntries) :
    Alike (.regular tree) (.regular ⟨tree.rootPath, tree.root, .folderFirst⟩) := by
  refine ⟨rfl, ?_, ?_, ?_, rfl⟩
  · rw [toValue, toValue, DigestTree.toValue, DigestTree.totalSize, files, DigestTree.toValue,
      DigestTree.totalSize]
  · rw [KeptTree.files, KeptTree.files, DigestTree.files, files, DigestTree.files]
  · rw [KeptTree.fileDigests, KeptTree.fileDigests, DigestTree.fileDigests, files,
      DigestTree.fileDigests]

private theorem reads_regular {tree : DigestTree} (isPlace : tree.rootPath.IsPlace)
    (workingDirectory : Path) :
    ofValue workingDirectory tree.toValue =
      .ok (.regular ⟨tree.rootPath, tree.root, .folderFirst⟩) := by
  have read := KeptTree.ofValue_toValue tree workingDirectory
    (Path.hasNull_ofString_toString isPlace)
  rwa [Path.resolve_toString isPlace] at read

theorem Made.reads {tree : KeptTree} {document : Value} (made : Made workingDirectory tree)
    (directory : ∀ part ∈ workingDirectory.parts, ValidName part)
    (written : tree.toValue = .ok document) :
    ∃ loaded, ofValue workingDirectory document = .ok loaded ∧ Alike tree loaded := by
  cases made with
  | built sound absolute valid made =>
    obtain rfl := Except.ok.inj written
    obtain ⟨-, rfl⟩ := DigestTree.build_ok made
    rw [DigestTree.ofFiles_eq]
    refine ⟨_, reads_regular ⟨absolute, valid⟩ _, alike_listing ?_⟩
    exact DigestTree.fileEntries_ofProject (trackedProject_wellFormed sound.entryAt?)
  | unbuilt absolute valid =>
    obtain rfl := Except.ok.inj written
    exact ⟨_, reads_regular ⟨absolute, valid⟩ _, alike_listing rfl⟩
  | read read =>
    exact ⟨tree, ofValue_of_toValue directory read written, rfl, rfl, rfl, rfl, rfl⟩

end KeptTree

namespace SnapshotStore

variable {env : Environment} {store : SnapshotStore} {projects : Path → Prop}

/-! ## Operations -/

/-- What changes a store. -/
inductive Operation where
  | save (tree : KeptTree) (record : Option Record)
  | delete (project : String)
  | cleanup (keep : Int)

namespace Operation

def perform (env : Environment) (store : SnapshotStore) : Operation → Act Unit
  | .save tree record => store.saveKept env tree ((record.map Value.record).getD .null)
  | .delete project => store.delete env project
  | .cleanup keep => store.cleanupBy (.int keep)

/-- The operation is about the project at a place. -/
def Concerns (workingDirectory place : Path) : Operation → Prop
  | .save tree _ => tree.rootPath = place
  | .delete project => (Path.ofString project).resolve workingDirectory = place
  | .cleanup _ => False

/-- The operation is about one of the projects, or keeps at least one snapshot of each. -/
def Allowed (projects : Path → Prop) (workingDirectory : Path) : Operation → Prop
  | .save tree _ => KeptTree.Made workingDirectory tree ∧ projects tree.rootPath
  | .delete project => (Path.ofString project).hasNull = false ∧
      projects ((Path.ofString project).resolve workingDirectory)
  | .cleanup keep => 1 ≤ keep

end Operation

/-- The projects that are kept, and the moment that the next look at the clock shows. -/
structure Shelf where
  clock : Nat
  table : Table Path Holding

/-- What an operation does to the projects that are kept.  A tree that has no record is not
saved. -/
def Shelf.apply (env : Environment) (workingDirectory : Path) (shelf : Shelf) :
    Operation → Shelf
  | .save tree record =>
    match tree.toValue with
    | .ok document =>
      ⟨shelf.clock + 2, shelf.table.insert tree.rootPath
        ⟨tree, document, Clock.text shelf.clock,
          Record.update (record.getD []) (facts env (Clock.text (shelf.clock + 1))
            tree.rootPath tree.files.length tree.rootDigest)⟩⟩
    | .error _ => ⟨shelf.clock + 1, shelf.table⟩
  | .delete project =>
    ⟨shelf.clock, shelf.table.erase ((Path.ofString project).resolve workingDirectory)⟩
  | .cleanup _ => shelf

/-- The first record is of a snapshot that is no older than that of the second. -/
def NoEarlier (first second : Value) : Prop :=
  ∃ text text', timeOf first = .ok (.text text) ∧ timeOf second = .ok (.text text') ∧
    text' ≤ text

/-- A holding was made by saving a tree of the project. -/
structure Holding.Sound (env : Environment) (workingDirectory place : Path)
    (holding : Holding) : Prop where
  rootPath : holding.tree.rootPath = place
  made : KeptTree.Made workingDirectory holding.tree
  written : holding.tree.toValue = .ok holding.document
  described : ∃ given recorded, holding.record = Record.update given
    (facts env recorded place holding.tree.files.length holding.tree.rootDigest)

/-- One sound holding of each project that is kept. -/
structure Shelf.Sound (env : Environment) (projects : Path → Prop) (workingDirectory : Path)
    (shelf : Shelf) : Prop where
  known : ∀ entry ∈ shelf.table.entries, projects entry.1
  single : shelf.table.keys.Nodup
  holdings : ∀ entry ∈ shelf.table.entries, entry.2.Sound env workingDirectory entry.1

theorem Shelf.Sound.get?_iff {shelf : Shelf}
    (sound : shelf.Sound env projects workingDirectory) {place : Path} :
    shelf.table.get? place = some holding ↔ (place, holding) ∈ shelf.table.entries := by
  apply Table.lookup_eq_some_iff
  intro first second one other
  exact congrArg Prod.snd (List.inj_on_of_nodup_map sound.single one other rfl)

theorem Shelf.Sound.apply {shelf : Shelf} {operation : Operation}
    (sound : shelf.Sound env projects workingDirectory)
    (allowed : operation.Allowed projects workingDirectory) :
    (shelf.apply env workingDirectory operation).Sound env projects workingDirectory := by
  cases operation with
  | save tree record =>
    rw [Shelf.apply]
    cases written : tree.toValue with
    | error fault => exact ⟨sound.known, sound.single, sound.holdings⟩
    | ok document =>
      refine ⟨?_, Table.nodup_insertEntries _ _ sound.single, ?_⟩
      · intro entry member
        rcases Table.mem_insertEntries member with rfl | old
        · exact allowed.2
        · exact sound.known entry old
      · intro entry member
        rcases Table.mem_insertEntries member with rfl | old
        · exact ⟨rfl, allowed.1, written, _, _, rfl⟩
        · exact sound.holdings entry old
  | delete project =>
    refine ⟨?_, sound.single.sublist (List.filter_sublist.map _), ?_⟩
    · exact fun entry member => sound.known entry (List.mem_of_mem_filter member)
    · exact fun entry member => sound.holdings entry (List.mem_of_mem_filter member)
  | cleanup keep => exact sound

/-- The folder of the store keeps what is on the shelf, and has room for the files of all
projects. -/
structure Shelved (env : Environment) (store : SnapshotStore) (projects : Path → Prop)
    (base : List String) (shelf : Shelf) (world : World) : Prop where
  standing : Standing store base (filesIn env shelf.table) world
  snapshots : ∀ place, projects place → world.locate (store.snapshotFile env place) =
    .ok (base ++ [projectId env place ++ "_snapshot.json"])
  records : ∀ place, projects place → world.locate (store.recordFile env place) =
    .ok (base ++ [projectId env place ++ "_metadata.json"])
  clock : world.clock = shelf.clock
  sound : shelf.Sound env projects world.workingDirectory

namespace Shelved

variable {base : List String} {shelf : Shelf} {world : World}
variable (apart : TellsApart env projects) (shelved : Shelved env store projects base shelf world)

section

include shelved

theorem here {place : Path} (member : place ∈ shelf.table.keys) : projects place := by
  obtain ⟨entry, inside, rfl⟩ := List.mem_map.mp member
  exact shelved.sound.known entry inside

private theorem moved {after : World} {spots : List String → Prop}
    (same : World.SameApart spots world after) :
    (∀ place, projects place → after.locate (store.snapshotFile env place) =
      .ok (base ++ [projectId env place ++ "_snapshot.json"])) ∧
    ∀ place, projects place → after.locate (store.recordFile env place) =
      .ok (base ++ [projectId env place ++ "_metadata.json"]) :=
  ⟨fun place here => (same.locate_iff _ _).mpr (shelved.snapshots place here),
    fun place here => (same.locate_iff _ _).mpr (shelved.records place here)⟩

end

private theorem Standing.tick {files : Table String Value}
    (standing : Standing store base files world) : Standing store base files world.tick :=
  ⟨standing.leads, standing.holds⟩

private theorem update_nil (recorded : String) (place : Path) (files : Nat) (digest : Value) :
    Record.update [] (facts env recorded place files digest) =
      facts env recorded place files digest := by
  simp [Record.update, Record.set, facts]

section

include apart shelved

theorem save {tree : KeptTree} {record : Option Record}
    (allowed : (Operation.save tree record).Allowed projects world.workingDirectory) :
    ∃ outcome after,
      runFrom world (Operation.perform env store (.save tree record)) = (outcome, after) ∧
        Shelved env store projects base
          (shelf.apply env world.workingDirectory (.save tree record)) after ∧
        after.workingDirectory = world.workingDirectory := by
  have sound := shelved.sound.apply allowed
  obtain ⟨-, here⟩ := allowed
  rw [Operation.perform, saveKept]
  simp only [runFrom_bind, World.runFrom_readClock, andThen_ok, runFrom_orFail]
  rw [Shelf.apply] at sound ⊢
  cases written : tree.toValue with
  | error fault =>
    rw [written] at sound
    simp only [andThen_error]
    obtain ⟨first, second⟩ := shelved.moved (@World.tick_sameApart (fun _ => False) world)
    exact ⟨_, _, rfl, ⟨Standing.tick shelved.standing, first, second,
      congrArg (· + 1) shelved.clock, sound⟩, rfl⟩
  | ok document =>
    rw [written] at sound
    have start := @World.tick_sameApart (fun _ => False) world
    obtain ⟨between, first, stands, time, same⟩ := (Standing.tick shelved.standing).write
      (snapshotName_ne_up _) ((shelved.moved start).1 _ here)
      (treeDocument (Clock.text world.clock) document)
    have kept := start.mono (fun _ => False.elim) |>.trans same
    have later := kept.trans between.tick_sameApart
    obtain ⟨after, second, stands', time', same'⟩ := (Standing.tick stands).write
      (recordName_ne_up _) ((shelved.moved later).2 _ here)
      (.record (Record.update (record.getD []) (facts env (Clock.text between.clock)
        tree.rootPath tree.files.length tree.rootDigest)))
    have clock : between.clock = shelf.clock + 1 :=
      time.trans (congrArg (· + 1) shelved.clock)
    have home := same'.workingDirectory.trans later.workingDirectory
    refine ⟨.ok (), after, ?_, ⟨?_, ?_, ?_, ?_, ?_⟩, home⟩
    · rw [andThen_ok]
      refine (congrArg (fun outcome => andThen outcome _) first).trans ?_
      cases record with
      | none =>
        simpa [World.runFrom_readClock, Value.isTruthy, update_nil, recordFile] using second
      | some fields => exact second
    · rw [shelved.clock, clock] at stands'
      rw [filesIn_insert apart shelved.sound.known here]
      exact stands'
    · exact fun place there => (same'.locate_iff _ _).mpr ((shelved.moved later).1 place there)
    · exact fun place there => (same'.locate_iff _ _).mpr ((shelved.moved later).2 place there)
    · exact time'.trans (congrArg (· + 1) clock)
    · exact home ▸ sound

theorem delete {project : String}
    (allowed : (Operation.delete project).Allowed projects world.workingDirectory) :
    ∃ after,
      runFrom world (Operation.perform env store (.delete project)) = (.ok (), after) ∧
        Shelved env store projects base
          (shelf.apply env world.workingDirectory (.delete project)) after ∧
        after.workingDirectory = world.workingDirectory := by
  obtain ⟨noNull, here⟩ := id allowed
  obtain ⟨between, first, stands, time, same⟩ := shelved.standing.discard
    (snapshotName_ne_up _) (shelved.snapshots _ here)
  obtain ⟨after, second, stands', time', same'⟩ := stands.discard
    (recordName_ne_up _) ((shelved.moved same).2 _ here)
  have home := same'.workingDirectory.trans same.workingDirectory
  refine ⟨after, ?_, ⟨?_, ?_, ?_, ?_, ?_⟩, home⟩
  · rw [Operation.perform, SnapshotStore.delete, runFrom_bind, World.runFrom_resolve noNull,
      andThen_ok, runFrom_bind]
    exact (congrArg (fun outcome => andThen outcome _) first).trans second
  · rw [Shelf.apply, filesIn_erase apart shelved.sound.known here]
    exact stands'
  · exact fun place there => (same'.locate_iff _ _).mpr ((shelved.moved same).1 place there)
  · exact fun place there => (same'.locate_iff _ _).mpr ((shelved.moved same).2 place there)
  · exact (time'.trans time).trans shelved.clock
  · exact home ▸ shelved.sound.apply allowed

theorem keeps {place : Path} (here : projects place) :
    world.Keeps (store.snapshotFile env place) ((shelf.table.get? place).map
        fun holding => treeDocument holding.taken holding.document) ∧
      world.Keeps (store.recordFile env place) ((shelf.table.get? place).map
        fun holding => .record holding.record) := by
  obtain ⟨snapshot, record⟩ := get?_filesIn apart shelved.sound.known here
  rw [← snapshot, ← record]
  exact ⟨shelved.standing.keeps (shelved.snapshots place here),
    shelved.standing.keeps (shelved.records place here)⟩

end

/-! ## Names in the folder -/

private theorem runFrom_namesEnding {files : Table String Value}
    (standing : Standing store base files world) (ending : String) :
    runFrom world (store.namesEnding ending) =
      (.ok (files.keys.filter (Text.endsWith · ending)), world) := by
  obtain ⟨entries, found, documents⟩ := standing.holds
  have keys : entries.map Prod.fst = files.keys := by
    have same := congrArg Table.keys documents
    simpa [Table.keys, Table.map, Function.comp_def] using same
  have stands : world.entryAt? store.folder = some (.folder entries) := by
    rw [World.entryAt?, World.lookUp, standing.leads]
    exact found
  simp [namesEnding, stands, FileTree.entries, keys]

section

include shelved

/-- Where one of the two files of each project has the ending, the names with it are listed. -/
private theorem namesEnding {ending : String}
    (each : ∀ place holding, ((filesOf env place holding).map Prod.fst).filter
      (Text.endsWith · ending) = [projectId env place ++ ending]) :
    runFrom world (store.namesEnding ending) =
      (.ok (shelf.table.keys.map fun place => projectId env place ++ ending), world) := by
  rw [runFrom_namesEnding shelved.standing]
  refine congrArg (fun names => (Except.ok names, world)) ?_
  generalize shelf.table = table
  obtain ⟨entries⟩ := table
  simp only [filesIn, Table.keys]
  induction entries with
  | nil => rfl
  | cons entry rest ih =>
    rw [List.flatMap_cons, List.map_append, List.filter_append, each, ih]
    rfl

theorem snapshotNames : runFrom world (store.namesEnding "_snapshot.json") =
    (.ok (shelf.table.keys.map fun place => projectId env place ++ "_snapshot.json"), world) := by
  refine shelved.namesEnding fun place holding => ?_
  have other := endsWith_append_of_ne (show "_metadata.json".length = "_snapshot.json".length by
    decide) (by decide) (projectId env place)
  simp [filesOf, endsWith_append, other]

theorem recordNames : runFrom world (store.namesEnding "_metadata.json") =
    (.ok (shelf.table.keys.map fun place => projectId env place ++ "_metadata.json"), world) := by
  refine shelved.namesEnding fun place holding => ?_
  have other := endsWith_append_of_ne (show "_snapshot.json".length = "_metadata.json".length by
    decide) (by decide) (projectId env place)
  simp [filesOf, endsWith_append, other]

end

/-! ## A clean-up -/

/-- Where every name is that of another project, each group holds one name. -/
private theorem groupByProject_single {names : List (String × Int)}
    (apart : (names.map fun entry => projectOfName entry.1).Nodup) :
    ∀ group ∈ (groupByProject names).entries, group.2.length ≤ 1 := by
  have each : ∀ (names : List (String × Int)) (groups : Table String (List (String × Int))),
      (∀ group ∈ groups.entries, group.2.length ≤ 1) →
      (names.map fun entry => projectOfName entry.1).Nodup →
      (∀ entry ∈ names, groups.get? (projectOfName entry.1) = none) →
      ∀ group ∈ (names.foldl (fun groups entry => groups.insert (projectOfName entry.1)
        ((groups.get? (projectOfName entry.1)).getD [] ++ [entry])) groups).entries,
        group.2.length ≤ 1 := by
    intro names
    induction names with
    | nil => exact fun _ small _ _ => small
    | cons entry names ih =>
      intro groups small single fresh
      rw [List.map_cons, List.nodup_cons] at single
      obtain ⟨here, later⟩ := List.forall_mem_cons.mp fresh
      rw [List.foldl_cons, here]
      apply ih _ _ single.2
      · intro other member
        rw [Table.get?_insert, if_neg ?_]
        · exact later other member
        · intro same
          exact single.1 (List.mem_map.mpr ⟨other, member, beq_iff_eq.mp same⟩)
      · intro group member
        rcases Table.mem_insertEntries member with rfl | old
        · exact Nat.le_refl _
        · exact small group old
  exact each names Table.empty (by simp [Table.empty]) apart (fun _ _ => rfl)

private theorem outdated_eq_nil {keep : Int} (positive : 1 ≤ keep) {group : List (String × Int)}
    (single : group.length ≤ 1) : outdated keep group = [] := by
  have enough : group.length ≤ Text.sliceBound group.length keep := by
    rw [Text.sliceBound, if_neg (by omega)]
    omega
  rw [outdated, List.drop_eq_nil_of_le
    (by rwa [Sorting.byInsertion_eq, List.length_insertionSort])]
  rfl

private theorem runFrom_timesOfFiles (names : List String) (world : World) :
    ∃ timed, runFrom world (names.mapM fun name => return (name, ← store.timeOfFile name)) =
      (.ok timed, world) ∧ timed.map Prod.fst = names := by
  have each (name : String) : ∃ time, runFrom world (store.timeOfFile name) = (.ok time, world) := by
    rw [timeOfFile, runFrom_then (runFrom_get _)]
    split
    · exact ⟨_, rfl⟩
    · exact ⟨_, rfl⟩
  choose time found using each
  refine ⟨names.map fun name => (name, time name), runFrom_mapM fun name _ =>
    runFrom_then (found name), ?_⟩
  rw [List.map_map]
  exact List.map_id names

private theorem runFrom_forM_nothing {α : Type} {step : α → Act Unit} {items : List α}
    {world : World} (nothing : ∀ item ∈ items, runFrom world (step item) = (.ok (), world)) :
    runFrom world (items.forM step) = (.ok (), world) := by
  induction items with
  | nil => rfl
  | cons item items ih =>
    obtain ⟨here, later⟩ := List.forall_mem_cons.mp nothing
    change runFrom world (step item >>= fun _ => items.forM step) = _
    rw [runFrom_then here]
    exact ih later

section

include apart shelved

/-- A clean-up that keeps a snapshot of each project deletes nothing. -/
theorem cleanup {keep : Int} (positive : 1 ≤ keep) :
    runFrom world (store.cleanupBy (.int keep)) = (.ok (), world) := by
  have cleaned : runFrom world (store.cleanup keep) = (.ok (), world) := by
    rw [SnapshotStore.cleanup, runFrom_then shelved.snapshotNames, runFrom_bind]
    obtain ⟨timed, looked, same⟩ := @runFrom_timesOfFiles store
      (shelf.table.keys.map fun place => projectId env place ++ "_snapshot.json") world
    rw [looked, andThen_ok]
    have ids : (timed.map fun entry => projectOfName entry.1) =
        shelf.table.keys.map (projectId env) := by
      have projected := congrArg (List.map projectOfName) same
      rw [List.map_map, List.map_map] at projected
      refine projected.trans (List.map_congr_left fun place member => ?_)
      exact projectOfName_snapshot (apart.hex place (shelved.here member))
    have apart' : (timed.map fun entry => projectOfName entry.1).Nodup := by
      rw [ids]
      exact shelved.sound.single.map_on fun place one other two same =>
        apart.inj place other (shelved.here one) (shelved.here two) same
    apply runFrom_forM_nothing
    intro group member
    obtain ⟨project, group⟩ := group
    dsimp only
    rw [outdated_eq_nil positive (groupByProject_single apart' _ member)]
    rfl
  unfold cleanupBy
  rw [runFrom_then shelved.snapshotNames]
  split
  · rfl
  · exact cleaned

end

/-! ## The list of records -/

private theorem disorder?_texts {earlier values : List Value}
    (texts : ∀ value ∈ earlier, ∃ text, value = .text text)
    (texts' : ∀ value ∈ values, ∃ text, value = .text text) :
    Value.disorder? earlier values = none := by
  induction values generalizing earlier with
  | nil => rfl
  | cons value rest ih =>
    obtain ⟨⟨text, rfl⟩, later⟩ := List.forall_mem_cons.mp texts'
    rw [Value.disorder?]
    split
    · rename_i fault found
      obtain ⟨other, member, wrong⟩ := List.exists_of_findSome?_eq_some found
      obtain ⟨text', rfl⟩ := texts other member
      simp [Value.less] at wrong
    · exact ih (List.forall_mem_cons.mpr ⟨⟨text, rfl⟩, texts⟩) later

/-- Items are paired with what is read from them. -/
private theorem exists_pairs {monad : Type → Type} [Monad monad] [LawfulMonad monad] {α β : Type}
    {step : α → monad (β × α)} {tells : β → α → Prop} {items : List α}
    (each : ∀ item ∈ items, ∃ value, step item = pure (value, item) ∧ tells value item) :
    ∃ pairs, items.mapM step = pure pairs ∧ pairs.map Prod.snd = items ∧
      ∀ pair ∈ pairs, tells pair.1 pair.2 := by
  induction items with
  | nil => exact ⟨[], rfl, rfl, by simp⟩
  | cons item items ih =>
    obtain ⟨⟨value, here, told⟩, later⟩ := List.forall_mem_cons.mp each
    obtain ⟨pairs, read, same, all⟩ := ih later
    exact ⟨(value, item) :: pairs, by simp [here, read], by rw [List.map_cons, same],
      List.forall_mem_cons.mpr ⟨told, all⟩⟩

private theorem sortedBy_texts {α : Type} {key : α → Value} {items : List α}
    (texts : ∀ item ∈ items, ∃ text, key item = .text text) :
    ∃ sorted, Value.sortedBy key items = .ok sorted ∧ sorted.Perm items ∧
      sorted.Pairwise fun left right =>
        ∃ text text', key left = .text text ∧ key right = .text text' ∧ text ≤ text' := by
  obtain ⟨named, read, same, keys⟩ := @exists_pairs Option _ _ _ _
    (fun item => (key item).asText?.map (·, item)) (fun text item => key item = .text text) items
    (fun item member => (texts item member).imp fun text here => ⟨by rw [here]; rfl, here⟩)
  have fits : Value.disorder? [] (items.map key) = none :=
    disorder?_texts (by simp) (List.forall_mem_map.mpr texts)
  refine ⟨_, by rw [Value.sortedBy, fits, read]; rfl, ?_, ?_⟩
  · exact same ▸ (Text.sortedByKey_perm named).map Prod.snd
  · rw [List.pairwise_map]
    refine (Text.pairwise_sortedByKey named).imp_of_mem fun {left right} one two below => ?_
    have perm := Text.sortedByKey_perm named
    exact ⟨_, _, keys left (perm.mem_iff.mp one), keys right (perm.mem_iff.mp two), below⟩

private theorem newestFirst_texts {records : List Value}
    (texts : ∀ record ∈ records, ∃ text, timeOf record = .ok (.text text)) :
    ∃ sorted, newestFirst records = .ok sorted ∧ sorted.Perm records ∧
      sorted.Pairwise NoEarlier := by
  obtain ⟨timed, read, same, times⟩ := @exists_pairs (Except Fault) _ _ _ _
    (fun record => return (← timeOf record, record))
    (fun value record => ∃ text, value = .text text ∧ timeOf record = .ok (.text text)) records
    fun record member => (texts record member).elim fun text here =>
      ⟨.text text, by rw [here]; rfl, text, rfl, here⟩
  obtain ⟨sorted, outcome, perm, rises⟩ := @sortedBy_texts _ Prod.fst timed.reverse
    fun pair member => (times pair (List.mem_reverse.mp member)).imp fun _ both => both.1
  have falls : Value.fallingBy Prod.fst timed = .ok sorted.reverse := by
    rw [Value.fallingBy, outcome]
    rfl
  refine ⟨_, by rw [newestFirst, read]; exact congrArg (Except.map (List.map Prod.snd)) falls,
    ?_, ?_⟩
  · exact same ▸ ((List.reverse_perm _).trans (perm.trans (List.reverse_perm timed))).map Prod.snd
  · rw [List.pairwise_map, List.pairwise_reverse]
    refine rises.imp_of_mem ?_
    rintro earlier later one two ⟨text, text', isText, isText', below⟩
    obtain ⟨_, same', time⟩ := times earlier (List.mem_reverse.mp (perm.mem_iff.mp one))
    obtain ⟨_, same'', time'⟩ := times later (List.mem_reverse.mp (perm.mem_iff.mp two))
    obtain rfl := Value.text.inj (isText.symm.trans same')
    obtain rfl := Value.text.inj (isText'.symm.trans same'')
    exact ⟨text', text, time', time, below⟩

private theorem timeOf_described (recorded : String) (place : Path) (files : Nat) (digest : Value)
    (record : Record) :
    timeOf (.record (Record.update record (facts env recorded place files digest))) =
      .ok (.text recorded) := by
  simp [timeOf, Record.update, facts, Record.lookup_set]

private theorem runFrom_readAll {entries : List (Path × Holding)} (kept : ∀ entry ∈ entries,
      world.Keeps (store.recordFile env entry.1) (some (.record entry.2.record))) :
    runFrom world (store.readAll
        (entries.map fun entry => projectId env entry.1 ++ "_metadata.json")) =
      (.ok (entries.map fun entry => .record entry.2.record), world) := by
  have each : runFrom world ((entries.map fun entry =>
      projectId env entry.1 ++ "_metadata.json").mapM fun name =>
        tryCatch (do return some (← World.documentAt (store.folder.child name)))
          (fun _ => return none)) =
      (.ok (entries.map fun entry => some (.record entry.2.record)), world) := by
    rw [List.mapM_map]
    refine runFrom_mapM fun entry member => ?_
    have read := (kept entry member).documentAt
    rw [recordFile] at read
    simp [runFrom_tryCatch, read]
  rw [readAll, runFrom_then each, runFrom_pure, List.filterMap_map]
  simp

include apart shelved

/-- The list holds the records on the shelf, newest first. -/
theorem list :
    ∃ records, runFrom world store.list = (.ok records, world) ∧
      records.Perm (shelf.table.entries.map fun entry => .record entry.2.record) ∧
      records.Pairwise NoEarlier := by
  have read : runFrom world (store.readAll
      (shelf.table.keys.map fun place => projectId env place ++ "_metadata.json")) =
      (.ok (shelf.table.entries.map fun entry => .record entry.2.record), world) := by
    rw [Table.keys, List.map_map]
    apply runFrom_readAll
    intro entry member
    have found : shelf.table.get? entry.1 = some entry.2 := shelved.sound.get?_iff.mpr member
    have both := (shelved.keeps apart (shelved.sound.known entry member)).2
    rwa [found] at both
  obtain ⟨sorted, outcome, perm, falls⟩ := @newestFirst_texts
    (shelf.table.entries.map fun entry => .record entry.2.record) (by
      intro record member
      obtain ⟨entry, inside, rfl⟩ := List.mem_map.mp member
      obtain ⟨given, recorded, same⟩ := (shelved.sound.holdings entry inside).described
      exact ⟨recorded, by rw [same, timeOf_described]⟩)
  refine ⟨sorted, ?_, perm, falls⟩
  rw [SnapshotStore.list, runFrom_then shelved.recordNames, runFrom_then read, runFrom_orFail,
    outcome]

end Shelved

/-! ## Answers -/

/-- The text names a place, seen from a working directory. -/
def Spells (workingDirectory : Path) (project : String) (place : Path) : Prop :=
  (Path.ofString project).hasNull = false ∧
    (Path.ofString project).resolve workingDirectory = place

/-- The store answers for a project as a map does that holds a tree, or none. -/
def Answers (env : Environment) (store : SnapshotStore) (world : World) (project : String)
    (held : Option KeptTree) : Prop :=
  runFrom world (store.has env project) = (.ok held.isSome, world) ∧
    match held with
    | none => runFrom world (store.load env project) = (.ok none, world) ∧
        runFrom world (store.loadRecord env project) = (.ok none, world)
    | some tree =>
      (∃ loaded, runFrom world (store.load env project) = (.ok (some loaded), world) ∧
        tree.Alike loaded) ∧
      ∃ fields, runFrom world (store.loadRecord env project) =
          (.ok (some (.record fields)), world) ∧
        fields.lookup "file_count" = some (.int tree.files.length) ∧
        fields.lookup "root_hash" = some tree.rootDigest

/-- The store answers for a project in one world as in the other. -/
def AnswersAlike (env : Environment) (store : SnapshotStore) (project : String)
    (world world' : World) : Prop :=
  (runFrom world' (store.has env project)).1 = (runFrom world (store.has env project)).1 ∧
    (runFrom world' (store.load env project)).1 = (runFrom world (store.load env project)).1 ∧
    (runFrom world' (store.loadRecord env project)).1 =
      (runFrom world (store.loadRecord env project)).1

namespace Shelved

variable {base : List String} {shelf : Shelf} {world : World} {project : String} {place : Path}

private theorem holding_sound (shelved : Shelved env store projects base shelf world)
    (found : shelf.table.get? place = some holding) :
    holding.Sound env world.workingDirectory place :=
  shelved.sound.holdings (place, holding) (shelved.sound.get?_iff.mp found)

variable (apart : TellsApart env projects) (shelved : Shelved env store projects base shelf world)
include apart shelved

section

variable (spells : Spells world.workingDirectory project place) (here : projects place)
include spells here

theorem has :
    runFrom world (store.has env project) = (.ok (shelf.table.get? place).isSome, world) := by
  obtain ⟨noNull, rfl⟩ := spells
  rw [SnapshotStore.has, runFrom_bind, World.runFrom_resolve noNull, andThen_ok,
    (shelved.keeps apart here).1.exists?, Option.isSome_map]

theorem loadRecord :
    runFrom world (store.loadRecord env project) =
      (.ok ((shelf.table.get? place).map fun holding => .record holding.record), world) := by
  obtain ⟨noNull, rfl⟩ := spells
  have kept := (shelved.keeps apart here).2
  cases found : shelf.table.get? ((Path.ofString project).resolve world.workingDirectory) with
  | none =>
    rw [found, Option.map_none] at kept
    simp [SnapshotStore.loadRecord, World.runFrom_resolve noNull, kept.exists?]
  | some holding =>
    rw [found, Option.map_some] at kept
    simp [SnapshotStore.loadRecord, World.runFrom_resolve noNull, kept.exists?, kept.documentAt]

theorem load_some (directory : ∀ part ∈ world.workingDirectory.parts, ValidName part)
    (found : shelf.table.get? place = some holding) :
    ∃ loaded, runFrom world (store.load env project) = (.ok (some loaded), world) ∧
      KeptTree.ofValue world.workingDirectory holding.document = .ok loaded ∧
      holding.tree.Alike loaded := by
  obtain ⟨noNull, rfl⟩ := spells
  have sound := shelved.holding_sound found
  have kept := (shelved.keeps apart here).1
  rw [found, Option.map_some] at kept
  obtain ⟨loaded, read, alike⟩ := sound.made.reads directory sound.written
  have opened : runFrom world (treeOf (treeDocument holding.taken holding.document)) =
      (.ok loaded, world) := by
    simp [treeOf, treeDocument, Value.agrees, Record.need, List.lookup_cons, read]
  refine ⟨loaded, ?_, read, alike⟩
  simp [SnapshotStore.load, World.runFrom_resolve noNull, kept.exists?, kept.documentAt, opened]

theorem load_none (missing : shelf.table.get? place = none) :
    runFrom world (store.load env project) = (.ok none, world) := by
  obtain ⟨noNull, rfl⟩ := spells
  have kept := (shelved.keeps apart here).1
  rw [missing, Option.map_none] at kept
  simp [SnapshotStore.load, World.runFrom_resolve noNull, kept.exists?]

theorem answers (directory : ∀ part ∈ world.workingDirectory.parts, ValidName part) :
    Answers env store world project ((shelf.table.get? place).map Holding.tree) := by
  have whether := shelved.has apart spells here
  have recorded := shelved.loadRecord apart spells here
  cases found : shelf.table.get? place with
  | none =>
    rw [found] at whether recorded
    exact ⟨whether, shelved.load_none apart spells here found, recorded⟩
  | some holding =>
    rw [found] at whether recorded
    obtain ⟨loaded, load, -, alike⟩ := shelved.load_some apart spells here directory found
    obtain ⟨given, time, same⟩ := (shelved.holding_sound found).described
    refine ⟨whether, ⟨loaded, load, alike⟩, holding.record, recorded, ?_, ?_⟩
    · rw [same]
      simp [Record.update, facts, Record.lookup_set]
    · rw [same]
      simp [Record.update, facts, Record.lookup_set]

/-- Where the same holding of a project is kept, the store answers the same. -/
theorem answersAlike {shelf' : Shelf} {world' : World}
    (directory : ∀ part ∈ world.workingDirectory.parts, ValidName part)
    (shelved' : Shelved env store projects base shelf' world')
    (home : world'.workingDirectory = world.workingDirectory)
    (same : shelf'.table.get? place = shelf.table.get? place) :
    AnswersAlike env store project world world' := by
  have spells' := home ▸ spells
  refine ⟨?_, ?_, ?_⟩
  · rw [shelved'.has apart spells' here, shelved.has apart spells here, same]
  · cases found : shelf.table.get? place with
    | none =>
      rw [shelved.load_none apart spells here found,
        shelved'.load_none apart spells' here (same.trans found)]
    | some holding =>
      obtain ⟨loaded, load, read, -⟩ := shelved.load_some apart spells here directory found
      obtain ⟨loaded', load', read', -⟩ := shelved'.load_some apart spells' here
        (home ▸ directory) (same.trans found)
      rw [home, read] at read'
      rw [load, load', Except.ok.inj read']
  · rw [shelved'.loadRecord apart spells' here, shelved.loadRecord apart spells here, same]

end

/-- Every allowed operation does to the store what it does to the shelf. -/
theorem perform {operation : Operation}
    (allowed : operation.Allowed projects world.workingDirectory) :
    Shelved env store projects base (shelf.apply env world.workingDirectory operation)
        (runFrom world (operation.perform env store)).2 ∧
      (runFrom world (operation.perform env store)).2.workingDirectory =
        world.workingDirectory := by
  cases operation with
  | save tree record =>
    obtain ⟨outcome, after, ran, kept, home⟩ := shelved.save apart allowed
    rw [ran]
    exact ⟨kept, home⟩
  | delete project =>
    obtain ⟨after, ran, kept, home⟩ := shelved.delete apart allowed
    rw [ran]
    exact ⟨kept, home⟩
  | cleanup keep =>
    rw [Operation.perform, shelved.cleanup apart allowed]
    exact ⟨shelved, rfl⟩

end Shelved

/-! ## Histories -/

def worldAfter (env : Environment) (store : SnapshotStore) (world : World)
    (history : List Operation) : World :=
  history.foldl (fun world operation => (runFrom world (operation.perform env store)).2) world

/-- The tree that is held of a place after an operation, if one is. -/
def Operation.latest (workingDirectory place : Path) (held : Option KeptTree) :
    Operation → Option KeptTree
  | .save tree _ => if tree.rootPath = place ∧ tree.toValue.isOk then some tree else held
  | .delete project =>
    if (Path.ofString project).resolve workingDirectory = place then none else held
  | .cleanup _ => held

/-- The tree that the last save or delete of a place saved, if it was a save. -/
def lastSaved (workingDirectory : Path) (history : List Operation) (place : Path) :
    Option KeptTree :=
  history.foldl (Operation.latest workingDirectory place) none

private theorem get?_apply (shelf : Shelf) (workingDirectory place : Path) (operation : Operation) :
    ((shelf.apply env workingDirectory operation).table.get? place).map Holding.tree =
      operation.latest workingDirectory place
        ((shelf.table.get? place).map Holding.tree) := by
  cases operation with
  | save tree record =>
    rw [Shelf.apply, Operation.latest]
    cases written : tree.toValue with
    | error fault => simp [Except.isOk, Except.toBool]
    | ok document =>
      by_cases same : tree.rootPath = place
      · simp [same, Except.isOk, Except.toBool]
      · simp [same, Ne.symm same]
  | delete project =>
    rw [Shelf.apply, Operation.latest]
    by_cases same : (Path.ofString project).resolve workingDirectory = place
    · simp [same]
    · simp [same, Ne.symm same]
  | cleanup keep => rfl

private theorem get?_apply_other {shelf : Shelf} {place : Path} {operation : Operation}
    (other : ¬operation.Concerns workingDirectory place) :
    (shelf.apply env workingDirectory operation).table.get? place = shelf.table.get? place := by
  cases operation with
  | save tree record =>
    rw [Shelf.apply]
    cases tree.toValue with
    | error fault => rfl
    | ok document => simp [Ne.symm (show tree.rootPath ≠ place from other)]
  | delete project =>
    simp [Shelf.apply, Ne.symm (show _ ≠ place from other)]
  | cleanup keep => rfl

private theorem Shelved.histories {base : List String} {shelf : Shelf} {world : World}
    {history : List Operation} (apart : TellsApart env projects)
    (shelved : Shelved env store projects base shelf world)
    (allowed : ∀ operation ∈ history, operation.Allowed projects world.workingDirectory) :
    ∃ shelf', Shelved env store projects base shelf' (worldAfter env store world history) ∧
      (worldAfter env store world history).workingDirectory = world.workingDirectory ∧
      ∀ place, (shelf'.table.get? place).map Holding.tree =
        history.foldl (Operation.latest world.workingDirectory place)
          ((shelf.table.get? place).map Holding.tree) := by
  induction history generalizing shelf world with
  | nil => exact ⟨shelf, shelved, rfl, fun _ => rfl⟩
  | cons operation history ih =>
    obtain ⟨here, later⟩ := List.forall_mem_cons.mp allowed
    obtain ⟨kept, home⟩ := shelved.perform apart here
    obtain ⟨shelf', kept', home', same⟩ := ih kept (by rwa [home])
    refine ⟨shelf', kept', home'.trans home, fun place => ?_⟩
    rw [same place, home, get?_apply, List.foldl_cons]

/-- The folder of the store is empty and has room for the files of the projects. -/
structure Fresh (env : Environment) (store : SnapshotStore) (projects : Path → Prop)
    (world : World) : Prop where
  folder : world.entryAt? store.folder = some (.folder [])
  snapshots : ∀ place, projects place → ∃ names,
    world.LeadsTo (store.snapshotFile env place) names
  records : ∀ place, projects place → ∃ names,
    world.LeadsTo (store.recordFile env place) names

private theorem Fresh.shelved {world : World} (fresh : Fresh env store projects world) :
    ∃ base, Shelved env store projects base ⟨world.clock, .empty⟩ world := by
  obtain ⟨base, leads, found⟩ : ∃ base, world.locate store.folder = .ok base ∧
      world.disk.find? base = some (.folder []) := by
    have stands := fresh.folder
    rw [World.entryAt?, World.lookUp] at stands
    cases located : world.locate store.folder with
    | ok base =>
      rw [located] at stands
      exact ⟨base, rfl, stands⟩
    | error fault =>
      rw [located] at stands
      cases fault with
      | disk fault => cases fault <;> simp at stands
      | _ => simp at stands
  have child : ∀ name names, name ≠ ".." → world.locate (store.folder.child name) = .ok names →
      names = base ++ [name] := by
    intro name names notUp located
    obtain ⟨base', rfl, -, -, way⟩ := World.locate_child notUp located
    have reached := ((World.locate_eq_ok_iff _ _ _).mp leads).2
    rw [Disk.follow_shown way] at reached
    rw [Option.some.inj (Except.ok.inj reached)]
  refine ⟨base, ⟨leads, [], found, rfl⟩, ?_, ?_, rfl, by simp [Table.empty],
    by simp [Table.keys, Table.empty], by simp [Table.empty]⟩
  · intro place here
    obtain ⟨names, located⟩ := fresh.snapshots place here
    exact (child _ names (snapshotName_ne_up _) located) ▸ located
  · intro place here
    obtain ⟨names, located⟩ := fresh.records place here
    exact (child _ names (recordName_ne_up _) located) ▸ located

/-- The store is a map from the places of projects to the trees that were saved of them last.
It answers so under every spelling of a place, whatever is done to other projects, and no
clean-up that keeps a snapshot of each project changes anything.  The list has one record for
each project that is held, the one that is loaded for it, newest first. -/
theorem store_is_map {world : World} {history : List Operation}
    (apart : TellsApart env projects) (fresh : Fresh env store projects world)
    (directory : ∀ part ∈ world.workingDirectory.parts, ValidName part)
    (allowed : ∀ operation ∈ history, operation.Allowed projects world.workingDirectory) :
    let after := worldAfter env store world history
    let saved := lastSaved world.workingDirectory history
    (∀ project place, Spells world.workingDirectory project place → projects place →
      Answers env store after project (saved place)) ∧
    (∀ operation : Operation, operation.Allowed projects world.workingDirectory →
      ∀ project place, Spells world.workingDirectory project place → projects place →
        ¬operation.Concerns world.workingDirectory place →
        AnswersAlike env store project after (runFrom after (operation.perform env store)).2) ∧
    (∀ keep, 1 ≤ keep → runFrom after (store.cleanupBy (.int keep)) = (.ok (), after)) ∧
    ∃ (places : List Path) (recordOf : Path → Value) (records : List Value),
      runFrom after store.list = (.ok records, after) ∧
      places.Nodup ∧ (∀ place, place ∈ places ↔ (saved place).isSome) ∧
      records.Perm (places.map recordOf) ∧ records.Pairwise NoEarlier ∧
      ∀ project place, Spells world.workingDirectory project place → place ∈ places →
        runFrom after (store.loadRecord env project) = (.ok (some (recordOf place)), after) := by
  intro after saved
  obtain ⟨base, start⟩ := fresh.shelved
  obtain ⟨shelf, shelved, home, held⟩ := start.histories apart allowed
  have held' : ∀ place, (shelf.table.get? place).map Holding.tree = saved place := held
  have directory' : ∀ part ∈ after.workingDirectory.parts, ValidName part := by rwa [home]
  rw [← home]
  refine ⟨?_, ?_, fun keep positive => shelved.cleanup apart positive, ?_⟩
  · intro project place spells here
    rw [← held']
    exact shelved.answers apart spells here directory'
  · intro operation allow project place spells here other
    obtain ⟨next, home'⟩ := shelved.perform apart allow
    exact shelved.answersAlike apart spells here directory' next home' (get?_apply_other other)
  · obtain ⟨records, listed, perm, falls⟩ := shelved.list apart
    refine ⟨shelf.table.keys, fun place => ((shelf.table.get? place).map
      fun holding => Value.record holding.record).getD .null, records, listed,
      shelved.sound.single, ?_, ?_, falls, ?_⟩
    · intro place
      rw [← held', Option.isSome_map]
      exact Table.isSome_lookup_iff.symm
    · refine perm.trans (.of_eq ?_)
      rw [Table.keys, List.map_map]
      refine List.map_congr_left fun entry member => ?_
      rw [Function.comp_apply, shelved.sound.get?_iff.mpr member]
      rfl
    · intro project place spells member
      obtain ⟨holding, found⟩ := Option.isSome_iff_exists.mp (Table.isSome_lookup_iff.mpr member)
      have found : shelf.table.get? place = some holding := found
      simp only [found, Option.map_some, Option.getD_some]
      rw [shelved.loadRecord apart spells (shelved.here member), found]
      rfl

/-- Surroundings that name projects by their MD5 digests. -/
def namedByMd5 : Environment where
  digest := Digest.md5
  pathDigest := Digest.md5
  languages := []
  parse := ⟨fun _ _ => default⟩
  encoder := ⟨fun _ _ => .ok []⟩
  gpu := .none
  home := ⟨.root, []⟩
  storage := ⟨.root, []⟩
  sample := ⟨.root, []⟩

/-- An empty folder for snapshots, which is also the working directory. -/
def emptyStoreWorld : World :=
  ⟨.folder [("snap", .folder [])], ⟨.root, ["snap"]⟩, 0, 0, [], 0⟩

def snapStore : SnapshotStore :=
  ⟨⟨.root, ["snap"]⟩⟩

def twoPlaces : List Path :=
  [⟨.root, ["a"]⟩, ⟨.root, ["b"]⟩]

/-- Both projects are saved and deleted, and one of them is saved again after a clean-up. -/
def savedAgain : List Operation :=
  [.save (.regular (.empty ⟨.root, ["a"]⟩)) none,
    .save (.regular (.empty ⟨.root, ["b"]⟩)) (some [("note", .int 1)]),
    .delete "../a", .delete "/b", .cleanup 1, .save (.regular (.empty ⟨.root, ["a"]⟩)) none]

private theorem leadsTo_of_isOk {world : World} {path : Path}
    (located : (world.locate path).isOk = true) : ∃ names, world.LeadsTo path names := by
  cases found : world.locate path with
  | ok names => exact ⟨names, found⟩
  | error fault => simp [found, Except.isOk, Except.toBool] at located

private theorem fresh_emptyStoreWorld :
    Fresh namedByMd5 snapStore (· ∈ twoPlaces) emptyStoreWorld := by
  have snapshots : ∀ place ∈ twoPlaces,
      (emptyStoreWorld.locate (snapshotFile namedByMd5 snapStore place)).isOk = true := by
    decide +kernel
  have records : ∀ place ∈ twoPlaces,
      (emptyStoreWorld.locate (recordFile namedByMd5 snapStore place)).isOk = true := by
    decide +kernel
  exact ⟨rfl, fun place member => leadsTo_of_isOk (snapshots place member),
    fun place member => leadsTo_of_isOk (records place member)⟩

private theorem tellsApart_md5 : TellsApart namedByMd5 (· ∈ twoPlaces) := by
  have apart : ∀ place ∈ twoPlaces, ∀ other ∈ twoPlaces,
      projectId namedByMd5 place = projectId namedByMd5 other → place = other := by
    decide +kernel
  exact ⟨fun place _ => Digest.isHex_md5 _, fun place other one two => apart place one other two⟩

private theorem allowed_savedAgain : ∀ operation ∈ savedAgain,
    operation.Allowed (· ∈ twoPlaces) emptyStoreWorld.workingDirectory := by
  have made : ∀ name, ValidName name → KeptTree.Made emptyStoreWorld.workingDirectory
      (.regular (.empty ⟨.root, [name]⟩)) := fun name valid =>
    .unbuilt rfl (by simpa using valid)
  have first := made "a" (by decide)
  have second := made "b" (by decide)
  simp only [savedAgain, List.forall_mem_cons, List.not_mem_nil, false_imp_iff, implies_true,
    and_true]
  refine ⟨⟨first, ?_⟩, ⟨second, ?_⟩, ⟨rfl, ?_⟩, ⟨rfl, ?_⟩, Int.le_refl 1, first, ?_⟩
  · decide
  · decide
  · decide
  · decide
  · decide

/-- The project that was saved again is held under every spelling, and the other is not. -/
theorem store_is_map_savedAgain :
    Answers namedByMd5 snapStore (worldAfter namedByMd5 snapStore emptyStoreWorld savedAgain)
        "../a" (some (.regular (.empty ⟨.root, ["a"]⟩))) ∧
      Answers namedByMd5 snapStore (worldAfter namedByMd5 snapStore emptyStoreWorld savedAgain)
        "/snap/../b" none := by
  obtain ⟨answers, -⟩ := store_is_map tellsApart_md5 fresh_emptyStoreWorld (by decide)
    allowed_savedAgain
  constructor
  · exact answers "../a" ⟨.root, ["a"]⟩ ⟨rfl, by decide⟩ (by decide)
  · exact answers "/snap/../b" ⟨.root, ["b"]⟩ ⟨rfl, by decide⟩ (by decide)

end SnapshotStore

end CodeAtlas
