import CodeAtlas.Indexing.Run
import CodeAtlas.Proofs.Tracking.Comparison
import CodeAtlas.Proofs.Tracking.Snapshots

/-!
# What the checks against a snapshot compare

With a snapshot, the quick check compares two root digests and the full check compares the
files.  Root digests tell the outline of a project, where digests do not collide and the
bytes of files are told from those of folders.
-/

namespace CodeAtlas

/-- A world with valid names: in all folders of the disk and in the working directory. -/
structure World.WellFormed (world : World) : Prop where
  disk : world.disk.WellFormed
  workingDirectory : ∀ part ∈ world.workingDirectory.parts, ValidName part

theorem World.WellFormed.lookUp {world : World} (wellFormed : world.WellFormed)
    {path : Path} {files : Option (FileTree Stored)} (found : world.lookUp path = .ok files) :
    ∀ tree ∈ files, tree.WellFormed := by
  intro tree same
  obtain rfl := Option.mem_def.mp same
  unfold World.lookUp at found
  split at found
  · exact wellFormed.disk.below (Except.ok.inj found)
  · cases found
  · cases Except.ok.inj found

theorem World.Keeps.of_lookUp {world other : World} {path : Path} {value : Value}
    (keeps : world.Keeps path (some value))
    (same : other.lookUp path = world.lookUp path) : other.Keeps path (some value) := by
  obtain ⟨modified, found⟩ := keeps.lookUp
  rw [found] at same
  unfold World.lookUp at same
  split at same
  · rename_i names located
    exact ⟨names, located, modified, Except.ok.inj same⟩
  · cases same
  · cases Except.ok.inj same

theorem Value.agrees_ofText? (first second : Option String) :
    (Value.ofText? first).agrees (.ofText? second) = (first == second) := by
  cases first with
  | none => cases second <;> simp [Value.ofText?, Value.agrees]
  | some first => cases second <;> simp [Value.ofText?, Value.agrees]

theorem trackedProject_wellFormed {rules : IgnoreRules} {place : Path}
    {files : Option (FileTree Stored)} (wellFormed : ∀ tree ∈ files, tree.WellFormed) :
    ∀ tree ∈ trackedProject rules place files, tree.WellFormed := by
  unfold trackedProject
  split
  · intro tree none
    cases none
  · exact wellFormed

theorem DigestTree.rootDigest_ofProject {digest : DigestFunction} {rules : IgnoreRules}
    {place : Path} {project : Option (FileTree Stored)} {listing : Listing} :
    (DigestTree.ofProject digest rules place project listing).rootDigest =
      project.map (fun tree => digest (digestedBytes digest rules place.name tree)) := by
  cases project with
  | none => rfl
  | some tree => exact digest_ofTree [] place.name tree

namespace SnapshotStore

variable {env : Environment} {store : SnapshotStore} {project : String} {world : World}
  {tree : DigestTree} {taken : String} {files : Option (FileTree Stored)}

theorem runFrom_presentTree (env : Environment) (store : SnapshotStore)
    (noNull : (Path.ofString project).hasNull = false)
    (found : world.lookUp ((Path.ofString project).resolve world.workingDirectory) =
      .ok files) :
    runFrom world (store.presentTree env project) =
      (.ok (.ofFiles env.digest (store.rulesFor project)
        ((Path.ofString project).resolve world.workingDirectory) files), world) := by
  simp [presentTree, World.runFrom_resolve noNull, DigestTree.runFrom_build _ _ found]

section Kept

variable (noNull : (Path.ofString project).hasNull = false)
  (same : tree.rootPath = (Path.ofString project).resolve world.workingDirectory)
  (valid : ∀ part ∈ tree.rootPath.parts, ValidName part)
  (keeps : world.Keeps (store.snapshotFile env tree.rootPath)
    (some (treeDocument taken tree.toValue)))
  (found : world.lookUp tree.rootPath = .ok files)

include noNull same valid keeps found

theorem hasChanged_of_keeps :
    runFrom world (store.hasChanged env project) =
      (.ok (tree.rootDigest != (DigestTree.ofFiles env.digest (store.rulesFor project)
        tree.rootPath files).rootDigest), world) := by
  have present := runFrom_presentTree env store noNull (same ▸ found)
  rw [← same] at present
  simp [hasChanged, load_of_keeps noNull same valid keeps, present, KeptTree.rootDigest,
    Value.agrees_ofText?, DigestTree.rootDigest, bne]

theorem changesSince_of_keeps :
    runFrom world (store.changesSince env project) =
      (.ok (.ofChanges (Changes.between ⟨tree.rootPath, tree.root, .folderFirst⟩
          (.ofFiles env.digest (store.rulesFor project) tree.rootPath files)),
        .ofFiles env.digest (store.rulesFor project) tree.rootPath files), world) := by
  have present := runFrom_presentTree env store noNull (same ▸ found)
  rw [← same] at present
  simp [changesSince, load_of_keeps noNull same valid keeps, present, KeptTree.changesTo]

/-- A snapshot that is not too old makes a project stale exactly by the quick check. -/
theorem isStale_of_keeps (root : String) {age : Int} {maxAge : Value}
    (known : (runFrom world (store.age env project)).1 = .ok (some age))
    (fresh : Indexer.isTooOld age maxAge = .ok false) :
    (runFrom world ((⟨env, store, root⟩ : Indexer).isStale project maxAge)).1 =
      (runFrom world (store.hasChanged env project)).1 := by
  have has : runFrom world (store.has env project) = (.ok true, world) := by
    simp [has, World.runFrom_resolve noNull, ← same, keeps.exists?]
  have aged : runFrom world (store.age env project) = (.ok (some age), world.tick) := by
    obtain ⟨modified, stands⟩ := keeps.lookUp
    have looked : runFrom world (store.age env project) =
        (.ok (some (world.now - modified)), world.tick) := by
      simp [SnapshotStore.age, World.runFrom_resolve noNull, ← same, World.find, stands,
        World.runFrom_readClock, World.tick]
    rw [looked] at known ⊢
    exact Prod.ext known rfl
  have changed := hasChanged_of_keeps noNull same valid keeps found
  have later := @hasChanged_of_keeps env store project world.tick tree taken files noNull same
    valid keeps found
  simp [Indexer.isStale, has, aged, fresh, changed, later]

end Kept

end SnapshotStore

section Projects

variable (digest : DigestFunction) (rules : IgnoreRules) (place : Path)
  (old new : Option (FileTree Stored))

/-- Different byte strings that are digested for two states have different digests. -/
def NoCollision : Prop :=
  ∀ tree ∈ old, ∀ tree' ∈ new, ∀ names last entry names' last' entry',
    Tracks rules place.name tree names last entry →
    Tracks rules place.name tree' names' last' entry' →
    digest (digestedBytes digest rules last entry) =
      digest (digestedBytes digest rules last' entry') →
    digestedBytes digest rules last entry = digestedBytes digest rules last' entry'

/-- The same bytes are digested only for files, or for folders of one name. -/
def KindsApart : Prop :=
  ∀ tree ∈ old, ∀ tree' ∈ new, ∀ names last entry names' last' entry',
    Tracks rules place.name tree names last entry →
    Tracks rules place.name tree' names' last' entry' →
    digestedBytes digest rules last entry = digestedBytes digest rules last' entry' →
    SameKind last entry last' entry'

/-- Two states of a project have the same outline, or nothing is tracked in both. -/
def AlikeProjects : Prop :=
  match old, new with
  | none, none => True
  | some tree, some tree' => Alike rules place.name tree place.name tree'
  | _, _ => False

/-- A content that is in both states is in no more than one place of both. -/
def InOnePlace : Prop :=
  ∀ names names' bytes, trackedContent rules old names = some bytes →
    trackedContent rules new names' = some bytes → names = names'

/-- The bytes that are digested for the whole project. -/
def projectBytes (project : Option (FileTree Stored)) : Option ByteArray :=
  project.map (digestedBytes digest rules place.name)

end Projects

section Projects

variable {digest : DigestFunction} {rules : IgnoreRules} {place : Path}
  {old new : Option (FileTree Stored)}

theorem NoCollision.rootDigest_eq_iff (noCollision : NoCollision digest rules place old new)
    (listing listing' : Listing) :
    (DigestTree.ofProject digest rules place old listing).rootDigest =
        (DigestTree.ofProject digest rules place new listing').rootDigest ↔
      projectBytes digest rules place old = projectBytes digest rules place new := by
  rw [DigestTree.rootDigest_ofProject, DigestTree.rootDigest_ofProject]
  cases old with
  | none => cases new <;> simp [projectBytes]
  | some tree =>
    cases new with
    | none => simp [projectBytes]
    | some tree' =>
      have told := noCollision tree rfl tree' rfl [] _ _ [] _ _ (.here _ _) (.here _ _)
      simp only [projectBytes, Option.map_some, Option.some.injEq]
      exact ⟨told, congrArg digest⟩

theorem NoCollision.contents (noCollision : NoCollision digest rules place old new)
    (names names' : List String) (bytes bytes' : ByteArray)
    (content : trackedContent rules old names = some bytes)
    (content' : trackedContent rules new names' = some bytes')
    (same : digest bytes = digest bytes') : bytes = bytes' := by
  obtain ⟨tree, stored, rfl, found, tracked, rfl⟩ := trackedContent_eq_some.mp content
  obtain ⟨tree', stored', rfl, found', tracked', rfl⟩ := trackedContent_eq_some.mp content'
  have told := noCollision tree rfl tree' rfl _ _ _ _ _ _
    (.of_find? place.name tree found tracked) (.of_find? place.name tree' found' tracked')
  rw [digestedBytes, digestedBytes] at told
  exact told same

/-- Where kinds are told apart, a project has the same bytes exactly if it has the same
outline. -/
theorem projectBytes_eq_iff {width : Nat} (positive : 0 < width)
    (fixed : ∀ bytes, (digest bytes).length = width)
    (noCollision : NoCollision digest rules place old new)
    (apart : KindsApart digest rules place old new) :
    projectBytes digest rules place old = projectBytes digest rules place new ↔
      AlikeProjects rules place old new := by
  cases old with
  | none => cases new <;> simp [projectBytes, AlikeProjects]
  | some tree =>
    cases new with
    | none => simp [projectBytes, AlikeProjects]
    | some tree' =>
      have separated : Separated digest rules place.name tree place.name tree' := by
        intro names last entry names' last' entry' tracks tracks' same
        have bytes := noCollision tree rfl tree' rfl _ _ _ _ _ _ tracks tracks' same
        exact ⟨bytes, apart tree rfl tree' rfl _ _ _ _ _ _ tracks tracks' bytes⟩
      simp only [projectBytes, Option.map_some, Option.some.injEq, AlikeProjects]
      constructor
      · intro same
        exact alike_of_digest_eq positive fixed tree tree' separated
          (congrArg digest same)
      · exact Alike.digestedBytes_eq

theorem holdsContent_iff_exists {tree : FileTree Stored} (wellFormed : tree.WellFormed)
    (name : String) {bytes : ByteArray} :
    HoldsContent rules name tree bytes ↔
      ∃ names, trackedContent rules (some tree) names = some bytes := by
  constructor
  · rintro ⟨names, last, stored, tracks, rfl⟩
    obtain ⟨found, tracked, -⟩ := tracks.find?_eq wellFormed
    exact ⟨names, trackedContent_eq_some.mpr ⟨tree, stored, rfl, found, tracked, rfl⟩⟩
  · rintro ⟨names, content⟩
    obtain ⟨_, stored, known, found, tracked, rfl⟩ := trackedContent_eq_some.mp content
    obtain rfl := Option.some.inj known
    exact ⟨names, _, stored, .of_find? name tree found tracked, rfl⟩

/-- States of the same outline have the same files, if no content is in two places. -/
theorem AlikeProjects.trackedContent_eq (alike : AlikeProjects rules place old new)
    (wellFormed : ∀ tree ∈ old, tree.WellFormed) (wellFormed' : ∀ tree ∈ new, tree.WellFormed)
    (onePlace : InOnePlace rules old new) (names : List String) :
    trackedContent rules old names = trackedContent rules new names := by
  cases old with
  | none =>
    cases new with
    | none => rfl
    | some tree' => exact alike.elim
  | some tree =>
    cases new with
    | none => exact alike.elim
    | some tree' =>
      have held : ∀ bytes, (∃ names, trackedContent rules (some tree) names = some bytes) ↔
          ∃ names, trackedContent rules (some tree') names = some bytes := by
        intro bytes
        rw [← holdsContent_iff_exists (wellFormed tree rfl) place.name,
          ← holdsContent_iff_exists (wellFormed' tree' rfl) place.name]
        exact Alike.holdsContent_iff alike
      apply Option.ext
      intro bytes
      constructor
      · intro content
        obtain ⟨names', content'⟩ := (held bytes).mp ⟨names, content⟩
        rwa [onePlace names names' bytes content content']
      · intro content
        obtain ⟨names', content'⟩ := (held bytes).mpr ⟨names, content⟩
        rwa [← onePlace names' names bytes content' content]

end Projects

end CodeAtlas
