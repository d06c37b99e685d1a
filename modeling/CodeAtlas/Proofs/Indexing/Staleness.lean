import CodeAtlas.Proofs.Indexing.Rerun
import CodeAtlas.Proofs.Tracking.Edits
import CodeAtlas.Proofs.Tracking.Holdings

/-!
# When a project that was refreshed is stale again

A project is stale by its root digest, which tells the folders, but a run keeps a new snapshot
only if some file changed.  So a project in which nothing but folders changed is refreshed again
and again, and stays stale.
-/

namespace CodeAtlas

theorem World.locate_of_found {world : World} {path : Path} {entry : FileTree Stored}
    (found : world.lookUp path = .ok (some entry)) : ∃ names, world.LeadsTo path names := by
  unfold lookUp at found
  split at found
  · rename_i names located
    exact ⟨names, located⟩
  · cases found
  · cases found

/-- Where a snapshot is kept and the tree of the project is built, their roots are compared. -/
theorem SnapshotStore.hasChanged_of_build {env : Environment} {store : SnapshotStore}
    {project : String} {place : Path} {world : World} {tree new : DigestTree} {taken : String}
    (noNull : (Path.ofString project).hasNull = false)
    (here : (Path.ofString project).resolve world.workingDirectory = place)
    (valid : ∀ part ∈ place.parts, ValidName part) (rooted : tree.rootPath = place)
    (keeps : world.Keeps (store.snapshotFile env place)
      (some (treeDocument taken tree.toValue)))
    (built : runFrom world (DigestTree.build env.digest (store.rulesFor project) place) =
      (.ok new, world)) :
    runFrom world (store.hasChanged env project) =
      (.ok (tree.rootDigest != new.rootDigest), world) := by
  subst rooted
  simp [hasChanged, load_of_keeps noNull here.symm valid keeps, presentTree,
    World.runFrom_resolve noNull, here, built, KeptTree.rootDigest, Value.agrees_ofText?,
    DigestTree.rootDigest, bne]

namespace Indexer

open IndexState

variable {indexer : Indexer} {path : String} {place : Path} {world later : World}
  {start after : IndexState} {maxAge name : Value} {result : RunResult}

/-- The project, its snapshot and the working directory are as they were. -/
structure Unmoved (indexer : Indexer) (place : Path) (world later : World) : Prop where
  directory : later.workingDirectory = world.workingDirectory
  tree : later.lookUp place = world.lookUp place
  snapshot : later.lookUp (indexer.store.snapshotFile indexer.env place) =
    world.lookUp (indexer.store.snapshotFile indexer.env place)

/-- The root digest differs from that of the snapshot, but no file does. -/
structure OnlyRootDiffers (indexer : Indexer) (path : String) (place : Path) (world : World) :
    Prop where
  has : (runFrom world (indexer.store.has indexer.env path)).1 = .ok true
  root : (runFrom world (indexer.store.hasChanged indexer.env path)).1 = .ok true
  files : ∃ changes tree,
    (runFrom world (indexer.store.changesSince indexer.env place.toString)).1 =
      .ok (changes, tree) ∧ changes.hasChanges = false

theorem Unmoved.of_still (still : world.Still later) : indexer.Unmoved place world later where
  directory := still.workingDirectory
  tree := still.lookUp place
  snapshot := still.lookUp _

theorem Unmoved.trans {last : World} (first : indexer.Unmoved place world later)
    (second : indexer.Unmoved place later last) : indexer.Unmoved place world last where
  directory := second.directory.trans first.directory
  tree := second.tree.trans first.tree
  snapshot := second.snapshot.trans first.snapshot

section Place

variable (noNull : (Path.ofString path).hasNull = false)
  (here : (Path.ofString path).resolve world.workingDirectory = place)

include noNull here

theorem Unmoved.has (unmoved : indexer.Unmoved place world later) :
    (runFrom later (indexer.store.has indexer.env path)).1 =
      (runFrom world (indexer.store.has indexer.env path)).1 :=
  (ReadsAlike.has noNull here (unmoved.directory ▸ here) unmoved.snapshot).outcome

theorem Unmoved.hasChanged (unmoved : indexer.Unmoved place world later) :
    (runFrom later (indexer.store.hasChanged indexer.env path)).1 =
      (runFrom world (indexer.store.hasChanged indexer.env path)).1 :=
  (ReadsAlike.hasChanged noNull here (unmoved.directory ▸ here) unmoved.snapshot
    unmoved.tree).outcome

theorem Unmoved.changesSince (unmoved : indexer.Unmoved place world later) :
    (runFrom later (indexer.store.changesSince indexer.env path)).1 =
      (runFrom world (indexer.store.changesSince indexer.env path)).1 :=
  (ReadsAlike.changesSince noNull here (unmoved.directory ▸ here) unmoved.snapshot
    unmoved.tree).outcome

theorem has_eq_true_iff : (runFrom world (indexer.store.has indexer.env path)).1 = .ok true ↔
    ∃ entry, world.lookUp (indexer.store.snapshotFile indexer.env place) = .ok (some entry) := by
  cases found : world.lookUp (indexer.store.snapshotFile indexer.env place) with
  | error fault =>
    simp [SnapshotStore.has, World.runFrom_resolve noNull, here, World.exists?, World.find, found]
  | ok entry =>
    cases entry <;>
      simp [SnapshotStore.has, World.runFrom_resolve noNull, here, World.exists?, World.find,
        found]

theorem age_of_has (has : (runFrom world (indexer.store.has indexer.env path)).1 = .ok true) :
    ∃ age, runFrom world (indexer.store.age indexer.env path) = (.ok (some age), world.tick) := by
  obtain ⟨entry, found⟩ := (has_eq_true_iff noNull here).mp has
  cases entry with
  | file stored =>
    refine ⟨world.now - stored.modified, ?_⟩
    simp [SnapshotStore.age, World.runFrom_resolve noNull, here, World.find, found,
      World.runFrom_readClock, World.tick]
  | folder entries =>
    refine ⟨1, ?_⟩
    simp [SnapshotStore.age, World.runFrom_resolve noNull, here, World.find, found,
      World.runFrom_readClock, World.tick]

/-- A snapshot that cannot be read counts as none. -/
theorem exists_load (has : (runFrom world (indexer.store.has indexer.env path)).1 = .ok true) :
    ∃ old printed, runFrom world (indexer.store.load indexer.env path) =
      (.ok old, { world with printed }) := by
  obtain ⟨entry, found⟩ := (has_eq_true_iff noNull here).mp has
  obtain ⟨_, printed, -, ran, -⟩ := @ReadsAlike.load world world indexer.env
    indexer.store path place noNull here here rfl
  rw [runFrom_map] at ran
  rcases loaded : runFrom world (indexer.store.load indexer.env path) with ⟨fault | old, after⟩
  · simp only [SnapshotStore.load, runFrom_bind, World.runFrom_resolve noNull, here, andThen_ok,
      World.exists?, World.find, found, runFrom_get, runFrom_orFail, runFrom_pure,
      Option.isSome_some, Bool.not_true, Bool.false_eq_true, if_false, runFrom_tryCatch] at loaded
    split at loaded
    · cases loaded
    · cases loaded
  · rw [loaded] at ran
    obtain rfl : after = { world with printed } := congrArg Prod.snd ran
    exact ⟨old, printed, rfl⟩

/-- A project with a snapshot that is not too old is stale by its root. -/
theorem isStale_of_has (has : (runFrom world (indexer.store.has indexer.env path)).1 = .ok true)
    (fresh : ∀ age, (runFrom world (indexer.store.age indexer.env path)).1 = .ok (some age) →
      isTooOld age maxAge = .ok false) :
    (runFrom world (indexer.isStale path maxAge)).1 =
      (runFrom world (indexer.store.hasChanged indexer.env path)).1 := by
  have asked : runFrom world (indexer.store.has indexer.env path) = (.ok true, world) :=
    Prod.ext has (indexer.store.has_snd indexer.env path world)
  obtain ⟨age, aged⟩ := age_of_has noNull here has
  have young := fresh age (congrArg Prod.fst aged)
  have ticked : indexer.Unmoved place world world.tick := .of_still ⟨rfl, rfl⟩
  rw [← ticked.hasChanged noNull here]
  simp [isStale, asked, aged, young]

/-- A project that is not stale has a snapshot, and its root is the same. -/
theorem of_isStale_false (ran : runFrom world (indexer.isStale path maxAge) = (.ok false, later)) :
    (runFrom world (indexer.store.has indexer.env path)).1 = .ok true ∧
      (runFrom world (indexer.store.hasChanged indexer.env path)).1 = .ok false := by
  have same := indexer.store.has_snd indexer.env path world
  rcases asked : runFrom world (indexer.store.has indexer.env path) with ⟨fault | found, between⟩
  · simp [isStale, asked] at ran
  · obtain rfl : between = world := by rw [← same, asked]
    cases found with
    | false => simp [isStale, asked] at ran
    | true =>
      obtain ⟨age, aged⟩ := age_of_has noNull here (congrArg Prod.fst asked)
      have ticked : indexer.Unmoved place between between.tick := .of_still ⟨rfl, rfl⟩
      rw [← ticked.hasChanged noNull here]
      cases old : isTooOld age maxAge with
      | error fault => simp [isStale, asked, aged, old] at ran
      | ok old' =>
        cases old' with
        | true => simp [isStale, asked, aged, old] at ran
        | false =>
          have compared : runFrom between.tick
              (indexer.store.hasChanged indexer.env path) = (.ok false, later) := by
            simpa [isStale, asked, aged, old] using ran
          exact ⟨rfl, congrArg Prod.fst compared⟩

end Place

/-- To refresh a project is to look whether it is stale, and to run if it is. -/
theorem refresh_cases
    (ran : runFrom start (indexer.refresh path maxAge name) = (.ok result, after)) :
    ∃ world, start.world.Still world ∧
      (runFrom start.world (indexer.isStale path maxAge) = (.ok false, world) ∧
          after = { start with world } ∨
        runFrom { start with world } (indexer.run path name false) = (.ok result, after)) := by
  obtain ⟨stale, between, first, rest⟩ := runFrom_bind_ok ran
  obtain ⟨world, looked, rfl⟩ := runFrom_lift_ok first
  have still := (indexer.still_isStale path maxAge).after (.refl start.world) looked
  refine ⟨world, still, ?_⟩
  cases stale with
  | false => exact .inl ⟨looked, (congrArg Prod.snd rest).symm⟩
  | true => exact .inr rest

/-- The tree of the project can be built: it can be looked at, or is left out. -/
def Buildable (place : Path) (world : World) : Prop :=
  (∃ files, world.lookUp place = .ok files) ∨ IgnoreRules.standard.ignores place.name = true

namespace Buildable

variable {rules : IgnoreRules}

theorem of_build {digest : DigestFunction} {tree : DigestTree}
    (alike : rules.ignores place.name = IgnoreRules.standard.ignores place.name)
    (built : runFrom world (DigestTree.build digest rules place) = (.ok tree, later)) :
    Buildable place world := by
  cases found : world.lookUp place with
  | ok files => exact .inl ⟨files, found⟩
  | error fault =>
    refine .inr (alike ▸ ?_)
    by_contra notIgnored
    simp [DigestTree.build, notIgnored, World.find, found] at built

theorem build (buildable : Buildable place world)
    (alike : rules.ignores place.name = IgnoreRules.standard.ignores place.name)
    (digest : DigestFunction) :
    runFrom world (DigestTree.build digest rules place) =
      (.ok (.ofFiles digest rules place (world.entryAt? place)), world) := by
  cases found : world.lookUp place with
  | ok files => rw [DigestTree.runFrom_build digest rules found, World.entryAt?, found]
  | error fault =>
    rcases buildable with ⟨files, found'⟩ | ignored
    · cases found.symm.trans found'
    · rw [World.entryAt?, found]
      simp [DigestTree.build, alike, ignored]

theorem sameApart {spots : List String → Prop} (buildable : Buildable place world)
    (same : World.SameApart spots world later) : Buildable place later := by
  refine buildable.imp ?_ id
  rintro ⟨files, found⟩
  exact same.lookUp_ok found

theorem of_lookUp (buildable : Buildable place world)
    (same : later.lookUp place = world.lookUp place) : Buildable place later := by
  refine buildable.imp ?_ id
  rintro ⟨files, found⟩
  exact ⟨files, same.trans found⟩

end Buildable

/-- The rules leave out the same names as the standard ones. -/
def IsStandard (rules : IgnoreRules) : Prop :=
  ∀ name, ValidName name → rules.ignores name = IgnoreRules.standard.ignores name

/-- Where the snapshots are kept outside of the project, there are no other rules for it. -/
theorem isStandard_rulesFor (here : (Path.ofString path).resolve world.workingDirectory = place)
    (outside : ∀ names, indexer.store.Spots indexer.env place world names →
      ¬ place.parts <+: names)
    (has : ∃ entry, world.lookUp (indexer.store.snapshotFile indexer.env place) =
      .ok (some entry)) :
    IsStandard (indexer.store.rulesFor path) := by
  obtain ⟨entry, found⟩ := has
  obtain ⟨located, leads⟩ := World.locate_of_found found
  intro name valid
  exact SnapshotStore.ignores_rulesFor here leads (outside located (.inl leads)) valid

section Place

variable (noNull : (Path.ofString path).hasNull = false)
  (here : (Path.ofString path).resolve world.workingDirectory = place)
  (buildable : Buildable place world)

include noNull here buildable

/-- The roots can be compared where there is a snapshot, whatever it holds. -/
theorem exists_hasChanged (alike : (indexer.store.rulesFor path).ignores place.name =
      IgnoreRules.standard.ignores place.name)
    (has : (runFrom world (indexer.store.has indexer.env path)).1 = .ok true) :
    ∃ changed, (runFrom world (indexer.store.hasChanged indexer.env path)).1 = .ok changed := by
  obtain ⟨old, printed, loaded⟩ := exists_load noNull here has
  have built := @Buildable.build place { world with printed } _ buildable alike indexer.env.digest
  have present : runFrom { world with printed } (indexer.store.presentTree indexer.env path) =
      (.ok (.ofFiles indexer.env.digest (indexer.store.rulesFor path) place
        (World.entryAt? { world with printed } place)), { world with printed }) := by
    rw [SnapshotStore.presentTree, runFrom_bind, World.runFrom_resolve noNull, andThen_ok, here]
    exact built
  cases old with
  | none => exact ⟨true, by simp [SnapshotStore.hasChanged, loaded]⟩
  | some old =>
    rw [SnapshotStore.hasChanged, runFrom_then loaded]
    exact ⟨_, by rw [runFrom_then present]; rfl⟩

end Place

/-- The project is stale later on if only its root differed at the start, and otherwise it is
not, unless files of the index are inside of it. -/
def StaleByRoot (indexer : Indexer) (path : String) (place : Path) (start : IndexState)
    (later : World) (maxAge : Value) : Prop :=
  ∃ stale, (runFrom later (indexer.isStale path maxAge)).1 = .ok stale ∧
    (indexer.OnlyRootDiffers path place start.world → stale = true) ∧
    (stale = true → indexer.OnlyRootDiffers path place start.world ∨
      ∃ names, start.Spots names ∧ place.parts <+: names)

section Settling

variable (noNull : (Path.ofString path).hasNull = false)
  (here : (Path.ofString path).resolve start.world.workingDirectory = place)
  (fresh : ∀ age, (runFrom later (indexer.store.age indexer.env path)).1 = .ok (some age) →
    isTooOld age maxAge = .ok false)

include noNull here fresh

theorem StaleByRoot.of_unmoved {changed : Bool} (unmoved : indexer.Unmoved place start.world later)
    (has : (runFrom start.world (indexer.store.has indexer.env path)).1 = .ok true)
    (compared : (runFrom start.world (indexer.store.hasChanged indexer.env path)).1 = .ok changed)
    (files : changed = true → ∃ changes tree,
      (runFrom start.world (indexer.store.changesSince indexer.env place.toString)).1 =
        .ok (changes, tree) ∧ changes.hasChanges = false) :
    indexer.StaleByRoot path place start later maxAge := by
  have has' := (unmoved.has noNull here).trans has
  have here' : (Path.ofString path).resolve later.workingDirectory = place := by
    rw [unmoved.directory, here]
  refine ⟨changed, ?_, ?_, ?_⟩
  · rw [isStale_of_has noNull here' has' fresh, unmoved.hasChanged noNull here, compared]
  · intro differs
    exact Except.ok.inj (compared.symm.trans differs.root)
  · rintro rfl
    exact .inl ⟨has, compared, files rfl⟩

theorem StaleByRoot.of_saved {rules : IgnoreRules} {files : Option (FileTree Stored)}
    {taken : String} {spots : List String → Prop} (wellFormed : start.world.WellFormed)
    (valid : ∀ part ∈ place.parts, ValidName part)
    (outside : ∀ names, indexer.store.Spots indexer.env place start.world names →
      ¬ place.parts <+: names)
    (buildable : Buildable place start.world)
    (same : World.SameApart spots start.world after.world)
    (kept : after.world.Keeps (indexer.store.snapshotFile indexer.env place)
      (some (SnapshotStore.treeDocument taken
        (DigestTree.ofFiles indexer.env.digest rules place files).toValue)))
    (standard : IsStandard rules)
    (untouched : (∀ names, start.Spots names → ¬ place.parts <+: names) →
      files = start.world.entryAt? place ∧
        after.world.lookUp place = start.world.lookUp place)
    (unmoved : indexer.Unmoved place after.world later)
    (other : ¬ indexer.OnlyRootDiffers path place start.world) :
    indexer.StaleByRoot path place start later maxAge := by
  have here' : (Path.ofString path).resolve after.world.workingDirectory = place := by
    rw [same.workingDirectory, here]
  have here'' : (Path.ofString path).resolve later.workingDirectory = place := by
    rw [unmoved.directory, here']
  obtain ⟨modified, stands⟩ := kept.lookUp
  obtain ⟨located, leads, -⟩ := id kept
  have notInside := outside located (.inl ((same.locate_iff _ located).mp leads))
  have named := SnapshotStore.validName_of_outside valid notInside
  have standard' : IsStandard (indexer.store.rulesFor path) :=
    fun name validName => SnapshotStore.ignores_rulesFor here' leads notInside validName
  have kept' := kept.of_lookUp unmoved.snapshot
  have built := ((buildable.sameApart same).of_lookUp unmoved.tree).build
    (standard' _ named) indexer.env.digest
  have compared := SnapshotStore.hasChanged_of_build noNull here'' valid rfl kept' built
  have has : (runFrom later (indexer.store.has indexer.env path)).1 = .ok true :=
    (has_eq_true_iff noNull here'').mpr ⟨_, unmoved.snapshot.trans stands⟩
  refine ⟨_, (isStale_of_has noNull here'' has fresh).trans (congrArg Prod.fst compared), ?_, ?_⟩
  · intro differs
    exact absurd differs other
  · intro stale
    by_contra neither
    obtain ⟨-, apart⟩ := not_or.mp neither
    obtain ⟨rfl, tree⟩ := untouched (fun names spot inside => apart ⟨names, spot, inside⟩)
    have entry : later.entryAt? place = start.world.entryAt? place := by
      rw [World.entryAt?, World.entryAt?, unmoved.tree, tree]
    have alike : ∀ name, ValidName name →
        rules.ignores name = (indexer.store.rulesFor path).ignores name :=
      fun name validName => (standard name validName).trans (standard' name validName).symm
    rw [entry, DigestTree.ofFiles_of_rules alike named wellFormed.entryAt?] at stale
    simp at stale

end Settling

theorem OnlyRootDiffers.of_unmoved (noNull : (Path.ofString path).hasNull = false)
    (here : (Path.ofString path).resolve world.workingDirectory = place) (isPlace : place.IsPlace)
    (unmoved : indexer.Unmoved place world later) :
    indexer.OnlyRootDiffers path place later ↔ indexer.OnlyRootDiffers path place world := by
  have noNull' := Path.hasNull_ofString_toString isPlace
  have here' := Path.resolve_toString isPlace world.workingDirectory
  constructor
  · rintro ⟨has, root, files⟩
    rw [unmoved.has noNull here] at has
    rw [unmoved.hasChanged noNull here] at root
    rw [unmoved.changesSince noNull' here'] at files
    exact ⟨has, root, files⟩
  · rintro ⟨has, root, files⟩
    rw [← unmoved.has noNull here] at has
    rw [← unmoved.hasChanged noNull here] at root
    rw [← unmoved.changesSince noNull' here'] at files
    exact ⟨has, root, files⟩

section Runs

variable (wellFormed : start.world.WellFormed)
  (resolved : runFrom start.world (World.resolve path) = (.ok place, start.world))
  (outside : ∀ names, indexer.store.Spots indexer.env place start.world names →
    ¬ place.parts <+: names)
  (unmoved : indexer.Unmoved place after.world later)
  (fresh : ∀ age, (runFrom later (indexer.store.age indexer.env path)).1 = .ok (some age) →
    isTooOld age maxAge = .ok false)

include wellFormed resolved outside unmoved fresh

theorem fullRun_settles {project : Value}
    (none : (runFrom start.world (indexer.store.has indexer.env place.toString)).1 = .ok false)
    (ran : runFrom start (indexer.fullRun place project) = (.ok result, after)) :
    indexer.StaleByRoot path place start later maxAge := by
  obtain ⟨noNull, here⟩ := World.eq_of_resolve resolved
  have isPlace := wellFormed.resolve resolved
  obtain ⟨cleared, taken, follows, built, kept⟩ := fullRun_saves ran
  have outlived := @fullRun_outlived indexer place project start
  rw [ran] at outlived
  have buildable : Buildable place start.world :=
    (Buildable.of_build rfl built).sameApart follows.world.symm
  refine .of_saved noNull here fresh wellFormed isPlace.valid outside buildable outlived.world kept
    (fun _ _ => rfl) (fun index => ?_) unmoved (fun differs => ?_)
  · have apart : indexer.Outside place start := fun names spot => spot.elim (index names)
      (outside names)
    have same := apart.lookUp_eq isPlace (fun _ spot => .inl spot) follows.world
    refine ⟨by rw [World.entryAt?, World.entryAt?, same], ?_⟩
    exact apart.lookUp_eq isPlace (fun _ spot => spot) outlived.world
  · have found := (has_eq_true_iff noNull here).mp differs.has
    have has := (has_eq_true_iff (Path.hasNull_ofString_toString isPlace)
      (Path.resolve_toString isPlace _)).mpr found
    cases none.symm.trans has

/-- A run on changes keeps the tree of the project, or finds no changes. -/
theorem changeRun_settles {project : Value}
    (has : (runFrom start.world (indexer.store.has indexer.env place.toString)).1 = .ok true)
    (ran : runFrom start (indexer.changeRun place project) = (.ok result, after)) :
    indexer.StaleByRoot path place start later maxAge := by
  obtain ⟨noNull, here⟩ := World.eq_of_resolve resolved
  have isPlace := wellFormed.resolve resolved
  have here' := Path.resolve_toString isPlace start.world.workingDirectory
  have found := (has_eq_true_iff (Path.hasNull_ofString_toString isPlace) here').mp has
  have standard := isStandard_rulesFor here' outside found
  have standard' := isStandard_rulesFor here outside found
  have named : ValidName place.name := by
    obtain ⟨entry, found⟩ := found
    obtain ⟨located, leads⟩ := World.locate_of_found found
    exact SnapshotStore.validName_of_outside isPlace.valid (outside located (.inl leads))
  obtain ⟨changes, tree, printed, looked, ended⟩ := changeRun_cases isPlace ran
  have buildable : Buildable place start.world :=
    .of_build (standard _ named) (SnapshotStore.tree_of_changesSince isPlace looked).1
  rcases ended with ⟨none, left⟩ | ⟨some, taken, -, kept⟩
  · have has' := (has_eq_true_iff noNull here).mpr found
    obtain ⟨changed, compared⟩ := exists_hasChanged noNull here buildable (standard' _ named) has'
    have left' : indexer.Unmoved place start.world after.world := by
      rw [left]
      exact .of_still ⟨rfl, rfl⟩
    exact .of_unmoved noNull here fresh (left'.trans unmoved) has' compared
      (fun _ => ⟨changes, tree, congrArg Prod.fst looked, none⟩)
  · have outlived := @changeRun_outlived indexer place project start isPlace
    rw [ran] at outlived
    refine .of_saved noNull here fresh wellFormed isPlace.valid outside buildable outlived.world
      kept standard (fun index => ⟨rfl, ?_⟩) unmoved (fun differs => ?_)
    · have apart : indexer.Outside place start := fun names spot => spot.elim (index names)
        (outside names)
      exact apart.lookUp_eq isPlace (fun _ spot => spot) outlived.world
    · obtain ⟨changes', tree', looked', none⟩ := differs.files
      rw [looked] at looked'
      obtain ⟨rfl, -⟩ := Prod.mk.inj (Except.ok.inj looked')
      cases some.symm.trans none

theorem run_settles (ran : runFrom start (indexer.run path name false) = (.ok result, after))
    (success : result.success = true) : indexer.StaleByRoot path place start later maxAge := by
  obtain ⟨-, ⟨wanted, full⟩ | ⟨-, has, changed⟩⟩ :=
    run_cases ran success (World.eq_of_resolve resolved).2
  · have none := wanted.resolve_left Bool.false_ne_true
    exact fullRun_settles wellFormed resolved outside unmoved fresh none full
  · exact changeRun_settles wellFormed resolved outside unmoved fresh has changed

/-- What a refresh that succeeded leads to. -/
theorem refresh_settles {maxAge' : Value}
    (ran : runFrom start (indexer.refresh path maxAge' name) = (.ok result, after))
    (success : result.success = true) : indexer.StaleByRoot path place start later maxAge := by
  obtain ⟨noNull, here⟩ := World.eq_of_resolve resolved
  have isPlace := wellFormed.resolve resolved
  obtain ⟨world, still, ⟨looked, rfl⟩ | ran'⟩ := refresh_cases ran
  · obtain ⟨has, compared⟩ := of_isStale_false noNull here looked
    exact .of_unmoved noNull here fresh ((Unmoved.of_still still).trans unmoved) has compared
      (fun changed => by cases changed)
  · have moved : indexer.Unmoved place start.world world := .of_still still
    have same : ∀ path names, world.LeadsTo path names ↔ start.world.LeadsTo path names := by
      have looking : World.SameApart (fun _ => False) start.world world :=
        .of_disk still.disk still.workingDirectory
      exact looking.locate_iff
    have wellFormed' : world.WellFormed :=
      ⟨still.disk ▸ wellFormed.disk, still.workingDirectory ▸ wellFormed.workingDirectory⟩
    have resolved' : runFrom world (World.resolve path) = (.ok place, world) := by
      rw [World.runFrom_resolve noNull, still.workingDirectory, here]
    have outside' : ∀ names, indexer.store.Spots indexer.env place world names →
        ¬ place.parts <+: names :=
      fun names spot => outside names (spot.imp (same _ names).mp (same _ names).mp)
    obtain ⟨stale, asked, needed, only⟩ := @run_settles indexer path place later
      { start with world } after maxAge name result wellFormed' resolved' outside' unmoved fresh
      ran' success
    have differs := OnlyRootDiffers.of_unmoved noNull here isPlace moved
    refine ⟨stale, asked, fun before => needed (differs.mpr before), fun stale => ?_⟩
    rcases only stale with before | ⟨names, ⟨file, leads⟩, inside⟩
    · exact .inl (differs.mp before)
    · exact .inr ⟨names, ⟨file, (same _ names).mp leads⟩, inside⟩

end Runs

/-- The same files are tracked then and now, but not the same folders. -/
def OnlyFoldersDiffer (old new : Option (FileTree Stored)) : Prop :=
  (∀ names, trackedContent .standard old names = trackedContent .standard new names) ∧
    trackedEntry .standard old ≠ trackedEntry .standard new

section Kept

variable {files files' : Option (FileTree Stored)} {taken : String}
  (noNull : (Path.ofString path).hasNull = false)
  (here : (Path.ofString path).resolve world.workingDirectory = place)
  (isPlace : place.IsPlace)
  (outside : ∀ names, indexer.store.Spots indexer.env place world names →
    ¬ place.parts <+: names)
  (kept : world.Keeps (indexer.store.snapshotFile indexer.env place)
    (some (SnapshotStore.treeDocument taken
      (DigestTree.ofFiles indexer.env.digest .standard place files).toValue)))
  (found : world.lookUp place = .ok files')
  (wellFormed : ∀ tree ∈ files, tree.WellFormed) (wellFormed' : ∀ tree ∈ files', tree.WellFormed)

include noNull here isPlace outside kept found wellFormed wellFormed'

/-- With a snapshot of earlier files, the digests of the files and of the roots tell. -/
theorem onlyRootDiffers_iff : indexer.OnlyRootDiffers path place world ↔
    (∀ names,
      (trackedContent .standard (trackedProject .standard place files) names).map
          indexer.env.digest =
        (trackedContent .standard (trackedProject .standard place files') names).map
          indexer.env.digest) ∧
      (DigestTree.ofFiles indexer.env.digest .standard place files).rootDigest ≠
        (DigestTree.ofFiles indexer.env.digest .standard place files').rootDigest := by
  have noNull' := Path.hasNull_ofString_toString isPlace
  have here' := Path.resolve_toString isPlace world.workingDirectory
  obtain ⟨located, leads, -⟩ := id kept
  have notInside := outside located (.inl leads)
  have named := SnapshotStore.validName_of_outside isPlace.valid notInside
  have built : ∀ {project}, (Path.ofString project).resolve world.workingDirectory = place →
      runFrom world (DigestTree.build indexer.env.digest (indexer.store.rulesFor project) place) =
        (.ok (.ofFiles indexer.env.digest .standard place files'), world) := by
    intro project here
    have standard : IsStandard (indexer.store.rulesFor project) :=
      fun name validName => SnapshotStore.ignores_rulesFor here leads notInside validName
    rw [DigestTree.runFrom_build _ _ found, DigestTree.ofFiles_of_rules standard named wellFormed']
  obtain ⟨modified, stands⟩ := kept.lookUp
  have has := (has_eq_true_iff noNull here).mpr ⟨_, stands⟩
  have compared := SnapshotStore.hasChanged_of_build noNull here isPlace.valid rfl kept (built here)
  have looked := SnapshotStore.changesSince_of_build isPlace rfl kept (built here')
  have tracked : ∀ {files : Option (FileTree Stored)}, (∀ tree ∈ files, tree.WellFormed) →
      ∀ tree ∈ trackedProject .standard place files, tree.WellFormed :=
    fun wellFormed => trackedProject_wellFormed wellFormed
  have digests : (Changes.between
        ⟨place, (DigestTree.ofFiles indexer.env.digest .standard place files).root, .folderFirst⟩
        (.ofFiles indexer.env.digest .standard place files')).hasChanges = false ↔
      ∀ names,
        (trackedContent .standard (trackedProject .standard place files) names).map
            indexer.env.digest =
          (trackedContent .standard (trackedProject .standard place files') names).map
            indexer.env.digest := by
    rw [DigestTree.ofFiles_eq, DigestTree.ofFiles_eq]
    exact Changes.hasChanges_digests place .folderFirst .childrenFirst (tracked wellFormed)
      (tracked wellFormed')
  constructor
  · rintro ⟨-, root, changes, tree, looked', none⟩
    rw [compared] at root
    rw [looked] at looked'
    obtain ⟨rfl, -⟩ := Prod.mk.inj (Except.ok.inj looked')
    rw [LooseChanges.hasChanges_ofChanges] at none
    exact ⟨digests.mp none, bne_iff_ne.mp (Except.ok.inj root)⟩
  · rintro ⟨same, differs⟩
    refine ⟨has, ?_, _, _, congrArg Prod.fst looked, ?_⟩
    · rw [compared, bne_iff_ne.mpr differs]
    · rw [LooseChanges.hasChanges_ofChanges, digests.mpr same]

theorem not_onlyRootDiffers_of_tracked
    (same : trackedEntry .standard (trackedProject .standard place files) =
      trackedEntry .standard (trackedProject .standard place files')) :
    ¬ indexer.OnlyRootDiffers path place world := by
  rw [onlyRootDiffers_iff noNull here isPlace outside kept found wellFormed wellFormed']
  rintro ⟨-, differs⟩
  exact differs (congrArg DigestTree.rootDigest
    (DigestTree.ofFiles_congr wellFormed wellFormed' same))

/-- Where digests tell contents apart, only the root differs exactly if only folders do. -/
theorem onlyRootDiffers_iff_folders {width : Nat} (positive : 0 < width)
    (fixed : ∀ bytes, (indexer.env.digest bytes).length = width)
    (noCollision : NoCollision indexer.env.digest .standard place
      (trackedProject .standard place files) (trackedProject .standard place files'))
    (apart : KindsApart indexer.env.digest .standard place
      (trackedProject .standard place files) (trackedProject .standard place files')) :
    indexer.OnlyRootDiffers path place world ↔ OnlyFoldersDiffer
      (trackedProject .standard place files) (trackedProject .standard place files') := by
  have differs := onlyRootDiffers_iff noNull here isPlace outside kept found wellFormed
    wellFormed'
  constructor
  · intro only
    refine ⟨fun names => ?_, fun same => ?_⟩
    · have digests := (differs.mp only).1 names
      cases content : trackedContent .standard (trackedProject .standard place files) names with
      | none =>
        rw [content] at digests
        exact (Option.map_eq_none_iff.mp digests.symm).symm
      | some bytes =>
        rw [content] at digests
        obtain ⟨bytes', content', same⟩ := Option.map_eq_some_iff.mp digests.symm
        rw [content', noCollision.contents names names bytes bytes' content content' same.symm]
    · exact not_onlyRootDiffers_of_tracked noNull here isPlace outside kept found wellFormed
        wellFormed' same only
  · rintro ⟨contents, folders⟩
    refine differs.mpr ⟨fun names => by rw [contents], fun roots => folders ?_⟩
    rw [DigestTree.ofFiles_eq, DigestTree.ofFiles_eq, noCollision.rootDigest_eq_iff,
      projectBytes_eq_iff positive fixed noCollision apart] at roots
    exact roots.trackedEntry_eq (trackedProject_wellFormed wellFormed)
      (trackedProject_wellFormed wellFormed') contents

end Kept

end Indexer

open Indexer in
/-- After a refresh that succeeded, a project that did not change since and has a snapshot young
enough is stale if at the refresh its root differed from that of the snapshot but no file did.
Otherwise it is not stale, unless files of the index are inside of it, which the run itself
writes.  With a snapshot of earlier files, only the root differs if, up to collisions, the same
files are tracked as then but not the same folders. -/
theorem refresh_settles_unless_folders_changed {indexer : Indexer} {path : String} {place : Path}
    {start after : IndexState} {later : World} {maxAge maxAge' name : Value} {result : RunResult}
    (wellFormed : start.world.WellFormed)
    (resolved : runFrom start.world (World.resolve path) = (.ok place, start.world))
    (outside : ∀ names, indexer.store.Spots indexer.env place start.world names →
      ¬ place.parts <+: names)
    (ran : runFrom start (indexer.refresh path maxAge name) = (.ok result, after))
    (success : result.success = true) (unmoved : indexer.Unmoved place after.world later)
    (fresh : ∀ age, (runFrom later (indexer.store.age indexer.env path)).1 = .ok (some age) →
      isTooOld age maxAge' = .ok false) :
    ∃ stale, (runFrom later (indexer.isStale path maxAge')).1 = .ok stale ∧
      (indexer.OnlyRootDiffers path place start.world → stale = true) ∧
      (stale = true → indexer.OnlyRootDiffers path place start.world ∨
        ∃ names, start.Spots names ∧ place.parts <+: names) ∧
      ∀ taken files files',
        start.world.Keeps (indexer.store.snapshotFile indexer.env place)
          (some (SnapshotStore.treeDocument taken
            (DigestTree.ofFiles indexer.env.digest .standard place files).toValue)) →
        (∀ tree ∈ files, tree.WellFormed) → start.world.lookUp place = .ok files' →
        (trackedEntry .standard (trackedProject .standard place files) =
            trackedEntry .standard (trackedProject .standard place files') →
          ¬ indexer.OnlyRootDiffers path place start.world) ∧
        ∀ width, 0 < width → (∀ bytes, (indexer.env.digest bytes).length = width) →
          NoCollision indexer.env.digest .standard place (trackedProject .standard place files)
            (trackedProject .standard place files') →
          KindsApart indexer.env.digest .standard place (trackedProject .standard place files)
            (trackedProject .standard place files') →
          (indexer.OnlyRootDiffers path place start.world ↔ OnlyFoldersDiffer
            (trackedProject .standard place files) (trackedProject .standard place files')) := by
  obtain ⟨noNull, here⟩ := World.eq_of_resolve resolved
  have isPlace := wellFormed.resolve resolved
  obtain ⟨stale, asked, needed, only⟩ :=
    refresh_settles wellFormed resolved outside unmoved fresh ran success
  refine ⟨stale, asked, needed, only, fun taken files files' kept wellFormed' found => ?_⟩
  have present := wellFormed.lookUp found
  refine ⟨fun same => ?_, fun width positive fixed noCollision apart => ?_⟩
  · exact not_onlyRootDiffers_of_tracked noNull here isPlace outside kept found wellFormed'
      present same
  · exact onlyRootDiffers_iff_folders noNull here isPlace outside kept found wellFormed'
      present positive fixed noCollision apart

namespace Sample

open Indexer

theorem snapshots_outside {sources : List (String × ByteArray)} {kept : Contents}
    {snapshot record : Option Value} (names : List String)
    (spot : indexer.store.Spots indexer.env place (world sources kept snapshot record) names) :
    ¬ place.parts <+: names := by
  rcases spot with leads | leads
  · obtain rfl := Except.ok.inj leads
    decide
  · obtain rfl := Except.ok.inj leads
    decide

def refreshed (state : IndexState) : Except Fault RunResult × IndexState :=
  runFrom state (indexer.refresh "/project" (.int 5) (.text "project"))

def ageIn (world : World) : Option (Option Int) :=
  (runFrom world (indexer.store.age indexer.env "/project")).1.toOption

theorem young_of_ageIn {world : World} {now : Int} (told : ageIn world = some (some now))
    (young : isTooOld now (.int 5) = .ok false) (age : Int)
    (known : (runFrom world (indexer.store.age indexer.env "/project")).1 = .ok (some age)) :
    isTooOld age (.int 5) = .ok false := by
  rw [ageIn, known] at told
  rwa [Option.some.inj (Option.some.inj told)]

end Sample

open Indexer Sample in
/-- A project that is indexed for the first time is not stale afterwards. -/
theorem first_refresh_settles :
    ∃ result after later,
      runFrom (unindexed "x") (indexer.refresh "/project" (.int 5) (.text "project")) =
        (.ok result, after) ∧ result.success = true ∧ later.disk = after.world.disk ∧
      (runFrom later (indexer.isStale "/project" (.int 5))).1 = .ok false := by
  have wellFormed : (unindexed "x").world.WellFormed :=
    wellFormed_world (proper_lone "x").single (proper_lone "x").valid
  have told : (refreshed (unindexed "x")).1.toOption.map RunResult.success = some true ∧
      ageIn (refreshed (unindexed "x")).2.world = some (some 5) ∧
      (runFrom (unindexed "x").world
        (indexer.store.has indexer.env "/project")).1.toOption = some false := by
    decide +kernel
  obtain ⟨ended, now, missing⟩ := told
  obtain ⟨result, ran, success⟩ := exists_result ended
  obtain ⟨stale, asked, -, only, -⟩ := @refresh_settles_unless_folders_changed indexer "/project"
    place (unindexed "x") _ _ (.int 5) (.int 5) (.text "project") result wellFormed
    (resolve_project _) snapshots_outside ran success ⟨rfl, rfl, rfl⟩ (young_of_ageIn now rfl)
  refine ⟨result, _, _, ran, success, rfl, asked.trans ?_⟩
  cases stale with
  | false => rfl
  | true =>
    rcases only rfl with differs | ⟨names, spot, inside⟩
    · cases (eq_ok_of_toOption missing).symm.trans differs.has
    · exact absurd inside (spots_outside rfl spot)

namespace Sample

open Indexer

/-- The project got a folder, and what is kept about it stays. -/
def grown (before : World) : World :=
  { revised before (lone "x") with
    disk := (revised before (lone "x")).disk.insert ["project", "empty"] (.folder []) }

section Grown

variable {before : IndexState}

theorem keeps_grown {world : World} {path : Path} {document : Option Value} {first : String}
    {names : List String} (keeps : (revised world (lone "x")).Keeps path document)
    (located : (grown world).locate path = .ok (first :: names))
    (located' : (revised world (lone "x")).locate path = .ok (first :: names))
    (elsewhere : first ≠ "project") : (grown world).Keeps path document := by
  obtain ⟨others, leads, stands⟩ := keeps
  obtain rfl := Except.ok.inj (located'.symm.trans leads)
  refine ⟨first :: names, located, ?_⟩
  have same : (grown world).disk.find? (first :: names) =
      (revised world (lone "x")).disk.find? (first :: names) := by
    refine FileTree.find?_insert_apart _ _ _ _ ?_ ?_
    · simp [List.cons_prefix_cons, elsewhere]
    · simp [List.cons_prefix_cons, elsewhere.symm]
  rwa [same]

theorem edited_grown (inFolder : before.chunks.folder = folder) :
    indexer.Edited place before (grown before.world) := by
  have edited := edited_revised (proper_lone "x") inFolder
  refine ⟨fun others keeps file => ?_, fun document keeps => ?_, fun document keeps => ?_,
    ⟨some (.folder (sourceEntries (lone "x") ++ [("empty", .folder [])])), rfl⟩,
    edited.wellFormed.disk.insert FileTree.wellFormed_empty (by decide),
    edited.wellFormed.workingDirectory⟩
  · have stays := edited.index others keeps file
    rw [inFolder] at stays ⊢
    cases file <;> exact keeps_grown stays rfl rfl (by decide)
  · exact keeps_grown (edited.snapshot document keeps) rfl rfl (by decide)
  · exact keeps_grown (edited.record document keeps) rfl rfl (by decide)

end Grown

def grownIndex : IndexState :=
  { indexed (lone "x") with world := grown (indexed (lone "x")).world }

end Sample

open Indexer Sample in
/-- A project to which a folder was added since it was indexed is refreshed without an error, and
is still stale. -/
theorem added_folder_stays_stale :
    ∃ before world result after later,
      indexer.Reached place 1 opened [call false] before ∧
      indexer.Edited place before world ∧
      runFrom { before with world }
        (indexer.refresh "/project" (.int 5) (.text "project")) = (.ok result, after) ∧
      result.success = true ∧ indexer.Unmoved place after.world later ∧
      (∀ age, (runFrom later (indexer.store.age indexer.env "/project")).1 = .ok (some age) →
        isTooOld age (.int 5) = .ok false) ∧
      (runFrom later (indexer.isStale "/project" (.int 5))).1 = .ok true := by
  have told : (refreshed grownIndex).1.toOption.map RunResult.success = some true ∧
      ageIn (refreshed grownIndex).2.world = some (some 0) ∧
      (runFrom (refreshed grownIndex).2.world
        (indexer.isStale "/project" (.int 5))).1.toOption = some true := by
    decide +kernel
  obtain ⟨ended, now, stale⟩ := told
  obtain ⟨result, ran, success⟩ := exists_result ended
  obtain ⟨_, _, -, -, inFolder, -⟩ := indexed_ready (proper_lone "x")
  exact ⟨_, _, result, _, _, reached_indexed (proper_lone "x"), edited_grown inFolder, ran, success,
    ⟨rfl, rfl, rfl⟩, young_of_ageIn now rfl, eq_ok_of_toOption stale⟩

end CodeAtlas
