import CodeAtlas.Proofs.Files.Storing
import CodeAtlas.Proofs.Indexing.Footprint
import CodeAtlas.Proofs.Indexing.Sample

/-!
# Running again

A run that succeeded leaves a snapshot that agrees with the project, or found one.  So the next
run finds nothing to do, as long as nothing in the project changes, and leaves the index and
the snapshot as they are.  The files of the index and of the snapshot have to be outside of the
project: otherwise the first run itself changes what is tracked.
-/

namespace CodeAtlas

/-- A pattern with a slash fits no name. -/
theorem IgnoreRules.fits_of_slash {pattern name : String} (slash : '/' ∈ pattern.toList)
    (noSlash : '/' ∉ name.toList) : fits pattern name = false := by
  rw [Bool.eq_false_iff]
  intro fits
  unfold IgnoreRules.fits at fits
  split at fits
  · rename_i ending letters
    rw [letters] at slash
    have inside : '/' ∈ ending := by simpa using slash
    exact noSlash ((List.isSuffixOf_iff_suffix.mp fits).subset inside)
  · rw [beq_iff_eq.mp fits] at noSlash
    exact noSlash slash

theorem IgnoreRules.ignores_add (rules : IgnoreRules) (pattern name : String) :
    (rules.add pattern).ignores name = (rules.ignores name || fits pattern name) := by
  simp [ignores, add]

namespace Path

theorem slash_mem_toString (anchor : Anchor) (first second : String) (rest : List String) :
    '/' ∈ (toString ⟨anchor, first :: second :: rest⟩).toList := by
  have inside : '/' ∈ (bareText ⟨anchor, first :: second :: rest⟩).toList := by
    simp [bareText, Text.join_cons_cons]
  have notEmpty : (bareText ⟨anchor, first :: second :: rest⟩).isEmpty = false := by
    rw [Bool.eq_false_iff, ne_eq, String.isEmpty_iff]
    intro empty
    simp [empty] at inside
  simpa [toString, notEmpty] using inside

end Path

namespace SnapshotStore

variable {env : Environment} {store : SnapshotStore} {place : Path} {world : World}
  {located : List String}

/-- A folder of snapshots that is seen from the project and yet outside of it is reached by a
double dot. -/
private theorem up_mem_of_relativeTo? {path inside : Path}
    (here : path.resolve world.workingDirectory = place)
    (leads : world.LeadsTo (store.snapshotFile env place) located)
    (outside : ¬ place.parts <+: located)
    (seen : store.folder.relativeTo? path = some inside) : ".." ∈ inside.parts := by
  by_contra noUp
  obtain ⟨-, anchor, parts⟩ := Path.eq_of_relativeTo? seen
  have folder := Path.resolve_append anchor parts (fun part member up => noUp (up ▸ member))
    world.workingDirectory
  rw [here] at folder
  refine outside ⟨inside.parts ++ [projectId env place ++ "_snapshot.json"], ?_⟩
  rw [World.eq_resolve_of_locate leads, snapshotFile, Path.resolve_child (snapshotName_ne_up _),
    folder, List.append_assoc]

/-- Where the snapshot is kept outside of the project, no further names are left out. -/
theorem ignores_rulesFor {project name : String}
    (here : (Path.ofString project).resolve world.workingDirectory = place)
    (leads : world.LeadsTo (store.snapshotFile env place) located)
    (outside : ¬ place.parts <+: located) (validName : ValidName name) :
    (store.rulesFor project).ignores name = IgnoreRules.standard.ignores name := by
  unfold rulesFor
  split
  · rename_i inside seen
    have up := up_mem_of_relativeTo? here leads outside seen
    have anchor := (Path.eq_of_relativeTo? seen).1
    obtain ⟨_, rest⟩ := inside
    obtain rfl := anchor
    have notFits : IgnoreRules.fits (Path.toString ⟨.relative, rest⟩) name = false := by
      match rest with
      | first :: second :: rest =>
        exact IgnoreRules.fits_of_slash (Path.slash_mem_toString _ first second rest)
          validName.noSlash
      | [single] =>
        obtain rfl := List.mem_singleton.mp up
        have text : Path.toString ⟨.relative, [".."]⟩ = ".." := by decide
        have exact' : IgnoreRules.fits ".." name = (name == "..") := rfl
        rw [text, exact', beq_eq_false_iff_ne]
        exact validName.notUp
    rw [IgnoreRules.ignores_add, notFits, Bool.or_false]
  · rfl

/-- A place outside of which something is kept has a name. -/
theorem validName_of_outside (valid : ∀ part ∈ place.parts, ValidName part)
    (outside : ¬ place.parts <+: located) : ValidName place.name := by
  cases last : place.parts.getLast? with
  | none =>
    rw [List.getLast?_eq_none_iff.mp last] at outside
    exact absurd List.nil_prefix outside
  | some part =>
    rw [Path.name, last]
    exact valid part (List.mem_of_getLast? last)

/-- So the same contents are tracked with the rules of a full run and with those of a run on
changes. -/
theorem contentAt_rulesFor {files : World} (isPlace : place.IsPlace)
    (leads : world.LeadsTo (store.snapshotFile env place) located)
    (outside : ¬ place.parts <+: located) (wellFormed : files.WellFormed) :
    files.contentAt (store.rulesFor place.toString) place = files.contentAt .standard place := by
  have same := fun {name} => @ignores_rulesFor env store place world located place.toString name
    (Path.resolve_toString isPlace _) leads outside
  have named := validName_of_outside isPlace.valid outside
  funext names
  have alike : ∀ {rules rules' : IgnoreRules} (bytes : ByteArray),
      (∀ {name}, ValidName name → rules.ignores name = rules'.ignores name) →
      files.contentAt rules place names = some bytes →
      files.contentAt rules' place names = some bytes := by
    intro rules rules' bytes same held
    have validNames := validNames_of_contentAt wellFormed held
    obtain ⟨tree, stored, found, leads, kept, taken, rfl⟩ := World.contentAt_eq_some.mp held
    exact World.contentAt_eq_some.mpr ⟨tree, stored, found, leads, same named ▸ kept,
      fun part member => same (validNames part member) ▸ taken part member, rfl⟩
  apply Option.ext
  exact fun bytes => ⟨alike bytes same, alike bytes (fun valid => (same valid).symm)⟩

end SnapshotStore

theorem DigestTree.build_again {digest : DigestFunction} {rules rules' : IgnoreRules}
    {place : Path} {world later after : World} {tree : DigestTree}
    (built : runFrom world (build digest rules place) = (.ok tree, after))
    (same : later.lookUp place = world.lookUp place)
    (more : rules.ignores place.name = true → rules'.ignores place.name = true) :
    runFrom later (build digest rules' place) =
      (.ok (.ofFiles digest rules' place (world.entryAt? place)), later) := by
  cases found : world.lookUp place with
  | ok files =>
    rw [runFrom_build digest rules' (same.trans found), World.entryAt?, found]
  | error fault =>
    have ignored : rules.ignores place.name = true := by
      by_contra notIgnored
      simp [build, notIgnored, World.find, found] at built
    rw [World.entryAt?, found]
    simp [build, more ignored]

/-- Where a snapshot is kept and the tree of the project is built, the two are compared. -/
theorem SnapshotStore.changesSince_of_build {env : Environment} {store : SnapshotStore}
    {place : Path} {world : World} {tree new : DigestTree} {taken : String}
    (isPlace : place.IsPlace) (rooted : tree.rootPath = place)
    (keeps : world.Keeps (store.snapshotFile env place)
      (some (treeDocument taken tree.toValue)))
    (built : runFrom world (DigestTree.build env.digest (store.rulesFor place.toString) place) =
      (.ok new, world)) :
    runFrom world (store.changesSince env place.toString) =
      (.ok (.ofChanges (Changes.between ⟨place, tree.root, .folderFirst⟩ new), new), world) := by
  subst rooted
  have noNull := Path.hasNull_ofString_toString isPlace
  have here := Path.resolve_toString isPlace world.workingDirectory
  simp [changesSince, presentTree, World.runFrom_resolve noNull, here, built,
    load_of_keeps noNull here.symm isPlace.valid keeps, KeptTree.changesTo]

namespace Indexer

open IndexState

variable {indexer : Indexer} {place : Path} {project : Value} {start state after : IndexState}
  {result : RunResult}

/-- How a run that succeeded leaves the snapshot: with the tree of the project, or as it was
if there were no changes. -/
inductive Leaves (indexer : Indexer) (place : Path) (start after : IndexState) : Prop where
  | saved {rules : IgnoreRules} {taken : String} {tree : DigestTree} {built : World} :
      rules = .standard ∨ rules = indexer.store.rulesFor place.toString →
      runFrom start.world (DigestTree.build indexer.env.digest rules place) = (.ok tree, built) →
      indexer.Outlived place start after →
      after.world.Keeps (indexer.store.snapshotFile indexer.env place)
        (some (SnapshotStore.treeDocument taken (DigestTree.ofFiles indexer.env.digest rules place
          (start.world.entryAt? place)).toValue)) →
      Leaves indexer place start after
  | found {changes : LooseChanges} {tree : DigestTree} {printed : List String} :
      (runFrom start.world (indexer.store.has indexer.env place.toString)).1 = .ok true →
      runFrom start.world (indexer.store.changesSince indexer.env place.toString) =
        (.ok (changes, tree), { start.world with printed }) →
      changes.hasChanges = false → after = { start with world := { start.world with printed } } →
      Leaves indexer place start after

/-- The files of the index and of the snapshot are outside of the project. -/
def Outside (indexer : Indexer) (place : Path) (start : IndexState) : Prop :=
  ∀ names, indexer.Writes place start names → ¬ place.parts <+: names

/-- A full run keeps the tree of the project, as it is without the index. -/
theorem fullRun_saves (ran : runFrom start (indexer.fullRun place project) = (.ok result, after)) :
    ∃ cleared taken, start.Follows cleared ∧
      runFrom cleared.world (DigestTree.build indexer.env.digest .standard place) =
        (.ok (.ofFiles indexer.env.digest .standard place (cleared.world.entryAt? place)),
          cleared.world) ∧
      after.world.Keeps (indexer.store.snapshotFile indexer.env place)
        (some (SnapshotStore.treeDocument taken (DigestTree.ofFiles indexer.env.digest .standard
          place (cleared.world.entryAt? place)).toValue)) := by
  obtain ⟨_, cleared, first, rest⟩ := runFrom_bind_ok ran
  obtain ⟨tree, _, second, rest⟩ := runFrom_bind_ok rest
  obtain ⟨_, built, rfl⟩ := runFrom_lift_ok second
  obtain ⟨rfl, rfl⟩ := DigestTree.build_ok built
  obtain ⟨counts, added, third, last⟩ := runFrom_bind_ok rest
  obtain ⟨taken, kept⟩ := keeps_of_saved last
  exact ⟨cleared, taken, Follows.clear.after (Follows.refl start) first, built, kept⟩

section Place

variable (isPlace : place.IsPlace)
  (outside : indexer.Outside place start)

include isPlace outside

theorem Outside.lookUp_eq {spots : List String → Prop} {world : World}
    (inside : ∀ names, spots names → indexer.Writes place start names)
    (same : World.SameApart spots start.world world) :
    world.lookUp place = start.world.lookUp place := by
  refine same.lookUp_eq place (fun names leads => same.trees names (fun spot written => ?_))
  rw [World.eq_parts_of_locate isPlace.absolute isPlace.plain leads]
  exact outside spot (inside spot written)

theorem fullRun_leaves (ran : runFrom start (indexer.fullRun place project) = (.ok result, after)) :
    indexer.Leaves place start after := by
  obtain ⟨cleared, taken, follows, built, kept⟩ := fullRun_saves ran
  have same := outside.lookUp_eq isPlace (fun _ spot => .inl spot) follows.world
  have entry : cleared.world.entryAt? place = start.world.entryAt? place := by
    rw [World.entryAt?, World.entryAt?, same]
  rw [entry] at kept
  have outlived := @fullRun_outlived indexer place project start
  rw [ran] at outlived
  exact .saved (.inl rfl) (DigestTree.build_again built same.symm id) outlived kept

omit outside in
/-- How a run on changes ends: it found none, or it keeps the tree that it looked at. -/
theorem changeRun_cases
    (ran : runFrom start (indexer.changeRun place project) = (.ok result, after)) :
    ∃ changes tree printed,
      runFrom start.world (indexer.store.changesSince indexer.env place.toString) =
        (.ok (changes, tree), { start.world with printed }) ∧
      (changes.hasChanges = false ∧ after = { start with world := { start.world with printed } } ∨
        changes.hasChanges = true ∧ ∃ taken,
          runFrom start.world (DigestTree.build indexer.env.digest
            (indexer.store.rulesFor place.toString) place) = (.ok tree, start.world) ∧
          after.world.Keeps (indexer.store.snapshotFile indexer.env place)
            (some (SnapshotStore.treeDocument taken (DigestTree.ofFiles indexer.env.digest
              (indexer.store.rulesFor place.toString) place
              (start.world.entryAt? place)).toValue))) := by
  obtain ⟨⟨changes, tree⟩, _, first, rest⟩ := runFrom_bind_ok ran
  obtain ⟨_, looked, rfl⟩ := runFrom_lift_ok first
  obtain ⟨outcome, printed, -, ran', -⟩ :=
    @ReadsAlike.changesSince start.world start.world indexer.env indexer.store place.toString
      place (Path.hasNull_ofString_toString isPlace) (Path.resolve_toString isPlace _)
      (Path.resolve_toString isPlace _) rfl rfl
  obtain ⟨rfl, rfl⟩ := Prod.mk.inj (looked.symm.trans ran')
  refine ⟨changes, tree, printed, looked, ?_⟩
  cases changed : changes.hasChanges with
  | false =>
    simp only [changed, Bool.not_false, if_true] at rest
    exact .inl ⟨rfl, (congrArg Prod.snd rest).symm⟩
  | true =>
    simp only [changed, Bool.not_true, Bool.false_eq_true, if_false] at rest
    obtain ⟨built, same⟩ := SnapshotStore.tree_of_changesSince isPlace looked
    obtain ⟨toRemove, _, second, rest⟩ := runFrom_bind_ok rest
    obtain ⟨removed, between, third, rest⟩ := runFrom_bind_ok rest
    obtain ⟨toReindex, _, fourth, rest⟩ := runFrom_bind_ok rest
    obtain ⟨files, _, fifth, rest⟩ := runFrom_bind_ok rest
    obtain ⟨counts, added, sixth, last⟩ := runFrom_bind_ok rest
    rw [runFrom_orFail] at second fourth fifth
    obtain ⟨-, rfl⟩ := Prod.mk.inj second
    obtain ⟨-, rfl⟩ := Prod.mk.inj fourth
    obtain ⟨-, rfl⟩ := Prod.mk.inj fifth
    subst same
    obtain ⟨taken, kept⟩ := keeps_of_saved last
    exact .inr ⟨rfl, taken, built, kept⟩

omit outside in
theorem changeRun_leaves
    (has : (runFrom start.world (indexer.store.has indexer.env place.toString)).1 = .ok true)
    (ran : runFrom start (indexer.changeRun place project) = (.ok result, after)) :
    indexer.Leaves place start after := by
  obtain ⟨changes, tree, printed, looked, ⟨none, left⟩ | ⟨-, taken, built, kept⟩⟩ :=
    changeRun_cases isPlace ran
  · exact .found has looked none left
  · have outlived := @changeRun_outlived indexer place project start isPlace
    rw [ran] at outlived
    exact .saved (.inr rfl) built outlived kept

/-- The snapshot that a run left agrees with the project for as long as both stay. -/
theorem Leaves.noChanges {later : World} (leaves : indexer.Leaves place start after)
    (wellFormed : start.world.WellFormed)
    (sameTree : later.lookUp place = after.world.lookUp place)
    (sameSnapshot : later.lookUp (indexer.store.snapshotFile indexer.env place) =
      after.world.lookUp (indexer.store.snapshotFile indexer.env place)) :
    (runFrom later (indexer.store.has indexer.env place.toString)).1 = .ok true ∧
      ∃ changes tree printed,
        runFrom later (indexer.store.changesSince indexer.env place.toString) =
          (.ok (changes, tree), { later with printed }) ∧ changes.hasChanges = false := by
  cases leaves with
  | @saved rules taken _ _ which built outlived kept =>
    have apart := outlived.world
    have kept' := kept.of_lookUp sameSnapshot
    have same := sameTree.trans (outside.lookUp_eq isPlace (fun _ spot => spot) apart)
    obtain ⟨located, leads, -⟩ := id kept
    have notInside := outside located (.inr (.inl ((apart.locate_iff _ _).mp leads)))
    have rules' : start.world.contentAt rules place =
        start.world.contentAt (indexer.store.rulesFor place.toString) place := by
      rcases which with rfl | rfl
      · exact (SnapshotStore.contentAt_rulesFor isPlace leads notInside wellFormed).symm
      · rfl
    have more : rules.ignores place.name = true →
        (indexer.store.rulesFor place.toString).ignores place.name = true := by
      rcases which with rfl | rfl
      · intro ignored
        unfold SnapshotStore.rulesFor
        split
        · rw [IgnoreRules.ignores_add, ignored, Bool.true_or]
        · exact ignored
      · exact id
    have found := SnapshotStore.changesSince_of_build isPlace rfl kept'
      (DigestTree.build_again built same more)
    refine ⟨congrArg Prod.fst (has_of_keeps isPlace kept'), _, _, later.printed, found, ?_⟩
    have files : ∀ rules, ∀ tree ∈ trackedProject rules place (start.world.entryAt? place),
        tree.WellFormed := fun _ => trackedProject_wellFormed wellFormed.entryAt?
    rw [LooseChanges.hasChanges_ofChanges, DigestTree.ofFiles_eq, DigestTree.ofFiles_eq]
    refine (Changes.hasChanges_digests place .folderFirst .childrenFirst (files _)
      (files _)).mpr (fun names => ?_)
    exact congrArg (Option.map indexer.env.digest) (congrFun rules' names)
  | @found changes tree printed has looked none left =>
    subst left
    have noNull := Path.hasNull_ofString_toString isPlace
    have here := Path.resolve_toString isPlace
    obtain ⟨_, _, _, asked, again⟩ := @ReadsAlike.has start.world later indexer.env
      indexer.store place.toString place noNull (here _) (here _) sameSnapshot
    obtain ⟨_, _, printed', looked', again'⟩ := @ReadsAlike.changesSince start.world later
      indexer.env indexer.store place.toString place noNull (here _) (here _) sameSnapshot sameTree
    rw [asked] at has
    obtain ⟨rfl, -⟩ := Prod.mk.inj (looked'.symm.trans looked)
    exact ⟨(congrArg Prod.fst again).trans has, changes, tree, printed', again', none⟩

end Place

/-- Two indexers that keep snapshots in the same files and by the same digests. -/
structure SharesSnapshots (indexer other : Indexer) : Prop where
  store : other.store = indexer.store
  digest : other.env.digest = indexer.env.digest
  pathDigest : other.env.pathDigest = indexer.env.pathDigest

namespace SharesSnapshots

variable {other : Indexer} (shared : indexer.SharesSnapshots other)

include shared

theorem has (project : String) : other.store.has other.env project =
    indexer.store.has indexer.env project := by
  simp only [SnapshotStore.has, SnapshotStore.snapshotFile, SnapshotStore.projectId, shared.store,
    shared.pathDigest]

theorem changesSince (project : String) : other.store.changesSince other.env project =
    indexer.store.changesSince indexer.env project := by
  simp only [SnapshotStore.changesSince, SnapshotStore.presentTree, SnapshotStore.load,
    SnapshotStore.snapshotFile, SnapshotStore.projectId, shared.store, shared.digest,
    shared.pathDigest]

end SharesSnapshots

theorem run_of_noChanges {path : String} {name : Value} {changes : LooseChanges}
    {tree : DigestTree} {world : World}
    (resolved : runFrom state.world (World.resolve path) = (.ok place, state.world))
    (has : (runFrom state.world (indexer.store.has indexer.env place.toString)).1 = .ok true)
    (found : runFrom state.world (indexer.store.changesSince indexer.env place.toString) =
      (.ok (changes, tree), world)) (none : changes.hasChanges = false) :
    runFrom state (indexer.run path name false) = (.ok .nothing, { state with world }) := by
  have asked : runFrom state.world (indexer.store.has indexer.env place.toString) =
      (.ok true, state.world) :=
    Prod.ext has (indexer.store.has_snd indexer.env place.toString state.world)
  simp [run, resolved, asked, changeRun, found, none]

end Indexer

open Indexer in
/-- After a run that succeeded, a run on the same project with the same snapshot does nothing,
be it by the same index or by another one, and from whatever folder: it succeeds, counts
nothing, and leaves the index and the disk as they are. -/
theorem rerun_does_nothing {indexer other : Indexer} {place : Path}
    {start after later : IndexState} {path path' : String} {name name' : Value} {full : Bool}
    {result : RunResult} (wellFormed : start.world.WellFormed)
    (resolved : runFrom start.world (World.resolve path) = (.ok place, start.world))
    (outside : indexer.Outside place start)
    (ran : runFrom start (indexer.run path name full) = (.ok result, after))
    (success : result.success = true) (shared : indexer.SharesSnapshots other)
    (resolved' : runFrom later.world (World.resolve path') = (.ok place, later.world))
    (sameTree : later.world.lookUp place = after.world.lookUp place)
    (sameSnapshot : later.world.lookUp (indexer.store.snapshotFile indexer.env place) =
      after.world.lookUp (indexer.store.snapshotFile indexer.env place)) :
    ∃ printed, runFrom later (other.run path' name' false) =
      (.ok ⟨0, 0, 0, 0, 0, none⟩, { later with world := { later.world with printed } }) := by
  have isPlace := wellFormed.resolve resolved
  have leaves : indexer.Leaves place start after := by
    obtain ⟨-, ⟨-, full⟩ | ⟨-, has, changes⟩⟩ :=
      run_cases ran success (World.eq_of_resolve resolved).2
    · exact fullRun_leaves isPlace outside full
    · exact changeRun_leaves isPlace has changes
  obtain ⟨has, changes, tree, printed, found, none⟩ :=
    leaves.noChanges isPlace outside wellFormed sameTree sameSnapshot
  rw [← shared.has] at has
  rw [← shared.changesSince] at found
  exact ⟨printed, run_of_noChanges resolved' has found none⟩

open Indexer Sample in
/-- A project that was indexed, and is looked at again by an index that was just opened. -/
theorem rerun_of_reopened_does_nothing :
    ∃ kept snapshot record result after,
      runFrom ⟨.ofFolder folder, world (lone "x") kept snapshot record⟩
        (indexer.run "/project" (.text "project") false) = (.ok result, after) ∧
      result.success = true ∧
      ∃ printed, runFrom ⟨.ofFolder folder, after.world⟩ (indexer.run "/project" .null false) =
        (.ok ⟨0, 0, 0, 0, 0, none⟩, ⟨.ofFolder folder, { after.world with printed }⟩) := by
  have edited := @edited_revised opened _ (proper_lone "x") rfl
  obtain ⟨result, _, ran, success, -⟩ := indexed_ready (proper_lone "x")
  have outside : indexer.Outside place
      { opened with world := revised opened.world (lone "x") } := by
    rintro names (index | leads | leads)
    · exact spots_outside rfl index
    · obtain rfl := Except.ok.inj leads
      decide
    · obtain rfl := Except.ok.inj leads
      decide
  exact ⟨_, _, _, result, _, ran, success,
    rerun_does_nothing edited.wellFormed (resolve_project _) outside ran success ⟨rfl, rfl, rfl⟩
      (resolve_project _) rfl rfl⟩

end CodeAtlas
