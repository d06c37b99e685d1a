import CodeAtlas.Proofs.Indexing.Outcomes
import CodeAtlas.Proofs.Tracking.Looking

/-!
# What a run writes

Whatever a run comes to, it changes no other files than those of the index and of the snapshot,
and no folders.
-/

namespace CodeAtlas

namespace World

variable {start : World} {spots : List String → Prop}

theorem sameApart_writeFile {folder : Path} {name : String} (notUp : name ≠ "..")
    (inside : ∀ names, start.LeadsTo (folder.child name) names → spots names) (value : Value) :
    Preserves (SameApart spots start) (writeFile (folder.child name) (.document value)) := by
  intro world same
  rcases result : runFrom world (writeFile (folder.child name) (.document value)) with
    ⟨fault | _, after⟩
  · obtain rfl := writeFile_failed result
    exact same
  · obtain ⟨-, changed⟩ := writeFile_ok notUp result
    exact same.trans (changed.mono (fun names leads =>
      inside names ((same.locate_iff _ names).mp leads)))

theorem sameApart_readClock : Preserves (SameApart spots start) readClock :=
  fun world same => same.trans world.tick_sameApart

end World

theorem SnapshotStore.sameApart_save {env : Environment} {store : SnapshotStore} {start : World}
    {tree : DigestTree} (record : Record) :
    Preserves (World.SameApart (store.Spots env tree.rootPath start) start)
      (store.save env tree record) := by
  refine .bind World.sameApart_readClock (fun taken => .bind (.orFail _) (fun value => ?_))
  refine .bind ?_ (fun _ => .bind World.sameApart_readClock (fun recorded =>
    .bind (.pure _) (fun described => ?_)))
  · exact World.sameApart_writeFile (snapshotName_ne_up _) (fun _ => .inl) _
  · exact World.sameApart_writeFile (recordName_ne_up _) (fun _ => .inr) _

theorem SnapshotStore.tree_of_changesSince {env : Environment} {store : SnapshotStore}
    {place : Path} {world after : World} {changes : LooseChanges} {tree : DigestTree}
    (isPlace : place.IsPlace) (looked : runFrom world (store.changesSince env place.toString) =
      (.ok (changes, tree), after)) :
    runFrom world (DigestTree.build env.digest (store.rulesFor place.toString) place) =
        (.ok tree, world) ∧
      tree = .ofFiles env.digest (store.rulesFor place.toString) place
        (world.entryAt? place) := by
  obtain ⟨present, between, first, rest⟩ := runFrom_bind_ok looked
  have built : runFrom world (DigestTree.build env.digest (store.rulesFor place.toString) place) =
      (.ok present, between) := by
    simpa [presentTree, World.resolve_place isPlace] using first
  obtain ⟨rfl, same⟩ := DigestTree.build_ok built
  obtain rfl : present = tree := by
    obtain ⟨old, _, -, rest⟩ := runFrom_bind_ok rest
    cases old with
    | none => exact congrArg Prod.snd (Except.ok.inj (congrArg Prod.fst rest))
    | some old =>
      obtain ⟨_, _, -, rest⟩ := runFrom_bind_ok rest
      exact congrArg Prod.snd (Except.ok.inj (congrArg Prod.fst rest))
  exact ⟨built, same⟩

theorem Indexer.still_isStale {start : World} (indexer : Indexer) (path : String)
    (maxAge : Value) : Preserves start.Still (indexer.isStale path maxAge) := by
  have compare := @SnapshotStore.still_hasChanged start indexer.env indexer.store path
  refine .bind (.of_same (indexer.store.has_snd indexer.env path)) (fun found => ?_)
  split
  · exact .pure _
  · refine .bind (indexer.store.still_age indexer.env path) (fun age => ?_)
    cases age with
    | none => exact compare
    | some age =>
      refine .bind (.orFail _) (fun old => ?_)
      split
      · exact .pure _
      · exact compare

theorem IndexState.Follows.of_still {start : IndexState} {α : Type} {action : Act α}
    (still : ∀ world : World, Preserves world.Still action) :
    Preserves start.Follows (action : IndexAct α) := by
  intro state follows
  have later := still state.world state.world (.refl state.world)
  rw [runFrom_lift]
  exact follows.of_disk later.disk later.workingDirectory

namespace Indexer

open IndexState

variable {indexer : Indexer} {place : Path} {project : Value} {start : IndexState} {α : Type}

/-- The places of the files that a run writes: those of the index and of the snapshot. -/
def Writes (indexer : Indexer) (place : Path) (start : IndexState) (names : List String) : Prop :=
  start.Spots names ∨ indexer.store.Spots indexer.env place start.world names

/-- A later state of the same index, where only files that runs write may have changed.  Where
they were in shape they still are. -/
structure Outlived (indexer : Indexer) (place : Path) (start state : IndexState) : Prop where
  folder : state.chunks.folder = start.chunks.folder
  world : World.SameApart (indexer.Writes place start) start.world state.world
  kept : ∀ kept, start.world.KeepsIndex start.chunks.folder kept →
    ∃ kept', state.world.KeepsIndex start.chunks.folder kept'
  stands : ∀ snapshot, start.world.WellFormed → indexer.Stands place snapshot start.world →
    ∃ snapshot', indexer.Stands place snapshot' state.world

namespace Outlived

theorem refl (indexer : Indexer) (place : Path) (start : IndexState) :
    indexer.Outlived place start start :=
  ⟨rfl, .refl _ _, fun kept files => ⟨kept, files⟩, fun snapshot _ stands => ⟨snapshot, stands⟩⟩

theorem follows {later : IndexState} (outlived : indexer.Outlived place start later)
    {state : IndexState} (follows : later.Follows state) : indexer.Outlived place start state := by
  obtain ⟨folder, same, kept, stands⟩ := outlived
  refine ⟨follows.folder.trans folder, same.trans (follows.world.mono ?_), ?_, ?_⟩
  · rintro names ⟨file, leads⟩
    rw [folder] at leads
    exact .inl ⟨file, (same.locate_iff _ names).mp leads⟩
  · intro before files
    obtain ⟨between, files'⟩ := kept before files
    rw [← folder] at files' ⊢
    exact follows.kept between files'
  · intro snapshot wellFormed before
    obtain ⟨snapshot', between⟩ := stands snapshot wellFormed before
    exact ⟨snapshot', between.follows follows⟩

theorem trans {later state : IndexState} (first : indexer.Outlived place start later)
    (wellFormed : start.world.WellFormed → later.world.WellFormed)
    (second : indexer.Outlived place later state) : indexer.Outlived place start state := by
  obtain ⟨folder, same, kept, stands⟩ := first
  refine ⟨second.folder.trans folder, same.trans (second.world.mono ?_), ?_, ?_⟩
  · rintro names (⟨file, leads⟩ | spot)
    · rw [folder] at leads
      exact .inl ⟨file, (same.locate_iff _ names).mp leads⟩
    · exact .inr (spot.imp (same.locate_iff _ names).mp (same.locate_iff _ names).mp)
  · intro before files
    obtain ⟨between, files'⟩ := kept before files
    rw [← folder] at files' ⊢
    exact second.kept between files'
  · intro snapshot valid before
    obtain ⟨snapshot', between⟩ := stands snapshot valid before
    exact second.stands snapshot' (wellFormed valid) between

theorem of_follows {action : IndexAct α} (follows : ∀ start, Preserves (Follows start) action) :
    Preserves (indexer.Outlived place start) action :=
  fun state outlived => outlived.follows (follows state state (Follows.refl state))

theorem save {tree : DigestTree} (rooted : tree.rootPath = place)
    (of : start.world.WellFormed → ∃ rules files,
      tree = .ofFiles indexer.env.digest rules place files ∧ ∀ tree ∈ files, tree.WellFormed)
    (record : Record) :
    Preserves (indexer.Outlived place start)
      (indexer.store.save indexer.env tree record : IndexAct Unit) := by
  rintro state ⟨folder, same, kept, stands⟩
  have later := @SnapshotStore.sameApart_save indexer.env indexer.store state.world tree record
    state.world (.refl _ _)
  rw [rooted] at later
  refine ⟨folder, same.trans (later.mono (fun names spot => .inr ?_)), ?_, ?_⟩
  · exact spot.imp (same.locate_iff _ names).mp (same.locate_iff _ names).mp
  · intro before files
    obtain ⟨between, files'⟩ := kept before files
    exact ⟨between, keepsIndex_of_snapshot files' later⟩
  · intro snapshot wellFormed before
    obtain ⟨snapshot', between⟩ := stands snapshot wellFormed before
    obtain ⟨rules, files, rfl, valid⟩ := of wellFormed
    obtain ⟨after, saved, stands'⟩ := between.save valid record
    rw [runFrom_lift, saved]
    exact ⟨_, stands'⟩

end Outlived

private theorem finishing {tree : DigestTree} {record : Record} {outcome : RunResult}
    (rooted : tree.rootPath = place) (of : start.world.WellFormed → ∃ rules files,
      tree = .ofFiles indexer.env.digest rules place files ∧ ∀ tree ∈ files, tree.WellFormed) :
    Preserves (indexer.Outlived place start) (do
      indexer.store.save indexer.env tree record
      ChunkIndex.save indexer.env.gpu
      return outcome : IndexAct RunResult) :=
  .bind (Outlived.save rooted of record) (fun _ => .bind
    (Outlived.of_follows (fun _ => Follows.save indexer.env.gpu)) (fun _ => .pure _))

theorem fullRun_outlived :
    indexer.Outlived place start (runFrom start (indexer.fullRun place project)).2 := by
  have clearing := Outlived.of_follows (fun _ => Follows.clear) start (.refl indexer place start)
  have wellFormed := ChunkIndex.wellFormed_clear start
  rw [fullRun, runFrom_bind]
  rcases emptied : runFrom start ChunkIndex.clear with ⟨fault | _, cleared⟩
  · rwa [emptied] at clearing
  · rw [emptied] at clearing wellFormed
    rw [andThen_ok, runFrom_bind]
    have building := Outlived.of_follows (fun _ => Follows.of_still
      (fun _ => DigestTree.still_build indexer.env.digest .standard place)) cleared clearing
    rcases built : runFrom cleared (DigestTree.build indexer.env.digest .standard place :
        IndexAct DigestTree) with ⟨fault | tree, between⟩
    · rwa [built] at building
    · rw [built] at building
      obtain ⟨world, looked, rfl⟩ := runFrom_lift_ok built
      obtain ⟨rfl, rfl⟩ := DigestTree.build_ok looked
      refine Preserves.bind (Outlived.of_follows (fun _ => addFiles_follows project _))
        (fun _ => @finishing indexer place start _ _ _ rfl (fun valid => ⟨_, _, rfl, ?_⟩)) _
        building
      exact (wellFormed valid).entryAt?

section Place

variable (isPlace : place.IsPlace)

include isPlace

theorem changeRun_outlived :
    indexer.Outlived place start (runFrom start (indexer.changeRun place project)).2 := by
  have looking := Outlived.of_follows (fun _ => Follows.of_still
      (fun _ => indexer.store.still_changesSince indexer.env place.toString)) start
    (.refl indexer place start)
  rw [changeRun, runFrom_bind]
  rcases found : runFrom start (indexer.store.changesSince indexer.env place.toString :
      IndexAct (LooseChanges × DigestTree)) with ⟨fault | ⟨changes, tree⟩, between⟩
  · rwa [found] at looking
  · rw [found] at looking
    obtain ⟨world, looked, rfl⟩ := runFrom_lift_ok found
    obtain ⟨-, rfl⟩ := SnapshotStore.tree_of_changesSince isPlace looked
    rw [andThen_ok]
    dsimp only
    split
    · exact looking
    · refine Preserves.bind (.orFail _) (fun toRemove => .bind (Outlived.of_follows
        (fun _ => removeFiles_follows project toRemove)) (fun removed => ?_)) _ looking
      refine .bind (.orFail _) (fun toReindex => .bind (.orFail _) (fun files => ?_))
      exact .bind (Outlived.of_follows (fun _ => addFiles_follows project files)) (fun _ =>
        @finishing indexer place start _ _ _ rfl (fun valid => ⟨_, _, rfl, valid.entryAt?⟩))

/-- A run writes nothing but the files of the index and of the snapshot. -/
theorem run_outlived {path : String} {name : Value} {full : Bool}
    (resolved : runFrom start.world (World.resolve path) = (.ok place, start.world)) :
    indexer.Outlived place start (runFrom start (indexer.run path name full)).2 := by
  have chosen : indexer.Outlived place start (runFrom start (do
      if full || !(← indexer.store.has indexer.env place.toString) then
        indexer.fullRun place (projectName name place)
      else indexer.changeRun place (projectName name place))).2 := by
    have asked := indexer.store.has_snd indexer.env place.toString start.world
    rw [runFrom_bind, runFrom_lift, asked]
    rcases (runFrom start.world (indexer.store.has indexer.env place.toString)).1 with fault | has
    · exact .refl indexer place start
    · rw [andThen_ok]
      split
      · exact fullRun_outlived
      · exact changeRun_outlived isPlace
  rw [run, runFrom_bind, runFrom_lift, resolved, andThen_ok, runFrom_tryCatch]
  rcases ended : runFrom start _ with ⟨fault | result, after⟩
  · rwa [ended] at chosen
  · rwa [ended] at chosen

end Place

end Indexer

end CodeAtlas
