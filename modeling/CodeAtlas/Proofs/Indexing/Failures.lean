import CodeAtlas.Proofs.Indexing.Freshness

/-!
# How runs fail

With an encoder that gives vectors of one length and a disk that takes what is written, a run
fails in one way only: a file that was removed or modified has a live record whose identifier is
known more than once.  Identifiers are never forgotten, so that this comes about by itself: a
file that is modified, and still has a chunk at the same lines, cannot be modified again.
-/

namespace CodeAtlas

namespace Indexer

open IndexState

variable {indexer : Indexer} {place : Path} {dimension : Nat} {view : IndexView}
  {snapshot : Option FileContents} {start before : IndexState} {world : World} {call : RunCall}
  {calls : List RunCall}

theorem Finds.toRemove_of_missing {changes : Changes} (finds : indexer.Finds place world changes)
    (isPlace : place.IsPlace)
    (missing : indexer.Remembers place world none) : changes.toRemove = [] := by
  obtain ⟨tree, found⟩ := finds
  have noNull := Path.hasNull_ofString_toString isPlace
  have keeps : world.Keeps (indexer.store.snapshotFile indexer.env place) none := missing
  obtain ⟨present, between, first, rest⟩ := runFrom_bind_ok found
  have built : runFrom world (DigestTree.build indexer.env.digest
      (indexer.store.rulesFor place.toString) place) = (.ok present, between) := by
    simpa [SnapshotStore.presentTree, World.runFrom_resolve noNull,
      Path.resolve_toString isPlace] using first
  obtain ⟨rfl, -⟩ := DigestTree.build_ok built
  have nothing : runFrom between (indexer.store.load indexer.env place.toString) =
      (.ok none, between) := by
    simp [SnapshotStore.load, World.runFrom_resolve noNull, Path.resolve_toString isPlace,
      keeps.exists?]
  have finds : indexer.Finds place between (Changes.allAdded present) := by
    refine ⟨present, ?_⟩
    rw [SnapshotStore.changesSince, runFrom_then first, runFrom_bind, nothing]
    rfl
  rw [Finds.unique ⟨tree, found⟩ finds]
  simp [Changes.allAdded, Changes.toRemove]

/-- A live record of the given identifier belongs to a file, and the identifier is known more
than once. -/
def KnownTwice (project : Value) (state : IndexState) (file identifier : String) : Prop :=
  1 < state.chunks.names.count identifier ∧
    ∃ record, (runFrom state (ChunkIndex.recordOf (.text identifier))).1 = .ok (some record) ∧
      Catalog.isOwned (.text file) project record = true

/-- Removing a file fails exactly if one of its records has an identifier that is known more
than once. -/
theorem removeFile_fails_iff {state : IndexState}
    (ready : indexer.Ready place dimension view snapshot state) (file : String) (project : Value) :
    (∃ fault after, runFrom state (ChunkIndex.removeFile (.text file) project) =
      (.error fault, after)) ↔ ∃ identifier, KnownTwice project state file identifier := by
  have names : state.chunks.names = view.names := ready.shows.2.1
  rcases ready.shows.removeFile_cases ready.inOrder file project with
    ⟨once, count, after, removed, -⟩ | ⟨name, record, live, after, known, owned, twice, failed, -⟩
  · constructor
    · rintro ⟨fault, after', failed⟩
      rw [removed] at failed
      cases congrArg Prod.fst failed
    · rintro ⟨identifier, twice, record, known, owned⟩
      rw [ready.shows.recordOf] at known
      have single := once identifier record (Except.ok.inj known) owned
      rw [names] at twice
      omega
  · refine ⟨fun _ => ⟨name, ?_, record, ?_, owned⟩, fun _ => ⟨_, _, failed⟩⟩
    · rw [names]
      exact twice
    · rw [ready.shows.recordOf, known]

/-- A run on changes that finds an identifier in its way: that of a record of a file which was
removed or modified. -/
def Blocked (indexer : Indexer) (place : Path) (project : Value) (state : IndexState)
    (identifier : String) : Prop :=
  ∃ changes file, indexer.Finds place state.world changes ∧ file ∈ changes.toRemove ∧
    KnownTwice project state file identifier

/-- An identifier is in the way exactly if the files to remove do not go once each. -/
theorem exists_blocked_iff {state : IndexState} {changes : Changes} (project : Value)
    (ready : indexer.Ready place dimension view snapshot state)
    (finds : indexer.Finds place state.world changes) :
    (∃ identifier, indexer.Blocked place project state identifier) ↔
      ¬ view.Once (ownedBy project changes.toRemove) := by
  have names : state.chunks.names = view.names := ready.shows.2.1
  constructor
  · rintro ⟨identifier, changes', file, finds', member, twice, record, known, owned⟩ once
    obtain rfl := finds.unique finds'
    rw [ready.shows.recordOf] at known
    have single := once identifier record (Except.ok.inj known)
      (List.any_eq_true.mpr ⟨file, member, owned⟩)
    rw [names] at twice
    omega
  · intro often
    simp only [IndexView.Once, not_forall, Nat.not_le] at often
    obtain ⟨identifier, record, known, owned, twice⟩ := often
    obtain ⟨file, member, owned'⟩ := List.any_eq_true.mp owned
    refine ⟨identifier, changes, file, finds, member, ?_, record, ?_, owned'⟩
    · rw [names]
      exact twice
    · rw [ready.shows.recordOf, known]

/-- A run succeeds with nothing in its way, or fails with the identifier that is. -/
theorem Effect.success_or_blocked {project : Value} {full : Bool} {result : RunResult}
    {view' : IndexView} {snapshot' : Option FileContents}
    (effect : indexer.Effect place project start view full snapshot result view' snapshot')
    (ready : indexer.Ready place dimension view snapshot start) (isPlace : place.IsPlace) :
    result.success = true ∧
        ¬ (full = false ∧ ∃ identifier, indexer.Blocked place project start identifier) ∨
      full = false ∧ ∃ identifier, indexer.Blocked place project start identifier ∧
        result = .failed (Fault.missingKey (.text identifier)).message := by
  have names : start.chunks.names = view.names := ready.shows.2.1
  cases effect with
  | rebuilt wanted =>
    refine .inl ⟨rfl, ?_⟩
    rintro ⟨notFull, identifier, changes, file, finds, member, -⟩
    obtain rfl : snapshot = none := wanted.resolve_left (by simp [notFull])
    rw [finds.toRemove_of_missing isPlace ready.stands.snapshot] at member
    cases member
  | unchanged notFull known finds same =>
    refine .inl ⟨rfl, ?_⟩
    rintro ⟨-, blocked⟩
    apply (exists_blocked_iff project ready finds).mp blocked
    intro name record live owned
    rw [Changes.toRemove_eq_nil same] at owned
    cases owned
  | updated notFull known finds changed once =>
    refine .inl ⟨rfl, ?_⟩
    rintro ⟨-, blocked⟩
    exact (exists_blocked_iff project ready finds).mp blocked once
  | @stopped old changes name record live notFull known finds changed here owned twice =>
    refine .inr ⟨notFull, name, ?_, rfl⟩
    obtain ⟨file, member, owned'⟩ := List.any_eq_true.mp owned
    refine ⟨changes, file, finds, member, ?_, record, ?_, owned'⟩
    · rw [names]
      exact twice
    · rw [ready.shows.recordOf, here]

end Indexer

open Indexer in
/-- After any edits and runs, a run comes to a result.  It fails exactly if it is to bring in
changes and one of the files to remove has a live record whose identifier is known more than
once; the failure names such an identifier. -/
theorem run_fails_iff_blocked {indexer : Indexer} {place : Path} {dimension : Nat}
    {view : IndexView} {snapshot : Option FileContents} {start before : IndexState}
    {calls : List RunCall} {world : World} {call : RunCall}
    (ready : indexer.Ready place dimension view snapshot start)
    (history : indexer.Reached place dimension start calls before)
    (edited : indexer.Edited place before world) (suits : call.Suits place dimension world) :
    (∀ file project, (∃ fault after, runFrom { before with world }
        (ChunkIndex.removeFile (.text file) project) = (.error fault, after)) ↔
      ∃ identifier, KnownTwice project { before with world } file identifier) ∧
    ∃ result after, runFrom { before with world } (indexer.perform call) = (.ok result, after) ∧
      (result.success = false ↔ call.full = false ∧ ∃ identifier,
        indexer.Blocked place (projectName call.name place) { before with world } identifier) ∧
      (result.success = false → ∃ identifier,
        indexer.Blocked place (projectName call.name place) { before with world } identifier ∧
          result = .failed (Fault.missingKey (.text identifier)).message) := by
  obtain ⟨view, snapshot, ready⟩ := history.ready ready
  have ready' := edited.ready ready
  have isPlace := edited.wellFormed.resolve suits.resolved
  obtain ⟨result, view', snapshot', after, ran, effect, -⟩ := perform_effect ready edited suits
  refine ⟨removeFile_fails_iff ready', result, after, ran, ?_⟩
  rcases effect.success_or_blocked (ready'.withEncoder call.encoder) isPlace with
    ⟨success, free⟩ | ⟨notFull, identifier, blocked, rfl⟩
  · refine ⟨⟨fun failed => ?_, fun blocked => absurd blocked free⟩, fun failed => ?_⟩
    · rw [success] at failed
      cases failed
    · rw [success] at failed
      cases failed
  · exact ⟨⟨fun _ => ⟨notFull, identifier, blocked⟩, fun _ => rfl⟩,
      fun _ => ⟨identifier, blocked, rfl⟩⟩

theorem Sample.reached_reindexed :
    indexer.Reached place 1 opened [call false, call false] reindexed := by
  obtain ⟨_, _, -, -, inFolder, -⟩ := indexed_ready (proper_lone "x")
  exact .run (reached_indexed (proper_lone "x")) (edited_revised (proper_lone "xx") inFolder)
    (suits_call false)

open Indexer Sample in
/-- A file that is modified a second time: what the run comes to. -/
theorem second_change_fails_iff_blocked :
    ∃ before world, indexer.Ready place 1 .empty none opened ∧
      indexer.Reached place 1 opened [call false, call false] before ∧
      indexer.Edited place before world ∧ (call false).Suits place 1 world ∧
      (∀ file project, (∃ fault after, runFrom { before with world }
          (ChunkIndex.removeFile (.text file) project) = (.error fault, after)) ↔
        ∃ identifier, KnownTwice project { before with world } file identifier) ∧
      ∃ result after, runFrom { before with world } (indexer.perform (call false)) =
          (.ok result, after) ∧
        (result.success = false ↔ (call false).full = false ∧ ∃ identifier,
          indexer.Blocked place (projectName (call false).name place) { before with world }
            identifier) ∧
        (result.success = false → ∃ identifier,
          indexer.Blocked place (projectName (call false).name place) { before with world }
              identifier ∧
            result = .failed (Fault.missingKey (.text identifier)).message) := by
  have edited := edited_revised (proper_lone "xxx") reindexed_eq.1
  exact ⟨reindexed, _, ready_opened, reached_reindexed, edited, suits_call false,
    run_fails_iff_blocked ready_opened reached_reindexed edited (suits_call false)⟩

open Indexer Sample in
/-- The second change of a file makes the run fail, and to remove the file fails before. -/
theorem second_change_fails :
    ∃ before world, indexer.Ready place 1 .empty none opened ∧
      indexer.Reached place 1 opened [call false, call false] before ∧
      indexer.Edited place before world ∧ (call false).Suits place 1 world ∧
      (call false).encoder.IsTotal ∧
      (∃ fault after, runFrom { before with world }
        (ChunkIndex.removeFile (.text "a.py") (.text "project")) = (.error fault, after)) ∧
      ∃ result after, runFrom { before with world } (indexer.perform (call false)) =
          (.ok result, after) ∧ result.success = false := by
  have told : (runFrom { reindexed with world := revised reindexed.world (lone "xxx") }
        (ChunkIndex.removeFile (.text "a.py") (.text "project"))).1.toOption = none ∧
      (rerun reindexed (lone "xxx")).1.toOption.map RunResult.success = some false := by
    decide +kernel
  obtain ⟨fault, failed⟩ := exists_fault told.1
  obtain ⟨result, ran, notDone⟩ := exists_result told.2
  exact ⟨reindexed, _, ready_opened, reached_reindexed,
    edited_revised (proper_lone "xxx") reindexed_eq.1, suits_call false, isTotal_encoder,
    ⟨fault, _, failed⟩, result, _, ran, notDone⟩

end CodeAtlas
