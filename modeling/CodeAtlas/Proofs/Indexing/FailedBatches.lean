import CodeAtlas.Proofs.Indexing.Failures
import CodeAtlas.Proofs.Indexing.Rerun

/-!
# Batches that the encoder fails for

Chunks are embedded batch by batch, and a batch for which the encoder fails is left out.  The
snapshot that the run saves has all files nevertheless.  So the next run on the same project
finds nothing to do, and what was left out stays out.
-/

namespace CodeAtlas

namespace Encoder

variable {encoder : Encoder}

/-- Where the encoder does not fail it gives one vector for each text. -/
def GivesEach (encoder : Encoder) : Prop :=
  ∀ before texts vectors, encoder.encode before texts = .ok vectors →
    vectors.length = texts.length

/-- The chunks in batches for which the encoder does not fail. -/
def answered (encoder : Encoder) (chunks : List Chunk) : List Chunk :=
  ((batches 32 chunks).zipIdx.filter (fun batch => (encoder.answer batch).isOk)).flatMap Prod.fst

theorem IsTotal.givesEach (total : encoder.IsTotal) : encoder.GivesEach := by
  intro before texts vectors encoded
  obtain ⟨others, encoded', length⟩ := total before texts
  rw [encoded] at encoded'
  rwa [Except.ok.inj encoded']

theorem IsTotal.answered_eq (total : encoder.IsTotal) (chunks : List Chunk) :
    encoder.answered chunks = chunks := by
  have all : ∀ batch ∈ (batches 32 chunks).zipIdx, (encoder.answer batch).isOk = true := by
    intro batch _
    obtain ⟨vectors, encoded, -⟩ := total batch.2 (batch.1.map Chunk.excerpt)
    rw [answer, encoded]
    rfl
  rw [answered, List.filter_eq_self.mpr all, flatMap_zipIdx_batches]

theorem length_answered (encoder : Encoder) (chunks : List Chunk) :
    (encoder.answered chunks).length ≤ chunks.length := by
  have fewer := (@List.filter_sublist _ (fun batch => (encoder.answer batch).isOk)
    (batches 32 chunks).zipIdx).flatMap Prod.fst |>.length_le
  rwa [flatMap_zipIdx_batches] at fewer

theorem GivesEach.embedBatch_identifiers (each : encoder.GivesEach) (batch : List Chunk × Nat) :
    (encoder.embedBatch batch).map Embedded.identifier =
      if (encoder.answer batch).isOk then batch.1.map Chunk.identifier else [] := by
  cases encoded : encoder.answer batch with
  | error fault => simp [embedBatch, encoded, Except.isOk, Except.toBool]
  | ok vectors =>
    have length : vectors.length = batch.1.length := by
      simpa using each _ _ _ encoded
    have entries := congrArg (List.map Prod.fst) (embedBatch_entries encoded length)
    rwa [List.map_map, List.map_map] at entries

theorem GivesEach.flatMap_identifiers (each : encoder.GivesEach) (chunks : List Chunk) :
    ((batches 32 chunks).zipIdx.flatMap encoder.embedBatch).map Embedded.identifier =
      (encoder.answered chunks).map Chunk.identifier := by
  unfold answered
  induction (batches 32 chunks).zipIdx with
  | nil => rfl
  | cons batch rest ih =>
    rw [List.flatMap_cons, List.map_append, ih, each.embedBatch_identifiers, List.filter_cons]
    split
    · rw [List.flatMap_cons, List.map_append]
    · rfl

end Encoder

theorem World.contentAt_of_lookUp_eq {world other : World} {rules : IgnoreRules} {place : Path}
    (same : other.lookUp place = world.lookUp place) :
    other.contentAt rules place = world.contentAt rules place := by
  rw [contentAt, contentAt, entryAt?, entryAt?, same]

namespace IndexState

def IsLive (state : IndexState) (identifier : String) : Prop :=
  ∃ record, (runFrom state (ChunkIndex.recordOf (.text identifier))).1 = .ok (some record)

theorem Shows.isLive_iff {state : IndexState} {view : IndexView} (shows : state.Shows view)
    (identifier : String) : state.IsLive identifier ↔ view.live identifier ≠ none := by
  simp only [IsLive, shows.recordOf, Except.ok.injEq, Option.ne_none_iff_exists']

end IndexState

namespace Indexer

open IndexState

variable {indexer : Indexer} {place : Path} {project : Value} {dimension : Nat}
  {view view' : IndexView} {snapshot snapshot' : Option FileContents}
  {start before after : IndexState} {world world' : World} {full : Bool} {result : RunResult}
  {call later : RunCall} {files : List String} {identifier : String}

theorem annotate_identifiers {chunks : List Chunk} {items : List Embedded}
    (fewer : items.length ≤ chunks.length) :
    (annotate project chunks items).map Embedded.identifier =
      items.map Embedded.identifier := by
  conv => rhs; rw [← List.map_snd_zip fewer]
  rw [annotate, ← List.map_uncurry_zip_eq_zipWith, List.map_map, List.map_map]
  rfl

theorem embed_answered (each : indexer.env.encoder.GivesEach) (project : Value)
    (chunks : List Chunk) :
    (indexer.embed project chunks).map Embedded.identifier =
      (indexer.env.encoder.answered chunks).map Chunk.identifier := by
  have identifiers := each.flatMap_identifiers chunks
  have fewer : ((batches 32 chunks).zipIdx.flatMap indexer.env.encoder.embedBatch).length ≤
      chunks.length := by
    have lengths := congrArg List.length identifiers
    rw [List.length_map, List.length_map] at lengths
    rw [lengths]
    exact indexer.env.encoder.length_answered chunks
  rw [embed_eq_annotate, annotate_identifiers fewer, identifiers]

/-- A run on changes leaves a live record alone: it belongs to no file that was removed or
modified, or its identifier is not listed. -/
def Retains (indexer : Indexer) (place : Path) (project : Value) (full : Bool)
    (state : IndexState) (identifier : String) : Prop :=
  full = false ∧ runFrom state.world (indexer.store.has indexer.env place.toString) =
      (.ok true, state.world) ∧
    ∃ changes record, indexer.Finds place state.world changes ∧
      (runFrom state (ChunkIndex.recordOf (.text identifier))).1 = .ok (some record) ∧
      (identifier ∈ state.chunks.names → ownedBy project changes.toRemove record = false)

section Place

variable (isPlace : place.IsPlace)

include isPlace

/-- With a snapshot, a run on changes retains what it does not take out. -/
theorem retains_iff {old : FileContents} {changes : Changes}
    (ready : indexer.Ready place dimension view (some old) start)
    (finds : indexer.Finds place start.world changes) :
    indexer.Retains place project false start identifier ↔
      (view.without (ownedBy project changes.toRemove)).live identifier ≠ none := by
  have names : start.chunks.names = view.names := ready.shows.2.1
  have has := ready.stands.has isPlace
  rw [Option.ne_none_iff_exists', Retains, names]
  simp only [ready.shows.recordOf, Except.ok.injEq, IndexView.live_without_iff]
  constructor
  · rintro ⟨-, -, changes', record, finds', known, stays⟩
    obtain rfl := finds.unique finds'
    exact ⟨record, known, stays⟩
  · rintro ⟨record, known, stays⟩
    exact ⟨trivial, has, changes, record, finds, known, stays⟩

/-- After a run that succeeded, the live identifiers are those of the chunks that were answered
and those that the run retained. -/
theorem Effect.live_iff
    (effect : indexer.Effect place project start view full snapshot result view' snapshot')
    (success : result.success = true) (ready : indexer.Ready place dimension view snapshot start)
    (wellFormed : start.world.WellFormed) (each : indexer.env.encoder.GivesEach)
    (renews : indexer.Renews place full start files) :
    view'.live identifier ≠ none ↔
      identifier ∈ (indexer.env.encoder.answered (indexer.chunksOf start.world place
          (files.filter Language.isSourcePath))).map Chunk.identifier ∨
        indexer.Retains place project full start identifier := by
  cases effect with
  | @rebuilt cleared tree items wanted emptied built made =>
    have wellFormed' := ChunkIndex.wellFormed_clear.after wellFormed emptied
    have follows := Follows.clear.after (.refl start) emptied
    obtain rfl := renews.eq_files isPlace wanted ready.stands emptied built
    have listed := DigestTree.mem_files_of_build wellFormed' built
    have nothing : ¬ indexer.Retains place project full start identifier := by
      rintro ⟨notFull, has, -⟩
      obtain rfl : snapshot = none := wanted.resolve_left (by simp [notFull])
      rw [ready.stands.has isPlace] at has
      cases congrArg Prod.fst has
    rw [chunksOf_before isPlace follows wellFormed wellFormed'
      (fun file known => (listed file).mp known), IndexView.live_add_iff, made,
      embed_answered each]
    simp [IndexView.empty, nothing]
  | @unchanged old changes notFull known finds same =>
    subst known notFull
    obtain rfl := renews.eq_toReindex isPlace rfl ready.stands finds
    have nothing : ownedBy project [] = fun _ => false := rfl
    rw [retains_iff isPlace ready finds, Changes.toReindex_eq_nil same,
      Changes.toRemove_eq_nil same, nothing, IndexView.without_none]
    simp [chunksOf, Encoder.answered, batches]
  | @updated old changes items count notFull known finds changed once made =>
    subst known notFull
    obtain rfl := renews.eq_toReindex isPlace rfl ready.stands finds
    rw [retains_iff isPlace ready finds, IndexView.live_add_iff, made,
      embed_answered each]
  | stopped => cases success

/-- After a run that succeeded the snapshot has the digests of all files, also of those that
were left out. -/
theorem Effect.remembers_all
    (effect : indexer.Effect place project start view full snapshot result view' snapshot')
    (success : result.success = true) (outside : indexer.Outside place start)
    (wellFormed : start.world.WellFormed)
    (remembers : indexer.Remembers place start.world snapshot) :
    ∃ content, snapshot' = some content ∧ ∀ names, (content names).map indexer.env.digest =
      (start.world.contentAt (indexer.store.rulesFor place.toString) place names).map
        indexer.env.digest := by
  cases effect with
  | @rebuilt cleared tree items wanted emptied built made =>
    have follows := Follows.clear.after (.refl start) emptied
    have same := outside.lookUp_eq isPlace (fun _ spot => .inl spot) follows.world
    -- A full run has rules of its own, which take in the same files here.
    obtain ⟨document, ⟨located, leads, -⟩, -⟩ := remembers.keeps
    have notInside := outside located (.inr (.inl leads))
    refine ⟨_, rfl, fun names => ?_⟩
    rw [World.contentAt_of_lookUp_eq same,
      SnapshotStore.contentAt_rulesFor isPlace leads notInside wellFormed]
  | @unchanged old changes notFull known finds same =>
    subst known
    exact ⟨old, rfl, (finds.digests isPlace wellFormed remembers).1.mp same⟩
  | updated => exact ⟨_, rfl, fun names => rfl⟩
  | stopped => cases success

/-- A run that finds the digests of its snapshot does nothing. -/
theorem Effect.eq_nothing {old : FileContents}
    (effect : indexer.Effect place project start view false (some old) result view' snapshot')
    (wellFormed : start.world.WellFormed)
    (remembers : indexer.Remembers place start.world (some old))
    (same : ∀ names, (old names).map indexer.env.digest =
      (start.world.contentAt (indexer.store.rulesFor place.toString) place names).map
        indexer.env.digest) : result = .nothing ∧ view' = view := by
  have noChanges : ∀ {other changes}, some old = some other →
      indexer.Finds place start.world changes → changes.hasChanges = false := by
    rintro _ changes ⟨⟩ finds
    exact (finds.digests isPlace wellFormed remembers).1.mpr same
  cases effect with
  | rebuilt wanted => simp at wanted
  | unchanged => exact ⟨rfl, rfl⟩
  | updated _ known finds changed =>
    rw [noChanges known finds] at changed
    cases changed
  | stopped _ known finds changed =>
    rw [noChanges known finds] at changed
    cases changed

/-- What a run makes anew is determined. -/
theorem Effect.renews {encoder : Encoder}
    (effect : (indexer.withEncoder encoder).Effect place project start view full snapshot result
      view' snapshot')
    (stands : indexer.Stands place snapshot start.world) :
    ∃ files, indexer.Renews place full start files := by
  have has := stands.has isPlace
  cases effect with
  | rebuilt wanted emptied built =>
    refine ⟨_, .all (wanted.imp_right ?_) emptied built⟩
    rintro rfl
    exact has
  | unchanged notFull known finds | updated notFull known finds | stopped notFull known finds =>
    subst known
    exact ⟨_, .changed notFull has finds⟩

omit isPlace in
/-- A run that failed leaves the snapshot, and with it the changes to bring in. -/
theorem Effect.of_failed
    (effect : indexer.Effect place project start view full snapshot result view' snapshot')
    (failed : result.success = false) :
    full = false ∧ snapshot' = snapshot ∧ ∃ old changes, snapshot = some old ∧
      indexer.Finds place start.world changes := by
  cases effect with
  | stopped notFull known finds => exact ⟨notFull, rfl, _, _, known, finds⟩
  | _ => cases failed

/-- With the same snapshot, the same files of a project are made anew. -/
theorem Finds.mem_identifiers_iff {old : FileContents} {changes changes' : Changes}
    (finds : indexer.Finds place start.world changes)
    (finds' : indexer.Finds place after.world changes') (wellFormed : start.world.WellFormed)
    (wellFormed' : after.world.WellFormed)
    (remembers : indexer.Remembers place start.world (some old))
    (remembers' : indexer.Remembers place after.world (some old))
    (same : after.world.lookUp place = start.world.lookUp place) :
    identifier ∈ (indexer.chunksOf after.world place
        (changes'.toReindex.filter Language.isSourcePath)).map Chunk.identifier ↔
      identifier ∈ (indexer.chunksOf start.world place
        (changes.toReindex.filter Language.isSourcePath)).map Chunk.identifier := by
  obtain ⟨-, -, reindexes⟩ := finds.digests isPlace wellFormed remembers
  obtain ⟨-, -, reindexes'⟩ := finds'.digests isPlace wellFormed' remembers'
  rw [Indexer.mem_identifiers_iff isPlace wellFormed reindexes,
    Indexer.mem_identifiers_iff isPlace wellFormed' reindexes',
    World.contentAt_of_lookUp_eq same]

theorem Effect.live_iff_of_withEncoder {encoder : Encoder}
    (effect : (indexer.withEncoder encoder).Effect place project start view full snapshot result
      view' snapshot') (success : result.success = true)
    (ready : indexer.Ready place dimension view snapshot start)
    (wellFormed : start.world.WellFormed) (each : encoder.GivesEach)
    (renews : indexer.Renews place full start files) :
    view'.live identifier ≠ none ↔
      identifier ∈ (encoder.answered (indexer.chunksOf start.world place
          (files.filter Language.isSourcePath))).map Chunk.identifier ∨
        indexer.Retains place project full start identifier := by
  have live := @Effect.live_iff (indexer.withEncoder encoder) place project dimension view view'
    snapshot snapshot' start full result files identifier isPlace effect success
    (ready.withEncoder encoder) wellFormed each (renews.withEncoder encoder)
  rwa [chunksOf_withEncoder] at live

end Place

/-- A run leaves a project alone that has no files of the index or of the snapshot. -/
theorem perform_lookUp (wellFormed : world.WellFormed) (suits : call.Suits place dimension world)
    (outside : indexer.Outside place { before with world })
    (ran : runFrom { before with world } (indexer.perform call) = (.ok result, after)) :
    after.world.lookUp place = world.lookUp place := by
  have isPlace := wellFormed.resolve suits.resolved
  have outlived := @run_outlived (indexer.withEncoder call.encoder) place { before with world }
    isPlace call.path call.name call.full suits.resolved
  have ended : runFrom { before with world } ((indexer.withEncoder call.encoder).run call.path
      call.name call.full) = (.ok result, after) := ran
  rw [ended] at outlived
  exact outside.lookUp_eq isPlace (fun _ spot => spot) outlived.world

/-- After a run that succeeded, a run on the same project does nothing. -/
theorem Effect.perform_again
    (effect : (indexer.withEncoder call.encoder).Effect place project { before with world } view
      full snapshot result view' snapshot') (success : result.success = true)
    (outside : indexer.Outside place { before with world }) (wellFormed : world.WellFormed)
    (remembers : indexer.Remembers place world snapshot)
    (ready : indexer.Ready place dimension view' snapshot' after)
    (edited : indexer.Edited place after world') (same : world'.lookUp place = world.lookUp place)
    (suits : later.Suits place dimension world') (notFull : later.full = false) :
    ∃ after' snapshot'', runFrom { after with world := world' } (indexer.perform later) =
        (.ok .nothing, after') ∧ indexer.Ready place dimension view' snapshot'' after' := by
  have isPlace := edited.wellFormed.resolve suits.resolved
  obtain ⟨content, rfl, digests⟩ :=
    effect.remembers_all isPlace success outside wellFormed remembers
  obtain ⟨result', view'', snapshot'', after', ran, effect', -, ready'⟩ :=
    perform_effect ready edited suits
  rw [notFull] at effect'
  obtain ⟨rfl, rfl⟩ := effect'.eq_nothing isPlace edited.wellFormed
    (edited.ready ready).stands.snapshot (fun names => by
      rw [World.contentAt_of_lookUp_eq same]
      exact digests names)
  exact ⟨after', snapshot'', ran, ready'⟩

end Indexer

namespace Sample

open Indexer

variable {sources : List (String × ByteArray)} {kept : Contents}
  {snapshot record : Option Value} {chunks : ChunkIndex}

def refusing : RunCall :=
  ⟨"/project", .ofText? (some "project"), false, ⟨fun _ _ => .error (.modelFailed "model failure")⟩⟩

theorem givesEach_refusing : refusing.encoder.GivesEach :=
  fun _ _ _ encoded => by cases encoded

theorem answered_refusing (chunks : List Chunk) : refusing.encoder.answered chunks = [] := by
  simp [Encoder.answered, Encoder.answer, refusing, Except.isOk, Except.toBool]

theorem suits_refusing : refusing.Suits place 1 (world sources kept snapshot record) :=
  ⟨resolve_project _, fun _ _ _ encoded => by cases encoded⟩

/-- The files of the index and of the snapshot are not in the project. -/
theorem outside_world (same : chunks.folder = folder) :
    indexer.Outside place ⟨chunks, world sources kept snapshot record⟩ := by
  rintro names (index | leads | leads)
  · exact spots_outside same index
  · obtain rfl := Except.ok.inj leads
    decide
  · obtain rfl := Except.ok.inj leads
    decide

end Sample

open Indexer in
/-- A run for which the encoder may fail, and a later one on the same project for which it does
not.  If the first run succeeds, the later one does nothing, and the live identifiers are those
of the chunks that the first run made and the encoder answered, and those that the first run
left alone.  If the first run fails, the later one makes all its chunks again, unless it fails
as well. -/
theorem later_run_skips_failed_batches {indexer : Indexer} {place : Path} {dimension : Nat}
    {view : IndexView} {snapshot : Option FileContents} {start before : IndexState}
    {calls : List RunCall} {world : World} {call : RunCall}
    (ready : indexer.Ready place dimension view snapshot start)
    (history : indexer.Reached place dimension start calls before)
    (edited : indexer.Edited place before world) (suits : call.Suits place dimension world)
    (each : call.encoder.GivesEach) (outside : indexer.Outside place { before with world }) :
    ∃ files result after, indexer.Renews place call.full { before with world } files ∧
      runFrom { before with world } (indexer.perform call) = (.ok result, after) ∧
      ∀ world' later, indexer.Edited place after world' →
        world'.lookUp place = after.world.lookUp place → later.Suits place dimension world' →
        later.full = false → later.encoder.IsTotal →
        ∃ result' after', runFrom { after with world := world' } (indexer.perform later) =
            (.ok result', after') ∧
          (result.success = true → result' = .nothing ∧ ∀ identifier,
            after'.IsLive identifier ↔
              identifier ∈ (call.encoder.answered (indexer.chunksOf world place
                (files.filter Language.isSourcePath))).map Chunk.identifier ∨
              indexer.Retains place (projectName call.name place) call.full
                { before with world } identifier) ∧
          (result.success = false → result'.success = true → ∀ identifier,
            after'.IsLive identifier ↔
              identifier ∈ (indexer.chunksOf world place
                (files.filter Language.isSourcePath)).map Chunk.identifier ∨
              indexer.Retains place (projectName later.name place) false
                { after with world := world' } identifier) := by
  have isPlace := edited.wellFormed.resolve suits.resolved
  obtain ⟨view, snapshot, ready⟩ := history.ready ready
  have here := edited.ready ready
  obtain ⟨result, view', snapshot', after, ran, effect, -, ready'⟩ :=
    perform_effect ready edited suits
  obtain ⟨files, renews⟩ := effect.renews isPlace here.stands
  refine ⟨files, result, after, renews, ran, ?_⟩
  intro world' later edited' same suits' notFull total
  have same' := same.trans (perform_lookUp edited.wellFormed suits outside ran)
  cases success : result.success with
  | true =>
    obtain ⟨after', _, ran', ready''⟩ := effect.perform_again success outside edited.wellFormed
      here.stands.snapshot ready' edited' same' suits' notFull
    refine ⟨.nothing, after', ran', fun _ => ⟨rfl, fun identifier => ?_⟩, nofun⟩
    rw [ready''.shows.isLive_iff]
    exact effect.live_iff_of_withEncoder isPlace success here edited.wellFormed each renews
  | false =>
    -- The first run left its snapshot, so that the later one finds the same changes.
    obtain ⟨notFull', rfl, old, changes, rfl, finds⟩ := effect.of_failed success
    have again := edited'.ready ready'
    obtain ⟨result', view'', snapshot'', after', ran', effect', -, ready''⟩ :=
      perform_effect ready' edited' suits'
    obtain ⟨changes', found⟩ := again.stands.changesSince isPlace
    have finds' : indexer.Finds place world' changes' := ⟨_, found⟩
    obtain rfl := renews.eq_toReindex isPlace notFull' here.stands finds
    refine ⟨result', after', ran', nofun, fun _ success' identifier => ?_⟩
    have remade := @Finds.mem_identifiers_iff indexer place { before with world }
      { after with world := world' } identifier isPlace old changes changes' finds finds'
      edited.wellFormed edited'.wellFormed here.stands.snapshot again.stands.snapshot same'
    rw [notFull] at effect'
    rw [ready''.shows.isLive_iff, ← remade, effect'.live_iff_of_withEncoder isPlace
      success' again edited'.wellFormed total.givesEach
      (.changed rfl (again.stands.has isPlace) finds'), total.answered_eq]

open Indexer Sample in
/-- A file that was indexed and modified since, with an encoder that fails for it. -/
theorem modified_file_is_skipped :
    ∃ before world files result after world' after',
      indexer.Ready place 1 .empty none opened ∧
      indexer.Reached place 1 opened [call false] before ∧
      indexer.Edited place before world ∧ refusing.Suits place 1 world ∧
      refusing.encoder.GivesEach ∧ indexer.Outside place { before with world } ∧
      indexer.Renews place false { before with world } files ∧
      runFrom { before with world } (indexer.perform refusing) = (.ok result, after) ∧
      result.success = true ∧
      indexer.Edited place after world' ∧ world'.lookUp place = after.world.lookUp place ∧
      (call false).Suits place 1 world' ∧ (call false).encoder.IsTotal ∧
      runFrom { after with world := world' } (indexer.perform (call false)) =
        (.ok .nothing, after') ∧
      ∀ identifier, after'.IsLive identifier ↔
        identifier ∈ (refusing.encoder.answered (indexer.chunksOf world place
          (files.filter Language.isSourcePath))).map Chunk.identifier ∨
        indexer.Retains place (projectName refusing.name place) false
          { before with world } identifier := by
  have history := reached_indexed (proper_lone "x")
  obtain ⟨_, view, -, -, inFolder, ready⟩ := indexed_ready (proper_lone "x")
  have single : view.names.Nodup := by
    rw [← ready.shows.2.1]
    decide +kernel
  have edited := edited_revised (proper_lone "xx") inFolder
  obtain ⟨files, result, after, renews, ran, later⟩ := later_run_skips_failed_batches ready_opened
    history edited suits_refusing givesEach_refusing (outside_world inFolder)
  obtain ⟨_, _, _, _, ran', effect, inFolder', ready'⟩ :=
    perform_effect ready edited suits_refusing
  obtain ⟨⟨rfl⟩, rfl⟩ := Prod.mk.inj (ran.symm.trans ran')
  have success := effect.success_of_nodup single
  have edited' := edited_revised (proper_lone "xx") (inFolder'.trans inFolder)
  have same := perform_lookUp edited.wellFormed suits_refusing (outside_world inFolder) ran
  obtain ⟨_, after', again, done, -⟩ := later _ (call false) edited' same.symm (suits_call false)
    rfl isTotal_encoder
  obtain ⟨rfl, live⟩ := done success
  exact ⟨_, _, files, result, after, _, after', ready_opened, history, edited, suits_refusing,
    givesEach_refusing, outside_world inFolder, renews, ran, success, edited', same.symm,
    suits_call false, isTotal_encoder, again, live⟩

open Indexer Sample in
/-- A new file for which the encoder fails is not in the index after a later run, although both
runs succeed. -/
theorem refused_chunk_is_lost :
    ∃ world result after world' result' after' bytes chunk,
      indexer.Edited place opened world ∧
      runFrom { opened with world } (indexer.perform refusing) = (.ok result, after) ∧
      result.success = true ∧
      indexer.Edited place after world' ∧ world'.lookUp place = after.world.lookUp place ∧
      (call false).encoder.IsTotal ∧
      runFrom { after with world := world' } (indexer.perform (call false)) =
        (.ok result', after') ∧
      result'.success = true ∧
      world'.contentAt .standard place ["a.py"] = some bytes ∧
      chunk ∈ indexer.chunksAt place ["a.py"] bytes ∧ ¬ after'.IsLive chunk.identifier := by
  obtain ⟨chunk, cut, -⟩ := exists_chunk_lone (.inl rfl)
  have edited := @edited_revised opened _ (proper_lone "x") rfl
  have here := edited.ready ready_opened
  obtain ⟨result, view, content, after, ran, effect, inFolder, ready⟩ :=
    perform_effect ready_opened edited suits_refusing
  have success := effect.success_of_nodup List.nodup_nil
  have edited' := edited_revised (proper_lone "x") inFolder
  have same := perform_lookUp edited.wellFormed suits_refusing (outside_world rfl) ran
  obtain ⟨after', _, again, ready'⟩ := effect.perform_again success (outside_world rfl)
    edited.wellFormed here.stands.snapshot ready edited' rfl (suits_call false) rfl
  obtain ⟨files, renews⟩ := effect.renews isPlace_place here.stands
  refine ⟨_, result, after, _, .nothing, after', _, chunk, edited, ran, success, edited', same.symm,
    isTotal_encoder, again, rfl, ?_, cut.symm ▸ List.mem_singleton_self chunk, ?_⟩
  · exact congrFun (contentAt_of_lookUp lookUp_world) ["a.py"]
  · rw [ready'.shows.isLive_iff, effect.live_iff_of_withEncoder isPlace_place success here
      edited.wellFormed givesEach_refusing renews, answered_refusing]
    rintro (none | ⟨-, has, -⟩)
    · cases none
    · rw [here.stands.has isPlace_place] at has
      cases congrArg Prod.fst has

end CodeAtlas
