import CodeAtlas.Proofs.Indexing.Sample

/-!
# Histories of indexing runs

A project is indexed in full once, and then edited and indexed again, any number of times.
What the index lists at the end is compared with what one full run on the last tree would
list.
-/

namespace CodeAtlas

namespace Indexer

variable {indexer : Indexer} {path : String} {name : Option String} {place : Path}
  {start state after : IndexState} {result : RunResult}
variable {names : List String} {bytes : ByteArray}

/-- A full run on a project that succeeded: what its files held as the run found them, and
the index afterwards.  The run was asked to be full, or there was no snapshot. -/
structure FullRun (indexer : Indexer) (path : String) (name : Option String) (place : Path)
    (start : IndexState) (content : FileContents) (after : IndexState) : Prop where
  kept : ∃ kept, start.world.KeepsIndex start.chunks.folder kept
  wellFormed : start.world.WellFormed
  resolved : (Path.ofString path).resolve start.world.workingDirectory = place
  found : (runFrom start ChunkIndex.clear).2.world.contentAt .standard place = content
  apart : indexer.IdentifiersApart place content
  succeeded : ∃ full result, (full = true ∨
      (runFrom start.world (indexer.store.has indexer.env place.toString)).1 = .ok false) ∧
    runFrom start (indexer.run path (.ofText? name) full) = (.ok result, after) ∧
      result.success = true

/-- Edits of a project and a run that succeeded.  The edits leave the files of the index and
the snapshot alone, and digests tell a changed content from the one before. -/
structure ChangeRun (indexer : Indexer) (path : String) (name : Option String) (place : Path)
    (before : IndexState) (edited : World) (old new : FileContents) (after : IndexState) :
    Prop where
  index : ∀ kept, before.world.KeepsIndex before.chunks.folder kept →
    edited.KeepsIndex before.chunks.folder kept
  snapshot : ∀ document, before.world.Keeps (indexer.store.snapshotFile indexer.env place)
      document → edited.Keeps (indexer.store.snapshotFile indexer.env place) document
  wellFormed : edited.WellFormed
  resolved : (Path.ofString path).resolve edited.workingDirectory = place
  found : edited.contentAt (indexer.store.rulesFor place.toString) place = new
  distinct : ∀ names bytes bytes', old names = some bytes → new names = some bytes' →
    indexer.env.digest bytes = indexer.env.digest bytes' → bytes = bytes'
  apart : indexer.IdentifiersApart place new
  succeeded : ∃ result, runFrom { before with world := edited }
      (indexer.run path (.ofText? name) false) = (.ok result, after) ∧ result.success = true

/-- A full run and any number of edits with a run after each.  The contents of the project's
files are listed with the latest ones first. -/
inductive Indexed (indexer : Indexer) (path : String) (name : Option String) (place : Path) :
    List FileContents → IndexState → Prop where
  | full {start after : IndexState} {content : FileContents} :
      FullRun indexer path name place start content after →
      Indexed indexer path name place [content] after
  | changed {before after : IndexState} {edited : World} {old new : FileContents}
      {earlier : List FileContents} :
      Indexed indexer path name place (old :: earlier) before →
      ChangeRun indexer path name place before edited old new after →
      Indexed indexer path name place (new :: old :: earlier) after

/-- Whether the entries of a file are there at the end of a history: since the file came up
or was changed last, no file whose path overlaps with its own was removed or modified. -/
def Spared (place : Path) : List FileContents → List String → Prop
  | new :: old :: earlier, names => Spares place old new (Spared place (old :: earlier)) names
  | _, _ => True

section Histories

variable (total : indexer.env.encoder.IsTotal) {project : String}
  (named : projectName (.ofText? name) place = .text project)

include total named

theorem FullRun.reflects {content : FileContents}
    (fullRun : FullRun indexer path name place start content after) :
    indexer.Reflects place project content (fun _ => True) after := by
  obtain ⟨⟨kept, files⟩, wellFormed, here, rfl, apart, full, result, wanted, ended, success⟩ :=
    fullRun
  obtain ⟨noNull, cases⟩ := run_cases ended success here
  have isPlace : place.IsPlace :=
    here ▸ ⟨rfl, Path.validNames_resolve noNull wellFormed.workingDirectory⟩
  rcases cases with ⟨-, ran⟩ | ⟨notFull, known, -⟩
  · rw [named] at ran
    exact fullRun_reflects isPlace total files
      (ChunkIndex.wellFormed_clear start wellFormed) apart ran
  · rcases wanted with full' | missing
    · exact absurd full' (by simp [notFull])
    · exact absurd (Except.ok.inj (known.symm.trans missing)) (by decide)

theorem ChangeRun.reflects {edited : World} {old new : FileContents} {spared : List String → Prop}
    (changeRun : ChangeRun indexer path name place state edited old new after)
    (reflects : indexer.Reflects place project old spared state) :
    indexer.Reflects place project new (Spares place old new spared) after := by
  obtain ⟨index, snapshot, wellFormed, here, now, distinct, apart, result, ended, success⟩ :=
    changeRun
  obtain ⟨noNull, cases⟩ := run_cases ended success here
  have isPlace : place.IsPlace :=
    here ▸ ⟨rfl, Path.validNames_resolve noNull wellFormed.workingDirectory⟩
  obtain ⟨⟨live, ⟨view, shows, seen, known⟩, spec⟩, taken, rules, tree, saved, told⟩ := reflects
  have edited' : indexer.Reflects place project old spared { state with world := edited } :=
    ⟨⟨live, ⟨view, shows.edited index, seen, known⟩, spec⟩, taken, rules, tree,
      snapshot _ saved, told⟩
  have has := has_of_keeps isPlace (snapshot _ saved)
  rcases cases with ⟨full | missing, -⟩ | ⟨-, -, ran⟩
  · cases full
  · rw [has] at missing
    cases missing
  · rw [named] at ran
    exact changeRun_reflects isPlace total edited' wellFormed now distinct apart ran

/-- At the end of a history the index lists the entries of the files that were spared. -/
theorem Indexed.reflects {contents : List FileContents}
    (history : Indexed indexer path name place contents state) :
    ∃ content, contents.head? = some content ∧
      indexer.Reflects place project content (Spared place contents) state := by
  induction history with
  | full fullRun => exact ⟨_, rfl, fullRun.reflects total named⟩
  | changed history changeRun ih =>
    obtain ⟨_, ⟨⟩, reflects⟩ := ih
    exact ⟨_, rfl, changeRun.reflects total named reflects⟩

omit total named in
theorem Indexed.apart {contents : List FileContents} {content : FileContents}
    (history : Indexed indexer path name place contents state)
    (last : contents.head? = some content) : indexer.IdentifiersApart place content := by
  cases history with
  | full fullRun =>
    obtain rfl := Option.some.inj last
    exact fullRun.apart
  | changed _ changeRun =>
    obtain rfl := Option.some.inj last
    exact changeRun.apart

end Histories

theorem exists_lookup_entriesAt (chunks : indexer.chunksAt place names bytes ≠ [])
    (project : Value) :
    ∃ identifier record,
      (indexer.entriesAt place project names bytes).reverse.lookup identifier = some record := by
  obtain ⟨chunk, rest, split⟩ := List.exists_cons_of_ne_nil chunks
  have member : chunk.identifier ∈
      (indexer.entriesAt place project names bytes).reverse.map Prod.fst := by
    simp [entriesAt, split, Chunk.entry]
  exact ⟨chunk.identifier, Option.isSome_iff_exists.mp (Table.isSome_lookup_iff.mpr member)⟩

end Indexer

open Indexer in
/-- At the end of a history the index lists the same records as after a full run on the same
sources, exactly if every file with chunks was spared. -/
theorem history_agrees_iff_spared {indexer : Indexer} {path : String} {name : Option String}
    {place : Path} {state start rebuilt : IndexState} {content fresh : FileContents}
    {earlier : List FileContents} (total : indexer.env.encoder.IsTotal)
    (history : Indexed indexer path name place (content :: earlier) state)
    (rebuild : FullRun indexer path name place start fresh rebuilt)
    (sameSources : ∀ names, Language.isSourcePath (trackedPath names) = true →
      fresh names = content names) :
    (∀ identifier, (runFrom state (ChunkIndex.recordOf (.text identifier))).1 =
        (runFrom rebuilt (ChunkIndex.recordOf (.text identifier))).1) ↔
      ∀ names bytes, content names = some bytes → indexer.chunksAt place names bytes ≠ [] →
        Spared place (content :: earlier) names := by
  obtain ⟨project, named⟩ := exists_projectName name place
  obtain ⟨_, ⟨⟩, ⟨live, lists, listed⟩, -⟩ := history.reflects total named
  obtain ⟨⟨live', lists', listed'⟩, -⟩ := rebuild.reflects total named
  have apart := history.apart rfl
  have readings : (∀ identifier, (runFrom state (ChunkIndex.recordOf (.text identifier))).1 =
      (runFrom rebuilt (ChunkIndex.recordOf (.text identifier))).1) ↔
        ∀ identifier, live identifier = live' identifier := by
    refine forall_congr' (fun identifier => ?_)
    rw [lists.recordOf, lists'.recordOf, Except.ok.injEq]
  rw [readings]
  constructor
  · intro same names bytes held chunks
    obtain ⟨identifier, record, looked⟩ := exists_lookup_entriesAt chunks (.text project)
    obtain ⟨chunk, member, entry⟩ := exists_chunk_of_lookup looked
    have source := isSource_of_mem_chunksAt member
    have known : live' identifier = some record := (listed' identifier record).mpr
      ⟨names, bytes, (sameSources names source).trans held, trivial, looked⟩
    rw [← same] at known
    obtain ⟨names', bytes', held', spared, looked'⟩ := (listed identifier record).mp known
    obtain ⟨chunk', member', entry'⟩ := exists_chunk_of_lookup looked'
    -- The identifier of a chunk tells its file, so that the entry found is that of this file.
    have identifiers : chunk.identifier = chunk'.identifier :=
      (congrArg Prod.fst entry).trans (congrArg Prod.fst entry').symm
    obtain rfl := apart names names' bytes bytes' held held' chunk member chunk' member' identifiers
    exact spared
  · intro spared identifier
    apply Option.ext
    intro record
    rw [listed, listed']
    constructor
    · rintro ⟨names, bytes, held, -, looked⟩
      obtain ⟨chunk, member, -⟩ := exists_chunk_of_lookup looked
      have source := isSource_of_mem_chunksAt member
      exact ⟨names, bytes, (sameSources names source).trans held, trivial, looked⟩
    · rintro ⟨names, bytes, held, -, looked⟩
      obtain ⟨chunk, member, -⟩ := exists_chunk_of_lookup looked
      have source := isSource_of_mem_chunksAt member
      have held' := (sameSources names source).symm.trans held
      exact ⟨names, bytes, held', spared names bytes held' (List.ne_nil_of_mem member), looked⟩

namespace Sample

open Indexer

theorem fullRun_opened {sources : List (String × ByteArray)} (proper : Proper sources) :
    FullRun indexer "/project" (some "project") place
      { opened with world := revised opened.world sources } (contents sources)
      (indexed sources) := by
  obtain ⟨result, _, ran, success, -⟩ := indexed_ready proper
  have edited := @edited_revised opened sources proper rfl
  have missing := (edited.ready ready_opened).stands.has isPlace_place
  have found := contentAt_of_lookUp (lookUp_follows rfl (IndexState.Follows.clear _
    (.refl { opened with world := revised opened.world sources })))
  exact ⟨⟨_, keepsIndex_world⟩, edited.wellFormed, (World.eq_of_resolve (resolve_project _)).2,
    found, apart_contents proper, false, result, .inr (congrArg Prod.fst missing), ran, success⟩

theorem changeRun_rerun {old sources : List (String × ByteArray)} {state : IndexState}
    (proper : Proper sources) (inFolder : state.chunks.folder = folder)
    (ended : (rerun state sources).1.toOption.map RunResult.success = some true)
    (distinct : ∀ names bytes bytes', contents old names = some bytes →
      contents sources names = some bytes' →
      indexer.env.digest bytes = indexer.env.digest bytes' → bytes = bytes') :
    ChangeRun indexer "/project" (some "project") place state (revised state.world sources)
      (contents old) (contents sources) (rerun state sources).2 := by
  have edited := edited_revised proper inFolder
  exact ⟨edited.index, edited.snapshot, edited.wellFormed,
    (World.eq_of_resolve (resolve_project _)).2, contentAt_revised, distinct,
    apart_contents proper, exists_result ended⟩

/-- A project with two files, where the name of one ends with the name of the other. -/
def pair (text : String) : List (String × ByteArray) :=
  [("b.py", text.toUTF8), ("ab.py", "y".toUTF8)]

theorem proper_pair (text : String) : Proper (pair text) where
  single := by simp [pair]
  valid := by
    have valid : ValidName "b.py" ∧ ValidName "ab.py" := by decide
    simpa [pair] using valid
  plain := by simp [pair]

theorem contents_pair_eq_some {text : String} (held : contents (pair text) names = some bytes) :
    names = ["b.py"] ∧ bytes = text.toUTF8 ∨ names = ["ab.py"] ∧ bytes = "y".toUTF8 := by
  obtain ⟨name, rfl, -, known⟩ := contents_eq_some.mp held
  rw [pair, Table.lookup_cons_ite] at known
  split at known
  · rename_i same
    exact .inl ⟨by simpa using same, (Option.some.inj known).symm⟩
  · rw [Table.lookup_cons_ite] at known
    split at known
    · rename_i same
      exact .inr ⟨by simpa using same, (Option.some.inj known).symm⟩
    · cases known

/-- The two files are indexed, and one of them is modified and indexed again. -/
def repaired : IndexState :=
  (rerun (indexed (pair "x")) (pair "xx")).2

theorem indexed_repaired : Indexed indexer "/project" (some "project") place
    [contents (pair "xx"), contents (pair "x")] repaired := by
  obtain ⟨_, _, -, -, inFolder, -⟩ := indexed_ready (proper_pair "x")
  refine .changed (.full (fullRun_opened (proper_pair "x")))
    (changeRun_rerun (proper_pair "xx") inFolder (by decide +kernel) ?_)
  intro names bytes bytes' held held' digests
  rcases contents_pair_eq_some held with ⟨rfl, rfl⟩ | ⟨rfl, rfl⟩
  · obtain rfl := Option.some.inj held'
    exact absurd digests (by decide +kernel)
  · exact Option.some.inj held'

end Sample

open Indexer Sample in
/-- The file with the longer name was spared exactly if its entries are there. -/
theorem overlapping_history_agrees_iff_spared :
    ∃ state start rebuilt, Indexed indexer "/project" (some "project") place
        [contents (pair "xx"), contents (pair "x")] state ∧
      FullRun indexer "/project" (some "project") place start (contents (pair "xx")) rebuilt ∧
      ((∀ identifier, (runFrom state (ChunkIndex.recordOf (.text identifier))).1 =
          (runFrom rebuilt (ChunkIndex.recordOf (.text identifier))).1) ↔
        ∀ names bytes, contents (pair "xx") names = some bytes →
          indexer.chunksAt place names bytes ≠ [] →
          Spared place [contents (pair "xx"), contents (pair "x")] names) := by
  have rebuild := fullRun_opened (proper_pair "xx")
  exact ⟨repaired, _, _, indexed_repaired, rebuild,
    history_agrees_iff_spared isTotal_encoder indexed_repaired rebuild (fun _ _ => rfl)⟩

open Indexer Sample in
/-- To modify a file removes the entries of another one whose path its own is part of, and they
are not made anew. -/
theorem overlapping_history_loses_entry :
    ∃ state start rebuilt, indexer.env.encoder.IsTotal ∧
      Indexed indexer "/project" (some "project") place
        [contents (pair "xx"), contents (pair "x")] state ∧
      FullRun indexer "/project" (some "project") place start (contents (pair "xx")) rebuilt ∧
      ∃ identifier, (runFrom state (ChunkIndex.recordOf (.text identifier))).1 ≠
        (runFrom rebuilt (ChunkIndex.recordOf (.text identifier))).1 := by
  have told : (runFrom repaired (ChunkIndex.recordOf
        (.text "ab.py:1-1:module"))).1.toOption.map Option.isSome = some false ∧
      (runFrom (indexed (pair "xx")) (ChunkIndex.recordOf
        (.text "ab.py:1-1:module"))).1.toOption.map Option.isSome = some true := by
    decide +kernel
  refine ⟨repaired, _, _, isTotal_encoder, indexed_repaired,
    fullRun_opened (proper_pair "xx"), "ab.py:1-1:module", fun same => ?_⟩
  have kept := told.2
  rw [← same, told.1] at kept
  cases kept

end CodeAtlas
