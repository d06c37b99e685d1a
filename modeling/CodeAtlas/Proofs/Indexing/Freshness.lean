import CodeAtlas.Proofs.Indexing.Sample

/-!
# Live records are those of tracked files

From its first full run on, an index lists only records of files in its snapshot, also where
runs were stopped in between.  A run that succeeds makes the records of all files that were
added or modified anew, and leaves none of files that are gone.
-/

namespace CodeAtlas

variable {content : FileContents}

def World.HasFile (world : World) (place : Path) (names : List String) : Prop :=
  ∃ tree stored, world.lookUp place = .ok (some tree) ∧ tree.find? names = some (.file stored)

theorem World.hasFile_of_contentAt {world : World} {rules : IgnoreRules} {place : Path}
    {names : List String} {bytes : ByteArray}
    (held : world.contentAt rules place names = some bytes) : world.HasFile place names := by
  obtain ⟨tree, stored, found, leads, -⟩ := World.contentAt_eq_some.mp held
  exact ⟨tree, stored, found, leads⟩

theorem World.SameApart.contentAt {spots : List String → Prop} {before after : World}
    {rules : IgnoreRules} {place : Path} {names : List String} {bytes : ByteArray}
    (same : SameApart spots before after) (isPlace : place.IsPlace)
    (notSpot : ¬ spots (place.parts ++ names))
    (content : after.contentAt rules place names = some bytes) :
    before.contentAt rules place names = some bytes := by
  obtain ⟨tree, stored, found, leads, kept, taken, rfl⟩ := World.contentAt_eq_some.mp content
  have stands : after.disk.find? (place.parts ++ names) = some (.file stored) := by
    rw [FileTree.find?_append, World.find?_of_lookUp isPlace found]
    exact leads
  have notFolder : ¬ before.disk.HasFolder (place.parts ++ names) := by
    intro folder
    obtain ⟨entries, here⟩ := (same.folders _).mpr folder
    rw [stands] at here
    cases here
  have unchanged := same.files _ notSpot notFolder
  rw [stands, FileTree.find?_append] at unchanged
  obtain ⟨tree', here, leads'⟩ := Option.bind_eq_some_iff.mp unchanged.symm
  have located := (same.locate_iff _ _).mp (World.locate_of_lookUp isPlace found)
  have found' : before.lookUp place = .ok (some tree') := by
    rw [World.lookUp, located]
    exact congrArg Except.ok here
  exact World.contentAt_eq_some.mpr ⟨tree', stored, found', leads', kept, taken, rfl⟩

namespace IndexState

variable {start state : IndexState} {rules : IgnoreRules} {place : Path} {names : List String}
  {bytes : ByteArray}

theorem not_spots_of_source (validNames : ∀ part ∈ names, ValidName part)
    (source : Language.isSourcePath (trackedPath names) = true) :
    ¬ start.Spots (place.parts ++ names) := by
  rintro ⟨file, spot⟩
  obtain ⟨base, split, -⟩ := World.locate_child file.name_notUp spot
  rcases List.eq_nil_or_concat names with rfl | ⟨front, last, rfl⟩
  · exact absurd source (by decide)
  · rw [List.concat_eq_append] at split validNames source
    rw [← List.append_assoc] at split
    have same := List.singleton_injective (List.append_inj_right' split rfl)
    exact ne_keptName_of_source validNames source file same

namespace Follows

variable (follows : start.Follows state) (isPlace : place.IsPlace)
  (validNames : ∀ part ∈ names, ValidName part)
  (source : Language.isSourcePath (trackedPath names) = true)

include follows isPlace validNames source

/-- A source file that is tracked was there before the files of the index were changed. -/
theorem contentAt (content : state.world.contentAt rules place names = some bytes) :
    start.world.contentAt rules place names = some bytes :=
  follows.world.contentAt isPlace (not_spots_of_source validNames source) content

/-- A source file that is tracked is there after the files of the index were changed. -/
theorem contentAt_after (content : start.world.contentAt rules place names = some bytes) :
    state.world.contentAt rules place names = some bytes :=
  follows.world.symm.contentAt isPlace (not_spots_of_source validNames source) content

end Follows

end IndexState

namespace Indexer

open IndexState

variable {indexer : Indexer} {place : Path} {project : String} {view view' : IndexView}
  {snapshot snapshot' : Option FileContents} {start state : IndexState} {rules : IgnoreRules}
  {files names : List String} {bytes : ByteArray} {full : Bool} {result : RunResult}

/-- The record is that of a chunk of one of the files. -/
def RecordOf (indexer : Indexer) (place : Path) (project : String) (content : FileContents)
    (record : Record) : Prop :=
  ∃ names bytes chunk text, content names ≠ none ∧ (∀ part ∈ names, ValidName part) ∧
    chunk ∈ indexer.chunksAt place names bytes ∧ record = chunk.recordIn (.text project) text

/-- All live records are those of chunks of the files, and their identifiers are known. -/
def Sourced (indexer : Indexer) (place : Path) (project : String) (content : FileContents)
    (view : IndexView) : Prop :=
  ∀ identifier record, view.live identifier = some record →
    identifier ∈ view.names ∧ indexer.RecordOf place project content record

@[simp]
theorem sourced_withEncoder (encoder : Encoder) :
    (indexer.withEncoder encoder).Sourced place project content view ↔
      indexer.Sourced place project content view := by
  simp only [Sourced, RecordOf, chunksAt_withEncoder]

theorem Sourced.add {items : List Embedded} (sourced : indexer.Sourced place project content view)
    (each : ∀ item ∈ items, indexer.RecordOf place project content item.record) :
    indexer.Sourced place project content (view.add items) := by
  intro identifier record found
  rcases IndexView.live_of_add found with ⟨item, known, rfl, rfl⟩ | ⟨-, before⟩
  · exact ⟨List.mem_append_right _ (List.mem_map_of_mem known), each item known⟩
  · obtain ⟨known, described⟩ := sourced identifier record before
    exact ⟨List.mem_append_left _ known, described⟩

/-- The files that a run makes anew: all that are tracked, or those that were added or modified
since the snapshot. -/
inductive Renews (indexer : Indexer) (place : Path) (full : Bool) (state : IndexState) :
    List String → Prop where
  | all {cleared : IndexState} {tree : DigestTree} :
      full = true ∨ runFrom state.world (indexer.store.has indexer.env place.toString) =
        (.ok false, state.world) →
      runFrom state ChunkIndex.clear = (.ok (), cleared) →
      runFrom cleared.world (DigestTree.build indexer.env.digest .standard place) =
        (.ok tree, cleared.world) →
      Renews indexer place full state tree.files
  | changed {changes : Changes} :
      full = false → runFrom state.world (indexer.store.has indexer.env place.toString) =
        (.ok true, state.world) →
      indexer.Finds place state.world changes →
      Renews indexer place full state changes.toReindex

theorem Renews.withEncoder (encoder : Encoder) (renews : indexer.Renews place full state files) :
    (indexer.withEncoder encoder).Renews place full state files := by
  cases renews with
  | all wanted emptied built => exact .all wanted emptied built
  | changed notFull has finds => exact .changed notFull has finds

section Place

variable (isPlace : place.IsPlace)

include isPlace

/-- A chunk of tracked files is one of a source file among them. -/
theorem exists_of_mem_chunksOf {chunk : Chunk} (wellFormed : start.world.WellFormed)
    (listed : ∀ file ∈ files, ∃ names bytes,
      start.world.contentAt rules place names = some bytes ∧ file = trackedPath names)
    (member : chunk ∈ indexer.chunksOf start.world place
      (files.filter Language.isSourcePath)) :
    ∃ names bytes, start.world.contentAt rules place names = some bytes ∧
      chunk ∈ indexer.chunksAt place names bytes := by
  obtain ⟨file, chosen, made⟩ := List.mem_flatMap.mp member
  obtain ⟨known, source⟩ := List.mem_filter.mp chosen
  obtain ⟨names, bytes, held, rfl⟩ := listed file known
  rw [chunksOfFile_of_tracked (Follows.refl start) wellFormed isPlace held source] at made
  exact ⟨names, bytes, held, made⟩

theorem recordOf_of_mem_embed {item : Embedded} (wellFormed : start.world.WellFormed)
    (listed : ∀ file ∈ files, ∃ names bytes,
      start.world.contentAt rules place names = some bytes ∧ file = trackedPath names)
    (member : item ∈ indexer.embed (.text project) (indexer.chunksOf start.world place
      (files.filter Language.isSourcePath))) :
    indexer.RecordOf place project (start.world.contentAt rules place) item.record := by
  obtain ⟨chunk, inside, text, -, -, -, same, -⟩ := of_mem_embed member
  obtain ⟨names, bytes, held, made⟩ :=
    exists_of_mem_chunksOf isPlace wellFormed listed inside
  exact ⟨names, bytes, chunk, text, by simp [held], validNames_of_contentAt wellFormed held, made,
    same⟩

/-- What is left once the records under removed files are gone is not of these files. -/
theorem Sourced.of_without {removed : List String} {identifier : String} {record : Record}
    (sourced : indexer.Sourced place project content view)
    (found : (view.without (ownedBy (.text project) removed)).live identifier = some record) :
    identifier ∈ view.names ∧ ∃ names bytes chunk text, content names ≠ none ∧
      (∀ part ∈ names, ValidName part) ∧ chunk ∈ indexer.chunksAt place names bytes ∧
      record = chunk.recordIn (.text project) text ∧ trackedPath names ∉ removed := by
  obtain ⟨known, stays⟩ := IndexView.live_without_iff.mp found
  obtain ⟨listed, names, bytes, chunk, text, held, validNames, member, rfl⟩ :=
    sourced identifier record known
  refine ⟨listed, names, bytes, chunk, text, held, validNames, member, rfl, fun gone => ?_⟩
  -- A chunk of a file is found under the path of the file itself.
  have owned : ownedBy (.text project) removed (chunk.recordIn (.text project) text) = true := by
    refine List.any_eq_true.mpr ⟨trackedPath names, gone, ?_⟩
    rw [isOwned_of_mem_chunksAt isPlace validNames member]
    exact overlaps_of_mem_chunksAt isPlace validNames member
  rw [owned] at stays
  cases stays listed

/-- After a run the live records are those of files in the snapshot, if they were before, or the
run was a full one. -/
theorem Effect.sourced
    (effect : indexer.Effect place (.text project) start view full snapshot result view' snapshot')
    (wellFormed : start.world.WellFormed) (remembers : indexer.Remembers place start.world snapshot)
    (before : (full = true ∨ snapshot = none) ∨
      ∃ old, snapshot = some old ∧ indexer.Sourced place project old view) :
    ∃ new, snapshot' = some new ∧ indexer.Sourced place project new view' := by
  have kept : ∀ {old}, full = false → snapshot = some old →
      indexer.Sourced place project old view := by
    rintro old rfl rfl
    obtain ⟨_, ⟨⟩, sourced⟩ := before.resolve_left (by simp)
    exact sourced
  cases effect with
  | @rebuilt cleared tree items wanted emptied built made =>
    have wellFormed' := ChunkIndex.wellFormed_clear start wellFormed
    rw [emptied] at wellFormed'
    refine ⟨_, rfl, Sourced.add (fun _ _ none => by cases none) (fun item member => ?_)⟩
    rw [made] at member
    refine recordOf_of_mem_embed isPlace wellFormed' (fun file known => ?_) member
    exact (DigestTree.mem_files_of_build wellFormed' built file).mp known
  | @unchanged old changes notFull known finds same =>
    exact ⟨old, known, kept notFull known⟩
  | @stopped old changes name record live notFull known finds changed here owned twice fewer =>
    refine ⟨old, known, fun identifier record found => ?_⟩
    exact kept notFull known identifier record (fewer identifier record found)
  | @updated old changes items count notFull known finds changed once made =>
    have sourced := kept notFull known
    subst known
    obtain ⟨-, removes, reindexes⟩ := finds.digests isPlace wellFormed remembers
    refine ⟨_, rfl, Sourced.add (fun identifier record found => ?_) (fun item member => ?_)⟩
    · obtain ⟨listed, names, bytes, chunk, text, held, validNames, member, rfl, left⟩ :=
        sourced.of_without isPlace found
      refine ⟨listed, names, bytes, chunk, text, fun gone => left ?_, validNames, member, rfl⟩
      refine (removes _).mpr ⟨names, held, ?_, rfl⟩
      rw [gone]
      simpa using held
    · rw [made] at member
      refine recordOf_of_mem_embed isPlace wellFormed (fun file known => ?_) member
      obtain ⟨names, bytes, held, -, same⟩ := (reindexes file).mp known
      exact ⟨names, bytes, held, same⟩

theorem chunksOf_before (follows : start.Follows state) (wellFormed : start.world.WellFormed)
    (wellFormed' : state.world.WellFormed) (listed : ∀ file ∈ files, ∃ names bytes,
      state.world.contentAt rules place names = some bytes ∧ file = trackedPath names) :
    indexer.chunksOf start.world place (files.filter Language.isSourcePath) =
      indexer.chunksOf state.world place (files.filter Language.isSourcePath) := by
  refine chunksOf_eq_of_content rules wellFormed wellFormed' isPlace
    (fun file known source => ?_)
  obtain ⟨names, bytes, held, rfl⟩ := listed file known
  have before := follows.contentAt isPlace (validNames_of_contentAt wellFormed' held) source
    held
  exact ⟨names, bytes, before, held, rfl⟩

theorem chunksOf_single (follows : start.Follows state) (wellFormed : start.world.WellFormed)
    (wellFormed' : state.world.WellFormed)
    (held : state.world.contentAt rules place names = some bytes) :
    indexer.chunksOf start.world place ([trackedPath names].filter Language.isSourcePath) =
      indexer.chunksAt place names bytes := by
  rw [chunksOf_before isPlace follows wellFormed wellFormed'
    (by simpa using ⟨names, ⟨bytes, held⟩, rfl⟩)]
  cases source : Language.isSourcePath (trackedPath names) with
  | true =>
    have made := @chunksOfFile_of_tracked indexer place names bytes state state rules
      (Follows.refl state) wellFormed' isPlace held source
    simp [chunksOf, source, made]
  | false => simp [chunksOf, chunksAt, source]

/-- Where new entries come in and no old record is left of a file, its live records are the new
ones. -/
theorem fresh_of_lookup {new : FileContents} {chosen : List String → Prop}
    {added rest : LiveRecords} (rooted : indexer.root = place.toString)
    (validNew : ∀ names bytes, new names = some bytes → ∀ part ∈ names, ValidName part)
    (added_iff : ∀ identifier record, added identifier = some record ↔
      ∃ names bytes, new names = some bytes ∧ chosen names ∧
        (indexer.entriesAt place (.text project) names bytes).reverse.lookup identifier =
          some record)
    (held : new names = some bytes) (taken : chosen names)
    (stale : ∀ identifier record, rest identifier = some record →
      record.lookup "relative_path" ≠ some (.text (trackedPath names)))
    (identifier : String) (record : Record) :
    (added identifier).or (rest identifier) = some record ∧
        record.lookup "relative_path" = some (.text (trackedPath names)) ↔
      (indexer.entriesAt place (.text project) names bytes).reverse.lookup identifier =
        some record := by
  have path : ∀ {names : List String} {bytes : ByteArray}, new names = some bytes →
      (indexer.entriesAt place (.text project) names bytes).reverse.lookup identifier =
        some record →
      record.lookup "relative_path" = some (.text (trackedPath names)) := by
    intro names bytes held looked
    obtain ⟨chunk, member, same⟩ := exists_chunk_of_lookup looked
    obtain ⟨-, rfl⟩ := Prod.mk.inj same
    rw [← relativePath_of_mem_chunksAt isPlace rooted (validNew _ _ held) member]
    rfl
  constructor
  · rintro ⟨found, here⟩
    cases new? : added identifier with
    | none =>
      rw [new?, Option.none_or] at found
      exact absurd here (stale identifier record found)
    | some other =>
      obtain rfl : other = record := by simpa [new?] using found
      obtain ⟨names', bytes', held', -, looked⟩ := (added_iff identifier other).mp new?
      rw [path held' looked] at here
      obtain rfl := trackedPath_inj (validNew _ _ held') (validNew _ _ held)
        (Value.text.inj (Option.some.inj here))
      obtain rfl := Option.some.inj (held'.symm.trans held)
      exact looked
  · intro looked
    rw [(added_iff identifier record).mpr ⟨names, bytes, held, taken, looked⟩, Option.some_or]
    exact ⟨rfl, path held looked⟩

theorem Renews.eq_toReindex {old : FileContents} {changes : Changes}
    (renews : indexer.Renews place full start files) (notFull : full = false)
    (stands : indexer.Stands place (some old) start.world)
    (finds : indexer.Finds place start.world changes) : files = changes.toReindex := by
  cases renews with
  | all wanted _ _ =>
    have missing := wanted.resolve_left (by simp [notFull])
    rw [stands.has isPlace] at missing
    cases congrArg Prod.fst missing
  | changed _ _ finds' => rw [finds.unique finds']

theorem Renews.eq_files {cleared : IndexState} {tree : DigestTree}
    (renews : indexer.Renews place full start files) (wanted : full = true ∨ snapshot = none)
    (stands : indexer.Stands place snapshot start.world)
    (emptied : runFrom start ChunkIndex.clear = (.ok (), cleared))
    (built : runFrom cleared.world (DigestTree.build indexer.env.digest .standard place) =
      (.ok tree, cleared.world)) : files = tree.files := by
  cases renews with
  | all _ emptied' built' =>
    obtain rfl : cleared = _ := congrArg Prod.snd (emptied.symm.trans emptied')
    rw [Except.ok.inj (congrArg Prod.fst (built.symm.trans built'))]
  | changed notFull has _ =>
    obtain rfl : snapshot = none := wanted.resolve_left (by simp [notFull])
    rw [stands.has isPlace] at has
    cases congrArg Prod.fst has

theorem identifiersApart_of_follows (follows : start.Follows state)
    (wellFormed : state.world.WellFormed) (rooted : indexer.root = place.toString)
    (plain : ∀ names, start.world.HasFile place names → ':' ∉ (trackedPath names).toList) :
    indexer.IdentifiersApart place (state.world.contentAt rules place) := by
  have validNames : ∀ names bytes, state.world.contentAt rules place names = some bytes →
      ∀ part ∈ names, ValidName part := fun _ _ held => validNames_of_contentAt wellFormed held
  refine identifiersApart_of_plain isPlace rooted validNames
    (fun names bytes held source => plain names ?_)
  exact World.hasFile_of_contentAt
    (follows.contentAt isPlace (validNames names bytes held) source held)

/-- Where the records under removed files go, none is left of a file that was known and removed. -/
theorem Sourced.path_ne {removed : List String}
    (sourced : indexer.Sourced place project content view)
    (rooted : indexer.root = place.toString) (validNames : ∀ part ∈ names, ValidName part)
    (gone : content names ≠ none → trackedPath names ∈ removed) (identifier : String)
    (record : Record)
    (found : (view.without (ownedBy (.text project) removed)).live identifier = some record) :
    record.lookup "relative_path" ≠ some (.text (trackedPath names)) := by
  intro here
  obtain ⟨-, names', bytes', chunk, text, held, validNames', inside, rfl, left⟩ :=
    sourced.of_without isPlace found
  have path : (chunk.recordIn (.text project) text).lookup "relative_path" =
      some (.text chunk.relativePath) := rfl
  rw [path, relativePath_of_mem_chunksAt isPlace rooted validNames' inside] at here
  obtain rfl := trackedPath_inj validNames' validNames (Value.text.inj (Option.some.inj here))
  exact left (gone held)

/-- After a run that succeeded, the live records of a file that it made anew are those of the
chunks that the file has now. -/
theorem Effect.fresh
    (effect : indexer.Effect place (.text project) start view full snapshot result view' snapshot')
    (wellFormed : start.world.WellFormed) (stands : indexer.Stands place snapshot start.world)
    (before : (full = true ∨ snapshot = none) ∨
      ∃ old, snapshot = some old ∧ indexer.Sourced place project old view)
    (success : result.success = true) (rooted : indexer.root = place.toString)
    (plain : ∀ names, start.world.HasFile place names → ':' ∉ (trackedPath names).toList)
    (renews : indexer.Renews place full start files)
    (answers : indexer.env.encoder.Answers
      (indexer.chunksOf start.world place (files.filter Language.isSourcePath)))
    {file : String} (member : file ∈ files) (identifier : String) (record : Record) :
    view'.live identifier = some record ∧ record.lookup "relative_path" = some (.text file) ↔
      ((indexer.chunksOf start.world place ([file].filter Language.isSourcePath)).map
        (Chunk.entry (.text project))).reverse.lookup identifier = some record := by
  cases effect with
  | @rebuilt cleared tree items wanted emptied built made =>
    have wellFormed' := ChunkIndex.wellFormed_clear start wellFormed
    have follows := Follows.clear start (Follows.refl start)
    rw [emptied] at wellFormed' follows
    obtain rfl := renews.eq_files isPlace wanted stands emptied built
    have listed := DigestTree.mem_files_of_build wellFormed' built
    have tracked : ∀ file ∈ tree.files, ∃ names bytes,
        cleared.world.contentAt .standard place names = some bytes ∧ file = trackedPath names :=
      fun file known => (listed file).mp known
    obtain ⟨names, bytes, held, rfl⟩ := tracked file member
    rw [chunksOf_before isPlace follows wellFormed wellFormed' tracked] at answers
    rw [chunksOf_single isPlace follows wellFormed wellFormed' held]
    have entries := embed_entries answers (.text project)
    rw [← made] at entries
    have nothing : ∀ identifier record, IndexView.empty.live identifier = some record →
        record.lookup "relative_path" ≠ some (.text (trackedPath names)) := by
      intro _ _ found
      cases found
    have added := fun identifier record => @lookup_entries indexer place cleared isPlace
      cleared .standard (.text project) tree.files (fun _ => True) (Follows.refl cleared)
      wellFormed' (identifiersApart_of_follows isPlace follows wellFormed' rooted plain)
      (fun file => by simpa using listed file)
      identifier record
    simp only [IndexView.add, entries]
    exact fresh_of_lookup isPlace rooted
      (fun _ _ held => validNames_of_contentAt wellFormed' held) added held trivial nothing
      identifier record
  | unchanged notFull known finds same =>
    subst known
    rw [renews.eq_toReindex isPlace notFull stands finds,
      Changes.toReindex_eq_nil same] at member
    cases member
  | stopped => cases success
  | @updated old changes items count notFull known finds changed once made =>
    subst known
    obtain ⟨_, ⟨⟩, sourced⟩ := before.resolve_left (by simp [notFull])
    obtain rfl := renews.eq_toReindex isPlace notFull stands finds
    obtain ⟨-, removes, reindexes⟩ := finds.digests isPlace wellFormed stands.snapshot
    obtain ⟨names, bytes, held, different, rfl⟩ := (reindexes file).mp member
    have validNames := validNames_of_contentAt wellFormed held
    rw [chunksOf_single isPlace (Follows.refl start) wellFormed wellFormed held]
    have entries := embed_entries answers (.text project)
    rw [← made] at entries
    have gone := sourced.path_ne isPlace rooted validNames
      (fun known => (removes _).mpr ⟨names, known, different, rfl⟩)
    have added := fun identifier record => @lookup_entries indexer place start isPlace
      start (indexer.store.rulesFor place.toString) (.text project) changes.toReindex _
      (Follows.refl start) wellFormed
      (identifiersApart_of_follows isPlace (Follows.refl start) wellFormed rooted plain) reindexes
      identifier record
    simp only [IndexView.add, entries]
    exact fresh_of_lookup isPlace rooted
      (fun _ _ held => validNames_of_contentAt wellFormed held) added held different gone
      identifier record

/-- A source file in the snapshot of a run that succeeded stands in the project. -/
theorem Effect.hasFile
    (effect : indexer.Effect place (.text project) start view full snapshot result view'
      (some content)) (wellFormed : start.world.WellFormed)
    (remembers : indexer.Remembers place start.world snapshot)
    (success : result.success = true) (validNames : ∀ part ∈ names, ValidName part)
    (source : Language.isSourcePath (trackedPath names) = true)
    (held : content names ≠ none) : start.world.HasFile place names := by
  obtain ⟨bytes, held⟩ := Option.ne_none_iff_exists'.mp held
  generalize same : some content = last at effect
  cases effect with
  | rebuilt wanted emptied built made =>
    obtain rfl := Option.some.inj same
    have follows := Follows.clear start (Follows.refl start)
    rw [emptied] at follows
    exact World.hasFile_of_contentAt (follows.contentAt isPlace validNames source held)
  | unchanged notFull known finds unchanged =>
    subst same
    obtain ⟨alike, -⟩ := finds.digests isPlace wellFormed remembers
    have digests := alike.mp unchanged names
    rw [held] at digests
    obtain ⟨bytes', now, -⟩ := Option.map_eq_some_iff.mp digests.symm
    exact World.hasFile_of_contentAt now
  | updated =>
    obtain rfl := Option.some.inj same
    exact World.hasFile_of_contentAt held
  | stopped => cases success

theorem Remembers.loads {world : World} (remembers : indexer.Remembers place world (some content)) :
    ∃ tree, runFrom world (indexer.store.load indexer.env place.toString) =
        (.ok (some (.regular tree)), world) ∧
      ∀ file, file ∈ tree.files ↔ ∃ names, content names ≠ none ∧ file = trackedPath names := by
  obtain ⟨taken, rules, files, kept, wellFormed, rfl⟩ := remembers
  have here : (DigestTree.ofFiles indexer.env.digest rules place files).rootPath =
      (Path.ofString place.toString).resolve world.workingDirectory :=
    (Path.resolve_toString isPlace _).symm
  refine ⟨_, SnapshotStore.load_of_keeps (Path.hasNull_ofString_toString isPlace) here
    isPlace.valid kept, fun file => ?_⟩
  rw [DigestTree.ofFiles_eq]
  refine (@mem_files_ofProject indexer.env.digest rules place _ .folderFirst
    (trackedProject_wellFormed wellFormed) file).trans ?_
  simp only [Option.ne_none_iff_exists', exists_and_right]

end Place

/-- What a run finds: it is the first one and a full one, or live records are those of files in
the snapshot. -/
theorem Reached.sourced {dimension : Nat} {calls : List RunCall} {before : IndexState}
    {call : RunCall} (history : indexer.Reached place dimension start calls before)
    (ready : indexer.Ready place dimension view snapshot start)
    (named : ∀ other ∈ calls, projectName other.name place = .text project)
    (firstFull : ∀ first ∈ (call :: calls).getLast?, first.full = true ∨ snapshot = none) :
    ∃ view' snapshot', indexer.Ready place dimension view' snapshot' before ∧
      ((call.full = true ∨ snapshot' = none) ∨
        ∃ old, snapshot' = some old ∧ indexer.Sourced place project old view') := by
  induction history generalizing call with
  | start => exact ⟨view, snapshot, ready, .inl (firstFull call rfl)⟩
  | @run calls before world last history edited suits ih =>
    obtain ⟨here, earlier⟩ := List.forall_mem_cons.mp named
    obtain ⟨view', snapshot', ready', kept⟩ := ih earlier (by simpa using firstFull)
    have isPlace := edited.wellFormed.resolve suits.resolved
    obtain ⟨result, view'', snapshot'', after, ran, effect, -, ready''⟩ :=
      perform_effect ready' edited suits
    rw [here] at effect
    obtain ⟨old, rfl, sourced⟩ := effect.sourced isPlace edited.wellFormed
      (edited.ready ready').stands.snapshot (by simpa using kept)
    rw [ran]
    exact ⟨view'', some old, ready'', .inr ⟨old, rfl, by simpa using sourced⟩⟩

end Indexer

open Indexer in
/-- After a run that succeeded, with answers for all its chunks, the live records of the files
that it made anew are those of their present chunks, the last one of each identifier; and every
live record is that of a file which the snapshot tracks and the project has. -/
theorem changed_files_are_fresh {indexer : Indexer} {place : Path} {dimension : Nat}
    {name : Option String} {view : IndexView} {snapshot : Option FileContents}
    {start before after : IndexState} {calls : List RunCall} {world : World} {call : RunCall}
    {result : RunResult} {files : List String} (rooted : indexer.root = place.toString)
    (ready : indexer.Ready place dimension view snapshot start)
    (history : indexer.Reached place dimension start calls before)
    (edited : indexer.Edited place before world) (suits : call.Suits place dimension world)
    (oneName : ∀ other ∈ call :: calls, other.name = .ofText? name)
    (firstFull : ∀ first ∈ (call :: calls).getLast?, first.full = true ∨ snapshot = none)
    (plain : ∀ names, world.HasFile place names → ':' ∉ (trackedPath names).toList)
    (ran : runFrom { before with world } (indexer.perform call) = (.ok result, after))
    (success : result.success = true)
    (renews : indexer.Renews place call.full { before with world } files)
    (answers : call.encoder.Answers
      (indexer.chunksOf world place (files.filter Language.isSourcePath))) :
    (∀ file ∈ files, ∀ identifier record,
      (runFrom after (ChunkIndex.recordOf (.text identifier))).1 = .ok (some record) ∧
          record.lookup "relative_path" = some (.text file) ↔
        ((indexer.chunksOf world place ([file].filter Language.isSourcePath)).map
            (Chunk.entry (projectName (.ofText? name) place))).reverse.lookup identifier =
          some record) ∧
    ∃ tree, runFrom after.world (indexer.store.load indexer.env place.toString) =
        (.ok (some (.regular tree)), after.world) ∧
      ∀ identifier record,
        (runFrom after (ChunkIndex.recordOf (.text identifier))).1 = .ok (some record) →
        ∃ names, record.lookup "relative_path" = some (.text (trackedPath names)) ∧
          trackedPath names ∈ tree.files ∧ world.HasFile place names := by
  obtain ⟨project, named⟩ := exists_projectName name place
  have isPlace := edited.wellFormed.resolve suits.resolved
  have projects : ∀ other ∈ call :: calls, projectName other.name place = .text project := by
    intro other member
    rw [oneName other member, named]
  obtain ⟨here, earlier⟩ := List.forall_mem_cons.mp projects
  obtain ⟨view, snapshot, ready, kept⟩ := history.sourced ready earlier firstFull
  have stands := (edited.ready ready).stands
  obtain ⟨_, view', snapshot', _, ran', effect, -, ready'⟩ := perform_effect ready edited suits
  obtain ⟨⟨rfl⟩, rfl⟩ := Prod.mk.inj (ran.symm.trans ran')
  rw [here] at effect
  obtain ⟨new, rfl, sourced⟩ := effect.sourced isPlace edited.wellFormed stands.snapshot
    (by simpa using kept)
  rw [named]
  simp only [ready'.shows.recordOf, Except.ok.injEq]
  constructor
  · intro file member identifier record
    have answers' : (indexer.withEncoder call.encoder).env.encoder.Answers
        ((indexer.withEncoder call.encoder).chunksOf world place
          (files.filter Language.isSourcePath)) := by
      rw [chunksOf_withEncoder]
      exact answers
    have fresh := effect.fresh isPlace edited.wellFormed
      ((edited.ready ready).withEncoder call.encoder).stands (by simpa using kept) success rooted
      plain (renews.withEncoder call.encoder) answers' member identifier record
    rwa [chunksOf_withEncoder] at fresh
  · obtain ⟨tree, loaded, tracks⟩ := ready'.stands.snapshot.loads isPlace
    refine ⟨tree, loaded, fun identifier record found => ?_⟩
    obtain ⟨-, names, bytes, chunk, text, held, validNames, member, rfl⟩ :=
      sourced identifier record found
    have source := isSource_of_mem_chunksAt member
    rw [chunksAt_withEncoder] at member
    refine ⟨names, ?_, (tracks _).mpr ⟨names, held, rfl⟩, ?_⟩
    · rw [← relativePath_of_mem_chunksAt isPlace rooted validNames member]
      rfl
    · exact effect.hasFile isPlace edited.wellFormed stands.snapshot success validNames
        source held

namespace Sample

/-- The index of a file that was modified and indexed again. -/
def reindexed : IndexState :=
  (rerun (indexed (lone "x")) (lone "xx")).2

theorem reindexed_eq : reindexed.chunks.folder = folder ∧
    (rerun (indexed (lone "x")) (lone "xx")).1.toOption.map RunResult.success = some true := by
  decide +kernel

end Sample

open Indexer Sample in
/-- A file that was indexed and modified since. -/
theorem modified_file_is_fresh :
    ∃ before world result after files, indexer.Reached place 1 opened [call false] before ∧
      indexer.Edited place before world ∧
      runFrom { before with world } (indexer.perform (call false)) = (.ok result, after) ∧
      result.success = true ∧ indexer.Renews place false { before with world } files ∧
      "a.py" ∈ files ∧
      (∀ file ∈ files, ∀ identifier record,
        (runFrom after (ChunkIndex.recordOf (.text identifier))).1 = .ok (some record) ∧
            record.lookup "relative_path" = some (.text file) ↔
          ((indexer.chunksOf world place ([file].filter Language.isSourcePath)).map
              (Chunk.entry (projectName (.ofText? (some "project")) place))).reverse.lookup
                identifier = some record) ∧
      ∃ tree, runFrom after.world (indexer.store.load indexer.env place.toString) =
          (.ok (some (.regular tree)), after.world) ∧
        ∀ identifier record,
          (runFrom after (ChunkIndex.recordOf (.text identifier))).1 = .ok (some record) →
          ∃ names, record.lookup "relative_path" = some (.text (trackedPath names)) ∧
            trackedPath names ∈ tree.files ∧ world.HasFile place names := by
  obtain ⟨_, view, -, -, inFolder, ready⟩ := indexed_ready (proper_lone "x")
  have edited := edited_revised (proper_lone "xx") inFolder
  obtain ⟨result, ran, success⟩ := exists_result reindexed_eq.2
  have stands := (edited.ready ready).stands
  have changes : changesIn indexer (revised (indexed (lone "x")).world (lone "xx")) =
      some ⟨[], [], ["a.py"], []⟩ := by
    decide +kernel
  have renews : indexer.Renews place false _ _ :=
    .changed rfl (stands.has isPlace_place) (finds_of_changesIn stands changes)
  have history := reached_indexed (proper_lone "x")
  refine ⟨_, _, result, _, _, history, edited, ran, success, renews, by decide, ?_⟩
  refine changed_files_are_fresh rfl ready_opened history edited (suits_call false)
    (by simp [call]) (by simp) ?_ ran success renews (isTotal_encoder.answers _)
  rintro names ⟨tree, stored, found, leads⟩
  obtain rfl : FileTree.folder (sourceEntries (lone "xx")) = tree :=
    Option.some.inj (Except.ok.inj (lookUp_world.symm.trans found))
  obtain ⟨name, bytes, rfl, known, -⟩ := find?_sourceEntries.mp leads
  exact ((proper_lone "xx").of_lookup known).2

end CodeAtlas
