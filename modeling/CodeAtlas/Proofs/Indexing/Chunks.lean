import CodeAtlas.Proofs.Embedding.Batching
import CodeAtlas.Proofs.Files.Reading
import CodeAtlas.Proofs.Index.Working
import CodeAtlas.Proofs.Tracking.Checks

/-!
# The chunks of tracked files

What a run makes of a tracked file is a function of the names that lead to it and of its
bytes.  With an encoder that never fails, each of these chunks gives one entry for the
index, in order.
-/

namespace CodeAtlas

variable {chunk : Chunk} {chunks : List Chunk}

/-- The chunks of a file with the given text, if it has one. -/
def chunksOfText (env : Environment) (root file : String) (text : Option String) :
    List Chunk :=
  match Language.forFile env.languages file, text with
  | .ok (some language), some text =>
    match chunksOfFragments root file (fragmentsBy env language (Source.ofText text)) with
    | .ok chunks => chunks
    | .error _ => []
  | _, _ => []

theorem forFile_of_not_source {file : String} (available : List Language)
    (notSource : Language.isSourcePath file = false) :
    Language.forFile available file = .ok none := by
  have unknown : Language.ofPath? file = none := by
    unfold Language.isSourcePath at notSource
    simpa using notSource
  unfold Language.forFile
  rw [unknown]

theorem chunksOfFile_eq (env : Environment) (world : World) (root file : String) :
    chunksOfFile env world root file =
      chunksOfText env root file (readText world file).toOption := by
  unfold chunksOfFile chunksOfText
  cases source : Language.isSourcePath file with
  | false =>
    rw [forFile_of_not_source env.languages source]
    rfl
  | true =>
    unfold fragmentsOfFile
    cases Language.forFile env.languages file with
    | error fault => rfl
    | ok language? =>
      cases language? with
      | none => rfl
      | some language =>
        cases readText world file with
        | error fault => rfl
        | ok text => rfl

theorem exists_of_mem_mapM {α β : Type} {step : α → Except Fault β} {inputs : List α}
    {results : List β}
    (succeeds : inputs.mapM step = .ok results) {result : β} (member : result ∈ results) :
    ∃ input ∈ inputs, step input = .ok result := by
  induction inputs generalizing results with
  | nil =>
    obtain rfl : [] = results := Except.ok.inj succeeds
    cases member
  | cons input inputs ih =>
    rw [List.mapM_cons] at succeeds
    obtain ⟨value, first, succeeds⟩ := bind_eq_ok_iff.mp succeeds
    obtain ⟨values, rest, done⟩ := bind_eq_ok_iff.mp succeeds
    obtain rfl := Except.ok.inj done
    rcases List.mem_cons.mp member with rfl | later
    · exact ⟨input, List.mem_cons_self, first⟩
    · obtain ⟨other, known, found⟩ := ih rest later
      exact ⟨other, List.mem_cons_of_mem _ known, found⟩

theorem filePath_of_toChunk {root : Option Path} {path : Path} {fragment : Fragment}
    (placed : fragment.toChunk root path = .ok chunk) :
    chunk.filePath = path.toString := by
  have keeps : ∀ chunk : Chunk, chunk.place.filePath = chunk.filePath := by
    intro chunk
    unfold Chunk.place
    split <;> rfl
  unfold Fragment.toChunk at placed
  cases root with
  | none =>
    obtain rfl := Except.ok.inj placed
    exact keeps _
  | some root =>
    obtain ⟨inside, -, done⟩ := bind_eq_ok_iff.mp placed
    obtain rfl := Except.ok.inj done
    exact keeps _

theorem filePath_of_mem_chunksOfText {env : Environment} {root file : String}
    {text : Option String} (member : chunk ∈ chunksOfText env root file text) :
    chunk.filePath = (Path.ofString file).toString := by
  unfold chunksOfText at member
  split at member
  · split at member
    · rename_i cut
      obtain ⟨fragment, -, placed⟩ := exists_of_mem_mapM cut member
      exact filePath_of_toChunk placed
    · cases member
  · cases member

def textOf (bytes : ByteArray) : Option String :=
  (Stored.text ⟨.bytes bytes, 0⟩).toOption

theorem readText_toOption {world : World} {path : Path} (file : String)
    (same : Path.ofString file = path) :
    (readText world file).toOption =
      (world.file path).toOption.bind (fun stored => textOf stored.bytes) := by
  unfold readText
  rw [same]
  cases world.file path with
  | error fault => rfl
  | ok stored => rfl

/-- The last of the names decides whether they lead to a source file. -/
theorem isSourcePath_trackedPath {names : List String} {name : String}
    (valid : ∀ part ∈ names ++ [name], ValidName part) :
    Language.isSourcePath (trackedPath (names ++ [name])) =
      (Language.endings.lookup (Text.lower (Path.splitName name).2)).isSome := by
  unfold Language.isSourcePath Language.ofPath? Language.endingOf trackedPath
  rw [Path.ofString_toString (by simp) valid]
  simp [Path.suffix, Path.name]

/-- No file of an index is a source file. -/
theorem ne_keptName_of_source {names : List String} {name : String}
    (valid : ∀ part ∈ names ++ [name], ValidName part)
    (source : Language.isSourcePath (trackedPath (names ++ [name])) = true)
    (file : KeptFile) : name ≠ file.name := by
  rintro rfl
  rw [isSourcePath_trackedPath valid] at source
  cases file <;> exact absurd source (by decide)

/-- What the tracked files of a project hold, by the names that lead to them. -/
abbrev FileContents := List String → Option ByteArray

/-- What the tracked files of the project at a place hold. -/
def World.contentAt (rules : IgnoreRules) (place : Path) (world : World) : FileContents :=
  trackedContent rules (trackedProject rules place (world.entryAt? place))

section Content

variable {world : World} {rules : IgnoreRules} {place : Path} {names : List String}
  {bytes : ByteArray}

/-- A tracked file is one that is found, with no part of its path left out. -/
theorem World.contentAt_eq_some : world.contentAt rules place names = some bytes ↔
    ∃ tree stored, world.lookUp place = .ok (some tree) ∧
      tree.find? names = some (.file stored) ∧ rules.ignores place.name = false ∧
      (∀ part ∈ names, rules.ignores part = false) ∧ bytes = stored.bytes := by
  have project : ∀ tree, trackedProject rules place (world.entryAt? place) = some tree ↔
      world.lookUp place = .ok (some tree) ∧ rules.ignores place.name = false := by
    intro tree
    unfold trackedProject World.entryAt?
    cases rules.ignores place.name <;> cases world.lookUp place <;> simp
  rw [World.contentAt, trackedContent_eq_some]
  constructor
  · rintro ⟨tree, stored, tracked, leads, taken, same⟩
    obtain ⟨found, kept⟩ := (project tree).mp tracked
    exact ⟨tree, stored, found, leads, kept, taken, same⟩
  · rintro ⟨tree, stored, found, leads, kept, taken, same⟩
    exact ⟨tree, stored, (project tree).mpr ⟨found, kept⟩, leads, taken, same⟩

theorem World.WellFormed.entryAt? (wellFormed : world.WellFormed) :
    ∀ tree ∈ world.entryAt? place, tree.WellFormed := by
  unfold World.entryAt?
  split
  · rename_i entry found
    exact wellFormed.lookUp found
  · intro tree none
    cases none

theorem validNames_of_contentAt (wellFormed : world.WellFormed)
    (content : world.contentAt rules place names = some bytes) :
    ∀ part ∈ names, ValidName part :=
  validNames_of_trackedContent (trackedProject_wellFormed wellFormed.entryAt?) content

end Content

/-- Whether the chunks of a file are taken for those of another one, when the path of the
other one is looked for: one of the two paths is part of the other.  Both files are below
the place, and the path of the other one starts there. -/
def Path.overlaps (place : Path) (other names : List String) : Bool :=
  Text.contains (place.below names).toString (trackedPath other) ||
    Text.contains (trackedPath other) (place.below names).toString

theorem Path.overlaps_self {place : Path} {names : List String}
    (absolute : place.anchor = .root) (valid : ∀ part ∈ names, ValidName part)
    (some : names ≠ []) : place.overlaps names names = true := by
  obtain ⟨head, joined⟩ := Text.exists_join_append "/" place.parts some
  have whole : (place.below names).toString = "/" ++ head ++ trackedPath names := by
    have rooted : (place.below names).anchor = .root := absolute
    rw [Path.toString_absolute rooted, trackedPath, Path.toString_relative some valid]
    simp only [Path.below, joined, String.append_assoc]
  rw [overlaps, whole, Text.contains_append, Bool.true_or]

/-- The encoder never fails, and gives one vector for each text. -/
def Encoder.IsTotal (encoder : Encoder) : Prop :=
  ∀ before texts, ∃ vectors,
    encoder.encode before texts = .ok vectors ∧ vectors.length = texts.length

/-- The encoder gives one vector for each text of some chunks, batch by batch. -/
def Encoder.Answers (encoder : Encoder) (chunks : List Chunk) : Prop :=
  ∀ batch ∈ (batches 32 chunks).zipIdx, ∃ vectors,
    encoder.answer batch = .ok vectors ∧ vectors.length = batch.1.length

theorem Encoder.IsTotal.answers {encoder : Encoder} (total : encoder.IsTotal)
    (chunks : List Chunk) : encoder.Answers chunks := by
  intro batch _
  simpa [answer] using total batch.2 (batch.1.map Chunk.excerpt)

theorem Encoder.embedBatch_entries {encoder : Encoder} {batch : List Chunk × Nat}
    {vectors : List Embedding} (encoded : encoder.answer batch = .ok vectors)
    (length : vectors.length = batch.1.length) :
    (encoder.embedBatch batch).map Catalog.entryOf =
      batch.1.map (fun chunk => (chunk.identifier, chunk.indexRecord)) := by
  have firsts := List.map_fst_zip (Nat.le_of_eq length.symm)
  rw [embedBatch, encoded]
  dsimp only
  rw [← firsts, List.map_map, List.map_map, firsts]
  rfl

def Chunk.entry (project : Value) (chunk : Chunk) : String × Record :=
  (chunk.identifier, chunk.indexRecord.update
    [("project_name", project), ("content", .text chunk.content)])

/-- A chunk is found under a path exactly if one of the two paths is part of the other. -/
theorem Chunk.isOwned_recordIn (path project content : String) (placed : chunk.filePath ≠ "") :
    Catalog.isOwned (.text path) (.text project) (chunk.recordIn (.text project) content) =
      (Text.contains chunk.filePath path || Text.contains path chunk.filePath) := by
  have file : (chunk.recordIn (.text project) content).lookup "file_path" =
      some (.text chunk.filePath) := rfl
  have named := chunk.lookup_projectName (.text project) content
  unfold Catalog.isOwned Catalog.belongsTo Catalog.filePath
  simp only [file, named, Option.getD_some, Value.isTruthy, Filter.occurs, Value.agrees]
  cases inside : Text.contains chunk.filePath path <;>
    simp [placed, inside, bind, Except.bind, pure, Except.pure, Except.toOption]

namespace Indexer

variable {indexer : Indexer} {place : Path} {names : List String} {bytes : ByteArray}

/-- The chunks of the file that the names lead to from a place, if it has the given
bytes. -/
def chunksAt (indexer : Indexer) (place : Path) (names : List String) (bytes : ByteArray) :
    List Chunk :=
  if Language.isSourcePath (trackedPath names) && (place.below names).isReachable then
    chunksOfText indexer.env indexer.root (place.below names).toString (textOf bytes)
  else []

/-- The chunks of a tracked source file are those of its names and bytes, also after files
of the index were changed. -/
theorem chunksOfFile_of_tracked {start state : IndexState} {rules : IgnoreRules}
    (follows : start.Follows state) (wellFormed : start.world.WellFormed) (isPlace : place.IsPlace)
    (content : start.world.contentAt rules place names = some bytes)
    (source : Language.isSourcePath (trackedPath names) = true) :
    chunksOfFile indexer.env state.world indexer.root
        (place ++ Path.ofString (trackedPath names)).toString =
      indexer.chunksAt place names bytes := by
  have validNames := validNames_of_contentAt wellFormed content
  have joined : place ++ Path.ofString (trackedPath names) = place.below names := by
    rw [trackedPath, Path.ofString_toString (by simp) validNames]
    rfl
  have back := Path.ofString_below isPlace validNames
  obtain ⟨tree, stored, found, leads, -, -, rfl⟩ := World.contentAt_eq_some.mp content
  -- A source file is no file of the index, so that it is still what it was.
  have notSpot : ∀ located, start.world.locate (place.below names) = .ok located →
      ¬ start.Spots located := by
    rcases List.eq_nil_or_concat names with rfl | ⟨front, last, rfl⟩
    · exact absurd source (by decide)
    · rintro located leads' ⟨file, spot⟩
      rw [List.concat_eq_append] at leads' validNames source
      rw [Path.below_concat] at leads'
      exact World.notLeadsTo_of_ne file.name_notUp (validNames last (by simp)).notUp
        (ne_keptName_of_source validNames source file) located leads' spot
  rw [chunksOfFile_eq, joined, readText_toOption _ back, follows.world.file_toOption notSpot,
    World.file_below isPlace validNames found leads, chunksAt, source, Bool.true_and]
  split
  · rfl
  · unfold chunksOfText
    split
    · rename_i none
      cases none
    · rfl

theorem filePath_of_mem_chunksAt (isPlace : place.IsPlace)
    (validNames : ∀ part ∈ names, ValidName part)
    (member : chunk ∈ indexer.chunksAt place names bytes) :
    chunk.filePath = (place.below names).toString := by
  have back := Path.ofString_below isPlace validNames
  unfold chunksAt at member
  split at member
  · rw [filePath_of_mem_chunksOfText member, back]
  · cases member

/-- The entries of the chunks of a file in the index of a project. -/
def entriesAt (indexer : Indexer) (place : Path) (project : Value) (names : List String)
    (bytes : ByteArray) : List (String × Record) :=
  (indexer.chunksAt place names bytes).map (Chunk.entry project)

theorem annotate_entries {project : Value} {items : List Embedded}
    (same : items.map Catalog.entryOf =
      chunks.map (fun chunk => (chunk.identifier, chunk.indexRecord))) :
    (annotate project chunks items).map Catalog.entryOf = chunks.map (Chunk.entry project) := by
  induction chunks generalizing items with
  | nil => rfl
  | cons chunk chunks ih =>
    cases items with
    | nil => cases same
    | cons item items =>
      obtain ⟨first, rest⟩ := List.cons.inj same
      obtain ⟨identifier, record⟩ := Prod.mk.inj first
      have later := ih rest
      simp only [annotate] at later
      simp [annotate, Catalog.entryOf, Chunk.entry, identifier, record, later]

theorem embed_eq_annotate (indexer : Indexer) (project : Value) (chunks : List Chunk) :
    indexer.embed project chunks = annotate project chunks
      ((batches 32 chunks).zipIdx.flatMap indexer.env.encoder.embedBatch) :=
  rfl

theorem embed_entries (answers : indexer.env.encoder.Answers chunks) (project : Value) :
    (indexer.embed project chunks).map Catalog.entryOf = chunks.map (Chunk.entry project) := by
  have each : ∀ batch ∈ (batches 32 chunks).zipIdx,
      (indexer.env.encoder.embedBatch batch).map Catalog.entryOf =
        batch.1.map (fun chunk => (chunk.identifier, chunk.indexRecord)) := by
    intro batch member
    obtain ⟨vectors, encoded, length⟩ := answers batch member
    exact Encoder.embedBatch_entries encoded length
  rw [embed_eq_annotate]
  refine annotate_entries ?_
  calc ((batches 32 chunks).zipIdx.flatMap indexer.env.encoder.embedBatch).map Catalog.entryOf
    _ = (batches 32 chunks).zipIdx.flatMap
          (fun batch => batch.1.map (fun chunk => (chunk.identifier, chunk.indexRecord))) := by
        rw [List.map_flatMap]
        exact List.flatMap_congr each
    _ = ((batches 32 chunks).zipIdx.flatMap Prod.fst).map
          (fun chunk => (chunk.identifier, chunk.indexRecord)) :=
        List.map_flatMap.symm
    _ = chunks.map (fun chunk => (chunk.identifier, chunk.indexRecord)) := by
        rw [flatMap_zipIdx_batches]

theorem embed_identifiers (answers : indexer.env.encoder.Answers chunks) (project : Value) :
    (indexer.embed project chunks).map Embedded.identifier = chunks.map Chunk.identifier := by
  have entries := congrArg (List.map Prod.fst) (embed_entries answers project)
  rwa [List.map_map, List.map_map] at entries

end Indexer

end CodeAtlas
