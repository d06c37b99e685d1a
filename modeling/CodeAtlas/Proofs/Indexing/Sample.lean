import CodeAtlas.Proofs.Indexing.Identifiers
import CodeAtlas.Proofs.Indexing.Sequences

/-!
# Small projects

A disk with a project of a few files in one folder, and with the folders of its index and of its
snapshots where the server keeps them.  Whatever files the project is to have next, there is such
a disk that keeps what an index and its snapshot kept before.
-/

namespace CodeAtlas

variable {view : IndexView} {names : List String} {bytes : ByteArray}

namespace Sample

def sourceEntries (sources : List (String × ByteArray)) : List (String × FileTree Stored) :=
  sources.map (fun source => (source.1, .file ⟨.bytes source.2, 0⟩))

def documentEntries : List (String × Option Value) → List (String × FileTree Stored)
  | [] => []
  | (name, some value) :: rest => (name, .file ⟨.document value, 0⟩) :: documentEntries rest
  | (_, none) :: rest => documentEntries rest

def indexDocuments (kept : Contents) : List (String × Option Value) :=
  [KeptFile.vectors, .catalog, .names, .statistics].map (fun file => (file.name, kept file))

def snapshotDocuments (snapshot record : Option Value) : List (String × Option Value) :=
  [("id_snapshot.json", snapshot), ("id_metadata.json", record)]

/-- A world with the files of a project, of its index and of its snapshot. -/
def world (sources : List (String × ByteArray)) (kept : Contents)
    (snapshot record : Option Value) : World where
  disk := .folder [("project", .folder (sourceEntries sources)),
    ("storage", .folder [("models", .folder []),
      ("projects", .folder [("project_id", .folder [
        ("project_info.json", .file ⟨.document (.record []), 0⟩),
        ("index", .folder (documentEntries (indexDocuments kept)))])])]),
    (".claude_code_search", .folder [
      ("merkle", .folder (documentEntries (snapshotDocuments snapshot record)))])]
  workingDirectory := ⟨.root, []⟩
  now := 0
  clock := 0
  printed := []
  transfers := 0

def place : Path :=
  ⟨.root, ["project"]⟩

def folder : Path :=
  ⟨.root, ["storage", "projects", "project_id", "index"]⟩

/-- Sources are read as Python, digests are sizes, and all texts have one vector. -/
def environment : Environment where
  digest := fun bytes => toString bytes.size
  pathDigest := fun _ => "id"
  languages := [.python]
  parse := ⟨fun _ _ => .mk "module" ⟨0, 0, 0, 0⟩ []⟩
  encoder := ⟨fun _ texts => .ok (texts.map (fun _ => [1.0]))⟩
  gpu := .none
  home := ⟨.root, []⟩
  storage := ⟨.root, ["storage"]⟩
  sample := ⟨.root, []⟩

def indexer : Indexer :=
  ⟨environment, ⟨⟨.root, [".claude_code_search", "merkle"]⟩⟩, "/project"⟩

theorem isTotal_encoder : environment.encoder.IsTotal :=
  fun _ texts => ⟨_, rfl, by simp⟩

theorem gives_encoder : environment.encoder.Gives 1 := by
  intro _ texts vectors encoded vector member
  obtain rfl := Except.ok.inj encoded
  obtain ⟨text, -, rfl⟩ := List.mem_map.mp member
  rfl

theorem keys_documentEntries (documents : List (String × Option Value)) :
    ((documentEntries documents).map Prod.fst).Sublist (documents.map Prod.fst) := by
  induction documents with
  | nil => exact .refl _
  | cons entry rest ih =>
    obtain ⟨name, document⟩ := entry
    cases document with
    | none => exact ih.cons _
    | some value => exact ih.cons_cons _

theorem lookup_documentEntries {documents : List (String × Option Value)}
    (single : (documents.map Prod.fst).Nodup) {name : String} {document : Option Value}
    (member : (name, document) ∈ documents) :
    (documentEntries documents).lookup name =
      document.map (fun value => .file ⟨.document value, 0⟩) := by
  induction documents with
  | nil => cases member
  | cons entry rest ih =>
    obtain ⟨other, document'⟩ := entry
    obtain ⟨fresh, single'⟩ := List.nodup_cons.mp single
    rcases List.mem_cons.mp member with same | later
    · obtain ⟨rfl, rfl⟩ := Prod.mk.inj same
      cases document with
      | none =>
        rw [documentEntries, Option.map_none, ← Option.not_isSome_iff_eq_none,
          Table.isSome_lookup_iff]
        exact fun known => fresh ((keys_documentEntries rest).subset known)
      | some value => simp [documentEntries, Table.lookup_cons_ite]
    · have apart : name ≠ other := by
        rintro rfl
        exact fresh (List.mem_map.mpr ⟨_, later, rfl⟩)
      cases document' with
      | none => exact ih single' later
      | some value =>
        rw [documentEntries, Table.lookup_cons_ite, if_neg (by simpa using apart)]
        exact ih single' later

theorem wellFormed_documents {documents : List (String × Option Value)}
    (single : (documents.map Prod.fst).Nodup)
    (valid : ∀ name ∈ documents.map Prod.fst, ValidName name) :
    (FileTree.folder (documentEntries documents)).WellFormed := by
  have keys := keys_documentEntries documents
  refine FileTree.wellFormed_folder_iff.mpr ⟨single.sublist keys, ?_⟩
  clear single keys
  induction documents with
  | nil => simp [documentEntries]
  | cons entry rest ih =>
    obtain ⟨name, document⟩ := entry
    obtain ⟨here, later⟩ := List.forall_mem_cons.mp valid
    cases document with
    | none => exact ih later
    | some value =>
      exact List.forall_mem_cons.mpr ⟨⟨here, FileTree.wellFormed_file _⟩, ih later⟩

theorem nodup_indexDocuments (kept : Contents) :
    ((indexDocuments kept).map Prod.fst).Nodup := by
  have keys : (indexDocuments kept).map Prod.fst =
      ["code.index", "metadata.db", "chunk_ids.pkl", "stats.json"] := rfl
  rw [keys]
  decide

theorem nodup_snapshotDocuments (snapshot record : Option Value) :
    ((snapshotDocuments snapshot record).map Prod.fst).Nodup := by
  have keys : (snapshotDocuments snapshot record).map Prod.fst =
      ["id_snapshot.json", "id_metadata.json"] := rfl
  rw [keys]
  decide

private theorem find?_single (entries : List (String × FileTree Stored)) (name : String) :
    (FileTree.folder entries).find? [name] = entries.lookup name := by
  rw [FileTree.find?_cons]
  cases found : entries.lookup name <;> simp [FileTree.entries, found]

section World

variable {sources : List (String × ByteArray)} {kept : Contents}
  {snapshot record : Option Value}

theorem wellFormed_sources (single : (sources.map Prod.fst).Nodup)
    (valid : ∀ name ∈ sources.map Prod.fst, ValidName name) :
    (FileTree.folder (sourceEntries sources)).WellFormed := by
  have names : (sourceEntries sources).map Prod.fst = sources.map Prod.fst := by
    simp [sourceEntries, Function.comp_def]
  refine FileTree.wellFormed_folder_iff.mpr ⟨names ▸ single, ?_⟩
  intro entry member
  obtain ⟨source, known, rfl⟩ := List.mem_map.mp member
  exact ⟨valid _ (List.mem_map_of_mem known), FileTree.wellFormed_file _⟩

theorem validNames : ValidName "project" ∧ ValidName "storage" ∧ ValidName ".claude_code_search" ∧
    ValidName "models" ∧ ValidName "projects" ∧ ValidName "project_id" ∧
    ValidName "project_info.json" ∧ ValidName "index" ∧ ValidName "merkle" := by
  decide

theorem wellFormed_world (single : (sources.map Prod.fst).Nodup)
    (valid : ∀ name ∈ sources.map Prod.fst, ValidName name) :
    (world sources kept snapshot record).WellFormed := by
  have project := wellFormed_sources single valid
  have index : (FileTree.folder (documentEntries (indexDocuments kept))).WellFormed := by
    refine wellFormed_documents (nodup_indexDocuments kept) ?_
    exact (by decide : ∀ name ∈ ["code.index", "metadata.db", "chunk_ids.pkl", "stats.json"],
      ValidName name)
  have snapshots : (FileTree.folder
      (documentEntries (snapshotDocuments snapshot record))).WellFormed := by
    refine wellFormed_documents (nodup_snapshotDocuments snapshot record) ?_
    exact (by decide : ∀ name ∈ ["id_snapshot.json", "id_metadata.json"], ValidName name)
  refine ⟨?_, by simp [world]⟩
  simp [world, FileTree.wellFormed_folder_iff, FileTree.wellFormed_file, validNames, project, index,
    snapshots]

private theorem keeps_of_find? {path : Path} {names : List String} {document : Option Value}
    (located : (world sources kept snapshot record).locate path = .ok names)
    (found : (world sources kept snapshot record).disk.find? names =
      document.map (fun value => .file ⟨.document value, 0⟩)) :
    (world sources kept snapshot record).Keeps path document := by
  refine ⟨names, located, ?_⟩
  cases document with
  | none => exact found
  | some value => exact ⟨0, found⟩

theorem keepsIndex_world : (world sources kept snapshot record).KeepsIndex folder kept := by
  intro file
  have listed : (file.name, kept file) ∈ indexDocuments kept := by
    cases file <;> simp [indexDocuments]
  refine @keeps_of_find? sources kept snapshot record _
    ["storage", "projects", "project_id", "index", file.name] _
    ?_ ?_
  · cases file <;> rfl
  · rw [← lookup_documentEntries (nodup_indexDocuments kept) listed]
    exact find?_single _ _

theorem keepsSnapshot_world : (world sources kept snapshot record).Keeps
    (indexer.store.snapshotFile indexer.env place) snapshot := by
  refine @keeps_of_find? sources kept snapshot record _
    [".claude_code_search", "merkle", "id_snapshot.json"] _ rfl ?_
  rw [← lookup_documentEntries (nodup_snapshotDocuments snapshot record)
    (show ("id_snapshot.json", snapshot) ∈ _ by simp [snapshotDocuments])]
  exact find?_single _ _

theorem keepsRecord_world : (world sources kept snapshot record).Keeps
    (indexer.store.recordFile indexer.env place) record := by
  refine @keeps_of_find? sources kept snapshot record _
    [".claude_code_search", "merkle", "id_metadata.json"] _ rfl ?_
  rw [← lookup_documentEntries (nodup_snapshotDocuments snapshot record)
    (show ("id_metadata.json", record) ∈ _ by simp [snapshotDocuments])]
  exact find?_single _ _

theorem lookUp_world : (world sources kept snapshot record).lookUp place =
    .ok (some (.folder (sourceEntries sources))) := rfl

end World

theorem isPlace_place : place.IsPlace :=
  ⟨rfl, by decide⟩

theorem resolve_project (world : World) :
    runFrom world (World.resolve "/project") = (.ok place, world) := by
  have text : place.toString = "/project" := by decide
  rw [← text, World.resolve_place isPlace_place]

/-- A project whose files have different names that all files can have, without colons. -/
structure Proper (sources : List (String × ByteArray)) : Prop where
  single : (sources.map Prod.fst).Nodup
  valid : ∀ name ∈ sources.map Prod.fst, ValidName name
  plain : ∀ name ∈ sources.map Prod.fst, ':' ∉ name.toList

def documentAt (world : World) (path : Path) : Option Value :=
  match world.lookUp path with
  | .ok (some (.file ⟨.document value, _⟩)) => some value
  | _ => none

theorem documentAt_of_keeps {world : World} {path : Path} {document : Option Value}
    (keeps : world.Keeps path document) : documentAt world path = document := by
  obtain ⟨modified, found⟩ := keeps.lookUp
  rw [documentAt, found]
  cases document <;> rfl

/-- The project has other files, and what is kept about it stays. -/
def revised (before : World) (sources : List (String × ByteArray)) : World :=
  world sources (fun file => documentAt before (folder.child file.name))
    (documentAt before (indexer.store.snapshotFile indexer.env place))
    (documentAt before (indexer.store.recordFile indexer.env place))

theorem edited_revised {state : IndexState} {sources : List (String × ByteArray)}
    (proper : Proper sources) (same : state.chunks.folder = folder) :
    indexer.Edited place state (revised state.world sources) where
  index := by
    intro kept files
    rw [same] at files ⊢
    rw [← funext (fun file => documentAt_of_keeps (files file))]
    exact keepsIndex_world
  snapshot _ keeps := documentAt_of_keeps keeps ▸ keepsSnapshot_world
  record _ keeps := documentAt_of_keeps keeps ▸ keepsRecord_world
  found := ⟨_, lookUp_world⟩
  wellFormed := wellFormed_world proper.single proper.valid

def contents (sources : List (String × ByteArray)) : FileContents
  | [name] => if IgnoreRules.standard.ignores name then none else sources.lookup name
  | _ => none

theorem contents_eq_some {sources : List (String × ByteArray)} :
    contents sources names = some bytes ↔
      ∃ name, names = [name] ∧ IgnoreRules.standard.ignores name = false ∧
        sources.lookup name = some bytes := by
  match names with
  | [] => simp [contents]
  | [name] => cases ignored : IgnoreRules.standard.ignores name <;> simp [contents, ignored]
  | _ :: _ :: _ => simp [contents]

section Runs

variable {sources : List (String × ByteArray)} {kept : Contents}
  {snapshot record : Option Value} {state : IndexState} {chunks : ChunkIndex}

theorem find?_sourceEntries {stored : Stored} :
    (FileTree.folder (sourceEntries sources)).find? names = some (.file stored) ↔
      ∃ name bytes, names = [name] ∧ sources.lookup name = some bytes ∧
        stored = ⟨.bytes bytes, 0⟩ := by
  have entry : ∀ name, (sourceEntries sources).lookup name =
      (sources.lookup name).map (fun bytes => .file ⟨.bytes bytes, 0⟩) :=
    fun name => Table.lookup_map_value
      (fun bytes => (.file ⟨.bytes bytes, 0⟩ : FileTree Stored)) sources name
  match names with
  | [] => simp [FileTree.find?]
  | [name] =>
    rw [find?_single, entry, Option.map_eq_some_iff]
    simp only [FileTree.file.injEq, List.cons.injEq, and_true, ↓existsAndEq, true_and,
      @eq_comm _ stored]
  | name :: other :: rest =>
    rw [FileTree.find?_cons, FileTree.entries, entry]
    cases known : sources.lookup name <;> simp [FileTree.find?, FileTree.entries]

theorem contentAt_of_lookUp {world : World}
    (found : world.lookUp place = .ok (some (.folder (sourceEntries sources)))) :
    world.contentAt .standard place = contents sources := by
  have project : IgnoreRules.standard.ignores place.name = false := by decide
  funext names
  apply Option.ext
  intro bytes
  rw [World.contentAt_eq_some, contents_eq_some]
  constructor
  · rintro ⟨tree, stored, found', leads, -, taken, rfl⟩
    obtain rfl : FileTree.folder (sourceEntries sources) = tree := by
      simpa [found] using found'
    obtain ⟨name, bytes, rfl, known, rfl⟩ := find?_sourceEntries.mp leads
    exact ⟨name, rfl, taken name (by simp), known⟩
  · rintro ⟨name, rfl, taken, known⟩
    exact ⟨_, ⟨.bytes bytes, 0⟩, found, find?_sourceEntries.mpr ⟨name, bytes, rfl, known, rfl⟩,
      project, by simpa using taken, rfl⟩

theorem contentAt_world : (world sources kept snapshot record).contentAt
    (indexer.store.rulesFor place.toString) place = contents sources :=
  contentAt_of_lookUp lookUp_world

theorem contentAt_revised {before : World} : (revised before sources).contentAt
    (indexer.store.rulesFor place.toString) place = contents sources :=
  contentAt_world

theorem spots_outside (same : chunks.folder = folder) {spot : List String}
    (spots : IndexState.Spots ⟨chunks, world sources kept snapshot record⟩ spot) :
    ¬ place.parts <+: spot := by
  obtain ⟨file, leads⟩ := spots
  rw [same] at leads
  have spot' := @World.eq_parts_of_locate _ (folder.child file.name) _ rfl (by
    intro part member
    rcases List.mem_append.mp member with inFolder | last
    · exact (by decide : ∀ part ∈ folder.parts, part ≠ "..") part inFolder
    · rw [List.mem_singleton.mp last]
      exact file.name_notUp) leads
  rintro ⟨rest, split⟩
  rw [spot'] at split
  simp [place, folder, Path.child] at split

theorem lookUp_follows (same : chunks.folder = folder)
    (follows : IndexState.Follows ⟨chunks, world sources kept snapshot record⟩ state) :
    state.world.lookUp place = .ok (some (.folder (sourceEntries sources))) := by
  rw [← @lookUp_world sources kept snapshot record]
  refine follows.world.lookUp_eq place (fun names leads => follows.world.trees names ?_)
  obtain rfl : place.parts = names := Except.ok.inj leads
  exact fun spot written => spots_outside same written

theorem Proper.of_lookup (proper : Proper sources) {name : String}
    (known : sources.lookup name = some bytes) :
    ValidName name ∧ ':' ∉ (trackedPath [name]).toList := by
  have listed := Table.isSome_lookup_iff.mp (Option.isSome_of_mem known)
  have valid := proper.valid name listed
  refine ⟨valid, ?_⟩
  rw [trackedPath, Path.toString_relative (by simp) (by simpa using valid)]
  simpa using proper.plain name listed

theorem apart_contents (proper : Proper sources) :
    indexer.IdentifiersApart place (contents sources) := by
  refine Indexer.identifiersApart_of_plain isPlace_place rfl ?_ ?_
  · intro names bytes held
    obtain ⟨name, rfl, -, known⟩ := contents_eq_some.mp held
    simpa using (proper.of_lookup known).1
  · intro names bytes held _
    obtain ⟨name, rfl, -, known⟩ := contents_eq_some.mp held
    exact (proper.of_lookup known).2

def call (full : Bool) : RunCall :=
  ⟨"/project", .ofText? (some "project"), full, environment.encoder⟩

theorem suits_call (full : Bool) :
    (call full).Suits place 1 (world sources kept snapshot record) :=
  ⟨resolve_project _, gives_encoder⟩

def opened : IndexState :=
  ⟨.ofFolder folder, world [] (fun _ => none) none none⟩

theorem ready_opened : indexer.Ready place 1 .empty none opened :=
  ⟨⟨rfl, rfl, _, keepsIndex_world, rfl⟩, .empty 1, keepsSnapshot_world,
    ⟨none, keepsRecord_world⟩, _, lookUp_world⟩

/-- A run after the files of the project were edited. -/
def rerun (state : IndexState) (sources : List (String × ByteArray)) :
    Except Fault RunResult × IndexState :=
  runFrom { state with world := revised state.world sources } (indexer.perform (call false))

theorem exists_result {α β : Type} {ran : Except Fault α × IndexState} {told : α → β} {value : β}
    (ended : ran.1.toOption.map told = some value) :
    ∃ result, ran = (.ok result, ran.2) ∧ told result = value := by
  obtain ⟨result, done, shown⟩ := exists_ok_of_toOption ended
  exact ⟨result, Prod.ext done rfl, shown⟩

theorem eq_ok_of_toOption {α : Type} {outcome : Except Fault α} {value : α}
    (told : outcome.toOption = some value) : outcome = .ok value := by
  cases outcome with
  | error fault => cases told
  | ok other => exact congrArg Except.ok (Option.some.inj told)

theorem exists_fault {α : Type} {ran : Except Fault α × IndexState}
    (ended : ran.1.toOption = none) : ∃ fault, ran = (.error fault, ran.2) := by
  obtain ⟨fault | value, after⟩ := ran
  · exact ⟨fault, rfl⟩
  · cases ended

/-- A run that finds no snapshot remembers the files as they are. -/
theorem remembers_of_rebuilt {view view' : IndexView} {content' : Option FileContents}
    {result : RunResult} {project : Value} (same : chunks.folder = folder)
    (effect : indexer.Effect place project
      ⟨chunks, world sources kept snapshot record⟩ view false none result view' content') :
    content' = some (contents sources) := by
  cases effect with
  | unchanged _ known => cases known
  | updated _ known => cases known
  | stopped _ known => cases known
  | rebuilt _ emptied =>
    have follows := IndexState.Follows.clear.after (.refl _) emptied
    exact congrArg some (contentAt_of_lookUp (lookUp_follows same follows))

/-- The index after a first run on a project with some files. -/
def indexed (sources : List (String × ByteArray)) : IndexState :=
  (rerun opened sources).2

theorem reached_indexed (proper : Proper sources) :
    indexer.Reached place 1 opened [call false] (indexed sources) :=
  .run .start (edited_revised proper rfl) (suits_call false)

/-- A first run succeeds and remembers the files, whatever files the project has. -/
theorem indexed_ready (proper : Proper sources) :
    ∃ result view, rerun opened sources = (.ok result, indexed sources) ∧
      result.success = true ∧ (indexed sources).chunks.folder = folder ∧
      indexer.Ready place 1 view (some (contents sources)) (indexed sources) := by
  obtain ⟨result, view, content, after, ran, effect, inFolder, ready⟩ := Indexer.perform_effect
    ready_opened (edited_revised proper rfl) (suits_call false)
  obtain rfl := remembers_of_rebuilt rfl effect
  obtain rfl : indexed sources = after := congrArg Prod.snd ran
  exact ⟨result, view, ran, effect.success_of_nodup List.nodup_nil, inFolder, ready⟩

end Runs

def lone (text : String) : List (String × ByteArray) :=
  [("a.py", text.toUTF8)]

theorem proper_lone (text : String) : Proper (lone text) where
  single := by simp [lone]
  valid := by
    have valid : ValidName "a.py" := by decide
    simpa [lone] using valid
  plain := by simp [lone]

theorem contents_lone_eq_some {text : String} (held : contents (lone text) names = some bytes) :
    names = ["a.py"] ∧ bytes = text.toUTF8 := by
  obtain ⟨name, rfl, -, known⟩ := contents_eq_some.mp held
  rw [lone, Table.lookup_cons_ite] at known
  split at known
  · rename_i same
    exact ⟨by simpa using same, (Option.some.inj known).symm⟩
  · cases known

theorem contents_lone (text : String) : contents (lone text) ["a.py"] = some text.toUTF8 := rfl

theorem exists_chunk_lone {text : String} (short : text = "x" ∨ text = "xx") :
    ∃ chunk, indexer.chunksAt place ["a.py"] text.toUTF8 = [chunk] ∧
      chunk.identifier = "a.py:1-1:module" := by
  have identifiers : (indexer.chunksAt place ["a.py"] text.toUTF8).map Chunk.identifier =
      ["a.py:1-1:module"] := by
    rcases short with rfl | rfl
    · decide +kernel
    · decide +kernel
  obtain ⟨chunk, rest, split, same, nothing⟩ := List.map_eq_cons_iff.mp identifiers
  rw [List.map_eq_nil_iff.mp nothing] at split
  exact ⟨chunk, split, same⟩

/-- What changed in a project, if it can be told. -/
def changesIn (indexer : Indexer) (world : World) : Option Changes :=
  (runFrom world (indexer.store.changesSince indexer.env place.toString)).1.toOption.bind
    (fun found => found.1.texts?)

theorem finds_of_changesIn {indexer : Indexer} {world : World} {content : FileContents}
    {changes : Changes} (stands : indexer.Stands place (some content) world)
    (told : changesIn indexer world = some changes) : indexer.Finds place world changes := by
  obtain ⟨changes', found⟩ := stands.changesSince isPlace_place
  rw [changesIn, found] at told
  obtain rfl := Option.some.inj ((LooseChanges.texts?_ofChanges changes').symm.trans told)
  exact ⟨_, found⟩

open Indexer

def parsing (parse : Source → Syntax.Node) : Indexer :=
  { indexer with env := { environment with parse } }

def unindexed (text : String) : IndexState :=
  ⟨.ofFolder folder, world (lone text) (fun _ => none) none none⟩

theorem ready_unindexed (parse : Source → Syntax.Node) (text : String) :
    (parsing parse).Ready place 1 .empty none (unindexed text) :=
  ⟨⟨rfl, rfl, _, keepsIndex_world, rfl⟩, .empty 1, keepsSnapshot_world,
    ⟨none, keepsRecord_world⟩, _, lookUp_world⟩

end Sample

end CodeAtlas
