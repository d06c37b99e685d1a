import CodeAtlas.Proofs.Files.Mapping
import CodeAtlas.Proofs.Index.Renaming
import CodeAtlas.Proofs.Server.KeptFiles

/-!
# A project under another name

The name that is given to a project stands in two files: in the catalog of its index and in the
record about it.  With names exchanged there and in memory, every action on the index of the
project does what it did before, and leaves what it left before with the names exchanged.
-/

namespace CodeAtlas

namespace Stored

open Classical in
/-- The file with the document in it changed.  A file that holds no document stays. -/
noncomputable def mapDocument (change : Value → Value) (stored : Stored) : Stored :=
  match stored.document with
  | .ok value => if change value = value then stored else ⟨.document (change value), stored.modified⟩
  | .error _ => stored

variable {change : Value → Value}

theorem document_mapDocument (stored : Stored) :
    (stored.mapDocument change).document = stored.document.map change := by
  rw [mapDocument]
  cases held : stored.document with
  | error fault => exact held
  | ok value =>
    dsimp only
    split
    · rename_i same
      rw [held, Except.map, same]
    · rfl

theorem modified_mapDocument (stored : Stored) :
    (stored.mapDocument change).modified = stored.modified := by
  rw [mapDocument]
  split
  · split
    · rfl
    · rfl
  · rfl

theorem mapDocument_document (value : Value) (now : Int) :
    mapDocument change ⟨.document value, now⟩ = ⟨.document (change value), now⟩ := by
  simp only [mapDocument, document]
  split
  · rename_i same
    rw [same]
  · rfl

end Stored

namespace Server

/-- The files in which the name of a project stands. -/
def namingFiles (env : Environment) (place : Path) : List Path :=
  [(indexFolder env place).child KeptFile.catalog.name,
    (indexerAt env place).store.recordFile env place]

end Server

open Server World

/-- An exchange of names for a project.  The name of its folder stays, and so does the empty name,
which is none.  What tells the name of the project is not kept in the project itself. -/
structure Relabelling where
  env : Environment
  place : Path
  directory : Path
  exchange : Equiv.Perm String
  isPlace : place.IsPlace
  empty : exchange "" = ""
  own : exchange place.name = place.name
  outside : ∀ file ∈ namingFiles env place, ¬ place.parts <+: spotOf directory file

namespace Relabelling

variable (labels : Relabelling)

def folder : Path :=
  indexFolder labels.env labels.place

def indexer : Indexer :=
  indexerAt labels.env labels.place

def catalogFile : Path :=
  labels.folder.child KeptFile.catalog.name

def recordFile : Path :=
  labels.indexer.store.recordFile labels.env labels.place

/-- What a file holds with names exchanged. -/
noncomputable def file (names : List String) (stored : Stored) : Stored :=
  if names = spotOf labels.directory labels.catalogFile then
    stored.mapDocument (Catalog.renameDocument labels.exchange)
  else if names = spotOf labels.directory labels.recordFile then
    stored.mapDocument (.onFields (Record.rename labels.exchange))
  else stored

noncomputable def world : World → World :=
  World.mapFiles labels.file

section Files

variable {labels}

theorem file_catalog (stored : Stored) :
    labels.file (spotOf labels.directory labels.catalogFile) stored =
      stored.mapDocument (Catalog.renameDocument labels.exchange) :=
  if_pos rfl

theorem file_record (stored : Stored) :
    labels.file (spotOf labels.directory labels.recordFile) stored =
      stored.mapDocument (.onFields (Record.rename labels.exchange)) := by
  have different : spotOf labels.directory labels.recordFile ≠
      spotOf labels.directory labels.catalogFile :=
    Path.resolve_child_ne (SnapshotStore.recordName_ne_up _) (KeptFile.name_notUp _)
      (Indexer.keptName_ne (by decide) _ _).symm _
  rw [file, if_neg different, if_pos rfl]

theorem file_child {folder : Path} {name : String} (notUp : name ≠ "..")
    (notCatalog : name ≠ KeptFile.catalog.name)
    (notRecord : name ≠ SnapshotStore.projectId labels.env labels.place ++ "_metadata.json")
    (stored : Stored) :
    labels.file (spotOf labels.directory (folder.child name)) stored = stored := by
  have first : spotOf labels.directory (folder.child name) ≠
      spotOf labels.directory labels.catalogFile :=
    Path.resolve_child_ne notUp (KeptFile.name_notUp _) notCatalog _
  have second : spotOf labels.directory (folder.child name) ≠
      spotOf labels.directory labels.recordFile :=
    Path.resolve_child_ne notUp (SnapshotStore.recordName_ne_up _) notRecord _
  rw [file, if_neg first, if_neg second]

theorem file_kept {folder : Path} {file : KeptFile} (other : file ≠ .catalog) (stored : Stored) :
    labels.file (spotOf labels.directory (folder.child file.name)) stored = stored :=
  file_child file.name_notUp (fun same => other (KeptFile.name_injective same))
    (Indexer.keptName_ne (by decide) _ file) stored

theorem file_snapshot (stored : Stored) : labels.file (spotOf labels.directory
    (labels.indexer.store.snapshotFile labels.env labels.place)) stored = stored :=
  file_child (SnapshotStore.snapshotName_ne_up _)
    (Indexer.keptName_ne (by decide) _ _).symm
    (SnapshotStore.snapshotName_ne_recordName _ _) stored

theorem file_info (folder : Path) (stored : Stored) :
    labels.file (spotOf labels.directory (folder.child "project_info.json")) stored = stored :=
  file_child (by decide) (by decide)
    (append_ne_info (by decide) (by decide) _).symm stored

theorem modified_file (names : List String) (stored : Stored) :
    (labels.file names stored).modified = stored.modified := by
  rw [file]
  split
  · exact Stored.modified_mapDocument stored
  · split
    · exact Stored.modified_mapDocument stored
    · rfl

theorem file_inside (names : List String) (stored : Stored) :
    labels.file (labels.place.parts ++ names) stored = stored := by
  have apart : ∀ file ∈ namingFiles labels.env labels.place,
      labels.place.parts ++ names ≠ spotOf labels.directory file := fun file member same =>
    labels.outside file member ⟨names, same⟩
  have catalog := apart labels.catalogFile List.mem_cons_self
  have record := apart labels.recordFile (List.mem_cons_of_mem _ List.mem_cons_self)
  rw [file, if_neg catalog, if_neg record]

theorem splitName_recordName (id : String) :
    (Path.splitName (id ++ "_metadata.json")).2 = ".json" := by
  simp [Path.splitName]

theorem file_source {text : String} (source : Language.isSourcePath text = true) (stored : Stored) :
    labels.file (spotOf labels.directory (Path.ofString text)) stored = stored := by
  rcases known : Path.ofString text with ⟨anchor, parts⟩
  rw [Language.isSourcePath, Language.ofPath?, Language.endingOf, known] at source
  have last : ∀ name, (Path.mk anchor parts).name = name →
      (Language.endings.lookup (Text.lower (Path.splitName name).2)).isSome = true := by
    rintro name rfl
    exact source
  rcases List.eq_nil_or_concat parts with rfl | ⟨rest, name, rfl⟩
  · exact absurd (last "" rfl) (by decide)
  · have ending := last name (by simp [Path.name])
    have child : (⟨anchor, rest ++ [name]⟩ : Path) = Path.child ⟨anchor, rest⟩ name := rfl
    rw [List.concat_eq_append, child]
    refine file_child ?_ ?_ ?_ stored
    · rintro rfl
      exact absurd ending (by decide)
    · rintro rfl
      exact absurd ending (by decide)
    · rintro rfl
      rw [splitName_recordName] at ending
      exact absurd ending (by decide)

end Files

section Snapshots

variable {labels}

theorem mirrors_place : MirrorsFiles labels.file labels.directory
    (fun found other => found = labels.place ∧ other = labels.place)
    (resolve labels.place.toString) (resolve labels.place.toString) := by
  refine (mirrors_resolve labels.place.toString).mono ?_
  rintro found _ ⟨rfl, rfl⟩
  have same := Path.resolve_toString labels.isPlace labels.directory
  exact ⟨same, same⟩

/-- The files of the project are the same, so their digests are. -/
theorem mirrors_build (digest : DigestFunction) (rules : IgnoreRules) :
    MirrorsFiles labels.file labels.directory
      (fun tree other => tree.rootPath = labels.place ∧ other = tree)
      (DigestTree.build digest rules labels.place)
      (DigestTree.build digest rules labels.place) := by
  have spot : spotOf labels.directory labels.place = labels.place.parts := by
    have same := Path.resolve_toString labels.isPlace labels.directory
    rw [Path.ofString_toString (by simp [labels.isPlace.absolute]) labels.isPlace.valid] at same
    exact congrArg Path.parts same
  unfold DigestTree.build
  split
  · exact .pure ⟨rfl, rfl⟩
  · refine .bind (mirrors_find labels.place) ?_
    rintro found _ rfl
    have same : found.map (FileTree.mapFiles (fun more =>
        labels.file (spotOf labels.directory labels.place ++ more))) = found := by
      cases found with
      | none => rfl
      | some tree =>
        rw [spot]
        exact congrArg some (FileTree.mapFiles_of_fixed file_inside tree)
    rw [same]
    exact .pure ⟨rfl, rfl⟩

theorem mirrors_presentTree : MirrorsFiles labels.file labels.directory
    (fun tree other => tree.rootPath = labels.place ∧ other = tree)
    (labels.indexer.store.presentTree labels.env labels.place.toString)
    (labels.indexer.store.presentTree labels.env labels.place.toString) := by
  refine .bind mirrors_place ?_
  rintro _ _ ⟨rfl, rfl⟩
  exact mirrors_build _ _

theorem mirrors_treeOf (value : Value) : MirrorsFiles labels.file labels.directory Eq
    (SnapshotStore.treeOf value) (SnapshotStore.treeOf value) := by
  cases value with
  | record fields =>
    refine .guarded (mirrors_print _) (.bind (.orFail (.of_eq rfl)) ?_)
    rintro tree _ rfl
    refine .bind mirrors_get ?_
    rintro world _ ⟨inside, rfl⟩
    exact .orFail (.of_eq rfl)
  | _ => exact .throw _

theorem mirrors_load : MirrorsFiles labels.file labels.directory Eq
    (labels.indexer.store.load labels.env labels.place.toString)
    (labels.indexer.store.load labels.env labels.place.toString) := by
  refine .bind mirrors_place ?_
  rintro _ _ ⟨rfl, rfl⟩
  refine .bind (mirrors_exists? _) ?_
  rintro found _ rfl
  split
  · exact .pure rfl
  · refine .tryCatch (.bind (mirrors_documentAt file_snapshot) ?_) (fun _ =>
      .bind (mirrors_print _) (fun _ _ _ => .pure rfl))
    rintro value _ rfl
    refine .bind (mirrors_treeOf value) ?_
    rintro tree _ rfl
    exact .pure rfl

theorem mirrors_has : MirrorsFiles labels.file labels.directory Eq
    (labels.indexer.store.has labels.env labels.place.toString)
    (labels.indexer.store.has labels.env labels.place.toString) := by
  refine .bind mirrors_place ?_
  rintro _ _ ⟨rfl, rfl⟩
  exact mirrors_exists? _

theorem mirrors_age : MirrorsFiles labels.file labels.directory Eq
    (labels.indexer.store.age labels.env labels.place.toString)
    (labels.indexer.store.age labels.env labels.place.toString) := by
  refine .bind mirrors_place ?_
  rintro _ _ ⟨rfl, rfl⟩
  refine .bind (mirrors_find _) ?_
  rintro (_ | stored | entries) _ rfl
  · exact .pure rfl
  · refine .bind mirrors_readClock (fun _ _ _ => .bind mirrors_get ?_)
    rintro world _ ⟨-, rfl⟩
    exact .pure (by rw [modified_file]; rfl)
  · exact .bind mirrors_readClock (fun _ _ _ => .pure rfl)

theorem mirrors_hasChanged : MirrorsFiles labels.file labels.directory Eq
    (labels.indexer.store.hasChanged labels.env labels.place.toString)
    (labels.indexer.store.hasChanged labels.env labels.place.toString) := by
  refine .bind mirrors_load ?_
  rintro (_ | old) _ rfl
  · exact .pure rfl
  · refine .bind mirrors_presentTree ?_
    rintro tree _ ⟨-, rfl⟩
    exact .pure rfl

theorem mirrors_changesSince : MirrorsFiles labels.file labels.directory
    (fun found other => found.2.rootPath = labels.place ∧ other = found)
    (labels.indexer.store.changesSince labels.env labels.place.toString)
    (labels.indexer.store.changesSince labels.env labels.place.toString) := by
  refine .bind mirrors_presentTree ?_
  rintro tree _ ⟨rooted, rfl⟩
  refine .bind mirrors_load ?_
  rintro (_ | old) _ rfl
  · exact .pure ⟨rooted, rfl⟩
  · refine .bind (.orFail (.of_eq rfl)) ?_
    rintro changes _ rfl
    exact .pure ⟨rooted, rfl⟩

theorem mirrors_loadRecord : MirrorsFiles labels.file labels.directory
    (fun found other => other = found.map (.onFields (Record.rename labels.exchange)))
    (labels.indexer.store.loadRecord labels.env labels.place.toString)
    (labels.indexer.store.loadRecord labels.env labels.place.toString) := by
  refine .bind mirrors_place ?_
  rintro _ _ ⟨rfl, rfl⟩
  refine .bind (mirrors_exists? _) ?_
  rintro found _ rfl
  split
  · exact .pure rfl
  · have reads (stored : Stored) : (labels.file (spotOf labels.directory labels.recordFile)
        stored).document = stored.document.map (.onFields (Record.rename labels.exchange)) := by
      rw [file_record, Stored.document_mapDocument]
    refine .tryCatch (.bind (mirrors_documentAt_of reads) ?_) (fun _ =>
      .bind (mirrors_print _) (fun _ _ _ => .pure rfl))
    rintro value _ rfl
    exact .pure rfl

/-- The name stands in the record that is kept, and in nothing else of a snapshot. -/
theorem mirrors_save {tree : DigestTree} (rooted : tree.rootPath = labels.place)
    (record : Record) : MirrorsFiles labels.file labels.directory Eq
    (labels.indexer.store.save labels.env tree record)
    (labels.indexer.store.save labels.env tree (record.rename labels.exchange)) := by
  have facts (recorded : String) (files : Nat) (digest : Value) : Record.rename labels.exchange
      (record.update (SnapshotStore.facts labels.env recorded labels.place files digest)) =
      (record.rename labels.exchange).update
        (SnapshotStore.facts labels.env recorded labels.place files digest) := by
    rw [Record.rename, Record.changeField_update]
    exact congrArg (Record.update _) (Record.changeField_of_missing (by simp [SnapshotStore.facts]))
  have rooted' : (KeptTree.regular tree).rootPath = labels.place := rooted
  unfold SnapshotStore.save SnapshotStore.saveKept
  rw [rooted']
  refine .bind mirrors_readClock ?_
  rintro taken _ rfl
  refine .bind (.orFail (.of_eq rfl)) ?_
  rintro document _ rfl
  refine .bind (mirrors_writeFile (fun now => file_snapshot _)) (fun _ _ _ =>
    .bind mirrors_readClock ?_)
  rintro recorded _ rfl
  refine mirrors_writeFile (fun now => ?_)
  rw [← facts]
  exact (file_record _).trans (Stored.mapDocument_document _ now)

theorem mirrors_bringBack (gpu : GpuSupport) (vectors : VectorIndex) :
    MirrorsFiles labels.file labels.directory Eq (gpu.bringBack vectors)
      (gpu.bringBack vectors) := by
  intro world inside
  unfold GpuSupport.bringBack
  simp only [runFrom_bind, runFrom_get, andThen_ok]
  cases gpu.back with
  | works => exact ⟨inside, rfl, .ok rfl⟩
  | missing => exact ⟨inside, rfl, .error _⟩
  | fails => exact ⟨inside, rfl, .error _⟩
  | failsOnce =>
    by_cases first : world.transfers = 0
    · simp only [runFrom_bind, runFrom_set, andThen_ok, mapFiles, first, if_true]
      exact ⟨inside, rfl, .error _⟩
    · simp only [runFrom_bind, runFrom_set, andThen_ok, mapFiles, first, if_false]
      exact ⟨inside, rfl, .ok rfl⟩

end Snapshots

def chunks (chunks : ChunkIndex) : ChunkIndex :=
  { chunks with catalog := chunks.catalog.map (Catalog.rename labels.exchange) }

noncomputable def index (state : IndexState) : IndexState :=
  ⟨labels.chunks state.chunks, labels.world state.world⟩

/-- The index is that of the project. -/
structure AtIndex (state : IndexState) : Prop where
  folder : state.chunks.folder = labels.folder
  inside : state.world.IsIn labels.directory

/-- Two actions on the index of the project do the same, with names exchanged. -/
abbrev MirrorsIndex {α β : Type} (related : α → β → Prop) (action : IndexAct α)
    (other : IndexAct β) : Prop :=
  Mirrors labels.index labels.AtIndex related action other

namespace MirrorsIndex

variable {labels} {α β : Type} {related : α → β → Prop}
variable (gpu : GpuSupport)

theorem onWorld {action : Act α} {other : Act β}
    (mirrors : MirrorsFiles labels.file labels.directory related action other) :
    labels.MirrorsIndex related (liftM action : IndexAct α) (liftM other : IndexAct β) := by
  intro state here
  obtain ⟨inside, same, fits⟩ := mirrors state.world here.inside
  exact ⟨⟨here.folder, inside⟩, congrArg (IndexState.mk (labels.chunks state.chunks)) same, fits⟩

theorem current : labels.MirrorsIndex
    (fun chunks other => chunks.folder = labels.folder ∧ other = labels.chunks chunks)
    ChunkIndex.current ChunkIndex.current :=
  fun _ here => ⟨here, rfl, .ok ⟨here.folder, rfl⟩⟩

theorem change {update update' : ChunkIndex → ChunkIndex}
    (sameFolder : ∀ chunks, (update chunks).folder = chunks.folder)
    (commutes : ∀ chunks, update' (labels.chunks chunks) = labels.chunks (update chunks)) :
    labels.MirrorsIndex Eq (ChunkIndex.change update) (ChunkIndex.change update') :=
  fun state here => ⟨⟨(sameFolder state.chunks).trans here.folder, here.inside⟩,
    congrArg (IndexState.mk · _) (commutes state.chunks), .ok rfl⟩

theorem keep (catalog : Catalog) : labels.MirrorsIndex Eq (ChunkIndex.keep catalog)
    (ChunkIndex.keep (catalog.rename labels.exchange)) := by
  refine .bind current ?_
  rintro chunks _ ⟨folder, rfl⟩
  refine .tryCatch (onWorld (mirrors_writeFile (fun now => ?_))) (fun _ => .pure rfl)
  rw [ChunkIndex.catalogFile, folder, Catalog.toValue_rename]
  exact (file_catalog _).trans (Stored.mapDocument_document _ now)

theorem setCatalog (catalog : Catalog) : labels.MirrorsIndex Eq (ChunkIndex.setCatalog catalog)
    (ChunkIndex.setCatalog (catalog.rename labels.exchange)) :=
  change (fun _ => rfl) (fun _ => rfl)

theorem catalog! : labels.MirrorsIndex (fun catalog other => other = catalog.rename labels.exchange)
    ChunkIndex.catalog! ChunkIndex.catalog! := by
  refine .bind current ?_
  rintro ⟨_, vectors, names, catalog, onGpu⟩ _ ⟨rfl, rfl⟩
  cases catalog with
  | some catalog => exact .pure rfl
  | none =>
    refine .bind (onWorld (mirrors_exists? _)) ?_
    rintro found _ rfl
    have rest : ∀ catalog : Catalog, labels.MirrorsIndex
        (fun catalog other => other = catalog.rename labels.exchange) (do
          if !found then ChunkIndex.keep catalog
          ChunkIndex.change (fun chunks => { chunks with catalog := some catalog })
          return catalog)
        (do
          if !found then ChunkIndex.keep (catalog.rename labels.exchange)
          ChunkIndex.change (fun chunks =>
            { chunks with catalog := some (catalog.rename labels.exchange) })
          return catalog.rename labels.exchange) := fun catalog =>
      .guarded (keep catalog) (.bind (setCatalog catalog) (fun _ _ _ => .pure rfl))
    dsimp only
    split
    · have reads (stored : Stored) : (labels.file (spotOf labels.directory labels.catalogFile)
          stored).document = stored.document.map (Catalog.renameDocument labels.exchange) := by
        rw [file_catalog, Stored.document_mapDocument]
      refine .bind (onWorld (mirrors_documentAt_of reads)) ?_
      rintro value _ rfl
      rw [Catalog.ofValue_rename]
      exact rest _
    · exact rest Table.empty

theorem commit : labels.MirrorsIndex Eq ChunkIndex.commit ChunkIndex.commit := by
  refine .bind catalog! ?_
  rintro catalog _ rfl
  exact keep catalog

theorem moveToGpu :
    labels.MirrorsIndex Eq (ChunkIndex.moveToGpu gpu) (ChunkIndex.moveToGpu gpu) := by
  refine change (fun chunks => ?_) (fun chunks => ?_)
  · obtain ⟨folder, _ | vectors, names, catalog, onGpu⟩ := chunks
    · rfl
    · dsimp only
      split
      · rfl
      · cases gpu.move vectors <;> rfl
  · obtain ⟨folder, _ | vectors, names, catalog, onGpu⟩ := chunks
    · rfl
    · by_cases stays : (onGpu || !gpu.isAvailable) = true
      · simp only [Relabelling.chunks, stays, if_true]
      · cases moved : gpu.move vectors <;> simp [Relabelling.chunks, stays, moved]

theorem setVectors (vectors : Option VectorIndex) : labels.MirrorsIndex Eq
    (ChunkIndex.change (fun chunks => { chunks with vectors }))
    (ChunkIndex.change (fun chunks => { chunks with vectors })) :=
  change (fun _ => rfl) (fun _ => rfl)

theorem load :
    labels.MirrorsIndex Eq (ChunkIndex.load gpu) (ChunkIndex.load gpu) := by
  refine .bind current ?_
  rintro chunks _ ⟨folder, rfl⟩
  refine .bind (onWorld (mirrors_exists? _)) ?_
  rintro found _ rfl
  split
  · refine .bind (onWorld (mirrors_documentAt
      (file_kept (show KeptFile.vectors ≠ .catalog by decide)))) ?_
    rintro value _ rfl
    split
    · exact .throw _
    · refine .bind (setVectors _) (fun _ _ _ => .bind (moveToGpu gpu) (fun _ _ _ =>
        .bind (onWorld (mirrors_exists? _)) ?_))
      rintro found _ rfl
      split
      · refine .bind (onWorld (mirrors_namesAt
          (file_kept (show KeptFile.names ≠ .catalog by decide)))) ?_
        rintro names _ rfl
        exact change (fun _ => rfl) (fun _ => rfl)
      · exact .pure rfl
  · exact change (fun _ => rfl) (fun _ => rfl)

theorem vectors! :
    labels.MirrorsIndex Eq (ChunkIndex.vectors! gpu) (ChunkIndex.vectors! gpu) := by
  refine .bind current ?_
  rintro chunks _ ⟨-, rfl⟩
  refine .guarded (load gpu) (.bind current ?_)
  rintro chunks _ ⟨-, rfl⟩
  exact .pure rfl

theorem create (dimension : Int) (kind : Value) : labels.MirrorsIndex Eq
    (ChunkIndex.create gpu dimension kind) (ChunkIndex.create gpu dimension kind) := by
  have rest : ∀ index : VectorIndex, labels.MirrorsIndex Eq (do
      ChunkIndex.change (fun chunks => { chunks with vectors := some index })
      ChunkIndex.moveToGpu gpu) (do
      ChunkIndex.change (fun chunks => { chunks with vectors := some index })
      ChunkIndex.moveToGpu gpu) := fun index =>
    .bind (setVectors (some index)) (fun _ _ _ => moveToGpu gpu)
  unfold ChunkIndex.create
  dsimp only
  split
  · exact rest _
  · exact rest _
  · exact .throw _

theorem writeStatistics :
    labels.MirrorsIndex Eq ChunkIndex.writeStatistics ChunkIndex.writeStatistics := by
  refine .bind current ?_
  rintro chunks _ ⟨-, rfl⟩
  refine .either ?_ catalog! ?_
  · exact .pure rfl
  rintro catalog _ rfl
  dsimp only
  rw [Statistics.gather_rename]
  refine .bind (.orFail (.of_eq rfl)) ?_
  rintro statistics _ rfl
  exact onWorld (mirrors_writeFile (fun now =>
    file_kept (show KeptFile.statistics ≠ .catalog by decide) _))

theorem add (items : List Embedded) : labels.MirrorsIndex Eq (ChunkIndex.add gpu items)
    (ChunkIndex.add gpu (items.map (Embedded.rename labels.exchange))) := by
  cases items with
  | nil => exact .pure rfl
  | cons first rest =>
    have length : (first.rename labels.exchange ::
        rest.map (Embedded.rename labels.exchange)).length = (first :: rest).length :=
      congrArg Nat.succ (List.length_map _)
    have embeddings : (first.rename labels.exchange ::
        rest.map (Embedded.rename labels.exchange)).map Embedded.embedding =
        (first :: rest).map Embedded.embedding :=
      congrArg (List.cons _) (List.map_map ..)
    have identifiers : (first.rename labels.exchange ::
        rest.map (Embedded.rename labels.exchange)).map Embedded.identifier =
        (first :: rest).map Embedded.identifier :=
      congrArg (List.cons _) (List.map_map ..)
    rw [List.map_cons]
    unfold ChunkIndex.add
    dsimp only
    rw [length, embeddings, identifiers]
    refine .bind current ?_
    rintro chunks _ ⟨-, rfl⟩
    refine .guarded (create gpu _ _) (.bind (.orFail (.of_eq rfl)) ?_)
    rintro rows _ rfl
    refine .bind (change (fun _ => rfl) (fun _ => rfl)) (fun _ _ _ => .bind current ?_)
    rintro ⟨folder, _ | vectors, names, catalog, onGpu⟩ _ ⟨-, rfl⟩
    · exact .pure rfl
    · refine .bind (.orFail (.of_eq rfl)) ?_
      rintro extended _ rfl
      refine .bind current ?_
      rintro before _ ⟨-, rfl⟩
      refine .bind catalog! ?_
      rintro catalog _ rfl
      refine .bind (change (fun _ => rfl) (fun chunks => ?_)) (fun _ _ _ =>
        .bind commit (fun _ _ _ => writeStatistics))
      have entered := @Catalog.enter_rename labels.exchange catalog before.names.length
        (first :: rest)
      simp only [Relabelling.chunks, Option.map_some, ← entered]
      rfl

/-- The results of a search, whose records tell the names of projects. -/
theorem search (query : Embedding) (count : Int) {filter : Value}
    (blind : Filter.IsBlind filter) : labels.MirrorsIndex
      (fun hits others => others = hits.map (Hit.rename labels.exchange))
      (ChunkIndex.search gpu query count filter) (ChunkIndex.search gpu query count filter) := by
  refine .bind (vectors! gpu) ?_
  rintro (_ | vectors) _ rfl
  · exact .pure rfl
  · dsimp only
    split
    · exact .pure rfl
    · refine .bind (.orFail (.of_eq rfl)) ?_
      rintro found _ rfl
      split
      · exact .pure rfl
      · refine .bind catalog! ?_
        rintro catalog _ rfl
        refine .bind current ?_
        rintro chunks _ ⟨-, rfl⟩
        exact .orFail (.of_map (Catalog.collect_rename blind catalog _ _ [] found))

theorem searchUpTo (query : Embedding) (count : Value) {filter : Value}
    (blind : Filter.IsBlind filter) : labels.MirrorsIndex
      (fun hits others => others = hits.map (Hit.rename labels.exchange))
      (ChunkIndex.searchUpTo gpu query count filter)
      (ChunkIndex.searchUpTo gpu query count filter) := by
  refine .bind (vectors! gpu) ?_
  rintro (_ | vectors) _ rfl
  · exact .pure rfl
  · dsimp only
    split
    · exact .pure rfl
    · split
      · exact search gpu query _ blind
      · split
        · split
          · exact .throw _
          · exact .throw _
        · exact .throw _

theorem vectorOf (identifier : String) : labels.MirrorsIndex Eq
    (ChunkIndex.vectorOf (.text identifier)) (ChunkIndex.vectorOf (.text identifier)) := by
  have entry : labels.MirrorsIndex
      (fun entry other => other = entry.map (Entry.rename labels.exchange))
      (ChunkIndex.entryOf (.text identifier)) (ChunkIndex.entryOf (.text identifier)) := by
    refine .bind catalog! ?_
    rintro catalog _ rfl
    exact .pure (Catalog.get?_rename catalog identifier)
  refine .bind entry ?_
  rintro (_ | entry) _ rfl
  · exact .pure rfl
  · refine .bind current ?_
    rintro chunks _ ⟨-, rfl⟩
    exact .pure rfl

theorem similar (identifier : String) (count : Int) :
    labels.MirrorsIndex (fun _ _ => True) (ChunkIndex.similar gpu identifier count)
      (ChunkIndex.similar gpu identifier count) := by
  refine .bind (vectorOf identifier) ?_
  rintro (_ | vector) _ rfl
  · exact .pure trivial
  · exact .bind (search gpu vector _ (fun _ none => by cases none)) (fun _ _ _ => .pure trivial)

/-- The chunks of a file of one project go under each name. -/
theorem removeFile (path project : Value) : labels.MirrorsIndex Eq
    (ChunkIndex.removeFile path project)
    (ChunkIndex.removeFile path (project.rename labels.exchange)) := by
  refine .bind current ?_
  rintro chunks _ ⟨-, rfl⟩
  refine .either ?_ catalog! ?_
  · exact .pure rfl
  rintro catalog _ rfl
  refine .bind (.orFail (.of_eq (Catalog.belonging_rename labels.empty catalog path project _))) ?_
  rintro found _ rfl
  refine .bind catalog! ?_
  rintro catalog _ rfl
  rw [Catalog.removeAll_rename]
  refine .bind (setCatalog _) (fun _ _ _ => .bind (.orFail (.of_eq rfl)) (fun _ _ _ =>
    .bind commit (fun _ _ _ => .pure rfl)))

theorem save :
    labels.MirrorsIndex Eq (ChunkIndex.save gpu) (ChunkIndex.save gpu) := by
  have writing {folder : Path} {file : KeptFile} (other : file ≠ .catalog) (value : Value) :
      MirrorsFiles labels.file labels.directory Eq
        (World.writeFile (folder.child file.name) (.document value))
        (World.writeFile (folder.child file.name) (.document value)) :=
    mirrors_writeFile (fun _ => file_kept other _)
  refine .bind current ?_
  rintro ⟨folder, _ | vectors, names, catalog, onGpu⟩ _ ⟨-, rfl⟩
  · exact .bind (onWorld (writing (show KeptFile.names ≠ .catalog by decide) _))
      (fun _ _ _ => writeStatistics)
  · refine .bind (onWorld (.tryCatch ?_ (fun _ => .tryCatch ?_ (fun _ => .pure rfl)))) (fun _ _ _ =>
      .bind (onWorld (writing (show KeptFile.names ≠ .catalog by decide) _))
        (fun _ _ _ => writeStatistics))
    · refine .either (mirrors_bringBack gpu vectors) (.pure rfl) ?_
      rintro home _ rfl
      dsimp only
      split
      · exact .bind (.throw _) (fun _ _ same => absurd same id)
      · exact writing (show KeptFile.vectors ≠ .catalog by decide) _
    · refine .bind (mirrors_bringBack gpu vectors) ?_
      rintro home _ rfl
      exact writing (show KeptFile.vectors ≠ .catalog by decide) _

theorem statistics : labels.MirrorsIndex Eq ChunkIndex.statistics ChunkIndex.statistics := by
  refine .bind current ?_
  rintro chunks _ ⟨-, rfl⟩
  refine .bind (onWorld (mirrors_exists? _)) ?_
  rintro found _ rfl
  split
  · exact onWorld (mirrors_documentAt (file_kept (show KeptFile.statistics ≠ .catalog by decide)))
  · exact .pure rfl

theorem clear : labels.MirrorsIndex Eq ChunkIndex.clear ChunkIndex.clear := by
  have discarding : ∀ paths : List Path, labels.MirrorsIndex Eq
      (paths.forM (fun path => (World.discard path : IndexAct Unit)))
      (paths.forM (fun path => (World.discard path : IndexAct Unit))) := by
    intro paths
    induction paths with
    | nil => exact .pure rfl
    | cons path paths ih => exact .bind (onWorld (mirrors_discard path)) (fun _ _ _ => ih)
  refine .bind (change (fun _ => rfl) (fun _ => rfl)) (fun _ _ _ => .bind current ?_)
  rintro chunks _ ⟨-, rfl⟩
  exact .bind (discarding chunks.keptFiles) (fun _ _ _ => change (fun _ => rfl) (fun _ => rfl))

end MirrorsIndex

end Relabelling

end CodeAtlas
