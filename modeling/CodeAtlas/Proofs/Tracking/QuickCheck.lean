import CodeAtlas.Proofs.Tracking.Checks

/-!
# The quick check by the root digest

The quick check compares the root digest of a project with that of its snapshot, and no
file.  Where digests do not collide it says "unchanged" exactly if the digested bytes of
the project are the same.  Then the outline of the project is the same, but a file may go
by another name, and two files of a folder may have changed places.
-/

namespace CodeAtlas

variable {name : String}

/-- Build the tree of a project and keep it. -/
def SnapshotStore.take (env : Environment) (store : SnapshotStore) (project : String)
    (record : Record) : Act Unit := do
  let place ← World.resolve project
  store.save env (← DigestTree.build env.digest .standard place) record

/-- A snapshot that was taken is kept with the tree of the project at that time. -/
theorem SnapshotStore.take_ok {env : Environment} {store : SnapshotStore} {project : String}
    {record : Record} {world after : World} {place : Path} {files : Option (FileTree Stored)}
    (here : (Path.ofString project).resolve world.workingDirectory = place)
    (found : world.lookUp place = .ok files)
    (taken : runFrom world (store.take env project record) = (.ok (), after)) :
    (Path.ofString project).hasNull = false ∧
      ∃ time, after.Keeps (store.snapshotFile env place) (some (treeDocument time
        (DigestTree.ofFiles env.digest .standard place files).toValue)) := by
  have noNull : (Path.ofString project).hasNull = false := by
    cases null : (Path.ofString project).hasNull with
    | false => rfl
    | true => simp [take, World.resolve, null] at taken
  unfold take at taken
  rw [runFrom_bind, World.runFrom_resolve noNull, here, andThen_ok,
    runFrom_then (DigestTree.runFrom_build _ _ found)] at taken
  exact ⟨noNull, (save_ok taken).1⟩

/-- After a snapshot was taken, the checks compare the project of that time with the present
one. -/
theorem checks_after_take {env : Environment} {store : SnapshotStore} {project : String}
    {record : Record} {before after later : World} {place : Path}
    {files files' : Option (FileTree Stored)}
    (outside : store.folder.relativeTo? (Path.ofString project) = none)
    (directory : ∀ part ∈ before.workingDirectory.parts, ValidName part)
    (here : (Path.ofString project).resolve before.workingDirectory = place)
    (here' : (Path.ofString project).resolve later.workingDirectory = place)
    (found : before.lookUp place = .ok files) (found' : later.lookUp place = .ok files')
    (taken : runFrom before (store.take env project record) = (.ok (), after))
    (kept : later.lookUp (store.snapshotFile env place) =
      after.lookUp (store.snapshotFile env place)) :
    let old := DigestTree.ofProject env.digest .standard place
      (trackedProject .standard place files)
    let new := DigestTree.ofProject env.digest .standard place
      (trackedProject .standard place files')
    runFrom later (store.hasChanged env project) =
        (.ok ((old .childrenFirst).rootDigest != (new .childrenFirst).rootDigest), later) ∧
      runFrom later (store.changesSince env project) =
        (.ok (.ofChanges (Changes.between (old .folderFirst) (new .childrenFirst)),
          new .childrenFirst), later) ∧
      ∀ root age maxAge, (runFrom later (store.age env project)).1 = .ok (some age) →
        Indexer.isTooOld age maxAge = .ok false →
        (runFrom later ((⟨env, store, root⟩ : Indexer).isStale project maxAge)).1 =
          (runFrom later (store.hasChanged env project)).1 := by
  obtain ⟨noNull, time, keeps⟩ := SnapshotStore.take_ok here found taken
  have valid := Path.validNames_resolve noNull directory
  rw [here] at valid
  have keeps' := keeps.of_lookUp kept
  have rules : store.rulesFor project = .standard := by
    simp [SnapshotStore.rulesFor, outside]
  have same : (DigestTree.ofFiles env.digest .standard place files).rootPath =
      (Path.ofString project).resolve later.workingDirectory := here'.symm
  have quick := SnapshotStore.hasChanged_of_keeps noNull same valid keeps' found'
  have whole := SnapshotStore.changesSince_of_keeps noNull same valid keeps' found'
  rw [rules, DigestTree.ofFiles_eq, DigestTree.ofFiles_eq] at quick whole
  refine ⟨quick, whole, fun root age maxAge known fresh => ?_⟩
  exact SnapshotStore.isStale_of_keeps noNull same valid keeps' found' root known fresh

private theorem exists_of_map_eq_ok {α β : Type} {result : Except Fault α} {change : α → β}
    {value : β} (mapped : result.map change = .ok value) :
    ∃ inner, result = .ok inner ∧ change inner = value := by
  cases result with
  | error fault => cases mapped
  | ok inner => exact ⟨inner, rfl, Except.ok.inj mapped⟩

/-- Where digests do not collide, the quick check finds a project unchanged exactly if its
digested bytes are the same; the comparison finds it unchanged exactly if its files are.
As long as files are told from folders, the same bytes mean the same outline, and the
quick check overlooks no change if no content is in two places. -/
theorem quick_check_compares_outlines {env : Environment} {store : SnapshotStore}
    {project : String} {record : Record} {before after later : World} {place : Path}
    {old new : Option (FileTree Stored)} {width : Nat}
    (outside : store.folder.relativeTo? (Path.ofString project) = none)
    (sound : before.WellFormed) (sound' : later.WellFormed)
    (here : (Path.ofString project).resolve before.workingDirectory = place)
    (here' : (Path.ofString project).resolve later.workingDirectory = place)
    (seen : (before.lookUp place).map (trackedProject .standard place) = .ok old)
    (seen' : (later.lookUp place).map (trackedProject .standard place) = .ok new)
    (taken : runFrom before (store.take env project record) = (.ok (), after))
    (kept : later.lookUp (store.snapshotFile env place) =
      after.lookUp (store.snapshotFile env place))
    (positive : 0 < width) (fixed : ∀ bytes, (env.digest bytes).length = width)
    (noCollision : NoCollision env.digest .standard place old new) :
    ∃ changed changes present,
      (runFrom later (store.hasChanged env project)).1 = .ok changed ∧
      (runFrom later (store.changesSince env project)).1 = .ok (changes, present) ∧
      (changed = false ↔ projectBytes env.digest .standard place old =
        projectBytes env.digest .standard place new) ∧
      (changes.hasChanges = false ↔ ∀ names,
        trackedContent .standard old names = trackedContent .standard new names) ∧
      (KindsApart env.digest .standard place old new →
        (changed = false ↔ AlikeProjects .standard place old new) ∧
        (InOnePlace .standard old new → changed = false → changes.hasChanges = false)) ∧
      ∀ root age maxAge, (runFrom later (store.age env project)).1 = .ok (some age) →
        Indexer.isTooOld age maxAge = .ok false →
        (runFrom later ((⟨env, store, root⟩ : Indexer).isStale project maxAge)).1 =
          .ok changed := by
  obtain ⟨files, found, rfl⟩ := exists_of_map_eq_ok seen
  obtain ⟨files', found', rfl⟩ := exists_of_map_eq_ok seen'
  obtain ⟨quick, whole, stale⟩ := checks_after_take outside sound.workingDirectory here here'
    found found' taken kept
  have wellFormed : ∀ tree ∈ trackedProject .standard place files, tree.WellFormed :=
    trackedProject_wellFormed (sound.lookUp found)
  have wellFormed' : ∀ tree ∈ trackedProject .standard place files', tree.WellFormed :=
    trackedProject_wellFormed (sound'.lookUp found')
  have bytes := noCollision.rootDigest_eq_iff .childrenFirst .childrenFirst
  have contents := Changes.hasChanges_ofProject place .folderFirst .childrenFirst
    wellFormed wellFormed' (fun names => noCollision.contents names names)
  rw [quick, whole]
  refine ⟨_, _, _, rfl, rfl, ?_, ?_, ?_, ?_⟩
  · rw [bne_eq_false_iff_eq]
    exact bytes
  · rw [LooseChanges.hasChanges_ofChanges]
    exact contents
  · intro apart
    have outlines := projectBytes_eq_iff positive fixed noCollision apart
    rw [bne_eq_false_iff_eq, LooseChanges.hasChanges_ofChanges]
    refine ⟨bytes.trans outlines, fun onePlace same => contents.mpr ?_⟩
    have alike := outlines.mp (bytes.mp same)
    exact alike.trackedContent_eq wellFormed wellFormed' onePlace
  · intro root age maxAge known fresh
    rw [stale root age maxAge known fresh, quick]

def singleFileProject (name : String) : FileTree Stored :=
  .folder [(name, .file ⟨.bytes "x".toUTF8, 0⟩)]

/-- A world with a project and a folder for snapshots. -/
def singleFileWorld (name : String) (kept : List (String × FileTree Stored)) : World :=
  ⟨.folder [("proj", singleFileProject name), ("snap", .folder kept)], ⟨.root, []⟩, 0, 0, [], 0⟩

/-- Surroundings in which only digests matter. -/
def digestOnly (digest : DigestFunction) : Environment where
  digest := digest
  pathDigest := fun _ => "id"
  languages := []
  parse := ⟨fun _ _ => default⟩
  encoder := ⟨fun _ _ => .ok []⟩
  gpu := .none
  home := ⟨.root, []⟩
  storage := ⟨.root, []⟩
  sample := ⟨.root, []⟩

def singleFilePlace : Path :=
  ⟨.root, ["proj"]⟩

def snapshotFolder : SnapshotStore :=
  ⟨⟨.root, ["snap"]⟩⟩

private theorem taken_singleFile (digest : DigestFunction) : ∃ document record,
    runFrom (singleFileWorld "a.py" []) (snapshotFolder.take (digestOnly digest) "/proj" []) =
      (.ok (), (((singleFileWorld "a.py" []).tick.put ["snap", "id_snapshot.json"]
        (.document document)).tick.put ["snap", "id_metadata.json"] (.document record))) := by
  have resolved : runFrom (singleFileWorld "a.py" []) (World.resolve "/proj") =
      (.ok singleFilePlace, singleFileWorld "a.py" []) := rfl
  have built := @DigestTree.runFrom_build digest .standard singleFilePlace
    (singleFileWorld "a.py" []) (some (singleFileProject "a.py")) rfl
  have same : (digestOnly digest).digest = digest := rfl
  have place : (KeptTree.regular (.ofFiles digest .standard singleFilePlace
      (some (singleFileProject "a.py")))).rootPath = singleFilePlace := rfl
  have file : snapshotFolder.snapshotFile (digestOnly digest) singleFilePlace =
      ⟨.root, ["snap", "id_snapshot.json"]⟩ := rfl
  have file' : snapshotFolder.recordFile (digestOnly digest) singleFilePlace =
      ⟨.root, ["snap", "id_metadata.json"]⟩ := rfl
  simp only [SnapshotStore.take, SnapshotStore.save, SnapshotStore.saveKept, runFrom_bind,
    resolved, same, built, andThen_ok, World.runFrom_readClock, KeptTree.toValue,
    runFrom_orFail, runFrom_pure, World.runFrom_writeFile, place, file, file']
  exact ⟨_, _, rfl⟩

private theorem trackedContent_singleFile {names : List String} {bytes : ByteArray}
    (content : trackedContent .standard (some (singleFileProject name)) names = some bytes) :
    names = [name] ∧ bytes = "x".toUTF8 := by
  obtain ⟨_, stored, known, found, -, rfl⟩ := trackedContent_eq_some.mp content
  obtain rfl := Option.some.inj known
  match names, found with
  | [], found => cases found
  | [only], found =>
    rw [FileTree.find?_cons, singleFileProject, FileTree.entries, Table.lookup_cons_ite] at found
    split at found
    · rename_i same
      cases found
      exact ⟨by simpa using same, rfl⟩
    · cases found
  | first :: second :: rest, found =>
    rw [FileTree.find?_cons, singleFileProject, FileTree.entries, Table.lookup_cons_ite] at found
    split at found <;> cases found

private theorem content_singleFile :
    trackedContent .standard (some (singleFileProject "a.py")) ["a.py"] = some "x".toUTF8 := rfl

private theorem tracked_singleFile (files : Option (FileTree Stored)) :
    trackedProject .standard singleFilePlace files = files :=
  if_neg (by decide)

private theorem tracked_names : IgnoreRules.standard.ignores "a.py" = false ∧
    IgnoreRules.standard.ignores "b.py" = false := by
  decide

private theorem wellFormed_singleFile (valid : ValidName name) :
    ∀ tree ∈ some (singleFileProject name), tree.WellFormed := by
  rintro tree ⟨⟩
  exact FileTree.wellFormed_folder_iff.mpr (by simpa using ⟨valid, FileTree.wellFormed_file _⟩)

private theorem wellFormed_singleFileWorld {name : String} (valid : ValidName name)
    {kept : List (String × FileTree Stored)} (single : (kept.map Prod.fst).Nodup)
    (each : ∀ entry ∈ kept, ValidName entry.1 ∧ entry.2.WellFormed) :
    (singleFileWorld name kept).WellFormed := by
  have snapshots := FileTree.wellFormed_folder_iff.mpr ⟨single, each⟩
  have names : ValidName "proj" ∧ ValidName "snap" := by decide
  refine ⟨FileTree.wellFormed_folder_iff.mpr ?_, by simp [singleFileWorld]⟩
  simp [names, wellFormed_singleFile valid _ rfl, snapshots]

private theorem alike_singleFile {name' : String}
    (tracked : IgnoreRules.standard.ignores name = false)
    (tracked' : IgnoreRules.standard.ignores name' = false) :
    Alike .standard "proj" (singleFileProject name) "proj" (singleFileProject name') :=
  .folder (@AlikeEntries.paired _ _ _ _ _ [] [] [] tracked tracked' (.file rfl) (.nil (by simp)))

/-- The world after a snapshot was taken and the file was given another name. -/
def renamedWorld (document record : Value) : World :=
  { singleFileWorld "b.py" [("id_snapshot.json", .file ⟨.document document, 0⟩),
      ("id_metadata.json", .file ⟨.document record, 1⟩)] with
    now := 2
    clock := 2 }

private theorem moved_singleFile (document record : Value) :
    runFrom (((singleFileWorld "a.py" []).tick.put ["snap", "id_snapshot.json"]
        (.document document)).tick.put ["snap", "id_metadata.json"] (.document record))
      (World.move (singleFilePlace.child "a.py") (singleFilePlace.child "b.py")) =
        (.ok (), renamedWorld document record) := rfl

private theorem kept_singleFile (document record : Value) :
    (renamedWorld document record).lookUp (snapshotFolder.folder.child "id_snapshot.json") =
      (((singleFileWorld "a.py" []).tick.put ["snap", "id_snapshot.json"]
        (.document document)).tick.put ["snap", "id_metadata.json"] (.document record)).lookUp
          (snapshotFolder.folder.child "id_snapshot.json") := rfl

/-- Whatever the digest function, a file that was given another name goes unnoticed by the quick
check, while the comparison finds a change. -/
theorem exists_unnoticed_rename : ∀ digest : DigestFunction, ∃ after later,
    runFrom (singleFileWorld "a.py" []) (snapshotFolder.take (digestOnly digest) "/proj" []) =
      (.ok (), after) ∧
    runFrom after (World.move (singleFilePlace.child "a.py") (singleFilePlace.child "b.py")) =
      (.ok (), later) ∧
    (runFrom later (snapshotFolder.hasChanged (digestOnly digest) "/proj")).1 = .ok false ∧
    ∃ changes present,
      (runFrom later (snapshotFolder.changesSince (digestOnly digest) "/proj")).1 =
        .ok (changes, present) ∧ changes.hasChanges = true := by
  intro digest
  obtain ⟨document, record, taken⟩ := taken_singleFile digest
  have stands : (singleFileWorld "a.py" []).lookUp singleFilePlace =
      .ok (some (singleFileProject "a.py")) := rfl
  have found : (renamedWorld document record).lookUp singleFilePlace =
      .ok (some (singleFileProject "b.py")) := rfl
  have here : (Path.ofString "/proj").resolve ⟨.root, []⟩ = singleFilePlace := rfl
  have kept := kept_singleFile document record
  obtain ⟨quick, whole, -⟩ :=
    checks_after_take rfl (by decide) here here stands found taken kept
  rw [tracked_singleFile, tracked_singleFile] at quick whole
  refine ⟨_, _, taken, moved_singleFile document record, ?_, ?_⟩
  · have alike := alike_singleFile tracked_names.1 tracked_names.2
    rw [quick, DigestTree.rootDigest_ofProject, DigestTree.rootDigest_ofProject]
    exact congrArg Except.ok (bne_eq_false_iff_eq.mpr
      (congrArg (fun bytes => some (digest bytes)) alike.digestedBytes_eq))
  · rw [whole]
    refine ⟨_, _, rfl, ?_⟩
    rw [LooseChanges.hasChanges_ofChanges, ← Bool.not_eq_false]
    intro none
    have apart : ∀ names bytes bytes',
        trackedContent .standard (some (singleFileProject "a.py")) names = some bytes →
        trackedContent .standard (some (singleFileProject "b.py")) names = some bytes' →
        digest bytes = digest bytes' → bytes = bytes' := by
      intro names bytes bytes' content content' _
      rw [(trackedContent_singleFile content).2, (trackedContent_singleFile content').2]
    have same := (Changes.hasChanges_ofProject singleFilePlace .folderFirst .childrenFirst
      (wellFormed_singleFile (by decide)) (wellFormed_singleFile (by decide)) apart).mp none
    have gone := (same ["a.py"]).symm.trans content_singleFile
    exact absurd (trackedContent_singleFile gone).1 (by decide)

/-- A digest that tells a single byte from anything else. -/
def sizeDigest (bytes : ByteArray) : String :=
  if bytes.size = 1 then "1" else "2"

private theorem bytes_singleFile (tracked : IgnoreRules.standard.ignores name = false) :
    digestedBytes sizeDigest .standard "proj" (singleFileProject name) = "proj1".toUTF8 := by
  have inside : entryDigests sizeDigest .standard
      [(name, .file ⟨.bytes "x".toUTF8, 0⟩)] = ["1"] := by
    simp [entryDigests, tracked]
    rfl
  rw [singleFileProject, digestedBytes, inside]
  rfl

private theorem tracks_singleFile {last : String} {names : List String}
    {entry : FileTree Stored} (tracked : IgnoreRules.standard.ignores name = false)
    (tracks : Tracks .standard "proj" (singleFileProject name) names last entry) :
    (last = "proj" ∧ entry = singleFileProject name ∧
        digestedBytes sizeDigest .standard last entry = "proj1".toUTF8) ∨
      (entry = .file ⟨.bytes "x".toUTF8, 0⟩ ∧
        digestedBytes sizeDigest .standard last entry = "x".toUTF8) := by
  cases tracks with
  | here => exact .inl ⟨rfl, rfl, bytes_singleFile tracked⟩
  | inside member tracked further =>
    obtain ⟨rfl, rfl⟩ : _ ∧ _ := by simpa using member
    cases further
    exact .inr ⟨rfl, by rw [digestedBytes]; rfl⟩

private theorem apart_singleFile {name' : String}
    (tracked : IgnoreRules.standard.ignores name = false)
    (tracked' : IgnoreRules.standard.ignores name' = false) :
    NoCollision sizeDigest .standard singleFilePlace (some (singleFileProject name))
        (some (singleFileProject name')) ∧
      KindsApart sizeDigest .standard singleFilePlace (some (singleFileProject name))
        (some (singleFileProject name')) := by
  constructor
  · rintro tree ⟨⟩ tree' ⟨⟩ names last entry names' last' entry' tracks tracks' same
    rcases tracks_singleFile tracked tracks with ⟨-, -, bytes⟩ | ⟨-, bytes⟩ <;>
      rcases tracks_singleFile tracked' tracks' with ⟨-, -, bytes'⟩ | ⟨-, bytes'⟩ <;>
      rw [bytes, bytes'] at same ⊢
    · exact absurd same (by decide)
    · exact absurd same (by decide)
  · rintro tree ⟨⟩ tree' ⟨⟩ names last entry names' last' entry' tracks tracks' same
    rcases tracks_singleFile tracked tracks with ⟨rfl, rfl, bytes⟩ | ⟨rfl, bytes⟩ <;>
      rcases tracks_singleFile tracked' tracks' with ⟨rfl, rfl, bytes'⟩ | ⟨rfl, bytes'⟩ <;>
      rw [bytes, bytes'] at same
    · rfl
    · exact absurd same (by decide)
    · exact absurd same (by decide)
    · trivial

/-- A file that was given another name goes unnoticed by the quick check, without a collision. -/
theorem renamed_file_goes_unnoticed :
    NoCollision sizeDigest .standard singleFilePlace (some (singleFileProject "a.py"))
        (some (singleFileProject "b.py")) ∧
      ∃ after later,
        runFrom (singleFileWorld "a.py" [])
          (snapshotFolder.take (digestOnly sizeDigest) "/proj" []) = (.ok (), after) ∧
        runFrom after (World.move (singleFilePlace.child "a.py") (singleFilePlace.child "b.py")) =
          (.ok (), later) ∧
        (runFrom later (snapshotFolder.hasChanged (digestOnly sizeDigest) "/proj")).1 =
          .ok false ∧
        ∃ changes present,
          (runFrom later (snapshotFolder.changesSince (digestOnly sizeDigest) "/proj")).1 =
            .ok (changes, present) ∧ changes.hasChanges = true :=
  ⟨(apart_singleFile tracked_names.1 tracked_names.2).1, exists_unnoticed_rename sizeDigest⟩

/-- The quick check after a file was given another name: nothing but the outline counts. -/
theorem quick_check_of_renamed_file : ∃ after later,
    runFrom (singleFileWorld "a.py" []) (snapshotFolder.take (digestOnly sizeDigest) "/proj" []) =
      (.ok (), after) ∧
    runFrom after (World.move (singleFilePlace.child "a.py") (singleFilePlace.child "b.py")) =
      (.ok (), later) ∧
    ∃ changed changes present,
      (runFrom later (snapshotFolder.hasChanged (digestOnly sizeDigest) "/proj")).1 =
        .ok changed ∧
      (runFrom later (snapshotFolder.changesSince (digestOnly sizeDigest) "/proj")).1 =
        .ok (changes, present) ∧
      (changed = false ↔ AlikeProjects .standard singleFilePlace
        (some (singleFileProject "a.py")) (some (singleFileProject "b.py"))) ∧
      (changes.hasChanges = false ↔ ∀ names,
        trackedContent .standard (some (singleFileProject "a.py")) names =
          trackedContent .standard (some (singleFileProject "b.py")) names) := by
  obtain ⟨document, record, taken⟩ := taken_singleFile sizeDigest
  have seen : ((singleFileWorld "a.py" []).lookUp singleFilePlace).map
      (trackedProject .standard singleFilePlace) = .ok (some (singleFileProject "a.py")) := rfl
  have seen' : ((renamedWorld document record).lookUp singleFilePlace).map
      (trackedProject .standard singleFilePlace) = .ok (some (singleFileProject "b.py")) := rfl
  have here : (Path.ofString "/proj").resolve ⟨.root, []⟩ = singleFilePlace := rfl
  have kept := kept_singleFile document record
  have sound : (singleFileWorld "a.py" []).WellFormed :=
    wellFormed_singleFileWorld (by decide) (by simp) (by simp)
  have sound' : (renamedWorld document record).WellFormed := by
    have names : ValidName "id_snapshot.json" ∧ ValidName "id_metadata.json" := by decide
    have world := @wellFormed_singleFileWorld "b.py" (by decide)
      [("id_snapshot.json", .file ⟨.document document, 0⟩),
        ("id_metadata.json", .file ⟨.document record, 1⟩)] (by simp)
      (by simp [names, FileTree.wellFormed_file])
    exact ⟨world.disk, world.workingDirectory⟩
  obtain ⟨noCollision, apart⟩ := apart_singleFile tracked_names.1 tracked_names.2
  have fixed : ∀ bytes, (sizeDigest bytes).length = 1 := by
    intro bytes
    unfold sizeDigest
    split <;> rfl
  obtain ⟨changed, changes, present, quick, whole, -, contents, outlines, -⟩ :=
    quick_check_compares_outlines rfl sound sound' here here seen seen' taken kept
      Nat.one_pos fixed noCollision
  exact ⟨_, _, taken, moved_singleFile document record, changed, changes, present, quick,
    whole, (outlines apart).1, contents⟩

end CodeAtlas
