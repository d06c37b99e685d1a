import CodeAtlas.Proofs.Files.Storing
import CodeAtlas.Proofs.Server.Projects
import CodeAtlas.Proofs.Tracking.Shelf

/-!
# The files that are kept for a project

For each project the server keeps the files of an index, a snapshot and a record about it.  Where
two projects have folders and snapshots of different names, no file is kept for both.
-/

namespace CodeAtlas

theorem Path.resolve_child_ne {folder folder' : Path} {name name' : String} (notUp : name ≠ "..")
    (notUp' : name' ≠ "..") (different : name ≠ name') (workingDirectory : Path) :
    ((folder.child name).resolve workingDirectory).parts ≠
      ((folder'.child name').resolve workingDirectory).parts := by
  rw [resolve_child notUp, resolve_child notUp']
  intro same
  exact different (List.singleton_inj.mp (List.append_inj_right' same rfl))

namespace Server

variable {env : Environment} {place other : Path}

/-- The files that are kept for a project. -/
inductive KeptFor (env : Environment) (place : Path) : Path → Prop where
  | index (file : KeptFile) : KeptFor env place ((indexFolder env place).child file.name)
  | snapshot : KeptFor env place ((indexerAt env place).store.snapshotFile env place)
  | record : KeptFor env place ((indexerAt env place).store.recordFile env place)

/-- The files that are kept for projects. -/
def Kept (env : Environment) (path : Path) : Prop :=
  ∃ place, KeptFor env place path

/-- The endings of the names of snapshots tell them from the description of a project. -/
theorem append_ne_info {ending : String} (long : ending.length = 14)
    (different : ending ≠ "ject_info.json") (id : String) : id ++ ending ≠ "project_info.json" := by
  intro same
  have split : "project_info.json" = "pro" ++ "ject_info.json" := by decide
  rw [split] at same
  exact different (SnapshotStore.append_inj_of_ending same (long.trans (by decide))).2

/-- A file that is kept for a project is one of its index, or has the name of the project. -/
theorem KeptFor.named {path : Path} (kept : KeptFor env place path) :
    (∃ file : KeptFile, path = (indexFolder env place).child file.name) ∨
      ∃ folder ending, ending.length = 14 ∧ ending ≠ "ject_info.json" ∧
        path = Path.child folder (SnapshotStore.projectId env place ++ ending) := by
  cases kept with
  | index file => exact .inl ⟨file, rfl⟩
  | snapshot => exact .inr ⟨_, "_snapshot.json", by decide, by decide, rfl⟩
  | record => exact .inr ⟨_, "_metadata.json", by decide, by decide, rfl⟩

/-- A kept file is none that describes a project. -/
theorem Kept.exists_child {path : Path} (kept : Kept env path) :
    ∃ folder name, name ≠ ".." ∧ name ≠ "project_info.json" ∧ path = Path.child folder name := by
  obtain ⟨place, kept⟩ := kept
  rcases kept.named with ⟨file, rfl⟩ | ⟨folder, ending, long, different, rfl⟩
  · exact ⟨_, _, file.name_notUp, by cases file <;> decide, rfl⟩
  · exact ⟨_, _, SnapshotStore.append_ne_up (by omega) _, append_ne_info long different _, rfl⟩

theorem Kept.below {path workingDirectory : Path} (kept : Kept env path) :
    (path.resolve workingDirectory).parts ≠ [] := by
  obtain ⟨folder, name, notUp, -, rfl⟩ := kept.exists_child
  rw [Path.resolve_child notUp]
  exact List.concat_ne_nil _ _

theorem Kept.apart_info {path workingDirectory : Path} (kept : Kept env path) (folder : Path) :
    (path.resolve workingDirectory).parts ≠
      ((folder.child "project_info.json").resolve workingDirectory).parts := by
  obtain ⟨_, name, notUp, different, rfl⟩ := kept.exists_child
  exact Path.resolve_child_ne notUp (by decide) different workingDirectory

theorem folderName_ne_up (env : Environment) (place : Path) : folderName env place ≠ ".." := by
  intro same
  have marked : '_' ∈ (folderName env place).toList := by simp [folderName]
  rw [same] at marked
  exact absurd marked (by decide)

/-- What is kept for two projects is kept under different names. -/
structure Apart (env : Environment) (place other : Path) : Prop where
  folders : folderName env place ≠ folderName env other
  snapshots : SnapshotStore.projectId env place ≠ SnapshotStore.projectId env other

theorem resolve_indexFolder (env : Environment) (place workingDirectory : Path) :
    ((indexFolder env place).resolve workingDirectory).parts =
      ((env.storage.child "projects").resolve workingDirectory).parts ++
        [folderName env place] ++ ["index"] := by
  rw [indexFolder, homeOf, Path.resolve_child (show "index" ≠ ".." by decide),
    Path.resolve_child (folderName_ne_up env place)]

theorem Apart.indexFolder_ne (apart : Apart env place other) (workingDirectory : Path) :
    ((indexFolder env place).resolve workingDirectory).parts ≠
      ((indexFolder env other).resolve workingDirectory).parts := by
  rw [resolve_indexFolder, resolve_indexFolder]
  intro same
  have homes := List.append_inj_left' same rfl
  exact apart.folders (List.singleton_inj.mp (List.append_inj_right' homes rfl))

/-- No file is kept for both of two projects. -/
theorem Apart.resolve_ne (apart : Apart env place other) {path path' : Path}
    (kept : KeptFor env place path) (kept' : KeptFor env other path') (workingDirectory : Path) :
    (path.resolve workingDirectory).parts ≠ (path'.resolve workingDirectory).parts := by
  rcases kept.named with ⟨file, rfl⟩ | ⟨folder, ending, long, -, rfl⟩
  · rcases kept'.named with ⟨file', rfl⟩ | ⟨folder', ending', long', -, rfl⟩
    · rw [Path.resolve_child file.name_notUp, Path.resolve_child file'.name_notUp]
      intro same
      exact apart.indexFolder_ne workingDirectory (List.append_inj_left' same rfl)
    · exact Path.resolve_child_ne file.name_notUp (SnapshotStore.append_ne_up (by omega) _)
        (Indexer.keptName_ne (by omega) _ file) workingDirectory
  · rcases kept'.named with ⟨file', rfl⟩ | ⟨folder', ending', long', -, rfl⟩
    · exact Path.resolve_child_ne (SnapshotStore.append_ne_up (by omega) _) file'.name_notUp
        (Indexer.keptName_ne (by omega) _ file').symm workingDirectory
    · exact Path.resolve_child_ne (SnapshotStore.append_ne_up (by omega) _)
        (SnapshotStore.append_ne_up (by omega) _) (fun same => apart.snapshots
          (SnapshotStore.append_inj_of_ending same (long.trans long'.symm)).1) workingDirectory

end Server

end CodeAtlas
