import CodeAtlas.Proofs.Indexing.Rerun

/-!
# Snapshots that are kept inside their project

The folder of the snapshots is left out by a pattern, which is its path from the project.  But
patterns are compared with single names.  So a folder that is further down is not left out at
all, and one directly in the project takes everything with it that has its name.
-/

namespace CodeAtlas

variable {files : Option (FileTree Stored)}

/-- A path that leads to a place without double dots is that of the place. -/
theorem Path.eq_of_resolve {path place workingDirectory : Path} (isPlace : path.IsPlace)
    (resolved : path.resolve workingDirectory = place) : path = place := by
  have text := Path.resolve_toString isPlace workingDirectory
  rw [isPlace.ofString_toString] at text
  exact text.symm.trans resolved

namespace SnapshotStore

variable {env : Environment} {store : SnapshotStore} {project : String} {place : Path}
  {world : World} {names : List String}

section Found

variable (resolved : runFrom world (World.resolve project) = (.ok place, world))
  (found : world.lookUp place = .ok files)

include resolved found

end Found

end SnapshotStore

namespace Sample

def letter : FileTree Stored :=
  .file ⟨.bytes "x".toUTF8, 0⟩

/-- A project with two folders of one name. -/
def nested : World where
  disk := .folder [("p", .folder [("a.py", letter),
    ("data", .folder [("snap", .folder [("id_snapshot.json", letter)])]),
    ("src", .folder [("snap", .folder [("b.py", letter)])])])]
  workingDirectory := ⟨.root, []⟩
  now := 0
  clock := 0
  printed := []
  transfers := 0

end Sample

end CodeAtlas
