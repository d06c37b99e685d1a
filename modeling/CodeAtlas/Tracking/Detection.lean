import CodeAtlas.Tracking.Snapshot

/-!
# What changed since the last snapshot

The project on disk is compared with its snapshot, by root digest or file by
file.  Where the snapshots are kept inside the project, their folder is left out
by its path from the project.
-/

namespace CodeAtlas.SnapshotStore

def rulesFor (store : SnapshotStore) (project : String) : IgnoreRules :=
  match store.folder.relativeTo? (Path.ofString project) with
  | some inside => IgnoreRules.standard.add inside.toString
  | none => IgnoreRules.standard

def presentTree (env : Environment) (store : SnapshotStore) (project : String) :
    Act DigestTree := do
  let place ← World.resolve project
  DigestTree.build env.digest (store.rulesFor project) place

/-- The changes since the snapshot and the present tree.  Without a snapshot every
file is added. -/
def changesSince (env : Environment) (store : SnapshotStore) (project : String) :
    Act (LooseChanges × DigestTree) := do
  let tree ← store.presentTree env project
  match ← store.load env project with
  | none => return (.ofChanges (Changes.allAdded tree), tree)
  | some old => return (← orFail (old.changesTo (.regular tree)), tree)

def hasChanged (env : Environment) (store : SnapshotStore) (project : String) : Act Bool := do
  match ← store.load env project with
  | none => return true
  | some old =>
    let present ← store.presentTree env project
    return !old.rootDigest.agrees (.ofText? present.rootDigest)

end CodeAtlas.SnapshotStore
