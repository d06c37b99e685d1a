import CodeAtlas.Tracking.DigestTree

/-!
# Changes between two digest trees

Files are compared by path and digest.  All four lists of a comparison are
sorted.  The analysis counts the changed files by ending and by folder.
-/

namespace CodeAtlas

structure Changes where
  added : List String
  removed : List String
  modified : List String
  unchanged : List String
deriving DecidableEq, Inhabited

namespace Changes

def hasChanges (changes : Changes) : Bool :=
  !(changes.added.isEmpty && changes.removed.isEmpty && changes.modified.isEmpty)

def changed (changes : Changes) : List String :=
  changes.added ++ changes.removed ++ changes.modified

def totalChanged (changes : Changes) : Nat :=
  changes.changed.length

def toReindex (changes : Changes) : List String :=
  Text.sorted (changes.added ++ changes.modified)

def toRemove (changes : Changes) : List String :=
  Text.sorted (changes.removed ++ changes.modified)

/-- The changes when there is nothing to compare with: all files are added. -/
def allAdded (tree : DigestTree) : Changes :=
  ⟨tree.files, [], [], []⟩

def between (old new : DigestTree) : Changes :=
  let oldFiles := old.fileDigests
  let newFiles := new.fileDigests
  let missing (files : List (String × Option String)) (path : String) : Bool :=
    (files.lookup path).isNone
  let common := Text.sorted ((oldFiles.map Prod.fst).filter (fun path => !missing newFiles path))
  let same (path : String) : Bool := oldFiles.lookup path = newFiles.lookup path
  { added := Text.sorted ((newFiles.map Prod.fst).filter (missing oldFiles))
    removed := Text.sorted ((oldFiles.map Prod.fst).filter (missing newFiles))
    modified := common.filter (fun path => !same path)
    unchanged := common.filter same }

def toRecord (changes : Changes) : Record :=
  [("added", .ofTexts changes.added), ("removed", .ofTexts changes.removed),
    ("modified", .ofTexts changes.modified), ("unchanged", .ofTexts changes.unchanged),
    ("summary", .record [("added_count", .int changes.added.length),
      ("removed_count", .int changes.removed.length),
      ("modified_count", .int changes.modified.length),
      ("unchanged_count", .int changes.unchanged.length),
      ("total_changed", .int changes.totalChanged)])]

/-- How many changed files have each ending and lie in each folder, by falling count. -/
structure Analysis where
  endings : List (String × Nat)
  folders : List (String × Nat)
deriving DecidableEq

def endingKey (path : String) : String :=
  let ending := (Path.ofString path).suffix
  if ending.isEmpty then "no_extension" else ending

def folderKey (path : String) : String :=
  let folder := (Path.ofString path).parent
  if folder = Path.ofString "." then "root" else folder.toString

def analysis (changes : Changes) : Analysis :=
  ⟨(Table.tally (changes.changed.map endingKey)).byCount,
    (Table.tally (changes.changed.map folderKey)).byCount⟩

def analysisRecord (changes : Changes) : Record :=
  let counts (entries : List (String × Nat)) : Value :=
    .record (entries.map (fun (name, count) => (name, .int count)))
  [("file_extensions", counts changes.analysis.endings),
    ("directories", counts changes.analysis.folders),
    ("change_types", .record [("added", .int changes.added.length),
      ("removed", .int changes.removed.length), ("modified", .int changes.modified.length)])]

end Changes

def changedFolders (old new : DigestTree) : List String :=
  let oldNodes := old.nodes
  let differs (entry : String × DigestNode) : Bool :=
    !entry.2.isFile &&
      match oldNodes.get? entry.1 with
      | none => true
      | some node => node.digest ≠ entry.2.digest
  Text.sorted ((new.nodes.entries.filter differs).map Prod.fst)

end CodeAtlas
