import CodeAtlas.Tracking.Loose

/-!
# Kept trees

What is read back from a record is a digest tree, or a loose tree if the record holds
values of other types.
-/

namespace CodeAtlas

inductive KeptTree where
  | regular (tree : DigestTree)
  | irregular (tree : LooseTree)
deriving Inhabited

namespace KeptTree

/-- The tree that a record describes, with the path of the project seen from a working
directory. -/
def ofValue (workingDirectory : Path) (value : Value) : Except Fault KeptTree :=
  match DigestTree.ofValue workingDirectory value with
  | .ok tree => .ok (.regular tree)
  | .error _ => (LooseTree.ofValue workingDirectory value).map .irregular

def loose : KeptTree → LooseTree
  | .regular tree => .ofTree tree
  | .irregular tree => tree

def rootPath : KeptTree → Path
  | .regular tree => tree.rootPath
  | .irregular tree => tree.rootPath

def rootDigest : KeptTree → Value
  | .regular tree => .ofText? tree.rootDigest
  | .irregular tree => tree.rootDigest

def paths : KeptTree → List Value
  | .regular tree => tree.nodes.keys.map .text
  | .irregular tree => tree.nodes.keys

def files : KeptTree → List Value
  | .regular tree => tree.files.map .text
  | .irregular tree => tree.fileEntries.map Prod.fst

def fileDigests : KeptTree → List (Value × Value)
  | .regular tree => tree.fileDigests.map (fun (path, digest) => (.text path, .ofText? digest))
  | .irregular tree => tree.fileDigests

def stats : KeptTree → Except Fault Record
  | .regular tree => .ok tree.stats.toRecord
  | .irregular tree => tree.stats

def toValue : KeptTree → Except Fault Value
  | .regular tree => .ok tree.toValue
  | .irregular tree => tree.toValue

/-- The record of the node at a path.  A list or a record cannot be looked up. -/
def find (tree : KeptTree) (path : Value) : Except Fault (Option Value) :=
  match tree, path with
  | .regular tree, .text path => .ok ((tree.find? path).map DigestNode.toValue)
  | tree, path =>
    if path.isPlain then .ok ((tree.loose.find? path).map LooseNode.toValue)
    else .error (.wrongType path.notHashable)

def changesTo (old new : KeptTree) : Except Fault LooseChanges :=
  match old, new with
  | .regular old, .regular new => .ok (.ofChanges (Changes.between old new))
  | old, new => LooseChanges.between old.loose new.loose

def changedFolders (old new : KeptTree) : Except Fault (List Value) :=
  match old, new with
  | .regular old, .regular new => .ok ((CodeAtlas.changedFolders old new).map .text)
  | old, new => LooseChanges.changedFolders old.loose new.loose

end KeptTree

def nodeRecord (value : Value) : Except Fault Value :=
  match DigestNode.ofValue value with
  | .ok node => .ok node.toValue
  | .error _ => (LooseNode.ofValue value).map LooseNode.toValue

end CodeAtlas
