import CodeAtlas.Data.Order
import CodeAtlas.Tracking.Changes
import CodeAtlas.Tracking.Record

/-!
# Digest trees of loose records

A kept record may hold values of other types than a digest tree has: a path that is a
number, a digest that is a list.  Such a record is a loose tree.  It is told about and
compared like a digest tree, as far as its values can be looked up, summed and ordered.
-/

namespace CodeAtlas

inductive LooseNode where
  | mk (path digest fileMark size : Value) (children : List LooseNode)
deriving Inhabited

namespace LooseNode

def path : LooseNode → Value
  | mk path .. => path

def digest : LooseNode → Value
  | mk _ digest .. => digest

def size : LooseNode → Value
  | mk _ _ _ size _ => size

def isFile : LooseNode → Bool
  | mk _ _ fileMark _ _ => fileMark.isTruthy

mutual

def preorder : LooseNode → List LooseNode
  | node@(.mk _ _ _ _ children) => node :: preorderAll children

def preorderAll : List LooseNode → List LooseNode
  | [] => []
  | node :: rest => preorder node ++ preorderAll rest

end

mutual

def toValue : LooseNode → Value
  | .mk path digest fileMark size children =>
    .record [("path", path), ("hash", digest), ("is_file", fileMark), ("size", size),
      ("children", .list (toValues children))]

def toValues : List LooseNode → List Value
  | [] => []
  | node :: rest => toValue node :: toValues rest

end

mutual

def ofNode : DigestNode → LooseNode
  | .mk path digest fileMark size children =>
    .mk (.text path) (.ofText? digest) fileMark (.int size) (ofNodes children)

def ofNodes : List DigestNode → List LooseNode
  | [] => []
  | node :: rest => ofNode node :: ofNodes rest

end

def headOf (fields : Record) : Except Fault (List LooseNode → LooseNode) := do
  return .mk (← fields.need "path") (← fields.need "hash") (← fields.need "is_file")
    ((fields.lookup "size").getD (.int 0))

mutual

def ofValue : Value → Except Fault LooseNode
  | .record fields => do
    let node ← headOf fields
    return node (← ofChildren fields)
  | _ => .error (.wrongType "not a record")

/-- The nodes under the field of a record that lists the children. -/
def ofChildren : List (String × Value) → Except Fault (List LooseNode)
  | [] => .ok []
  | (name, value) :: rest =>
    if name == "children" then ofChildrenValue value else ofChildren rest

/-- The nodes of a list of records.  What is empty holds no nodes. -/
def ofChildrenValue : Value → Except Fault (List LooseNode)
  | .list items => ofValues items
  | .record [] => .ok []
  | .text value => if value.isEmpty then .ok [] else .error (.wrongType "not a record")
  | _ => .error (.wrongType "not a list")

def ofValues : List Value → Except Fault (List LooseNode)
  | [] => .ok []
  | item :: rest => do
    let node ← ofValue item
    return node :: (← ofValues rest)

end

end LooseNode

/-- A tree of loose nodes, also listed by path. -/
structure LooseTree where
  rootPath : Path
  root : Option LooseNode
  nodes : Table Value LooseNode
deriving Inhabited

namespace LooseTree

def ofTree (tree : DigestTree) : LooseTree :=
  ⟨tree.rootPath, tree.root.map LooseNode.ofNode,
    ⟨tree.nodes.entries.map (fun (path, node) => (.text path, LooseNode.ofNode node))⟩⟩

/-- List nodes by path; a path that is a list or a record cannot be looked up. -/
def listNodes (nodes : List LooseNode) : Except Fault (Table Value LooseNode) :=
  match nodes.find? (fun node => !node.path.isPlain) with
  | some node => .error (.wrongType node.path.notHashable)
  | none => .ok (Table.ofList (nodes.map (fun node => (node.path, node))))

def ofValue (workingDirectory : Path) (value : Value) : Except Fault LooseTree := do
  let fields ← value.needRecord
  let rootPath ← (← fields.need "root_path").needText
  if (Path.ofString rootPath).hasNull then throw .nullInPath
  let place := (Path.ofString rootPath).resolve workingDirectory
  let root ← fields.need "root_node"
  if root.isTruthy then
    let node ← LooseNode.ofValue root
    return ⟨place, some node, ← listNodes node.preorder⟩
  else return ⟨place, none, Table.empty⟩

def find? (tree : LooseTree) (path : Value) : Option LooseNode :=
  tree.nodes.get? path

def fileEntries (tree : LooseTree) : List (Value × LooseNode) :=
  tree.nodes.entries.filter (fun entry => entry.2.isFile)

def fileDigests (tree : LooseTree) : List (Value × Value) :=
  tree.fileEntries.map (fun entry => (entry.1, entry.2.digest))

def rootDigest (tree : LooseTree) : Value :=
  (tree.root.map LooseNode.digest).getD .null

def totalSize (tree : LooseTree) : Except Fault Value :=
  Value.sum (tree.fileEntries.map (fun entry => entry.2.size))

def stats (tree : LooseTree) : Except Fault Record := do
  let files := tree.fileEntries.length
  return [("total_nodes", .int tree.nodes.size), ("file_count", .int files),
    ("directory_count", .int (tree.nodes.size - files : Nat)),
    ("total_size", ← tree.totalSize), ("root_hash", tree.rootDigest)]

def toValue (tree : LooseTree) : Except Fault Value := do
  return .record [("root_path", .text tree.rootPath.toString),
    ("root_node", (tree.root.map LooseNode.toValue).getD .null),
    ("file_count", .int tree.fileEntries.length), ("total_size", ← tree.totalSize)]

end LooseTree

structure LooseChanges where
  added : List Value
  removed : List Value
  modified : List Value
  unchanged : List Value

namespace LooseChanges

/-- Compare the files of two trees.  Files of both trees are named as in the one with
fewer files. -/
def between (old new : LooseTree) : Except Fault LooseChanges := do
  let oldFiles := old.fileDigests
  let newFiles := new.fileDigests
  let isIn (files : List (Value × Value)) (path : Value) : Bool := (files.lookup path).isSome
  let named := if newFiles.length ≤ oldFiles.length then newFiles else oldFiles
  let common ← Value.sorted ((named.map Prod.fst).filter
    (fun path => isIn oldFiles path && isIn newFiles path))
  let same (path : Value) : Bool :=
    ((oldFiles.lookup path).getD .null).agrees ((newFiles.lookup path).getD .null)
  return {
    added := ← Value.sorted ((newFiles.map Prod.fst).filter (fun path => !isIn oldFiles path))
    removed := ← Value.sorted ((oldFiles.map Prod.fst).filter (fun path => !isIn newFiles path))
    modified := common.filter (fun path => !same path)
    unchanged := common.filter same }

def ofChanges (changes : Changes) : LooseChanges :=
  ⟨changes.added.map .text, changes.removed.map .text, changes.modified.map .text,
    changes.unchanged.map .text⟩

def changed (changes : LooseChanges) : List Value :=
  changes.added ++ changes.removed ++ changes.modified

def texts? (changes : LooseChanges) : Option Changes := do
  return ⟨← changes.added.mapM Value.asText?, ← changes.removed.mapM Value.asText?,
    ← changes.modified.mapM Value.asText?, ← changes.unchanged.mapM Value.asText?⟩

def toRecord (changes : LooseChanges) : Record :=
  [("added", .list changes.added), ("removed", .list changes.removed),
    ("modified", .list changes.modified), ("unchanged", .list changes.unchanged),
    ("summary", .record [("added_count", .int changes.added.length),
      ("removed_count", .int changes.removed.length),
      ("modified_count", .int changes.modified.length),
      ("unchanged_count", .int changes.unchanged.length),
      ("total_changed", .int changes.changed.length)])]

def hasChanges (changes : LooseChanges) : Bool :=
  !changes.changed.isEmpty

def toReindex (changes : LooseChanges) : Except Fault (List Value) :=
  match changes.texts? with
  | some changes => .ok (changes.toReindex.map .text)
  | none => Value.sorted (changes.added ++ changes.modified)

def toRemove (changes : LooseChanges) : Except Fault (List Value) :=
  match changes.texts? with
  | some changes => .ok (changes.toRemove.map .text)
  | none => Value.sorted (changes.removed ++ changes.modified)

/-- The record of an analysis.  Only texts name places, so that the changed files have to
be texts; unchanged ones are not looked at. -/
def analysisRecord (changes : LooseChanges) : Except Fault Record := do
  return Changes.analysisRecord ⟨← changes.added.mapM Value.needText,
    ← changes.removed.mapM Value.needText, ← changes.modified.mapM Value.needText, []⟩

/-- The changes with what follows from them: whether there are any, the files whose chunks
have to be made anew, those whose chunks have to go, and the analysis. -/
def report (changes : LooseChanges) : Except Fault Record := do
  return changes.toRecord ++ [("has_changes", .bool changes.hasChanges),
    ("reindex", .list (← changes.toReindex)), ("remove", .list (← changes.toRemove)),
    ("analysis", .record (← changes.analysisRecord))]

def changedFolders (old new : LooseTree) : Except Fault (List Value) :=
  Value.sorted ((new.nodes.entries.filter (fun (path, node) =>
    !node.isFile &&
      match old.find? path with
      | none => true
      | some before => !before.digest.agrees node.digest)).map Prod.fst)

end LooseChanges

end CodeAtlas
