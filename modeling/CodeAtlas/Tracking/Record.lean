import CodeAtlas.Data.Needed
import CodeAtlas.Tracking.DigestTree

/-!
# Digest trees as records

The form in which a digest tree is kept.  Reading a record lists folders before
their children.
-/

namespace CodeAtlas

namespace DigestNode

mutual

def toValue : DigestNode → Value
  | .mk path digest fileMark size children =>
    .record [("path", .text path), ("hash", .ofText? digest), ("is_file", fileMark),
      ("size", .int size), ("children", .list (toValues children))]

def toValues : List DigestNode → List Value
  | [] => []
  | node :: rest => toValue node :: toValues rest

end

end DigestNode

namespace DigestNode

def headOf (fields : Record) : Except Fault (List DigestNode → DigestNode) := do
  let path ← (← fields.need "path").needText
  let digest ← (← fields.need "hash").needText?
  let fileMark ← fields.need "is_file"
  let size ← ((fields.lookup "size").getD (.int 0)).needWhole
  return .mk path digest fileMark size

mutual

def ofValue : Value → Except Fault DigestNode
  | .record fields => do
    let node ← headOf fields
    return node (← ofChildren fields)
  | _ => .error (.wrongType "not a record")

def ofChildren : List (String × Value) → Except Fault (List DigestNode)
  | [] => .ok []
  | (name, value) :: rest =>
    if name == "children" then ofChildrenValue value else ofChildren rest

/-- The nodes of a list of records.  What is empty holds no nodes. -/
def ofChildrenValue : Value → Except Fault (List DigestNode)
  | .list items => ofValues items
  | .record [] => .ok []
  | .text value => if value.isEmpty then .ok [] else .error (.wrongType "not a record")
  | _ => .error (.wrongType "not a list")

def ofValues : List Value → Except Fault (List DigestNode)
  | [] => .ok []
  | item :: rest => do
    let node ← ofValue item
    return node :: (← ofValues rest)

end

end DigestNode

namespace DigestTree

def toValue (tree : DigestTree) : Value :=
  .record [("root_path", .text tree.rootPath.toString),
    ("root_node", (tree.root.map DigestNode.toValue).getD .null),
    ("file_count", .int tree.fileEntries.length),
    ("total_size", .int tree.totalSize)]

/-- The digest tree that a record describes, with the path of the project seen
from a working directory.  A root that is null or empty counts as none. -/
def ofValue (workingDirectory : Path) (value : Value) : Except Fault DigestTree := do
  let fields ← value.needRecord
  let rootPath ← (← fields.need "root_path").needText
  let place := (Path.ofString rootPath).resolve workingDirectory
  if (Path.ofString rootPath).hasNull then throw .nullInPath
  let root ← fields.need "root_node"
  if root.isTruthy then
    return ⟨place, some (← DigestNode.ofValue root), .folderFirst⟩
  else return ⟨place, none, .folderFirst⟩

end DigestTree

end CodeAtlas
