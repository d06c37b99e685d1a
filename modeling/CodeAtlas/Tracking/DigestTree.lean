import CodeAtlas.Data.Table
import CodeAtlas.Data.Value
import CodeAtlas.Path
import CodeAtlas.Text.Order

/-!
# Digest trees

A digest tree describes the tracked files and folders of a project.  Each node
has the path from the project's root, a digest and a size; a folder's node has
the nodes of its entries below it.  The nodes are also listed by path: a tree
that was built from files lists children before their folder, one that was read
from a record lists a folder before its children.  Where two nodes have the same
path the later one counts.
-/

namespace CodeAtlas

/-- A node of a digest tree.  `fileMark` marks a file when it is truthy. -/
inductive DigestNode where
  | mk (path : String) (digest : Option String) (fileMark : Value) (size : Int)
      (children : List DigestNode)
deriving Inhabited

namespace DigestNode

/-- The path from the root; the root's own path is a dot. -/
def path : DigestNode → String
  | mk path .. => path

def digest : DigestNode → Option String
  | mk _ digest .. => digest

def fileMark : DigestNode → Value
  | mk _ _ fileMark .. => fileMark

def size : DigestNode → Int
  | mk _ _ _ size _ => size

def children : DigestNode → List DigestNode
  | mk _ _ _ _ children => children

def isFile (node : DigestNode) : Bool :=
  node.fileMark.isTruthy

def ofFile (path digest : String) (size : Nat) : DigestNode :=
  .mk path (some digest) (.bool true) size []

def ofFolder (path digest : String) (children : List DigestNode) : DigestNode :=
  .mk path (some digest) (.bool false) 0 children

mutual

def preorder : DigestNode → List DigestNode
  | node@(.mk _ _ _ _ children) => node :: preorderAll children

def preorderAll : List DigestNode → List DigestNode
  | [] => []
  | node :: rest => preorder node ++ preorderAll rest

end

mutual

def postorder : DigestNode → List DigestNode
  | node@(.mk _ _ _ _ children) => postorderAll children ++ [node]

def postorderAll : List DigestNode → List DigestNode
  | [] => []
  | node :: rest => postorder node ++ postorderAll rest

end

end DigestNode

inductive Listing where
  | childrenFirst
  | folderFirst
deriving DecidableEq, Inhabited

structure DigestTree where
  rootPath : Path
  root : Option DigestNode
  listing : Listing
deriving Inhabited

namespace DigestTree

def empty (rootPath : Path) : DigestTree :=
  ⟨rootPath, none, .childrenFirst⟩

def listed (tree : DigestTree) : List DigestNode :=
  match tree.root with
  | none => []
  | some root =>
    match tree.listing with
    | .childrenFirst => root.postorder
    | .folderFirst => root.preorder

def nodes (tree : DigestTree) : Table String DigestNode :=
  Table.ofList (tree.listed.map (fun node => (node.path, node)))

def find? (tree : DigestTree) (path : String) : Option DigestNode :=
  tree.nodes.get? path

def fileEntries (tree : DigestTree) : List (String × DigestNode) :=
  tree.nodes.entries.filter (fun entry => entry.2.isFile)

def files (tree : DigestTree) : List String :=
  tree.fileEntries.map Prod.fst

def fileDigests (tree : DigestTree) : List (String × Option String) :=
  tree.fileEntries.map (fun entry => (entry.1, entry.2.digest))

def rootDigest (tree : DigestTree) : Option String :=
  tree.root.bind DigestNode.digest

def totalSize (tree : DigestTree) : Int :=
  tree.fileEntries.foldl (fun size entry => size + entry.2.size) 0

structure Stats where
  totalNodes : Nat
  fileCount : Nat
  folderCount : Nat
  totalSize : Int
  rootDigest : Option String

def stats (tree : DigestTree) : Stats :=
  { totalNodes := tree.nodes.size
    fileCount := tree.fileEntries.length
    folderCount := (tree.nodes.entries.filter (fun entry => !entry.2.isFile)).length
    totalSize := tree.totalSize
    rootDigest := tree.rootDigest }

def Stats.toRecord (stats : Stats) : Record :=
  [("total_nodes", .int stats.totalNodes), ("file_count", .int stats.fileCount),
    ("directory_count", .int stats.folderCount), ("total_size", .int stats.totalSize),
    ("root_hash", .ofText? stats.rootDigest)]

end DigestTree

end CodeAtlas
