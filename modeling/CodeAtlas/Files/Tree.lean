import CodeAtlas.Data.Table

/-!
# File trees

A tree of named entries: files with a content and folders of further entries.
A list of names leads from the top of a tree to an entry in it.  The tree does
not say what a file holds.
-/

namespace CodeAtlas

/-- A file with its content, or a folder of named entries. -/
inductive FileTree (α : Type) where
  | file (content : α)
  | folder (entries : List (String × FileTree α))

namespace FileTree

variable {α : Type}

instance : Inhabited (FileTree α) :=
  ⟨.folder []⟩

def isFolder : FileTree α → Bool
  | .folder _ => true
  | .file _ => false

def isFile (tree : FileTree α) : Bool :=
  !tree.isFolder

def entries : FileTree α → List (String × FileTree α)
  | .folder entries => entries
  | .file _ => []

def content? : FileTree α → Option α
  | .file content => some content
  | .folder _ => none

def find? : FileTree α → List String → Option (FileTree α)
  | tree, [] => some tree
  | tree, name :: names =>
    match tree.entries.lookup name with
    | some entry => entry.find? names
    | none => none

/-- The tree with another entry where the names lead to.  Folders that are
missing on the way are made. -/
def insert (tree : FileTree α) : List String → FileTree α → FileTree α
  | [], entry => entry
  | name :: names, entry =>
    let below := (tree.entries.lookup name).getD (.folder [])
    .folder (Table.insertEntries name (below.insert names entry) tree.entries)

def erase (tree : FileTree α) : List String → FileTree α
  | [] => tree
  | [name] =>
    match tree with
    | .folder entries => .folder (entries.filter (fun entry => !(name == entry.1)))
    | .file _ => tree
  | name :: names =>
    match tree.entries.lookup name with
    | some below => .folder (Table.insertEntries name (below.erase names) tree.entries)
    | none => tree

mutual

def anyName (property : String → Bool) : FileTree α → Bool
  | .file _ => false
  | .folder entries => anyNameOf property entries

def anyNameOf (property : String → Bool) : List (String × FileTree α) → Bool
  | [] => false
  | (name, tree) :: rest => property name || anyName property tree || anyNameOf property rest

end

mutual

def filePaths : FileTree α → List (List String)
  | .file _ => [[]]
  | .folder entries => filePathsOf entries

def filePathsOf : List (String × FileTree α) → List (List String)
  | [] => []
  | (name, tree) :: rest => (filePaths tree).map (name :: ·) ++ filePathsOf rest

end

end FileTree

end CodeAtlas
