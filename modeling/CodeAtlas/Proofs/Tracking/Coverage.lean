import CodeAtlas.Proofs.Tracking.Edits
import CodeAtlas.Proofs.Tracking.Holdings

/-!
# What a digest tree covers

The tree that is built of a project has a node for the project itself, for every file and every
folder that no name on the way leaves out, and for nothing else.  The files are listed depth
first, with the entries of each folder by name, which is the rising order of the names that lead
to them.
-/

namespace CodeAtlas

variable {digest : DigestFunction} {rules : IgnoreRules} {tree : FileTree Stored}
  {entries : List (String × FileTree Stored)}

mutual

/-- The tracked files of a tree with the names that lead to them, depth first. -/
def trackedFiles (rules : IgnoreRules) : FileTree Stored → List (List String × Stored)
  | .file stored => [([], stored)]
  | .folder entries =>
    (Text.sortedByKey (entryFiles rules entries)).flatMap
      (fun entry => entry.2.map (fun file => (entry.1 :: file.1, file.2)))

def entryFiles (rules : IgnoreRules) :
    List (String × FileTree Stored) → List (String × List (List String × Stored))
  | [] => []
  | (name, tree) :: rest =>
    if rules.ignores name then entryFiles rules rest
    else (name, trackedFiles rules tree) :: entryFiles rules rest

end

theorem trackedFiles_folder : trackedFiles rules (.folder entries) =
    (trackedEntries rules entries).flatMap (fun entry =>
      (trackedFiles rules entry.2).map (fun file => (entry.1 :: file.1, file.2))) := by
  have each : entryFiles rules entries = (entries.filter (fun entry => !rules.ignores entry.1)).map
      (fun entry => (entry.1, trackedFiles rules entry.2)) := by
    induction entries with
    | nil => rw [entryFiles]; rfl
    | cons entry rest ih =>
      obtain ⟨name, tree⟩ := entry
      rw [entryFiles, ih]
      cases ignored : rules.ignores name <;> simp [ignored]
  rw [trackedFiles, each, Text.sortedByKey_map (fun entry => trackedFiles rules entry.2),
    List.flatMap_map]
  rfl

theorem mem_trackedFiles {names : List String} {stored : Stored} (name : String) :
    (names, stored) ∈ trackedFiles rules tree ↔
      ∃ last, Tracks rules name tree names last (.file stored) := by
  induction tree using FileTree.of_entries generalizing names name with
  | files content =>
    rw [trackedFiles, List.mem_singleton, Prod.mk.injEq]
    constructor
    · rintro ⟨rfl, rfl⟩
      exact ⟨name, .here _ _⟩
    · rintro ⟨last, tracks⟩
      cases tracks
      exact ⟨rfl, rfl⟩
  | folders entries ih =>
    simp only [trackedFiles_folder, List.mem_flatMap, List.mem_map, mem_trackedEntries]
    constructor
    · rintro ⟨⟨inner, below⟩, ⟨member, tracked⟩, ⟨more, _⟩, listed, same⟩
      obtain ⟨rfl, rfl⟩ := Prod.mk.inj same
      obtain ⟨last, tracks⟩ := (ih _ member inner).mp listed
      exact ⟨last, .inside member tracked tracks⟩
    · rintro ⟨last, tracks⟩
      cases tracks with
      | @inside _ inner _ _ below _ more member tracked further =>
        exact ⟨(inner, below), ⟨member, tracked⟩, (more, stored),
          (ih _ member inner).mpr ⟨last, further⟩, rfl⟩

theorem pairwise_trackedFiles (wellFormed : tree.WellFormed) :
    ((trackedFiles rules tree).map Prod.fst).Pairwise (· < ·) := by
  induction tree using FileTree.of_entries with
  | files content => simp [trackedFiles]
  | folders entries ih =>
    rw [trackedFiles_folder, List.pairwise_map, List.pairwise_flatMap]
    constructor
    · intro entry member
      have known := (mem_trackedEntries.mp member).1
      have inner := ih entry known (wellFormed.below (wellFormed.find?_of_mem known))
      rw [List.pairwise_map] at inner ⊢
      exact inner.imp (fun below => List.cons_lt_cons_self.mpr below)
    · apply (pairwise_trackedEntries (wellFormed [] entries rfl).1).imp
      intro first second below file listed other listed'
      obtain ⟨_, -, rfl⟩ := List.mem_map.mp listed
      obtain ⟨_, -, rfl⟩ := List.mem_map.mp listed'
      exact List.cons_lt_cons_iff.mpr (.inl below)

namespace DigestNode

theorem digests_children (below : List String) (name : String) :
    let nodes := (ofTree digest rules below name (.folder entries)).children
    nodes.map DigestNode.digest = (nodes.map (fun node => node.digest.getD "")).map some := by
  intro nodes
  rw [List.map_map]
  apply List.map_congr_left
  intro child member
  rw [show nodes = _ from children_folder below name] at member
  obtain ⟨entry, -, rfl⟩ := List.mem_map.mp member
  rw [Function.comp_apply, digest_ofTree]
  rfl

theorem files_ofTree (below : List String) (name : String) :
    (ofTree digest rules below name tree).preorder.filter isFile =
      (trackedFiles rules tree).map (fun file =>
        .ofFile (trackedPath (below ++ file.1)) (digest file.2.bytes) file.2.bytes.size) := by
  induction tree using FileTree.of_entries generalizing below name with
  | files content =>
    rw [preorder_eq, trackedFiles, List.map_singleton, List.append_nil]
    rfl
  | folders entries ih =>
    have folder : (ofTree digest rules below name (.folder entries)).isFile = false :=
      isFile_ofTree ..
    rw [preorder_eq, List.filter_cons_of_neg (by simp [folder]), children_folder,
      trackedFiles_folder, List.flatMap_map, List.filter_flatMap, List.map_flatMap]
    apply List.flatMap_congr
    intro entry member
    rw [ih entry (mem_trackedEntries.mp member).1, List.map_map]
    apply List.map_congr_left
    intro file _
    rw [List.append_assoc]
    rfl

end DigestNode

namespace DigestTree

/-- The tree has the nodes of what is tracked in the project, and counts them. -/
structure Covers (digest : DigestFunction) (rules : IgnoreRules) (place : Path)
    (project : FileTree Stored) (tree : DigestTree) : Prop where
  /-- Where no name on the way is left out there is a node, and nowhere else. -/
  keys : ∀ path, path ∈ tree.nodes.keys ↔ ∃ names entry, project.find? names = some entry ∧
    (∀ part ∈ names, rules.ignores part = false) ∧ path = trackedPath names
  paths : ∀ path node, tree.find? path = some node → node.path = path
  /-- The tracked files, depth first. -/
  files : ∃ found : List (List String × Stored),
    tree.files = found.map (fun file => trackedPath file.1) ∧
    (found.map Prod.fst).Pairwise (· < ·) ∧
    (∀ names stored, (names, stored) ∈ found ↔ project.find? names = some (.file stored) ∧
      ∀ part ∈ names, rules.ignores part = false) ∧
    tree.stats.totalSize = found.foldl (fun size file => size + (file.2.bytes.size : Int)) 0
  /-- Below the node of a folder are those of its tracked entries, by name, and their digests
  make its own. -/
  folders : ∀ names entries, project.find? names = some (.folder entries) →
    (∀ part ∈ names, rules.ignores part = false) →
    ∃ (node : DigestNode) (inner digests : List String),
      tree.find? (trackedPath names) = some node ∧ node.isFile = false ∧
      inner.Pairwise (· < ·) ∧
      (∀ name, name ∈ inner ↔ name ∈ entries.map Prod.fst ∧ rules.ignores name = false) ∧
      node.children.map some = inner.map (fun name => tree.find? (trackedPath (names ++ [name]))) ∧
      node.children.map DigestNode.digest = digests.map some ∧
      node.digest = some (folderDigest digest (names.getLastD place.name) digests)
  counts : ∃ root, tree.root = some root ∧ tree.stats.totalNodes = root.preorder.length ∧
    tree.stats.totalNodes = tree.stats.fileCount + tree.stats.folderCount

section ofProject

variable {place : Path} {project : FileTree Stored} (wellFormed : project.WellFormed)

include wellFormed

private theorem each_wellFormed : ∀ tree ∈ some project, tree.WellFormed := by
  rintro tree ⟨⟩
  exact wellFormed

theorem fileEntries_built :
    (ofProject digest rules place (some project) .childrenFirst).fileEntries =
      (trackedFiles rules project).map (fun file => (trackedPath file.1,
        .ofFile (trackedPath file.1) (digest file.2.bytes) file.2.bytes.size)) := by
  rw [← fileEntries_ofProject (each_wellFormed wellFormed),
    fileEntries_eq (nodup_paths_ofProject (each_wellFormed wellFormed) _)]
  have listed := @DigestNode.files_ofTree digest rules project [] place.name
  change List.map _ ((DigestNode.ofTree digest rules [] place.name project).preorder.filter _) = _
  rw [listed, List.map_map]
  rfl

theorem node_at {names : List String} {entry : FileTree Stored}
    (found : project.find? names = some entry)
    (tracked : ∀ part ∈ names, rules.ignores part = false) :
    (ofProject digest rules place (some project) .childrenFirst).find? (trackedPath names) =
      some (.ofTree digest rules names (names.getLastD place.name) entry) :=
  (find?_ofProject_eq_some wellFormed).mpr ⟨names, entry, found, tracked, rfl, rfl⟩

theorem children_at {names : List String} (found : project.find? names = some (.folder entries))
    (tracked : ∀ part ∈ names, rules.ignores part = false) (name : String) :
    (DigestNode.ofTree digest rules names name (.folder entries)).children.map some =
      ((trackedEntries rules entries).map Prod.fst).map (fun inner =>
        (ofProject digest rules place (some project) .childrenFirst).find?
          (trackedPath (names ++ [inner]))) := by
  rw [DigestNode.children_folder, List.map_map, List.map_map]
  apply List.map_congr_left
  rintro ⟨inner, entry⟩ member
  obtain ⟨known, tracked'⟩ := mem_trackedEntries.mp member
  have leads : project.find? (names ++ [inner]) = some entry := by
    rw [FileTree.find?_append, found]
    exact (wellFormed.below found).find?_of_mem known
  have node := @node_at digest rules place project wellFormed _ _ leads
    (by simpa [or_imp, forall_and] using ⟨tracked, tracked'⟩)
  rw [List.getLastD_concat] at node
  exact node.symm

theorem covers_ofProject :
    (ofProject digest rules place (some project) .childrenFirst).Covers digest rules place
      project := by
  have entries := @fileEntries_built digest rules place project wellFormed
  constructor
  · intro path
    rw [Table.keys, List.mem_map]
    constructor
    · rintro ⟨⟨path, node⟩, member, rfl⟩
      obtain ⟨names, entry, found, tracked, same, -⟩ :=
        (find?_ofProject_eq_some wellFormed).mp (mem_entries_nodes.mp member)
      exact ⟨names, entry, found, tracked, same⟩
    · rintro ⟨names, entry, found, tracked, rfl⟩
      exact ⟨(_, _), mem_entries_nodes.mpr (node_at wellFormed found tracked), rfl⟩
  · intro path node found
    obtain ⟨names, entry, -, -, rfl, rfl⟩ := (find?_ofProject_eq_some wellFormed).mp found
    exact DigestNode.path_ofTree ..
  · refine ⟨trackedFiles rules project, ?_, pairwise_trackedFiles wellFormed, ?_, ?_⟩
    · rw [files, entries, List.map_map]
      rfl
    · intro names stored
      rw [mem_trackedFiles place.name]
      constructor
      · rintro ⟨last, tracks⟩
        obtain ⟨found, tracked, -⟩ := tracks.find?_eq wellFormed
        exact ⟨found, tracked⟩
      · rintro ⟨found, tracked⟩
        exact ⟨_, .of_find? _ _ found tracked⟩
    · rw [stats, totalSize, entries, List.foldl_map]
      rfl
  · intro names inside found tracked
    refine ⟨_, _, _, node_at wellFormed found tracked, DigestNode.isFile_ofTree .., ?_, ?_,
      children_at wellFormed found tracked _, ?_, rfl⟩
    · exact List.pairwise_map.mpr
        (pairwise_trackedEntries ((wellFormed.below found) [] inside rfl).1)
    · intro name
      simp only [List.mem_map, mem_trackedEntries]
      constructor
      · rintro ⟨entry, ⟨member, kept⟩, rfl⟩
        exact ⟨⟨entry, member, rfl⟩, kept⟩
      · rintro ⟨⟨entry, member, rfl⟩, kept⟩
        exact ⟨entry, ⟨member, kept⟩, rfl⟩
    · exact DigestNode.digests_children names _
  · refine ⟨_, rfl, ?_, List.length_eq_length_filter_add _⟩
    rw [stats, Table.size, entries_nodes (nodup_paths_ofProject (each_wellFormed wellFormed) _),
      List.length_map]
    exact (DigestNode.postorder_perm _).length_eq

end ofProject

end DigestTree

/-- The tree that is built of a project is empty if the project's own name is left out, and covers
the project otherwise. -/
theorem build_covers_what_is_tracked {world : World} {place : Path} {project : FileTree Stored}
    (digest : DigestFunction) (rules : IgnoreRules)
    (stands : world.lookUp place = .ok (some project)) (wellFormed : project.WellFormed) :
    ∃ tree, runFrom world (DigestTree.build digest rules place) = (.ok tree, world) ∧
      (rules.ignores place.name = true → tree = .empty place ∧ tree.nodes.keys = []) ∧
      (rules.ignores place.name = false → tree.Covers digest rules place project) := by
  refine ⟨_, DigestTree.runFrom_build digest rules stands, ?_, ?_⟩
  · intro ignored
    rw [DigestTree.ofFiles, ignored]
    exact ⟨rfl, rfl⟩
  · intro tracked
    rw [DigestTree.ofFiles_eq, trackedProject, tracked]
    exact DigestTree.covers_ofProject wellFormed

/-- The nested project is covered but for its folder, if that is left out. -/
theorem nested_project_is_covered :
    ∃ tree, runFrom (nestedWorld "x") (DigestTree.build checksum ⟨["pkg"]⟩ ⟨.root, ["proj"]⟩) =
        (.ok tree, nestedWorld "x") ∧
      tree.Covers checksum ⟨["pkg"]⟩ ⟨.root, ["proj"]⟩ (nestedProject "x") ∧
      "b.py" ∈ tree.nodes.keys := by
  obtain ⟨tree, built, -, covers⟩ := @build_covers_what_is_tracked (nestedWorld "x")
    ⟨.root, ["proj"]⟩ (nestedProject "x") checksum ⟨["pkg"]⟩ rfl (wellFormed_nestedProject "x")
  exact ⟨tree, built, covers (by decide), ((covers (by decide)).keys "b.py").mpr
    ⟨["b.py"], _, rfl, by decide, by decide⟩⟩

end CodeAtlas
