import CodeAtlas.Proofs.Indexing.Runs

/-!
# Records of digest trees

A tree that was built lists its nodes children first, and the tree that is read from its
record lists them folder first.  Every path of a well-formed project belongs to one node and
a file has nothing below it, so both orders give the same nodes by path and the same files in
the same order.  A record of any kind, with nodes that share a path or with values of other
types, is written anew as the record that was written before.
-/

namespace CodeAtlas

variable {digest : DigestFunction} {rules : IgnoreRules}

namespace Table

variable {κ : Type v} {α : Type u} [BEq κ] [LawfulBEq κ]

/-- A table that is filled from pairs with different keys holds these pairs in their order. -/
theorem entries_ofList {pairs : List (κ × α)} (single : (pairs.map Prod.fst).Nodup) :
    (ofList pairs).entries = pairs := by
  have each : ∀ (pairs : List (κ × α)) (table : Table κ α),
      ((table.entries ++ pairs).map Prod.fst).Nodup →
      (pairs.foldl (fun table pair => table.insert pair.1 pair.2) table).entries =
        table.entries ++ pairs := by
    intro pairs
    induction pairs with
    | nil => simp
    | cons pair rest ih =>
      intro table single
      have missing : pair.1 ∉ table.entries.map Prod.fst := by
        rw [List.map_append, List.map_cons] at single
        exact fun member => List.disjoint_of_nodup_append single member List.mem_cons_self
      have inserted : (table.insert pair.1 pair.2).entries = table.entries ++ [pair] :=
        insertEntries_of_fresh pair.2 missing
      have step := ih (table.insert pair.1 pair.2)
      rw [inserted, List.append_assoc, List.singleton_append] at step
      exact step single
  exact each pairs empty single

end Table

namespace DigestNode

mutual

/-- Both orders list the files in the same order, if files have nothing below them. -/
theorem postorder_files : ∀ node : DigestNode,
    (∀ inner ∈ node.preorder, inner.isFile = true → inner.children = []) →
    node.postorder.filter isFile = node.preorder.filter isFile
  | .mk path digest fileMark size children, leaves => by
    rw [preorder, List.forall_mem_cons] at leaves
    rw [postorder, preorder]
    cases file : (mk path digest fileMark size children).isFile with
    | false => simp [file, postorderAll_files children leaves.2]
    | true =>
      obtain rfl : children = [] := leaves.1 file
      rfl

theorem postorderAll_files : ∀ nodes : List DigestNode,
    (∀ inner ∈ preorderAll nodes, inner.isFile = true → inner.children = []) →
    (postorderAll nodes).filter isFile = (preorderAll nodes).filter isFile
  | [], _ => by rw [postorderAll, preorderAll]
  | node :: rest, leaves => by
    rw [preorderAll, List.forall_mem_append] at leaves
    rw [postorderAll, preorderAll, List.filter_append, List.filter_append,
      postorder_files node leaves.1, postorderAll_files rest leaves.2]

end

/-- In a tree that was built a file has nothing below it. -/
theorem children_of_isFile {below : List String} {name : String} {tree : FileTree Stored}
    {node : DigestNode} (member : node ∈ (ofTree digest rules below name tree).preorder)
    (file : node.isFile = true) : node.children = [] := by
  obtain ⟨names, last, entry, -, rfl⟩ := exists_tracks_of_mem below name tree member
  rw [isFile_ofTree] at file
  cases entry with
  | file stored => rfl
  | folder entries => cases file

/-- The paths in the tree of an entry begin with the names that lead to the entry. -/
theorem exists_names_of_mem_paths {below : List String} {name path : String}
    {tree : FileTree Stored} (wellFormed : tree.WellFormed)
    (member : path ∈ (ofTree digest rules below name tree).preorder.map DigestNode.path) :
    ∃ names, (∀ part ∈ names, ValidName part) ∧ path = trackedPath (below ++ names) := by
  obtain ⟨node, inside, rfl⟩ := List.mem_map.mp member
  obtain ⟨names, last, entry, tracks, rfl⟩ := exists_tracks_of_mem below name tree inside
  exact ⟨names, (tracks.find?_eq wellFormed).2.2, path_ofTree ..⟩

theorem nodup_paths {tree : FileTree Stored} (wellFormed : tree.WellFormed) (below : List String)
    (name : String) (valid : ∀ part ∈ below, ValidName part) :
    ((ofTree digest rules below name tree).preorder.map path).Nodup := by
  induction tree using FileTree.of_entries generalizing below name with
  | files stored =>
    rw [preorder_eq]
    exact List.nodup_singleton _
  | folders entries ih =>
    obtain ⟨single, names⟩ := wellFormed [] entries rfl
    have inner : ∀ entry ∈ entries, entry.2.WellFormed := fun entry member =>
      wellFormed.below (wellFormed.find?_of_mem member)
    have longer : ∀ entry ∈ entries, ∀ {more : List String}, (∀ part ∈ more, ValidName part) →
        ∀ part ∈ below ++ [entry.1] ++ more, ValidName part := by
      intro entry member more valid'
      simpa [or_imp, forall_and] using ⟨valid, names entry member, valid'⟩
    rw [preorder_eq, children_folder, List.map_cons, List.flatMap_map, List.map_flatMap,
      List.nodup_cons, List.nodup_flatMap, path_ofTree]
    refine ⟨fun member => ?_, fun entry listed => ?_, ?_⟩
    · obtain ⟨entry, listed, found⟩ := List.mem_flatMap.mp member
      have known := (mem_trackedEntries.mp listed).1
      obtain ⟨more, valid', same⟩ := exists_names_of_mem_paths (inner _ known) found
      have sizes := congrArg List.length (trackedPath_inj valid (longer _ known valid') same)
      simp at sizes
    · have known := (mem_trackedEntries.mp listed).1
      apply ih entry known (inner entry known)
      simpa using longer entry known (by simp : ∀ part ∈ [], ValidName part)
    · apply (pairwise_trackedEntries single).imp_of_mem
      intro first second one other below path here there
      have known := (mem_trackedEntries.mp one).1
      have known' := (mem_trackedEntries.mp other).1
      obtain ⟨more, valid₁, rfl⟩ := exists_names_of_mem_paths (inner _ known) here
      obtain ⟨more', valid₂, same⟩ := exists_names_of_mem_paths (inner _ known') there
      have both := trackedPath_inj (longer _ known valid₁) (longer _ known' valid₂) same
      -- The two paths part at the names of the two entries.
      simp only [List.append_assoc, List.append_cancel_left_eq, List.singleton_append,
        List.cons.injEq] at both
      exact Std.ne_of_lt below both.1

end DigestNode

namespace DigestTree

theorem listed_perm (rootPath : Path) (root : Option DigestNode) :
    (listed ⟨rootPath, root, .childrenFirst⟩).Perm (listed ⟨rootPath, root, .folderFirst⟩) := by
  cases root with
  | none => exact .nil
  | some node => exact node.postorder_perm

theorem entries_nodes {tree : DigestTree} (single : (tree.listed.map DigestNode.path).Nodup) :
    tree.nodes.entries = tree.listed.map (fun node => (node.path, node)) := by
  apply Table.entries_ofList
  rwa [List.map_map]

/-- Where every path belongs to one node, the files are listed as the nodes are. -/
theorem fileEntries_eq {tree : DigestTree} (single : (tree.listed.map DigestNode.path).Nodup) :
    tree.fileEntries =
      (tree.listed.filter DigestNode.isFile).map (fun node => (node.path, node)) := by
  rw [fileEntries, entries_nodes single, List.filter_map]
  rfl

section ofProject

variable {place : Path} {project : Option (FileTree Stored)}
  (wellFormed : ∀ tree ∈ project, tree.WellFormed)

include wellFormed

theorem nodup_paths_ofProject (listing : Listing) :
    ((ofProject digest rules place project listing).listed.map DigestNode.path).Nodup := by
  have folderFirst :
      ((ofProject digest rules place project .folderFirst).listed.map DigestNode.path).Nodup := by
    cases project with
    | none => exact List.nodup_nil
    | some tree => exact DigestNode.nodup_paths (wellFormed tree rfl) [] place.name (by simp)
  cases listing with
  | folderFirst => exact folderFirst
  | childrenFirst => exact ((listed_perm place _).map _).nodup_iff.mpr folderFirst

/-- Both orders of listing find the same node under each path. -/
theorem find?_ofProject (listing listing' : Listing) (path : String) :
    (ofProject digest rules place project listing).find? path =
      (ofProject digest rules place project listing').find? path := by
  apply Option.ext
  intro node
  rw [find?, find?, get?_nodes_iff (single_ofProject wellFormed),
    get?_nodes_iff (single_ofProject wellFormed), mem_listed_ofProject, mem_listed_ofProject]

/-- Both orders of listing give the same files in the same order. -/
theorem fileEntries_ofProject :
    (ofProject digest rules place project .folderFirst).fileEntries =
      (ofProject digest rules place project .childrenFirst).fileEntries := by
  rw [fileEntries_eq (nodup_paths_ofProject wellFormed _),
    fileEntries_eq (nodup_paths_ofProject wellFormed _)]
  refine congrArg (List.map _) ?_
  cases project with
  | none => rfl
  | some tree =>
    exact (DigestNode.postorder_files _
      (fun _ member file => DigestNode.children_of_isFile member file)).symm

end ofProject

end DigestTree

theorem changedFolders_eq_nil {old new : DigestTree}
    (same : ∀ path, old.find? path = new.find? path) : changedFolders old new = [] := by
  have none : ∀ entry ∈ new.nodes.entries, old.nodes.get? entry.1 = some entry.2 := by
    intro entry member
    refine (same entry.1).trans ((Table.lookup_eq_some_iff ?_).mpr member)
    intro first second one other
    exact congrArg Prod.snd (List.inj_on_of_nodup_map (Table.nodup_ofList _) one other rfl)
  simp only [changedFolders, Text.sorted_eq_nil, List.map_eq_nil_iff, List.filter_eq_nil_iff]
  intro entry member
  simp [none entry member]

namespace LooseNode

theorem headOf_ok {fields : Record} {head : List LooseNode → LooseNode}
    (read : headOf fields = .ok head) : ∃ path digest fileMark,
      fields.need "path" = .ok path ∧ fields.need "hash" = .ok digest ∧
      fields.need "is_file" = .ok fileMark ∧
      head = .mk path digest fileMark ((fields.lookup "size").getD (.int 0)) := by
  obtain ⟨path, first, read⟩ := bind_eq_ok_iff.mp read
  obtain ⟨digest, second, read⟩ := bind_eq_ok_iff.mp read
  obtain ⟨fileMark, third, read⟩ := bind_eq_ok_iff.mp read
  exact ⟨path, digest, fileMark, first, second, third, (Except.ok.inj read).symm⟩

mutual

theorem ofValue_toValue : ∀ node : LooseNode, ofValue node.toValue = .ok node
  | .mk path digest fileMark size children => by
    have head : headOf [("path", path), ("hash", digest), ("is_file", fileMark),
        ("size", size), ("children", .list (toValues children))] =
        .ok (.mk path digest fileMark size) := rfl
    rw [toValue, ofValue, head]
    simp [ofChildren, ofChildrenValue, ofValues_toValues children, bind, Except.bind, pure,
      Except.pure]

theorem ofValues_toValues :
    ∀ nodes : List LooseNode, ofValues (toValues nodes) = .ok nodes
  | [] => rfl
  | node :: rest => by
    rw [toValues, ofValues, ofValue_toValue node, ofValues_toValues rest]
    rfl

end

theorem isTruthy_toValue (node : LooseNode) : node.toValue.isTruthy = true := by
  cases node
  rfl

mutual

/-- What a record says to the strict reader, the record of its loose node says, too. -/
theorem strict_toValue : ∀ (value : Value) (node : LooseNode), ofValue value = .ok node →
    DigestNode.ofValue node.toValue = DigestNode.ofValue value
  | .record fields, node, read => by
    rw [ofValue] at read
    obtain ⟨head, first, read⟩ := bind_eq_ok_iff.mp read
    obtain ⟨children, second, read⟩ := bind_eq_ok_iff.mp read
    obtain rfl := Except.ok.inj read
    obtain ⟨path, digest, fileMark, path?, digest?, fileMark?, rfl⟩ := headOf_ok first
    have below := strict_ofChildren fields children second
    have same : DigestNode.headOf [("path", path), ("hash", digest), ("is_file", fileMark),
        ("size", (fields.lookup "size").getD (.int 0)),
        ("children", .list (toValues children))] = DigestNode.headOf fields := by
      simp only [DigestNode.headOf, path?, digest?, fileMark?]
      rfl
    have children' : DigestNode.ofChildren [("path", path), ("hash", digest),
        ("is_file", fileMark), ("size", (fields.lookup "size").getD (.int 0)),
        ("children", .list (toValues children))] = DigestNode.ofChildren fields := by
      simp [DigestNode.ofChildren, DigestNode.ofChildrenValue, below]
    rw [toValue, DigestNode.ofValue, DigestNode.ofValue, same, children']
  | .null, _, read | .bool _, _, read | .int _, _, read | .real _, _, read
  | .text _, _, read | .list _, _, read => by cases read

theorem strict_ofChildren : ∀ (fields : List (String × Value)) (nodes : List LooseNode),
    ofChildren fields = .ok nodes →
    DigestNode.ofValues (toValues nodes) = DigestNode.ofChildren fields
  | [], nodes, read => by
    obtain rfl := Except.ok.inj read
    rfl
  | (name, value) :: rest, nodes, read => by
    rw [ofChildren] at read
    rw [DigestNode.ofChildren]
    split at read
    · rename_i here
      rw [if_pos here]
      exact strict_ofChildrenValue value nodes read
    · rename_i later
      rw [if_neg later]
      exact strict_ofChildren rest nodes read

theorem strict_ofChildrenValue : ∀ (value : Value) (nodes : List LooseNode),
    ofChildrenValue value = .ok nodes →
    DigestNode.ofValues (toValues nodes) = DigestNode.ofChildrenValue value
  | .list items, nodes, read => strict_ofValues items nodes read
  | .record [], nodes, read => by
    obtain rfl := Except.ok.inj read
    rfl
  | .text value, nodes, read => by
    rw [ofChildrenValue] at read
    rw [DigestNode.ofChildrenValue]
    split at read
    · rename_i blank
      obtain rfl := Except.ok.inj read
      rw [if_pos blank]
      rfl
    · cases read
  | .null, _, read | .bool _, _, read | .int _, _, read | .real _, _, read
  | .record (_ :: _), _, read => by cases read

theorem strict_ofValues : ∀ (values : List Value) (nodes : List LooseNode),
    ofValues values = .ok nodes →
    DigestNode.ofValues (toValues nodes) = DigestNode.ofValues values
  | [], nodes, read => by
    obtain rfl := Except.ok.inj read
    rfl
  | value :: rest, nodes, read => by
    rw [ofValues] at read
    obtain ⟨node, first, read⟩ := bind_eq_ok_iff.mp read
    obtain ⟨others, second, read⟩ := bind_eq_ok_iff.mp read
    obtain rfl := Except.ok.inj read
    rw [toValues, DigestNode.ofValues, DigestNode.ofValues, strict_toValue value node first,
      strict_ofValues rest others second]

end

end LooseNode

/-- The place of the project and the value of its root node, as a record gives them. -/
def recordedRoot (workingDirectory : Path) (value : Value) : Except Fault (Path × Value) := do
  let fields ← value.needRecord
  let rootPath ← (← fields.need "root_path").needText
  if (Path.ofString rootPath).hasNull then throw .nullInPath
  return ((Path.ofString rootPath).resolve workingDirectory, ← fields.need "root_node")

section Reading

variable {workingDirectory place : Path} {value root : Value}

theorem DigestTree.ofValue_eq (workingDirectory : Path) (value : Value) :
    DigestTree.ofValue workingDirectory value = do
      let (place, root) ← recordedRoot workingDirectory value
      if root.isTruthy then return ⟨place, some (← DigestNode.ofValue root), .folderFirst⟩
      else return ⟨place, none, .folderFirst⟩ := by
  simp only [DigestTree.ofValue, recordedRoot, bind_assoc]
  refine bind_congr (fun fields => bind_congr (fun text => bind_congr (fun rootPath => ?_)))
  split
  · rfl
  · simp only [bind_assoc, pure_bind]

theorem LooseTree.ofValue_eq (workingDirectory : Path) (value : Value) :
    LooseTree.ofValue workingDirectory value = do
      let (place, root) ← recordedRoot workingDirectory value
      if root.isTruthy then
        let node ← LooseNode.ofValue root
        return ⟨place, some node, ← listNodes node.preorder⟩
      else return ⟨place, none, Table.empty⟩ := by
  simp only [LooseTree.ofValue, recordedRoot, bind_assoc]
  refine bind_congr (fun fields => bind_congr (fun text => bind_congr (fun rootPath => ?_)))
  split
  · rfl
  · simp only [bind_assoc, pure_bind]

theorem isPlace_recordedRoot (directory : ∀ part ∈ workingDirectory.parts, ValidName part)
    (read : recordedRoot workingDirectory value = .ok (place, root)) :
    place.IsPlace := by
  obtain ⟨fields, -, read⟩ := bind_eq_ok_iff.mp read
  obtain ⟨text, -, read⟩ := bind_eq_ok_iff.mp read
  obtain ⟨rootPath, -, read⟩ := bind_eq_ok_iff.mp read
  cases null : (Path.ofString rootPath).hasNull with
  | true => simp [null, throw, throwThe, MonadExceptOf.throw, bind, Except.bind] at read
  | false =>
    simp only [null, Bool.false_eq_true, ↓reduceIte] at read
    obtain ⟨node, -, read⟩ := bind_eq_ok_iff.mp read
    obtain ⟨rfl, -⟩ := Prod.mk.inj (Except.ok.inj read)
    exact ⟨rfl, Path.validNames_resolve null directory⟩

theorem recordedRoot_record (isPlace : place.IsPlace) (root : Value) (rest : Record) :
    recordedRoot workingDirectory
        (.record (("root_path", .text place.toString) :: ("root_node", root) :: rest)) =
      .ok (place, root) := by
  have clean := Path.hasNull_ofString_toString isPlace
  have same := Path.resolve_toString isPlace workingDirectory
  simp [recordedRoot, Value.needRecord, Record.need, Value.needText, List.lookup_cons, clean,
    same, bind, Except.bind, pure, Except.pure]

theorem DigestTree.ofValue_ok {tree : DigestTree}
    (directory : ∀ part ∈ workingDirectory.parts, ValidName part)
    (read : DigestTree.ofValue workingDirectory value = .ok tree) :
    tree.rootPath.IsPlace ∧ tree.listing = .folderFirst := by
  rw [DigestTree.ofValue_eq] at read
  obtain ⟨⟨place, root⟩, found, read⟩ := bind_eq_ok_iff.mp read
  have isPlace := isPlace_recordedRoot directory found
  dsimp only at read
  split at read
  · obtain ⟨node, -, read⟩ := bind_eq_ok_iff.mp read
    obtain rfl := Except.ok.inj read
    exact ⟨isPlace, rfl⟩
  · obtain rfl := Except.ok.inj read
    exact ⟨isPlace, rfl⟩

namespace LooseTree

variable {tree : LooseTree} {record : Value}

theorem ofValue_ok (read : ofValue workingDirectory value = .ok tree) : ∃ root,
    recordedRoot workingDirectory value = .ok (tree.rootPath, root) ∧
      ((root.isTruthy = false ∧ tree = ⟨tree.rootPath, none, .empty⟩) ∨
        root.isTruthy = true ∧ ∃ node nodes, LooseNode.ofValue root = .ok node ∧
          listNodes node.preorder = .ok nodes ∧ tree = ⟨tree.rootPath, some node, nodes⟩) := by
  rw [ofValue_eq] at read
  obtain ⟨⟨place, root⟩, found, read⟩ := bind_eq_ok_iff.mp read
  dsimp only at read
  split at read
  · rename_i truthy
    obtain ⟨node, first, read⟩ := bind_eq_ok_iff.mp read
    obtain ⟨nodes, second, read⟩ := bind_eq_ok_iff.mp read
    obtain rfl := Except.ok.inj read
    exact ⟨root, found, .inr ⟨truthy, node, nodes, first, second, rfl⟩⟩
  · rename_i falsy
    obtain rfl := Except.ok.inj read
    exact ⟨root, found, .inl ⟨by simpa using falsy, rfl⟩⟩

theorem recordedRoot_toValue (isPlace : tree.rootPath.IsPlace)
    (written : tree.toValue = .ok record) :
    recordedRoot workingDirectory record =
      .ok (tree.rootPath, (tree.root.map LooseNode.toValue).getD .null) := by
  obtain ⟨total, -, written⟩ := bind_eq_ok_iff.mp written
  obtain rfl := Except.ok.inj written
  exact recordedRoot_record isPlace _ _

/-- The record of a loose tree says the same, to the strict reader and to the loose one, as
the record that the tree was read from. -/
theorem ofValue_toValue (directory : ∀ part ∈ workingDirectory.parts, ValidName part)
    (read : ofValue workingDirectory value = .ok tree) (written : tree.toValue = .ok record) :
    DigestTree.ofValue workingDirectory record = DigestTree.ofValue workingDirectory value ∧
      ofValue workingDirectory record = .ok tree := by
  obtain ⟨root, found, cases⟩ := ofValue_ok read
  have isPlace := isPlace_recordedRoot directory found
  have again := @recordedRoot_toValue workingDirectory tree record isPlace written
  rw [DigestTree.ofValue_eq, DigestTree.ofValue_eq, ofValue_eq, found, again]
  rcases cases with ⟨falsy, same⟩ | ⟨truthy, node, nodes, first, second, same⟩
  · have blank : Value.null.isTruthy = false := rfl
    rw [same]
    simp [falsy, blank, bind, Except.bind, pure, Except.pure]
  · have strict := LooseNode.strict_toValue root node first
    rw [same]
    simp [truthy, LooseNode.isTruthy_toValue, strict, LooseNode.ofValue_toValue, second, bind,
      Except.bind, pure, Except.pure]

end LooseTree

/-- What was read from a record is read again from the record that is written of it. -/
theorem KeptTree.ofValue_of_toValue {kept : KeptTree} {record : Value}
    (directory : ∀ part ∈ workingDirectory.parts, ValidName part)
    (read : KeptTree.ofValue workingDirectory value = .ok kept)
    (written : kept.toValue = .ok record) :
    KeptTree.ofValue workingDirectory record = .ok kept := by
  unfold KeptTree.ofValue at read
  cases strict : DigestTree.ofValue workingDirectory value with
  | ok tree =>
    rw [strict] at read
    obtain rfl := Except.ok.inj read
    obtain rfl := Except.ok.inj written
    obtain ⟨isPlace, listing⟩ := DigestTree.ofValue_ok directory strict
    rw [KeptTree.ofValue_toValue _ _ (Path.hasNull_ofString_toString isPlace),
      Path.resolve_toString isPlace, ← listing]
  | error fault =>
    rw [strict] at read
    cases loose : LooseTree.ofValue workingDirectory value with
    | error other =>
      rw [loose] at read
      cases read
    | ok tree =>
      rw [loose] at read
      obtain rfl := Except.ok.inj read
      obtain ⟨refused, again⟩ := LooseTree.ofValue_toValue directory loose written
      rw [KeptTree.ofValue, refused, strict, again]
      rfl

end Reading

/-- The tree of a project is read back from its record, listed folder first. -/
theorem KeptTree.ofValue_ofProject {place : Path} (isPlace : place.IsPlace)
    (project : Option (FileTree Stored)) (listing : Listing) (workingDirectory : Path) :
    KeptTree.ofValue workingDirectory
        (DigestTree.ofProject digest rules place project listing).toValue =
      .ok (.regular (.ofProject digest rules place project .folderFirst)) := by
  have here : (DigestTree.ofProject digest rules place project listing).rootPath = place := rfl
  have read := KeptTree.ofValue_toValue (.ofProject digest rules place project listing)
    workingDirectory
  rw [here, Path.resolve_toString isPlace] at read
  exact read (Path.hasNull_ofString_toString isPlace)

/-- The record of a tree loses nothing.  A tree that was built is read back with its place and
its nodes, and all that is asked of it has the same answer, so that no file and no folder has
changed.  And whatever record was read, with paths that occur twice or values of other types,
the record that is written of it is kept by reading and writing once more. -/
theorem records_lose_nothing {world after : World} {place workingDirectory : Path}
    {digest : DigestFunction} {rules : IgnoreRules} {built : DigestTree}
    (sound : world.WellFormed) (absolute : place.anchor = .root)
    (valid : ∀ part ∈ place.parts, ValidName part)
    (directory : ∀ part ∈ workingDirectory.parts, ValidName part)
    (made : runFrom world (DigestTree.build digest rules place) = (.ok built, after)) :
    (∃ read, KeptTree.ofValue workingDirectory built.toValue = .ok (.regular read) ∧
      read.rootPath = built.rootPath ∧ read.root = built.root ∧
      read.rootDigest = built.rootDigest ∧
      (∀ path, read.find? path = built.find? path) ∧
      read.files = built.files ∧ read.fileDigests = built.fileDigests ∧
      read.toValue = built.toValue ∧
      (Changes.between read built).hasChanges = false ∧ changedFolders read built = []) ∧
    ∀ value kept, KeptTree.ofValue workingDirectory value = .ok kept →
      (do (← KeptTree.ofValue workingDirectory (← kept.toValue)).toValue) = kept.toValue := by
  refine ⟨?_, fun value kept read => ?_⟩
  · obtain ⟨-, rfl⟩ := DigestTree.build_ok made
    have wellFormed : ∀ tree ∈ trackedProject rules place (world.entryAt? place),
        tree.WellFormed := trackedProject_wellFormed sound.entryAt?
    rw [DigestTree.ofFiles_eq]
    have nodes := @DigestTree.find?_ofProject digest rules place _ wellFormed .folderFirst
      .childrenFirst
    have files := @DigestTree.fileEntries_ofProject digest rules place _ wellFormed
    refine ⟨_, KeptTree.ofValue_ofProject ⟨absolute, valid⟩ _ _ _, rfl, rfl, rfl, nodes, ?_, ?_,
      ?_, ?_, changedFolders_eq_nil nodes⟩
    · rw [DigestTree.files, files, DigestTree.files]
    · rw [DigestTree.fileDigests, files, DigestTree.fileDigests]
    · rw [DigestTree.toValue, DigestTree.totalSize, files, DigestTree.toValue,
        DigestTree.totalSize]
      rfl
    · rw [Changes.hasChanges_eq_false, DigestTree.fileDigests, files, DigestTree.fileDigests]
      exact fun _ => rfl
  · cases written : kept.toValue with
    | error fault => rfl
    | ok record =>
      have again := KeptTree.ofValue_of_toValue directory read written
      simp [again, written, bind, Except.bind]

/-- A project with a file in a folder and a file beside the folder. -/
def nestedProject (text : String) : FileTree Stored :=
  .folder [("pkg", .folder [("a.py", .file ⟨.bytes text.toUTF8, 0⟩)]),
    ("b.py", .file ⟨.bytes "y".toUTF8, 0⟩)]

def nestedWorld (text : String) : World :=
  ⟨.folder [("proj", nestedProject text)], ⟨.root, []⟩, 0, 0, [], 0⟩

theorem wellFormed_nestedProject (text : String) : (nestedProject text).WellFormed := by
  have names : ValidName "pkg" ∧ ValidName "b.py" ∧ ValidName "a.py" := by decide
  simp [nestedProject, FileTree.wellFormed_folder_iff, FileTree.wellFormed_file, names]

theorem wellFormed_nestedWorld (text : String) : (nestedWorld text).WellFormed := by
  have name : ValidName "proj" := by decide
  refine ⟨FileTree.wellFormed_folder_iff.mpr ?_, by simp [nestedWorld]⟩
  simpa using ⟨name, wellFormed_nestedProject text⟩

/-- A record of two files with one path; the digest of the second is a number. -/
def repeatedRecord : Value :=
  .record [("root_path", .text "/proj"), ("root_node", .record [("path", .text "."),
    ("hash", .null), ("is_file", .bool false), ("children", .list [
      .record [("path", .text "a.py"), ("hash", .text "1"), ("is_file", .bool true),
        ("size", .int 4)],
      .record [("path", .text "a.py"), ("hash", .int 2), ("is_file", .bool true)]])])]

/-- The record of a nested project loses nothing, and that of a repeated path is kept. -/
theorem nested_record_loses_nothing :
    ∃ built, runFrom (nestedWorld "x")
        (DigestTree.build (fun bytes => toString bytes.size) .standard ⟨.root, ["proj"]⟩) =
          (.ok built, nestedWorld "x") ∧
      (∃ read, KeptTree.ofValue ⟨.root, []⟩ built.toValue = .ok (.regular read) ∧
        read.files = built.files ∧ read.toValue = built.toValue) ∧
      ∃ kept record, KeptTree.ofValue ⟨.root, []⟩ repeatedRecord = .ok kept ∧
        kept.toValue = .ok record ∧
        (do (← KeptTree.ofValue ⟨.root, []⟩ record).toValue) = .ok record := by
  have name : ValidName "proj" := by decide
  have made := @DigestTree.runFrom_build (fun bytes => toString bytes.size) .standard
    ⟨.root, ["proj"]⟩ (nestedWorld "x") (some (nestedProject "x")) rfl
  obtain ⟨⟨read, back, -, -, -, -, files, -, record, -⟩, again⟩ :=
    @records_lose_nothing _ _ _ ⟨.root, []⟩ _ _ _ (wellFormed_nestedWorld "x") rfl
      (by simpa using name) (by simp) made
  refine ⟨_, made, ⟨read, back, files, record⟩, _, _, rfl, rfl, ?_⟩
  exact again repeatedRecord _ rfl

end CodeAtlas
