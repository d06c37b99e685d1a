import CodeAtlas.Proofs.Paths
import CodeAtlas.Proofs.Tracking.Outline
import CodeAtlas.Tracking.Changes

/-!
# The files of a digest tree

A digest tree that was built from files lists exactly the tracked files, each under the
text of its path and with the digest of its content.  This does not depend on the order in
which the nodes are listed.  Two trees have no changes between them exactly if every path
has the same digest in both.
-/

namespace CodeAtlas

variable {digest : DigestFunction} {rules : IgnoreRules}
  {entries : List (String × FileTree Stored)}
variable {node : DigestNode}

/-- The entries of a folder that are not left out, by name. -/
def trackedEntries (rules : IgnoreRules) (entries : List (String × FileTree Stored)) :
    List (String × FileTree Stored) :=
  Text.sortedByKey (entries.filter (fun entry => !rules.ignores entry.1))

theorem mem_trackedEntries {entry : String × FileTree Stored} :
    entry ∈ trackedEntries rules entries ↔ entry ∈ entries ∧ rules.ignores entry.1 = false := by
  rw [trackedEntries, (Text.sortedByKey_perm _).mem_iff, List.mem_filter, Bool.not_eq_true']

theorem pairwise_trackedEntries (single : (entries.map Prod.fst).Nodup) :
    (trackedEntries rules entries).Pairwise (fun left right => left.1 < right.1) := by
  apply Text.pairwise_lt_sortedByKey
  exact single.sublist (List.filter_sublist.map Prod.fst)

namespace DigestNode

theorem preorderAll_eq_flatMap (nodes : List DigestNode) :
    preorderAll nodes = nodes.flatMap preorder := by
  induction nodes with
  | nil => rfl
  | cons node rest ih => rw [preorderAll, ih, List.flatMap_cons]

mutual

theorem postorder_perm : ∀ node : DigestNode, node.postorder.Perm node.preorder
  | .mk _ _ _ _ children => by
    rw [postorder, preorder]
    exact List.perm_append_singleton _ _ |>.trans ((postorderAll_perm children).cons _)

theorem postorderAll_perm :
    ∀ nodes : List DigestNode, (postorderAll nodes).Perm (preorderAll nodes)
  | [] => by rw [postorderAll, preorderAll]
  | node :: rest => by
    rw [postorderAll, preorderAll]
    exact (postorder_perm node).append (postorderAll_perm rest)

end

theorem mem_postorder (tree : DigestNode) :
    node ∈ tree.postorder ↔ node ∈ tree.preorder :=
  (postorder_perm tree).mem_iff

theorem preorder_eq (node : DigestNode) :
    node.preorder = node :: node.children.flatMap preorder := by
  cases node
  rw [preorder, preorderAll_eq_flatMap]
  rfl

theorem mem_ofEntries {below : List String} {name : String} :
    (name, node) ∈ ofEntries digest rules below entries ↔
      rules.ignores name = false ∧ ∃ tree, (name, tree) ∈ entries ∧
        node = ofTree digest rules (below ++ [name]) name tree := by
  rw [ofEntries_eq, List.mem_map]
  constructor
  · rintro ⟨⟨inner, tree⟩, member, same⟩
    obtain ⟨known, kept⟩ := List.mem_filter.mp member
    obtain ⟨rfl, rfl⟩ := Prod.mk.inj same
    exact ⟨by simpa using kept, tree, known, rfl⟩
  · rintro ⟨tracked, tree, member, rfl⟩
    exact ⟨(name, tree), List.mem_filter.mpr ⟨member, by simpa using tracked⟩, rfl⟩

theorem children_folder (below : List String) (name : String) :
    (ofTree digest rules below name (.folder entries)).children =
      (trackedEntries rules entries).map
        (fun entry => ofTree digest rules (below ++ [entry.1]) entry.1 entry.2) := by
  rw [ofTree, ofFolder, children, ofEntries_eq, Text.sortedByKey_map, List.map_map]
  rfl

/-- The nodes of a folder are its own and those of its tracked entries. -/
theorem mem_preorder_folder {below : List String} {name : String} :
    node ∈ (ofTree digest rules below name (.folder entries)).preorder ↔
      node = ofTree digest rules below name (.folder entries) ∨
        ∃ inner tree, (inner, tree) ∈ entries ∧ rules.ignores inner = false ∧
          node ∈ (ofTree digest rules (below ++ [inner]) inner tree).preorder := by
  rw [preorder_eq, List.mem_cons, children_folder, List.flatMap_map, List.mem_flatMap]
  refine or_congr_right ⟨?_, ?_⟩
  · rintro ⟨⟨inner, tree⟩, member, found⟩
    obtain ⟨known, tracked⟩ := mem_trackedEntries.mp member
    exact ⟨inner, tree, known, tracked, found⟩
  · rintro ⟨inner, tree, member, tracked, found⟩
    exact ⟨(inner, tree), mem_trackedEntries.mpr ⟨member, tracked⟩, found⟩

theorem path_ofTree (below : List String) (name : String) (tree : FileTree Stored) :
    (ofTree digest rules below name tree).path = trackedPath below := by
  cases tree <;> rfl

theorem isFile_ofTree (below : List String) (name : String) (tree : FileTree Stored) :
    (ofTree digest rules below name tree).isFile = tree.isFile := by
  cases tree <;> rfl

/-- Every node of a tree stands for an entry that is tracked. -/
theorem exists_tracks_of_mem (below : List String) (name : String) (tree : FileTree Stored)
    (member : node ∈ (ofTree digest rules below name tree).preorder) :
    ∃ names last entry, Tracks rules name tree names last entry ∧
      node = ofTree digest rules (below ++ names) last entry := by
  induction tree using FileTree.of_entries generalizing below name with
  | files stored =>
    rw [preorder_eq] at member
    obtain rfl := List.mem_singleton.mp member
    exact ⟨[], name, .file stored, .here _ _, by rw [List.append_nil]⟩
  | folders entries ih =>
    rcases mem_preorder_folder.mp member with rfl | ⟨inner, tree, inside, tracked, found⟩
    · exact ⟨[], name, .folder entries, .here _ _, by rw [List.append_nil]⟩
    · obtain ⟨names, last, entry, tracks, same⟩ := ih _ inside (below ++ [inner]) inner found
      refine ⟨inner :: names, last, entry, .inside inside tracked tracks, ?_⟩
      rw [same, List.append_assoc, List.singleton_append]

/-- Every entry that is tracked has its node in the tree. -/
theorem mem_preorder_of_tracks {name last : String} {tree entry : FileTree Stored}
    {names : List String} (tracks : Tracks rules name tree names last entry) (below : List String) :
    ofTree digest rules (below ++ names) last entry ∈
      (ofTree digest rules below name tree).preorder := by
  induction tracks generalizing below with
  | here name tree =>
    rw [List.append_nil]
    cases ofTree digest rules below name tree
    rw [preorder]
    exact List.mem_cons_self
  | @inside _ inner _ _ _ _ _ member tracked _ ih =>
    refine mem_preorder_folder.mpr (.inr ⟨_, _, member, tracked, ?_⟩)
    have found := ih (below ++ [inner])
    rwa [List.append_assoc, List.singleton_append] at found

end DigestNode

/-- Every folder of the tree holds each name once, and only names that entries can
have. -/
def FileTree.WellFormed {α : Type} (tree : FileTree α) : Prop :=
  ∀ names entries, tree.find? names = some (.folder entries) →
    (entries.map Prod.fst).Nodup ∧ ∀ entry ∈ entries, ValidName entry.1

theorem FileTree.WellFormed.below {α : Type} {tree inner : FileTree α}
    (wellFormed : tree.WellFormed) {names : List String}
    (found : tree.find? names = some inner) : inner.WellFormed := by
  intro more entries further
  refine wellFormed (names ++ more) entries ?_
  rw [FileTree.find?_append, found]
  exact further

theorem FileTree.WellFormed.find?_of_mem {α : Type} {name : String} {inner : FileTree α}
    {entries : List (String × FileTree α)} (wellFormed : (folder entries).WellFormed)
    (member : (name, inner) ∈ entries) : (folder entries).find? [name] = some inner := by
  have single := (wellFormed [] entries rfl).1
  have found : entries.lookup name = some inner := by
    refine (Table.lookup_eq_some_iff (fun first second one other => ?_)).mpr member
    exact congrArg Prod.snd (List.inj_on_of_nodup_map single one other rfl)
  rw [find?_cons, FileTree.entries, found]
  rfl

theorem FileTree.wellFormed_file {α : Type} (content : α) : (file content).WellFormed := by
  intro names entries found
  cases names with
  | nil => cases found
  | cons name names => cases found

theorem FileTree.wellFormed_folder_iff {α : Type} {entries : List (String × FileTree α)} :
    (folder entries).WellFormed ↔ (entries.map Prod.fst).Nodup ∧
      ∀ entry ∈ entries, ValidName entry.1 ∧ entry.2.WellFormed := by
  constructor
  · intro wellFormed
    obtain ⟨single, valid⟩ := wellFormed [] entries rfl
    exact ⟨single, fun entry member =>
      ⟨valid entry member, wellFormed.below (wellFormed.find?_of_mem member)⟩⟩
  · rintro ⟨single, each⟩ names items found
    cases names with
    | nil =>
      cases found
      exact ⟨single, fun entry member => (each entry member).1⟩
    | cons name names =>
      rw [find?_cons] at found
      obtain ⟨inner, looked, further⟩ := Option.bind_eq_some_iff.mp found
      exact (each _ (Table.mem_of_lookup looked)).2 names items further

theorem FileTree.WellFormed.erase {α : Type} {tree : FileTree α} (wellFormed : tree.WellFormed)
    (names : List String) : (tree.erase names).WellFormed := by
  induction names generalizing tree with
  | nil => exact wellFormed
  | cons name rest ih =>
    cases tree with
    | file content => cases rest <;> exact wellFormed
    | folder entries =>
      obtain ⟨single, each⟩ := wellFormed_folder_iff.mp wellFormed
      cases rest with
      | nil =>
        refine wellFormed_folder_iff.mpr ⟨single.sublist (List.filter_sublist.map _), ?_⟩
        exact fun entry member => each entry (List.mem_filter.mp member).1
      | cons next rest =>
        unfold FileTree.erase
        cases found : entries.lookup name with
        | none => simpa [FileTree.entries, found] using wellFormed
        | some inner =>
          simp only [FileTree.entries, found]
          obtain ⟨valid, below⟩ := each (name, inner) (Table.mem_of_lookup found)
          refine wellFormed_folder_iff.mpr ⟨Table.nodup_insertEntries _ _ single, ?_⟩
          intro entry member
          rcases Table.mem_insertEntries member with rfl | old
          · exact ⟨valid, ih below⟩
          · exact each entry old

namespace Tracks

variable {name last : String} {tree entry : FileTree Stored} {names : List String}

theorem last_eq (tracks : Tracks rules name tree names last entry) :
    last = names.getLastD name := by
  induction tracks with
  | here => rfl
  | inside _ _ further ih =>
    rw [ih]
    cases further <;> rfl

/-- In a well-formed tree the names lead to the entry, and can be names of entries. -/
theorem find?_eq (tracks : Tracks rules name tree names last entry) (wellFormed : tree.WellFormed) :
    tree.find? names = some entry ∧ (∀ part ∈ names, rules.ignores part = false) ∧
      ∀ part ∈ names, ValidName part := by
  induction tracks with
  | here => exact ⟨rfl, by simp, by simp⟩
  | @inside name inner last entries tree entry names member tracked further ih =>
    have found := wellFormed.find?_of_mem member
    obtain ⟨leads, allTracked, allValid⟩ := ih (wellFormed.below found)
    refine ⟨?_, ?_, ?_⟩
    · rw [← List.singleton_append, FileTree.find?_append, found]
      exact leads
    · exact List.forall_mem_cons.mpr ⟨tracked, allTracked⟩
    · exact List.forall_mem_cons.mpr ⟨(wellFormed [] entries rfl).2 _ member, allValid⟩

/-- Names that are all tracked lead to an entry that is tracked. -/
theorem of_find? (name : String) (tree : FileTree Stored) (found : tree.find? names = some entry)
    (tracked : ∀ part ∈ names, rules.ignores part = false) :
    Tracks rules name tree names (names.getLastD name) entry := by
  induction names generalizing name tree with
  | nil =>
    obtain rfl : tree = entry := by simpa using found
    exact .here name tree
  | cons first rest ih =>
    rw [FileTree.find?_cons] at found
    obtain ⟨inner, looked, further⟩ := Option.bind_eq_some_iff.mp found
    cases tree with
    | file stored => cases looked
    | folder entries =>
      have known : (first, inner) ∈ entries := Table.mem_of_lookup looked
      obtain ⟨here, later⟩ := List.forall_mem_cons.mp tracked
      have last : (first :: rest).getLastD name = rest.getLastD first := by
        cases rest <;> rfl
      rw [last]
      exact .inside known here (ih first inner further later)

end Tracks

end CodeAtlas
