import CodeAtlas.Proofs.Tracking.Records

/-!
# Digests above an edited file

The digests of a folder's entries are sorted and joined before they are digested.  They have
one length, so the joined text tells which digests there are, each as often as it occurs.
Where one entry gets another digest and the others keep theirs, the folder's digest is
another one, too.  From an edited file this goes up to the root, and no node beside the way
is touched.
-/

namespace CodeAtlas

variable {digest : DigestFunction} {rules : IgnoreRules}

theorem FileTree.wellFormed_empty {α : Type} :
    (folder ([] : List (String × FileTree α))).WellFormed :=
  wellFormed_folder_iff.mpr ⟨List.nodup_nil, by simp⟩

theorem FileTree.WellFormed.insert {α : Type} {tree entry : FileTree α} {names : List String}
    (wellFormed : tree.WellFormed) (inner : entry.WellFormed)
    (valid : ∀ part ∈ names, ValidName part) : (tree.insert names entry).WellFormed := by
  induction names generalizing tree with
  | nil => exact inner
  | cons name rest ih =>
    obtain ⟨here, later⟩ := List.forall_mem_cons.mp valid
    have folder : (FileTree.folder tree.entries).WellFormed := by
      cases tree with
      | folder entries => exact wellFormed
      | file content => exact wellFormed_empty
    obtain ⟨single, each⟩ := wellFormed_folder_iff.mp folder
    have next : ((tree.entries.lookup name).getD (.folder [])).WellFormed := by
      cases found : tree.entries.lookup name with
      | none => exact wellFormed_empty
      | some inner => exact (each _ (Table.mem_of_lookup found)).2
    refine wellFormed_folder_iff.mpr ⟨Table.nodup_insertEntries _ _ single, ?_⟩
    intro entry member
    rcases Table.mem_insertEntries member with rfl | old
    · exact ⟨here, ih next later⟩
    · exact each entry old

/-- An entry that is there is replaced in its place. -/
theorem Table.insertEntries_of_lookup {κ : Type v} {α : Type u} [BEq κ] [LawfulBEq κ] {key : κ}
    {value : α} {entries : List (κ × α)} (found : entries.lookup key = some value) :
    ∃ before after, entries = before ++ (key, value) :: after ∧
      ∀ other, insertEntries key other entries = before ++ (key, other) :: after := by
  induction entries with
  | nil => cases found
  | cons entry rest ih =>
    rw [lookup_cons_ite] at found
    split at found
    · rename_i same
      obtain rfl := eq_of_beq same
      obtain rfl := Option.some.inj found
      exact ⟨[], rest, rfl, fun other => by rw [insertEntries, if_pos same]; rfl⟩
    · rename_i different
      obtain ⟨before, after, rfl, replaced⟩ := ih found
      refine ⟨entry :: before, after, rfl, fun other => ?_⟩
      rw [insertEntries, if_neg different, replaced]
      rfl

/-- Two folders that differ in one tracked entry have the same bytes only if that entry has the
same digest in both. -/
theorem digest_eq_of_folder_bytes {width : Nat} (positive : 0 < width)
    (fixed : ∀ bytes, (digest bytes).length = width) {name inner : String}
    {before after : List (String × FileTree Stored)} {tree tree' : FileTree Stored}
    (tracked : rules.ignores inner = false)
    (same : digestedBytes digest rules name (.folder (before ++ (inner, tree) :: after)) =
      digestedBytes digest rules name (.folder (before ++ (inner, tree') :: after))) :
    digest (digestedBytes digest rules inner tree) =
      digest (digestedBytes digest rules inner tree') := by
  have digests := entryDigests_perm_of_bytes positive fixed same
  simp only [entryDigests_append, entryDigests, tracked, Bool.false_eq_true, if_false,
    List.perm_append_left_iff] at digests
  rwa [← Multiset.coe_eq_coe, ← Multiset.cons_coe, ← Multiset.cons_coe,
    Multiset.cons_inj_left] at digests

section Edit

variable {place : Path} {tree : FileTree Stored} {names : List String} {stored edited : Stored}

/-- Every entry on the way to an edited file has other bytes than before. -/
theorem bytes_ne_of_edit {width : Nat} (positive : 0 < width)
    (fixed : ∀ bytes, (digest bytes).length = width)
    (different : edited.bytes ≠ stored.bytes) {above below : List String}
    {entry : FileTree Stored} (leads : tree.find? above = some entry)
    (found : entry.find? below = some (.file stored))
    (tracked : ∀ part ∈ above ++ below, rules.ignores part = false)
    (noCollision : NoCollision digest rules place (some tree)
      (some (tree.insert (above ++ below) (.file edited)))) :
    digestedBytes digest rules (above.getLastD place.name) entry ≠
      digestedBytes digest rules (above.getLastD place.name)
        (entry.insert below (.file edited)) := by
  induction below generalizing above entry with
  | nil =>
    obtain rfl : entry = .file stored := by simpa using found
    rw [FileTree.insert, digestedBytes, digestedBytes]
    exact different.symm
  | cons name rest ih =>
    rw [FileTree.find?_cons] at found
    obtain ⟨inner, looked, further⟩ := Option.bind_eq_some_iff.mp found
    cases entry with
    | file content => cases looked
    | folder entries =>
      have way : above ++ name :: rest = (above ++ [name]) ++ rest := by simp
      have leads' : tree.find? (above ++ [name]) = some inner := by
        rw [FileTree.find?_append, leads, Option.bind_some, FileTree.find?_cons, looked]
        rfl
      rw [way] at tracked noCollision
      have apart := ih leads' further tracked noCollision
      have here : ∀ part ∈ above ++ [name], rules.ignores part = false :=
        fun part member => tracked part (List.mem_append_left _ member)
      have changed : (tree.insert ((above ++ [name]) ++ rest) (.file edited)).find?
          (above ++ [name]) = some (inner.insert rest (.file edited)) := by
        rw [FileTree.find?_insert_above, leads']
        rfl
      have inserted : (FileTree.folder entries).insert (name :: rest) (.file edited) =
          .folder (Table.insertEntries name (inner.insert rest (.file edited))
            (FileTree.folder entries).entries) := by
        rw [FileTree.insert, looked]
        rfl
      obtain ⟨first, second, rfl, replaced⟩ := Table.insertEntries_of_lookup looked
      rw [inserted, replaced]
      intro same
      have digests := digest_eq_of_folder_bytes positive fixed
        (here name (List.mem_append_right _ List.mem_cons_self)) same
      have last : (above ++ [name]).getLastD place.name = name := by simp
      rw [last] at apart
      have told := noCollision tree rfl _ rfl _ _ _ _ _ _
        (.of_find? place.name tree leads' here) (.of_find? place.name _ changed here)
      rw [last] at told
      exact apart (told digests)

end Edit

namespace DigestTree

/-- The nodes of a well-formed project are those of the entries that tracked names lead to. -/
theorem find?_ofProject_eq_some {place : Path} {tree : FileTree Stored} {listing : Listing}
    (wellFormed : tree.WellFormed) {path : String} {node : DigestNode} :
    (ofProject digest rules place (some tree) listing).find? path = some node ↔
      ∃ names entry, tree.find? names = some entry ∧
        (∀ part ∈ names, rules.ignores part = false) ∧ path = trackedPath names ∧
          node = .ofTree digest rules names (names.getLastD place.name) entry := by
  have each : ∀ inner ∈ some tree, inner.WellFormed := by
    rintro inner ⟨⟩
    exact wellFormed
  rw [find?, get?_nodes_iff (single_ofProject each), mem_listed_ofProject]
  constructor
  · rintro ⟨⟨_, names, last, entry, same, tracks, rfl⟩, rfl⟩
    obtain rfl := Option.some.inj same
    obtain ⟨found, tracked, -⟩ := tracks.find?_eq wellFormed
    exact ⟨names, entry, found, tracked, DigestNode.path_ofTree .., by rw [tracks.last_eq]⟩
  · rintro ⟨names, entry, found, tracked, rfl, rfl⟩
    exact ⟨⟨tree, names, _, entry, rfl, .of_find? place.name tree found tracked, rfl⟩,
      DigestNode.path_ofTree ..⟩

theorem mem_entries_nodes {tree : DigestTree} {path : String} {node : DigestNode} :
    (path, node) ∈ tree.nodes.entries ↔ tree.find? path = some node := by
  refine (Table.lookup_eq_some_iff (fun first second one other => ?_)).symm
  exact congrArg Prod.snd (List.inj_on_of_nodup_map (Table.nodup_ofList _) one other rfl)

end DigestTree

section Changed

variable {old new : DigestTree} {path : String}

theorem mem_changedFolders : path ∈ changedFolders old new ↔
    ∃ node, new.find? path = some node ∧ node.isFile = false ∧
      (old.find? path).map DigestNode.digest ≠ some node.digest := by
  simp only [changedFolders, Text.mem_sorted, List.mem_map, List.mem_filter, Prod.exists,
    DigestTree.mem_entries_nodes, exists_and_right, exists_eq_right, Bool.and_eq_true,
    Bool.not_eq_true']
  refine exists_congr (fun node => and_congr_right (fun _ => and_congr_right (fun _ => ?_)))
  rw [DigestTree.find?]
  cases old.nodes.get? path <;> simp

theorem nodup_changedFolders (old new : DigestTree) : (changedFolders old new).Nodup := by
  rw [changedFolders, (Text.sorted_perm _).nodup_iff]
  exact (Table.nodup_ofList _).sublist (List.filter_sublist.map Prod.fst)

/-- Where one file has another digest and all others are as they were, that file alone was
modified. -/
theorem Changes.between_eq_modified {file : String}
    (differs : ∀ path, old.fileDigests.lookup path ≠ new.fileDigests.lookup path ↔ path = file)
    (known : (old.fileDigests.lookup file).isSome) (known' : (new.fileDigests.lookup file).isSome) :
    between old new =
      ⟨[], [], [file], (Text.sorted old.files).filter (fun path => path ≠ file)⟩ := by
  have files : old.fileDigests.map Prod.fst = old.files := by
    simp [DigestTree.fileDigests, DigestTree.files, Function.comp_def]
  have both : ∀ path,
      (old.fileDigests.lookup path).isSome = (new.fileDigests.lookup path).isSome := by
    intro path
    by_cases here : path = file
    · rw [here, known, known']
    · rw [not_not.mp (mt (differs path).mp here)]
  have added : (between old new).added = [] := by
    refine List.eq_nil_iff_forall_not_mem.mpr (fun path member => ?_)
    obtain ⟨there, gone⟩ := mem_added.mp member
    simp [← both path, gone] at there
  have removed : (between old new).removed = [] := by
    refine List.eq_nil_iff_forall_not_mem.mpr (fun path member => ?_)
    obtain ⟨there, gone⟩ := mem_removed.mp member
    simp [both path, gone] at there
  have single : (between old new).modified.Nodup := by
    refine List.Nodup.filter _ ((Text.sorted_perm _).nodup_iff.mpr (List.Nodup.filter _ ?_))
    rw [files]
    exact old.nodup_files
  have modified : (between old new).modified = [file] := by
    refine List.perm_singleton.mp ((List.perm_ext_iff_of_nodup single (by simp)).mpr ?_)
    intro path
    rw [mem_modified, differs, List.mem_singleton]
    exact ⟨fun all => all.2.2, fun same => ⟨same ▸ known, same ▸ known', same⟩⟩
  have unchanged : (between old new).unchanged =
      (Text.sorted old.files).filter (fun path => path ≠ file) := by
    have common : (old.fileDigests.map Prod.fst).filter
        (fun path => !(new.fileDigests.lookup path).isNone) = old.files := by
      rw [files]
      refine List.filter_eq_self.mpr (fun path member => ?_)
      rw [← files, ← Table.isSome_lookup_iff, both path] at member
      simpa using member
    simp only [between, common]
    refine List.filter_congr (fun path _ => ?_)
    by_cases same : path = file
    · simp [same, (differs file).mpr rfl]
    · simp [same, not_not.mp (mt (differs path).mp same)]
  show (⟨(between old new).added, (between old new).removed, (between old new).modified,
    (between old new).unchanged⟩ : Changes) = _
  rw [added, removed, modified, unchanged]

end Changed

/-- The paths of the folders that names lead through, the project's own first. -/
def foldersAbove (names : List String) : List String :=
  (List.range names.length).map (fun depth => trackedPath (names.take depth))

theorem mem_foldersAbove {names : List String} {path : String} :
    path ∈ foldersAbove names ↔
      ∃ above, above <+: names ∧ above ≠ names ∧ path = trackedPath above := by
  simp only [foldersAbove, List.mem_map, List.mem_range]
  constructor
  · rintro ⟨depth, inside, rfl⟩
    refine ⟨names.take depth, List.take_prefix _ _, fun same => ?_, rfl⟩
    have lengths := congrArg List.length same
    rw [List.length_take] at lengths
    omega
  · rintro ⟨above, onTheWay, proper, rfl⟩
    refine ⟨above.length, ?_, by rw [← List.prefix_iff_eq_take.mp onTheWay]⟩
    exact lt_of_le_of_ne onTheWay.length_le (fun same => proper (onTheWay.eq_of_length same))

theorem nodup_foldersAbove {names : List String} (valid : ∀ part ∈ names, ValidName part) :
    (foldersAbove names).Nodup := by
  refine List.Nodup.map_on (fun depth member depth' member' same => ?_) List.nodup_range
  have takes := trackedPath_inj (fun part inside => valid part (List.mem_of_mem_take inside))
    (fun part inside => valid part (List.mem_of_mem_take inside)) same
  have lengths := congrArg List.length takes
  rw [List.mem_range] at member member'
  rw [List.length_take, List.length_take] at lengths
  omega

/-- A tracked file of a well-formed project whose content is replaced. -/
structure IsEdit (digest : DigestFunction) (rules : IgnoreRules) (place : Path)
    (tree : FileTree Stored) (names : List String) (stored edited : Stored) : Prop where
  wellFormed : tree.WellFormed
  found : tree.find? names = some (.file stored)
  tracked : ∀ part ∈ names, rules.ignores part = false
  different : edited.bytes ≠ stored.bytes
  noCollision : NoCollision digest rules place (some tree)
    (some (tree.insert names (.file edited)))

namespace IsEdit

variable {place : Path} {tree : FileTree Stored} {names : List String} {stored edited : Stored}
  (edit : IsEdit digest rules place tree names stored edited)

include edit

theorem valid : ∀ part ∈ names, ValidName part :=
  ((Tracks.of_find? "" tree edit.found edit.tracked).find?_eq edit.wellFormed).2.2

theorem wellFormed' : (tree.insert names (.file edited)).WellFormed :=
  edit.wellFormed.insert (FileTree.wellFormed_file _) edit.valid

theorem find?_apart {other : List String} (notAbove : ¬ other <+: names) :
    (tree.insert names (.file edited)).find? other = tree.find? other :=
  FileTree.find?_insert_leaf (by simp [FileTree.HasFolder, edit.found]) (fun _ _ => rfl) notAbove

/-- A node beside the way to the file is as it was. -/
theorem node_apart (listing listing' : Listing) {path : String}
    (apart : ∀ above, above <+: names → path ≠ trackedPath above) :
    (DigestTree.ofProject digest rules place (some tree) listing).find? path =
      (DigestTree.ofProject digest rules place
        (some (tree.insert names (.file edited))) listing').find? path := by
  apply Option.ext
  intro node
  rw [DigestTree.find?_ofProject_eq_some edit.wellFormed,
    DigestTree.find?_ofProject_eq_some edit.wellFormed']
  refine exists_congr (fun other => exists_congr (fun entry => ?_))
  by_cases above : other <+: names
  · constructor <;> exact fun all => (apart other above all.2.2.1).elim
  · rw [edit.find?_apart above]

/-- A node on the way to the file stands for a folder before and after, or for the file itself,
and has another digest. -/
theorem node_above {width : Nat} (positive : 0 < width)
    (fixed : ∀ bytes, (digest bytes).length = width) (listing listing' : Listing)
    {above : List String} (onTheWay : above <+: names) : ∃ node node',
      (DigestTree.ofProject digest rules place (some tree) listing).find? (trackedPath above) =
        some node ∧
      (DigestTree.ofProject digest rules place
        (some (tree.insert names (.file edited))) listing').find? (trackedPath above) =
          some node' ∧
      node.isFile = decide (above = names) ∧ node'.isFile = decide (above = names) ∧
      node.digest ≠ node'.digest := by
  obtain ⟨below, rfl⟩ := onTheWay
  have found := edit.found
  rw [FileTree.find?_append] at found
  obtain ⟨entry, leads, further⟩ := Option.bind_eq_some_iff.mp found
  have leads' : (tree.insert (above ++ below) (.file edited)).find? above =
      some (entry.insert below (.file edited)) := by
    rw [FileTree.find?_insert_above, leads]
    rfl
  have tracked : ∀ part ∈ above, rules.ignores part = false := fun part member =>
    edit.tracked part (List.mem_append_left _ member)
  have bytes := bytes_ne_of_edit positive fixed edit.different leads further edit.tracked
    edit.noCollision
  have told := edit.noCollision tree rfl _ rfl _ _ _ _ _ _
    (.of_find? place.name tree leads tracked) (.of_find? place.name _ leads' tracked)
  have kinds : entry.isFile = decide (above = above ++ below) ∧
      (entry.insert below (.file edited)).isFile = decide (above = above ++ below) := by
    cases below with
    | nil =>
      obtain rfl : entry = .file stored := by simpa using further
      simp [FileTree.insert, FileTree.isFile, FileTree.isFolder]
    | cons name rest =>
      cases entry with
      | file content => cases further
      | folder entries => simp [FileTree.insert, FileTree.isFile, FileTree.isFolder]
  refine ⟨_, _,
    (DigestTree.find?_ofProject_eq_some edit.wellFormed).mpr
      ⟨above, entry, leads, tracked, rfl, rfl⟩,
    (DigestTree.find?_ofProject_eq_some edit.wellFormed').mpr
      ⟨above, _, leads', tracked, rfl, rfl⟩, ?_, ?_, ?_⟩
  · rw [DigestNode.isFile_ofTree, kinds.1]
  · rw [DigestNode.isFile_ofTree, kinds.2]
  · rw [digest_ofTree, digest_ofTree]
    exact fun same => bytes (told (Option.some.inj same))

section Compared

variable {width : Nat} (positive : 0 < width) (fixed : ∀ bytes, (digest bytes).length = width)
  (listing listing' : Listing)

include positive fixed

/-- The digests that differ are those of the file and of the folders above it. -/
theorem differs_iff (path : String) :
    ((DigestTree.ofProject digest rules place (some tree) listing).find? path).map
        DigestNode.digest ≠
      ((DigestTree.ofProject digest rules place
        (some (tree.insert names (.file edited))) listing').find? path).map DigestNode.digest ↔
      ∃ above, above <+: names ∧ path = trackedPath above := by
  constructor
  · intro different
    by_contra none
    push Not at none
    exact different (congrArg _ (edit.node_apart listing listing' none))
  · rintro ⟨above, onTheWay, rfl⟩
    obtain ⟨node, node', here, here', -, -, different⟩ :=
      edit.node_above positive fixed listing listing' onTheWay
    rw [here, here', Option.map_some, Option.map_some]
    exact fun same => different (Option.some.inj same)

theorem isSome_find? (path : String) :
    ((DigestTree.ofProject digest rules place (some tree) listing).find? path).isSome =
      ((DigestTree.ofProject digest rules place
        (some (tree.insert names (.file edited))) listing').find? path).isSome := by
  by_cases onTheWay : ∃ above, above <+: names ∧ path = trackedPath above
  · obtain ⟨above, prefixed, rfl⟩ := onTheWay
    obtain ⟨node, node', here, here', -⟩ :=
      edit.node_above positive fixed listing listing' prefixed
    rw [here, here']
    rfl
  · push Not at onTheWay
    rw [edit.node_apart listing listing' onTheWay]

/-- The folders that changed are those above the file. -/
theorem changedFolders_eq :
    changedFolders (.ofProject digest rules place (some tree) listing)
        (.ofProject digest rules place (some (tree.insert names (.file edited))) listing') =
      Text.sorted (foldersAbove names) := by
  refine Text.sorted_eq_of_perm
    ((List.perm_ext_iff_of_nodup ?_ (nodup_foldersAbove edit.valid)).mpr (fun path => ?_))
  · exact (Text.sorted_perm _).nodup_iff.mp (nodup_changedFolders _ _)
  rw [← Text.mem_sorted, mem_foldersAbove]
  refine mem_changedFolders.trans ⟨?_, ?_⟩
  · rintro ⟨node, found, folder, different⟩
    obtain ⟨above, onTheWay, rfl⟩ :=
      (edit.differs_iff positive fixed listing listing' path).mp (by rwa [found])
    obtain ⟨_, node', -, here', -, file', -⟩ :=
      edit.node_above positive fixed listing listing' onTheWay
    obtain rfl : node = node' := Option.some.inj (found.symm.trans here')
    exact ⟨above, onTheWay, by simpa [folder] using file', rfl⟩
  · rintro ⟨above, onTheWay, proper, rfl⟩
    obtain ⟨node, node', here, here', -, file', different⟩ :=
      edit.node_above positive fixed listing listing' onTheWay
    refine ⟨node', here', by simpa [proper] using file', ?_⟩
    rw [here]
    exact fun same => different (Option.some.inj same)

theorem between_eq :
    Changes.between (.ofProject digest rules place (some tree) listing)
        (.ofProject digest rules place (some (tree.insert names (.file edited))) listing') =
      ⟨[], [], [trackedPath names],
        (Text.sorted (DigestTree.ofProject digest rules place (some tree) listing).files).filter
          (fun path => path ≠ trackedPath names)⟩ := by
  obtain ⟨node, node', here, here', file, file', different⟩ :=
    edit.node_above positive fixed listing listing' (List.prefix_refl names)
  rw [DigestTree.find?] at here here'
  refine Changes.between_eq_modified (fun path => ⟨fun differs => ?_, ?_⟩) ?_ ?_
  · by_contra other
    refine differs ?_
    rw [DigestTree.lookup_fileDigests, DigestTree.lookup_fileDigests]
    by_cases onTheWay : ∃ above, above <+: names ∧ path = trackedPath above
    · obtain ⟨above, prefixed, rfl⟩ := onTheWay
      have proper : above ≠ names := fun same => other (congrArg trackedPath same)
      obtain ⟨inner, inner', found, found', folder, folder', -⟩ :=
        edit.node_above positive fixed listing listing' prefixed
      rw [DigestTree.find?] at found found'
      simp [found, found', folder, folder', proper, Option.filter]
    · push Not at onTheWay
      have same := edit.node_apart listing listing' onTheWay
      rw [DigestTree.find?, DigestTree.find?] at same
      rw [same]
  · rintro rfl
    simpa [DigestTree.lookup_fileDigests, here, here', file, file', Option.filter] using different
  · simp [DigestTree.lookup_fileDigests, here, file]
  · simp [DigestTree.lookup_fileDigests, here', file']

end Compared

end IsEdit

/-- Where the content of one tracked file was replaced, and digests do not collide, the digests
that differ are exactly those of the file and of the folders above it, up to the root.  The
changed folders are these folders in order, and the comparison reports the file as modified and
every other file as unchanged. -/
theorem edit_changes_digests_above {before after : World} {place : Path}
    {tree : FileTree Stored} {names : List String} {edited : Stored} {bytes : ByteArray}
    {width : Nat} (sound : before.WellFormed) (seen : before.lookUp place = .ok (some tree))
    (content : trackedContent rules (trackedProject rules place (some tree)) names = some bytes)
    (different : edited.bytes ≠ bytes)
    (seen' : after.lookUp place = .ok (some (tree.insert names (.file edited))))
    (positive : 0 < width) (fixed : ∀ bytes, (digest bytes).length = width)
    (noCollision : NoCollision digest rules place (some tree)
      (some (tree.insert names (.file edited)))) :
    ∃ old new, runFrom before (DigestTree.build digest rules place) = (.ok old, before) ∧
      runFrom after (DigestTree.build digest rules place) = (.ok new, after) ∧
      (∀ path, (old.find? path).isSome = (new.find? path).isSome) ∧
      (∀ path, (old.find? path).map DigestNode.digest ≠ (new.find? path).map DigestNode.digest ↔
        ∃ above, above <+: names ∧ path = trackedPath above) ∧
      old.rootDigest ≠ new.rootDigest ∧
      changedFolders old new = Text.sorted (foldersAbove names) ∧
      Changes.between old new =
        ⟨[], [], [trackedPath names],
          (Text.sorted old.files).filter (fun path => path ≠ trackedPath names)⟩ := by
  obtain ⟨_, stored, project, found, tracked, rfl⟩ := trackedContent_eq_some.mp content
  have kept : rules.ignores place.name = false := by
    cases ignored : rules.ignores place.name with
    | false => rfl
    | true => simp [trackedProject, ignored] at project
  have whole : ∀ files, trackedProject rules place files = files := fun files => by
    simp [trackedProject, kept]
  rw [whole] at project
  obtain rfl := Option.some.inj project
  have edit : IsEdit digest rules place tree names stored edited :=
    ⟨sound.lookUp seen tree rfl, found, tracked, different, noCollision⟩
  refine ⟨_, _, DigestTree.runFrom_build digest rules seen,
    DigestTree.runFrom_build digest rules seen', ?_⟩
  rw [DigestTree.ofFiles_eq, DigestTree.ofFiles_eq, whole, whole]
  refine ⟨edit.isSome_find? positive fixed _ _, edit.differs_iff positive fixed _ _, ?_,
    edit.changedFolders_eq positive fixed _ _, edit.between_eq positive fixed _ _⟩
  have bytes := bytes_ne_of_edit positive fixed different (FileTree.find?_nil tree) found tracked
    noCollision
  rw [ne_eq, noCollision.rootDigest_eq_iff]
  exact fun same => bytes (Option.some.inj same)

/-- A digest of one letter, from the sum of the bytes. -/
def checksum (bytes : ByteArray) : String :=
  String.singleton (Char.ofNat
    (64 + bytes.data.toList.foldl (fun total byte => total + byte.toNat) 0 % 50))

/-- The bytes that are digested for the nested project, if the letter of its inner file is
known and that of its folder. -/
private theorem bytes_nested {text letter folder last : String} {names : List String}
    {entry : FileTree Stored} (inner : checksum text.toUTF8 = letter)
    (outer : checksum ("pkg" ++ letter).toUTF8 = folder) (order : folder ≤ "U")
    (tracks : Tracks .standard "proj" (nestedProject text) names last entry) :
    digestedBytes checksum .standard last entry ∈ [("proj" ++ (folder ++ "U")).toUTF8,
      ("pkg" ++ letter).toUTF8, text.toUTF8, "y".toUTF8] := by
  have plain : IgnoreRules.standard.ignores "pkg" = false ∧
      IgnoreRules.standard.ignores "a.py" = false ∧
      IgnoreRules.standard.ignores "b.py" = false := by decide
  have file : digestedBytes checksum .standard "a.py" (.file ⟨.bytes text.toUTF8, 0⟩) =
      text.toUTF8 := by rw [digestedBytes]; rfl
  have beside : digestedBytes checksum .standard "b.py" (.file ⟨.bytes "y".toUTF8, 0⟩) =
      "y".toUTF8 := by rw [digestedBytes]; rfl
  have pkg : digestedBytes checksum .standard "pkg"
      (.folder [("a.py", .file ⟨.bytes text.toUTF8, 0⟩)]) = ("pkg" ++ letter).toUTF8 := by
    rw [digestedBytes]
    have sorted : Text.sorted [letter] = [letter] := rfl
    simp only [entryDigests, plain, Bool.false_eq_true, if_false, file, inner, sorted,
      String.join_cons, String.join_nil, String.append_empty]
  have root : digestedBytes checksum .standard "proj" (nestedProject text) =
      ("proj" ++ (folder ++ "U")).toUTF8 := by
    have last : checksum "y".toUTF8 = "U" := by decide
    have sorted : Text.sorted [folder, "U"] = [folder, "U"] := by
      rw [Text.sorted_eq]
      exact List.Pairwise.insertionSort_eq (by simpa using order)
    rw [nestedProject, digestedBytes]
    simp only [entryDigests, plain, Bool.false_eq_true, if_false, pkg, beside, outer, last, sorted,
      String.join_cons, String.join_nil, String.append_empty]
  cases tracks with
  | here => exact root ▸ List.mem_cons_self
  | inside member _ further =>
    simp only [List.mem_cons, Prod.mk.injEq, List.not_mem_nil, or_false] at member
    rcases member with ⟨rfl, rfl⟩ | ⟨rfl, rfl⟩
    · cases further with
      | here => exact pkg ▸ List.mem_cons_of_mem _ List.mem_cons_self
      | inside member _ further =>
        obtain ⟨rfl, rfl⟩ := Prod.mk.inj (List.mem_singleton.mp member)
        cases further
        rw [file]
        simp only [List.mem_cons, true_or, or_true]
    · cases further
      rw [beside]
      simp only [List.mem_cons, true_or, or_true]

private theorem noCollision_nested : NoCollision checksum .standard ⟨.root, ["proj"]⟩
    (some (nestedProject "x")) (some (nestedProject "z")) := by
  rintro tree ⟨⟩ tree' ⟨⟩ names last entry names' last' entry' tracks tracks'
  have known := @bytes_nested "x" "T" "F" _ _ _ (by decide) (by decide) (by decide) tracks
  have known' := @bytes_nested "z" "V" "H" _ _ _ (by decide) (by decide) (by decide) tracks'
  have apart : ∀ bytes ∈ [("proj" ++ ("F" ++ "U")).toUTF8, ("pkg" ++ "T").toUTF8, "x".toUTF8,
      "y".toUTF8], ∀ bytes' ∈ [("proj" ++ ("H" ++ "U")).toUTF8, ("pkg" ++ "V").toUTF8,
        "z".toUTF8, "y".toUTF8], checksum bytes = checksum bytes' → bytes = bytes' := by
    decide
  exact apart _ known _ known'

/-- In the nested project an edit of the inner file changes the folder and the root. -/
theorem inner_edit_changes_digests_above : ∃ old new,
    runFrom (nestedWorld "x") (DigestTree.build checksum .standard ⟨.root, ["proj"]⟩) =
      (.ok old, nestedWorld "x") ∧
    runFrom (nestedWorld "z") (DigestTree.build checksum .standard ⟨.root, ["proj"]⟩) =
      (.ok new, nestedWorld "z") ∧
    old.rootDigest ≠ new.rootDigest ∧
    changedFolders old new = Text.sorted [".", "pkg"] ∧
    Changes.between old new = ⟨[], [], ["pkg/a.py"],
      (Text.sorted old.files).filter (fun path => path ≠ "pkg/a.py")⟩ := by
  obtain ⟨old, new, built, built', -, -, root, folders, changes⟩ :=
    @edit_changes_digests_above checksum .standard (nestedWorld "x") (nestedWorld "z")
      ⟨.root, ["proj"]⟩ (nestedProject "x") ["pkg", "a.py"] ⟨.bytes "z".toUTF8, 0⟩ "x".toUTF8 1
      (wellFormed_nestedWorld "x") rfl rfl (by decide) rfl Nat.one_pos
      (fun _ => String.length_singleton) noCollision_nested
  exact ⟨old, new, built, built', root, folders, changes⟩

end CodeAtlas
