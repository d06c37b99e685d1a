import CodeAtlas.Proofs.Tracking.Files

/-!
# What a comparison of digest trees finds

A digest tree that was built from a well-formed project gives each tracked file the digest
of its content, whatever the order of listing.  The comparison of two such trees finds no
change exactly if the same files with the same contents are tracked in both.
-/

namespace CodeAtlas

variable {digest : DigestFunction} {rules : IgnoreRules}
variable {changes : Changes} {names : List String} {node : DigestNode}

namespace Changes

variable {old new : DigestTree} {path : String}

theorem mem_added : path ∈ (between old new).added ↔
    (new.fileDigests.lookup path).isSome ∧ old.fileDigests.lookup path = none := by
  simp only [between, Text.mem_sorted, List.mem_filter, Option.isNone_iff_eq_none,
    Table.isSome_lookup_iff]

theorem mem_removed : path ∈ (between old new).removed ↔
    (old.fileDigests.lookup path).isSome ∧ new.fileDigests.lookup path = none := by
  simp only [between, Text.mem_sorted, List.mem_filter, Option.isNone_iff_eq_none,
    Table.isSome_lookup_iff]

theorem mem_modified : path ∈ (between old new).modified ↔
    (old.fileDigests.lookup path).isSome ∧ (new.fileDigests.lookup path).isSome ∧
      old.fileDigests.lookup path ≠ new.fileDigests.lookup path := by
  simp [between, Text.mem_sorted, and_assoc]

/-- A path that is looked up with different results was added, removed or modified. -/
theorem mem_changed : path ∈ (between old new).changed ↔
    old.fileDigests.lookup path ≠ new.fileDigests.lookup path := by
  rw [changed, List.mem_append, List.mem_append, mem_added, mem_removed, mem_modified]
  cases old.fileDigests.lookup path <;> cases new.fileDigests.lookup path <;> simp

private theorem none_of_not_hasChanges (same : changes.hasChanges = false) :
    changes.added = [] ∧ changes.removed = [] ∧ changes.modified = [] := by
  simp only [hasChanges, Bool.not_eq_false', Bool.and_eq_true, List.isEmpty_iff] at same
  exact ⟨same.1.1, same.1.2, same.2⟩

theorem toRemove_eq_nil (same : changes.hasChanges = false) :
    changes.toRemove = [] := by
  simp [toRemove, none_of_not_hasChanges same]

theorem toReindex_eq_nil (same : changes.hasChanges = false) :
    changes.toReindex = [] := by
  simp [toReindex, none_of_not_hasChanges same]

theorem mem_toRemove : path ∈ (between old new).toRemove ↔
    (old.fileDigests.lookup path).isSome ∧
      old.fileDigests.lookup path ≠ new.fileDigests.lookup path := by
  rw [toRemove, Text.mem_sorted, List.mem_append, mem_removed, mem_modified]
  cases old.fileDigests.lookup path <;> cases new.fileDigests.lookup path <;> simp

theorem mem_toReindex : path ∈ (between old new).toReindex ↔
    (new.fileDigests.lookup path).isSome ∧
      old.fileDigests.lookup path ≠ new.fileDigests.lookup path := by
  rw [toReindex, Text.mem_sorted, List.mem_append, mem_added, mem_modified]
  cases old.fileDigests.lookup path <;> cases new.fileDigests.lookup path <;> simp

theorem hasChanges_eq_false : (between old new).hasChanges = false ↔
    ∀ path, old.fileDigests.lookup path = new.fileDigests.lookup path := by
  have none : (between old new).hasChanges = false ↔ (between old new).changed = [] := by
    simp [hasChanges, changed, and_assoc]
  rw [none, List.eq_nil_iff_forall_not_mem]
  exact forall_congr' (fun path => by rw [mem_changed, not_not])

end Changes

theorem trackedPath_inj {others : List String} (valid : ∀ part ∈ names, ValidName part)
    (valid' : ∀ part ∈ others, ValidName part)
    (same : trackedPath names = trackedPath others) : names = others := by
  have first := @Path.ofString_toString ⟨.relative, names⟩ (by simp) valid
  have second := @Path.ofString_toString ⟨.relative, others⟩ (by simp) valid'
  unfold trackedPath at same
  rw [same, second] at first
  exact (congrArg Path.parts first).symm

/-- What is tracked of a project: everything, unless the project itself is left out. -/
def trackedProject (rules : IgnoreRules) (place : Path)
    (files : Option (FileTree Stored)) : Option (FileTree Stored) :=
  if rules.ignores place.name then none else files

/-- The content of the tracked file that the names lead to. -/
def trackedContent (rules : IgnoreRules) (project : Option (FileTree Stored))
    (names : List String) : Option ByteArray :=
  if names.any rules.ignores then none
  else ((project.bind (fun tree => tree.find? names)).bind FileTree.content?).map Stored.bytes

theorem trackedContent_eq_some {project : Option (FileTree Stored)} {bytes : ByteArray} :
    trackedContent rules project names = some bytes ↔
      ∃ tree stored, project = some tree ∧ tree.find? names = some (.file stored) ∧
        (∀ part ∈ names, rules.ignores part = false) ∧ bytes = stored.bytes := by
  unfold trackedContent
  by_cases ignored : names.any rules.ignores = true
  · rw [if_pos ignored]
    obtain ⟨part, member, left⟩ := List.any_eq_true.mp ignored
    constructor
    · intro none
      cases none
    · rintro ⟨_, _, _, _, tracked, _⟩
      simp [tracked part member] at left
  · rw [if_neg ignored]
    have tracked : ∀ part ∈ names, rules.ignores part = false := by simpa using ignored
    constructor
    · intro content
      obtain ⟨stored, inside, rfl⟩ := Option.map_eq_some_iff.mp content
      obtain ⟨entry, leads, file⟩ := Option.bind_eq_some_iff.mp inside
      obtain ⟨tree, rfl, found⟩ := Option.bind_eq_some_iff.mp leads
      cases entry with
      | folder entries => cases file
      | file other =>
        obtain rfl := Option.some.inj file
        exact ⟨tree, other, rfl, found, tracked, rfl⟩
    · rintro ⟨tree, stored, rfl, found, -, rfl⟩
      simp [found, FileTree.content?]

namespace DigestTree

theorem lookup_fileDigests (tree : DigestTree) (path : String) :
    tree.fileDigests.lookup path =
      ((tree.nodes.get? path).filter DigestNode.isFile).map DigestNode.digest := by
  have single : tree.nodes.keys.Nodup := Table.nodup_ofList _
  rw [fileDigests, fileEntries, Table.lookup_map_value,
    Table.lookup_filter_value single DigestNode.isFile]
  rfl

theorem nodup_files (tree : DigestTree) : tree.files.Nodup :=
  (Table.nodup_ofList _).sublist (List.filter_sublist.map Prod.fst)

theorem mem_listed_iff {tree : DigestTree} :
    node ∈ tree.listed ↔ ∃ root, tree.root = some root ∧ node ∈ root.preorder := by
  unfold listed
  cases tree.root with
  | none => simp
  | some root =>
    cases tree.listing with
    | childrenFirst => simp [DigestNode.mem_postorder]
    | folderFirst => simp

theorem get?_nodes_iff {tree : DigestTree} (single : ∀ first ∈ tree.listed, ∀ second ∈ tree.listed,
      first.path = second.path → first = second) {path : String} :
    tree.nodes.get? path = some node ↔ node ∈ tree.listed ∧ node.path = path := by
  have member : ∀ node, (path, node) ∈
      (tree.listed.map (fun node => (node.path, node))).reverse ↔
        node ∈ tree.listed ∧ node.path = path := by
    intro node
    rw [List.mem_reverse, List.mem_map]
    constructor
    · rintro ⟨other, known, same⟩
      obtain ⟨rfl, rfl⟩ := Prod.mk.inj same
      exact ⟨known, rfl⟩
    · rintro ⟨known, rfl⟩
      exact ⟨node, known, rfl⟩
  rw [nodes, Table.get?_ofList, Table.lookup_eq_some_iff, member]
  intro first second one other
  obtain ⟨known, here⟩ := (member first).mp one
  obtain ⟨known', here'⟩ := (member second).mp other
  exact single first known second known' (here.trans here'.symm)

/-- The tree of a project's files in either order of listing. -/
def ofProject (digest : DigestFunction) (rules : IgnoreRules) (place : Path)
    (project : Option (FileTree Stored)) (listing : Listing) : DigestTree :=
  ⟨place, project.map (DigestNode.ofTree digest rules [] place.name), listing⟩

theorem ofFiles_eq (place : Path) (files : Option (FileTree Stored)) :
    ofFiles digest rules place files =
      ofProject digest rules place (trackedProject rules place files) .childrenFirst := by
  unfold ofFiles ofProject trackedProject
  cases files with
  | none => simp
  | some tree =>
    by_cases ignored : rules.ignores place.name = true
    · simp [ignored]
    · simp [ignored]

section ofProject

variable {place : Path} {project : Option (FileTree Stored)} {listing : Listing}

theorem mem_listed_ofProject :
    node ∈ (ofProject digest rules place project listing).listed ↔
      ∃ tree names last entry, project = some tree ∧
        Tracks rules place.name tree names last entry ∧
          node = DigestNode.ofTree digest rules names last entry := by
  rw [mem_listed_iff]
  cases project with
  | none => simp [ofProject]
  | some tree =>
    constructor
    · rintro ⟨root, same, member⟩
      obtain rfl := Option.some.inj same
      obtain ⟨names, last, entry, tracks, found⟩ :=
        DigestNode.exists_tracks_of_mem [] place.name tree member
      exact ⟨tree, names, last, entry, rfl, tracks, found⟩
    · rintro ⟨_, names, last, entry, same, tracks, rfl⟩
      obtain rfl := Option.some.inj same
      exact ⟨_, rfl, DigestNode.mem_preorder_of_tracks tracks []⟩

variable (wellFormed : ∀ tree ∈ project, tree.WellFormed)

include wellFormed

theorem single_ofProject :
    ∀ first ∈ (ofProject digest rules place project listing).listed,
      ∀ second ∈ (ofProject digest rules place project listing).listed,
        first.path = second.path → first = second := by
  intro first member second member' same
  obtain ⟨tree, names, last, entry, rfl, tracks, rfl⟩ := mem_listed_ofProject.mp member
  obtain ⟨_, names', last', entry', known, tracks', rfl⟩ := mem_listed_ofProject.mp member'
  obtain rfl := Option.some.inj known
  obtain ⟨found, -, valid⟩ := tracks.find?_eq (wellFormed _ rfl)
  obtain ⟨found', -, valid'⟩ := tracks'.find?_eq (wellFormed _ rfl)
  rw [DigestNode.path_ofTree, DigestNode.path_ofTree] at same
  obtain rfl := trackedPath_inj valid valid' same
  obtain rfl : entry = entry' := Option.some.inj (found.symm.trans found')
  rw [tracks.last_eq, tracks'.last_eq]

/-- The tracked files are listed under the texts of their paths, with the digests of their
contents. -/
theorem lookup_ofProject {path : String} {found : Option String} :
    (ofProject digest rules place project listing).fileDigests.lookup path = some found ↔
      ∃ names bytes, (∀ part ∈ names, ValidName part) ∧ path = trackedPath names ∧
        trackedContent rules project names = some bytes ∧ found = some (digest bytes) := by
  rw [lookup_fileDigests]
  simp only [Option.map_eq_some_iff, Option.filter_eq_some_iff,
    get?_nodes_iff (single_ofProject wellFormed)]
  constructor
  · rintro ⟨node, ⟨⟨member, rfl⟩, file⟩, rfl⟩
    obtain ⟨tree, names, last, entry, rfl, tracks, rfl⟩ := mem_listed_ofProject.mp member
    obtain ⟨leads, tracked, valid⟩ := tracks.find?_eq (wellFormed _ rfl)
    rw [DigestNode.isFile_ofTree] at file
    cases entry with
    | folder entries => cases file
    | file stored =>
      exact ⟨names, stored.bytes, valid, DigestNode.path_ofTree ..,
        trackedContent_eq_some.mpr ⟨tree, stored, rfl, leads, tracked, rfl⟩, rfl⟩
  · rintro ⟨names, bytes, valid, rfl, content, rfl⟩
    obtain ⟨tree, stored, rfl, found, tracked, rfl⟩ := trackedContent_eq_some.mp content
    have tracks := Tracks.of_find? place.name tree found tracked
    refine ⟨.ofTree digest rules names (names.getLastD place.name) (.file stored),
      ⟨⟨?_, ?_⟩, rfl⟩, rfl⟩
    · exact mem_listed_ofProject.mpr ⟨tree, names, _, _, rfl, tracks, rfl⟩
    · exact DigestNode.path_ofTree ..

theorem lookup_trackedPath (valid : ∀ part ∈ names, ValidName part) :
    (ofProject digest rules place project listing).fileDigests.lookup (trackedPath names) =
      (trackedContent rules project names).map (fun bytes => some (digest bytes)) := by
  apply Option.ext
  intro found
  rw [lookup_ofProject wellFormed, Option.map_eq_some_iff]
  constructor
  · rintro ⟨others, bytes, valid', same, content, rfl⟩
    obtain rfl := trackedPath_inj valid valid' same
    exact ⟨bytes, content, rfl⟩
  · rintro ⟨bytes, content, rfl⟩
    exact ⟨names, bytes, valid, rfl, content, rfl⟩

end ofProject

end DigestTree

theorem validNames_of_trackedContent {project : Option (FileTree Stored)}
    (wellFormed : ∀ tree ∈ project, tree.WellFormed) {bytes : ByteArray}
    (content : trackedContent rules project names = some bytes) :
    ∀ part ∈ names, ValidName part := by
  obtain ⟨tree, stored, rfl, found, tracked, rfl⟩ := trackedContent_eq_some.mp content
  exact ((Tracks.of_find? "" tree found tracked).find?_eq (wellFormed tree rfl)).2.2

theorem mem_files_ofProject {place : Path} {project : Option (FileTree Stored)}
    {listing : Listing} (wellFormed : ∀ tree ∈ project, tree.WellFormed) {path : String} :
    path ∈ (DigestTree.ofProject digest rules place project listing).files ↔
      ∃ names bytes, trackedContent rules project names = some bytes ∧
        path = trackedPath names := by
  have listed : (DigestTree.ofProject digest rules place project listing).files =
      (DigestTree.ofProject digest rules place project listing).fileDigests.map Prod.fst := by
    simp [DigestTree.files, DigestTree.fileDigests, Function.comp_def]
  rw [listed, ← Table.isSome_lookup_iff, Option.isSome_iff_exists]
  simp only [DigestTree.lookup_ofProject wellFormed]
  constructor
  · rintro ⟨_, names, bytes, -, same, content, -⟩
    exact ⟨names, bytes, content, same⟩
  · rintro ⟨names, bytes, content, same⟩
    exact ⟨_, names, bytes, validNames_of_trackedContent wellFormed content, same, content, rfl⟩

/-- Where digests tell contents apart, digests are the same exactly if contents are. -/
theorem map_digest_eq_iff {first second : Option ByteArray}
    (apart : ∀ bytes bytes', first = some bytes → second = some bytes' →
      digest bytes = digest bytes' → bytes = bytes') :
    first.map digest = second.map digest ↔ first = second := by
  cases first with
  | none => cases second <;> simp
  | some bytes =>
    cases second with
    | none => simp
    | some bytes' =>
      simp only [Option.map_some, Option.some.injEq]
      exact ⟨apart bytes bytes' rfl rfl, congrArg digest⟩

namespace Changes

section Compared

variable {rules' : IgnoreRules} {project project' : Option (FileTree Stored)}
  (place : Path) (listing listing' : Listing)
  (wellFormed : ∀ tree ∈ project, tree.WellFormed)
  (wellFormed' : ∀ tree ∈ project', tree.WellFormed)

include wellFormed wellFormed'

private theorem lookup_eq_iff (valid : ∀ part ∈ names, ValidName part) :
    (DigestTree.ofProject digest rules place project listing).fileDigests.lookup
        (trackedPath names) =
      (DigestTree.ofProject digest rules' place project' listing').fileDigests.lookup
        (trackedPath names) ↔
      (trackedContent rules project names).map digest =
        (trackedContent rules' project' names).map digest := by
  rw [DigestTree.lookup_trackedPath wellFormed valid,
    DigestTree.lookup_trackedPath wellFormed' valid]
  cases trackedContent rules project names <;>
    cases trackedContent rules' project' names <;> simp

theorem mem_toReindex_digests {path : String} :
    path ∈ (between (.ofProject digest rules place project listing)
        (.ofProject digest rules' place project' listing')).toReindex ↔
      ∃ names bytes, trackedContent rules' project' names = some bytes ∧
        (trackedContent rules project names).map digest ≠
          (trackedContent rules' project' names).map digest ∧
        path = trackedPath names := by
  rw [mem_toReindex, Option.isSome_iff_exists]
  constructor
  · rintro ⟨⟨found, looked⟩, different⟩
    obtain ⟨names, bytes, valid, rfl, content, -⟩ :=
      (DigestTree.lookup_ofProject wellFormed').mp looked
    refine ⟨names, bytes, content, ?_, rfl⟩
    rwa [ne_eq, ← lookup_eq_iff place listing listing' wellFormed wellFormed' valid]
  · rintro ⟨names, bytes, content, different, rfl⟩
    have valid := validNames_of_trackedContent wellFormed' content
    refine ⟨⟨_, (DigestTree.lookup_ofProject wellFormed').mpr
      ⟨names, bytes, valid, rfl, content, rfl⟩⟩, ?_⟩
    rwa [ne_eq, lookup_eq_iff place listing listing' wellFormed wellFormed' valid]

theorem mem_toRemove_digests {path : String} :
    path ∈ (between (.ofProject digest rules place project listing)
        (.ofProject digest rules' place project' listing')).toRemove ↔
      ∃ names, trackedContent rules project names ≠ none ∧
        (trackedContent rules project names).map digest ≠
          (trackedContent rules' project' names).map digest ∧
        path = trackedPath names := by
  have swapped : path ∈ (between (.ofProject digest rules place project listing)
        (.ofProject digest rules' place project' listing')).toRemove ↔
      path ∈ (between (.ofProject digest rules' place project' listing')
        (.ofProject digest rules place project listing)).toReindex := by
    rw [mem_toRemove, mem_toReindex, ne_comm]
  rw [swapped, mem_toReindex_digests place listing' listing wellFormed' wellFormed]
  constructor
  · rintro ⟨names, bytes, content, different, rfl⟩
    exact ⟨names, by simp [content], different.symm, rfl⟩
  · rintro ⟨names, tracked, different, rfl⟩
    obtain ⟨bytes, content⟩ := Option.ne_none_iff_exists'.mp tracked
    exact ⟨names, bytes, content, different.symm, rfl⟩

/-- The comparison finds no changes exactly if the same digests are tracked. -/
theorem hasChanges_digests :
    (between (.ofProject digest rules place project listing)
        (.ofProject digest rules' place project' listing')).hasChanges = false ↔
      ∀ names, (trackedContent rules project names).map digest =
        (trackedContent rules' project' names).map digest := by
  rw [hasChanges_eq_false]
  constructor
  · intro same names
    by_cases valid : ∀ part ∈ names, ValidName part
    · exact (lookup_eq_iff place listing listing' wellFormed wellFormed' valid).mp
        (same (trackedPath names))
    · have none : ∀ {rules : IgnoreRules} {project : Option (FileTree Stored)},
          (∀ tree ∈ project, tree.WellFormed) → trackedContent rules project names = none := by
        intro rules project wellFormed
        cases content : trackedContent rules project names with
        | none => rfl
        | some bytes => exact (valid (validNames_of_trackedContent wellFormed content)).elim
      rw [none wellFormed, none wellFormed']
  · intro same path
    have found : ∀ {rules rules' : IgnoreRules} {project project' : Option (FileTree Stored)}
        {listing listing' : Listing}, (∀ tree ∈ project, tree.WellFormed) →
        (∀ tree ∈ project', tree.WellFormed) →
        (∀ names, (trackedContent rules project names).map digest =
          (trackedContent rules' project' names).map digest) →
        ∀ value, (DigestTree.ofProject digest rules place project listing).fileDigests.lookup
            path = some value →
          (DigestTree.ofProject digest rules' place project' listing').fileDigests.lookup
            path = some value := by
      intro rules rules' project project' listing listing' wellFormed wellFormed' same value looked
      obtain ⟨names, bytes, valid, rfl, content, rfl⟩ :=
        (DigestTree.lookup_ofProject wellFormed).mp looked
      rw [← looked, eq_comm, lookup_eq_iff place listing listing' wellFormed wellFormed' valid]
      exact same names
    apply Option.ext
    intro value
    constructor
    · exact found wellFormed wellFormed' same value
    · exact found wellFormed' wellFormed (fun names => (same names).symm) value

variable (apart : ∀ names bytes bytes', trackedContent rules project names = some bytes →
  trackedContent rules' project' names = some bytes' → digest bytes = digest bytes' →
    bytes = bytes')

include apart

/-- The comparison finds no changes exactly if the same contents are tracked. -/
theorem hasChanges_ofProject :
    (between (.ofProject digest rules place project listing)
        (.ofProject digest rules' place project' listing')).hasChanges = false ↔
      ∀ names, trackedContent rules project names = trackedContent rules' project' names := by
  rw [hasChanges_digests place listing listing' wellFormed wellFormed']
  simp only [map_digest_eq_iff (apart _)]

end Compared

end Changes

end CodeAtlas
