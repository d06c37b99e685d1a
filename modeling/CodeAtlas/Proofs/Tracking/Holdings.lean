import CodeAtlas.Proofs.Tracking.Checks
import Mathlib.Data.List.Perm.Basic

/-!
# Digest trees and what is tracked

Names lead from a project to a tracked file, to a tracked folder or to nothing.  The digest
tree of a project is made of the bytes of the files and of which folders there are, so it does
not tell projects apart in which the same is tracked under the same names.  In which order a
disk lists the entries of a folder, and when a file was written, makes no difference.
-/

namespace CodeAtlas

variable {digest : DigestFunction} {rules : IgnoreRules}
variable {tree : FileTree Stored} {name : String}
  {entries : List (String × FileTree Stored)} {place : Path} {names : List String}

/-- Pairs with different texts have one order. -/
theorem Text.sortedByKey_eq_of_perm {α : Type} {pairs others : List (String × α)}
    (single : (pairs.map Prod.fst).Nodup) (same : pairs.Perm others) :
    sortedByKey pairs = sortedByKey others := by
  refine List.Perm.eq_of_pairwise (fun left right member member' below above => ?_)
    (pairwise_sortedByKey pairs) (pairwise_sortedByKey others)
    ((sortedByKey_perm pairs).trans (same.trans (sortedByKey_perm others).symm))
  have known := (sortedByKey_perm pairs).mem_iff.mp member
  have known' := same.mem_iff.mpr ((sortedByKey_perm others).mem_iff.mp member')
  exact List.inj_on_of_nodup_map single known known' (String.le_antisymm below above)

/-- What is tracked where the names lead to: the bytes of a file, or a folder. -/
def trackedEntry (rules : IgnoreRules) (project : Option (FileTree Stored))
    (names : List String) : Option (Option ByteArray) :=
  if names.any rules.ignores then none
  else (project.bind (fun tree => tree.find? names)).map
    (fun entry => entry.content?.map Stored.bytes)

theorem trackedContent_eq (project : Option (FileTree Stored)) (names : List String) :
    trackedContent rules project names = (trackedEntry rules project names).join := by
  unfold trackedContent trackedEntry
  split
  · rfl
  · cases project.bind (fun tree => tree.find? names) with
    | none => rfl
    | some entry => rfl

/-- Below a tracked name is tracked what is tracked in its entry. -/
theorem trackedEntry_cons {inner : FileTree Stored}
    (tracked : rules.ignores name = false) (found : tree.find? [name] = some inner)
    (names : List String) :
    trackedEntry rules (some tree) (name :: names) = trackedEntry rules (some inner) names := by
  have further : tree.find? (name :: names) = inner.find? names := by
    rw [← List.singleton_append, FileTree.find?_append, found]
    rfl
  simp [trackedEntry, tracked, further]

/-- A tracked name has an entry in both of two trees in which the same is tracked, and in these
the same is tracked, too. -/
theorem exists_entry_of_tracked {other inner : FileTree Stored}
    (same : trackedEntry rules (some tree) = trackedEntry rules (some other))
    (tracked : rules.ignores name = false) (found : tree.find? [name] = some inner) :
    ∃ inner', other.find? [name] = some inner' ∧
      trackedEntry rules (some inner) = trackedEntry rules (some inner') := by
  have here := congrFun same [name]
  cases found' : other.find? [name] with
  | none => simp [trackedEntry, tracked, found, found'] at here
  | some inner' =>
    refine ⟨inner', rfl, funext (fun names => ?_)⟩
    rw [← trackedEntry_cons tracked found, ← trackedEntry_cons tracked found', same]

namespace FileTree

theorem mem_entries_of_find? {α : Type} {tree inner : FileTree α}
    (found : tree.find? [name] = some inner) : (name, inner) ∈ tree.entries := by
  rw [find?_cons] at found
  obtain ⟨entry, looked, here⟩ := Option.bind_eq_some_iff.mp found
  obtain rfl : entry = inner := by simpa using here
  exact Table.mem_of_lookup looked

end FileTree

namespace DigestNode

theorem nodup_keys_ofEntries {below : List String} (single : (entries.map Prod.fst).Nodup) :
    ((ofEntries digest rules below entries).map Prod.fst).Nodup := by
  rw [ofEntries_eq, List.map_map]
  exact single.sublist (List.filter_sublist.map Prod.fst)

/-- Folders in which the same is tracked have the same nodes, if that is so of their entries. -/
private theorem ofEntries_perm {below : List String} {entries' : List (String × FileTree Stored)}
    (wellFormed : (FileTree.folder entries).WellFormed)
    (wellFormed' : (FileTree.folder entries').WellFormed)
    (same : trackedEntry rules (some (.folder entries)) =
      trackedEntry rules (some (.folder entries')))
    (each : ∀ entry ∈ entries, ∀ (below : List String) (name : String) {other : FileTree Stored},
      entry.2.WellFormed → other.WellFormed →
      trackedEntry rules (some entry.2) = trackedEntry rules (some other) →
      ofTree digest rules below name entry.2 = ofTree digest rules below name other) :
    (ofEntries digest rules below entries).Perm (ofEntries digest rules below entries') := by
  have single : (ofEntries digest rules below entries).Nodup :=
    (nodup_keys_ofEntries (wellFormed [] entries rfl).1).of_map Prod.fst
  have single' : (ofEntries digest rules below entries').Nodup :=
    (nodup_keys_ofEntries (wellFormed' [] entries' rfl).1).of_map Prod.fst
  refine (List.perm_ext_iff_of_nodup single single').mpr (fun ⟨inner, node⟩ => ?_)
  rw [mem_ofEntries, mem_ofEntries]
  refine and_congr_right (fun tracked => ⟨?_, ?_⟩)
  · rintro ⟨tree, member, rfl⟩
    have found := wellFormed.find?_of_mem member
    obtain ⟨tree', found', same'⟩ := exists_entry_of_tracked same tracked found
    exact ⟨tree', FileTree.mem_entries_of_find? found', each (inner, tree) member _ _
      (wellFormed.below found) (wellFormed'.below found') same'⟩
  · rintro ⟨tree', member', rfl⟩
    have found' := wellFormed'.find?_of_mem member'
    obtain ⟨tree, found, same'⟩ := exists_entry_of_tracked same.symm tracked found'
    have member := FileTree.mem_entries_of_find? found
    exact ⟨tree, member, (each (inner, tree) member _ _ (wellFormed.below found)
      (wellFormed'.below found') same'.symm).symm⟩

/-- Trees in which the same is tracked have the same node. -/
theorem ofTree_congr (below : List String) (name : String) {other : FileTree Stored}
    (wellFormed : tree.WellFormed) (wellFormed' : other.WellFormed)
    (same : trackedEntry rules (some tree) = trackedEntry rules (some other)) :
    ofTree digest rules below name tree = ofTree digest rules below name other := by
  induction tree using FileTree.of_entries generalizing other below name with
  | files stored =>
    have here := congrFun same []
    cases other with
    | folder entries => simp [trackedEntry, FileTree.content?] at here
    | file stored' =>
      have bytes : stored.bytes = stored'.bytes := by
        simpa [trackedEntry, FileTree.content?] using here
      rw [ofTree, ofTree, bytes]
  | folders entries ih =>
    have here := congrFun same []
    cases other with
    | file stored => simp [trackedEntry, FileTree.content?] at here
    | folder entries' =>
      rw [ofTree, ofTree, Text.sortedByKey_eq_of_perm
        (nodup_keys_ofEntries (wellFormed [] entries rfl).1)
        (ofEntries_perm wellFormed wellFormed' same ih)]

end DigestNode

/-- Projects in which the same is tracked have the same digest tree. -/
theorem DigestTree.ofFiles_congr {files files' : Option (FileTree Stored)}
    (wellFormed : ∀ tree ∈ files, tree.WellFormed) (wellFormed' : ∀ tree ∈ files', tree.WellFormed)
    (same : trackedEntry rules (trackedProject rules place files) =
      trackedEntry rules (trackedProject rules place files')) :
    ofFiles digest rules place files = ofFiles digest rules place files' := by
  have valid := @trackedProject_wellFormed rules place files wellFormed
  have valid' := @trackedProject_wellFormed rules place files' wellFormed'
  rw [ofFiles_eq, ofFiles_eq, ofProject, ofProject]
  cases project : trackedProject rules place files with
  | none =>
    cases project' : trackedProject rules place files' with
    | none => rfl
    | some tree =>
      have here := congrFun same []
      simp [project, project', trackedEntry] at here
  | some tree =>
    cases project' : trackedProject rules place files' with
    | none =>
      have here := congrFun same []
      simp [project, project', trackedEntry] at here
    | some tree' =>
      rw [project, project'] at same
      rw [Option.map_some, Option.map_some, DigestNode.ofTree_congr [] place.name
        (valid tree project) (valid' tree' project') same]

section Rules

variable {rules' : IgnoreRules}
  (alike : ∀ name, ValidName name → rules.ignores name = rules'.ignores name)

include alike

/-- Rules that leave out the same valid names make the same nodes. -/
theorem DigestNode.ofTree_of_rules (below : List String) (name : String)
    (wellFormed : tree.WellFormed) :
    ofTree digest rules below name tree = ofTree digest rules' below name tree := by
  induction tree using FileTree.of_entries generalizing below name with
  | files stored => rfl
  | folders entries ih =>
    have nodes : ofEntries digest rules below entries = ofEntries digest rules' below entries := by
      rw [ofEntries_eq, ofEntries_eq, List.filter_congr (fun entry here =>
        congrArg not (alike entry.1 ((wellFormed [] entries rfl).2 entry here)))]
      apply List.map_congr_left
      intro entry kept
      have here := (List.mem_filter.mp kept).1
      rw [ih entry here (below ++ [entry.1]) entry.1
        (wellFormed.below (wellFormed.find?_of_mem here))]
    rw [ofTree, ofTree, nodes]

theorem DigestTree.ofFiles_of_rules (named : ValidName place.name)
    {files : Option (FileTree Stored)} (wellFormed : ∀ tree ∈ files, tree.WellFormed) :
    ofFiles digest rules place files = ofFiles digest rules' place files := by
  cases files with
  | none => rfl
  | some tree =>
    simp only [ofFiles, alike place.name named,
      DigestNode.ofTree_of_rules alike [] place.name (wellFormed tree rfl)]

end Rules

/-- The names lead to a tracked folder. -/
def TracksFolder (rules : IgnoreRules) (name : String) (tree : FileTree Stored)
    (names : List String) : Prop :=
  ∃ last entries, Tracks rules name tree names last (.folder entries)

/-- The names lead to a tracked folder from one of the entries. -/
def EntriesTrackFolder (rules : IgnoreRules) (entries : List (String × FileTree Stored))
    (inner : String) (names : List String) : Prop :=
  ∃ tree, (inner, tree) ∈ entries ∧ rules.ignores inner = false ∧
    TracksFolder rules inner tree names

theorem tracksFolder_nil : TracksFolder rules name (.folder entries) [] :=
  ⟨name, entries, .here _ _⟩

theorem not_tracksFolder_file {stored : Stored} :
    ¬ TracksFolder rules name (.file stored) names := by
  rintro ⟨_, _, tracks⟩
  cases tracks

theorem tracksFolder_cons {inner : String} :
    TracksFolder rules name (.folder entries) (inner :: names) ↔
      EntriesTrackFolder rules entries inner names := by
  constructor
  · rintro ⟨last, folder, tracks⟩
    cases tracks with
    | inside member tracked further => exact ⟨_, member, tracked, last, folder, further⟩
  · rintro ⟨tree, member, tracked, last, folder, further⟩
    exact ⟨last, folder, .inside member tracked further⟩

theorem entriesTrackFolder_cons {inner : String} {rest : List (String × FileTree Stored)} :
    EntriesTrackFolder rules ((name, tree) :: rest) inner names ↔
      (inner = name ∧ rules.ignores name = false ∧ TracksFolder rules name tree names) ∨
        EntriesTrackFolder rules rest inner names := by
  simp only [EntriesTrackFolder, List.mem_cons, Prod.mk.injEq]
  constructor
  · rintro ⟨other, ⟨rfl, rfl⟩ | later, tracked, further⟩
    · exact .inl ⟨rfl, tracked, further⟩
    · exact .inr ⟨other, later, tracked, further⟩
  · rintro (⟨rfl, tracked, further⟩ | ⟨other, later, tracked, further⟩)
    · exact ⟨tree, .inl ⟨rfl, rfl⟩, tracked, further⟩
    · exact ⟨other, .inr later, tracked, further⟩

mutual

theorem Alike.tracksFolder_iff {name name' : String} {tree tree' : FileTree Stored}
    {names : List String} : Alike rules name tree name' tree' →
      (TracksFolder rules name tree names ↔ TracksFolder rules name' tree' names)
  | .file _ => iff_of_false not_tracksFolder_file not_tracksFolder_file
  | .folder same => by
    cases names with
    | nil => exact iff_of_true tracksFolder_nil tracksFolder_nil
    | cons inner names =>
      rw [tracksFolder_cons, tracksFolder_cons]
      exact same.entriesTrackFolder_iff

theorem AlikeEntries.entriesTrackFolder_iff {entries entries' : List (String × FileTree Stored)}
    {inner : String} {names : List String} : AlikeEntries rules entries entries' →
      (EntriesTrackFolder rules entries inner names ↔
        EntriesTrackFolder rules entries' inner names)
  | .nil ignored => by
    constructor
    · rintro ⟨_, member, _⟩
      cases member
    · rintro ⟨tree, member, tracked, _⟩
      simp [ignored _ member] at tracked
  | .ignored ignored same => by
    rw [entriesTrackFolder_cons, same.entriesTrackFolder_iff]
    simp [ignored]
  | @AlikeEntries.paired _ name name' tree tree' rest before after tracked tracked' alike same => by
    have moved : EntriesTrackFolder rules (before ++ (name', tree') :: after) inner names ↔
        EntriesTrackFolder rules ((name', tree') :: (before ++ after)) inner names :=
      exists_congr (fun _ => and_congr_left' List.perm_middle.mem_iff)
    have folders : TracksFolder rules name tree names ↔ TracksFolder rules name' tree' names :=
      alike.tracksFolder_iff
    rw [moved, entriesTrackFolder_cons, entriesTrackFolder_cons, same.entriesTrackFolder_iff]
    refine or_congr_left ?_
    cases alike with
    | file => simp [not_tracksFolder_file]
    | folder => rw [folders]

end

theorem trackedEntry_eq_folder (wellFormed : tree.WellFormed) (name : String) :
    trackedEntry rules (some tree) names = some none ↔ TracksFolder rules name tree names := by
  constructor
  · intro found
    unfold trackedEntry at found
    split at found
    · cases found
    · rename_i tracked
      obtain ⟨entry, leads, folder⟩ := Option.map_eq_some_iff.mp found
      have tracked' : ∀ part ∈ names, rules.ignores part = false := by simpa using tracked
      cases entry with
      | file stored => cases folder
      | folder entries => exact ⟨_, entries, .of_find? name tree leads tracked'⟩
  · rintro ⟨last, entries, tracks⟩
    obtain ⟨leads, tracked, -⟩ := tracks.find?_eq wellFormed
    have none : names.any rules.ignores = false := by simpa using tracked
    simp [trackedEntry, none, leads, FileTree.content?]

/-- What is tracked is told by the contents of the files and by which folders there are. -/
theorem trackedEntry_congr {project other : Option (FileTree Stored)}
    (contents : trackedContent rules project names = trackedContent rules other names)
    (folders : trackedEntry rules project names = some none ↔
      trackedEntry rules other names = some none) :
    trackedEntry rules project names = trackedEntry rules other names := by
  rw [trackedContent_eq, trackedContent_eq] at contents
  rcases entry : trackedEntry rules project names with _ | _ | bytes
  all_goals rcases entry' : trackedEntry rules other names with _ | _ | bytes'
  all_goals simp_all

/-- States of the same outline with the same files have the same folders. -/
theorem AlikeProjects.trackedEntry_eq {old new : Option (FileTree Stored)}
    (alike : AlikeProjects rules place old new) (wellFormed : ∀ tree ∈ old, tree.WellFormed)
    (wellFormed' : ∀ tree ∈ new, tree.WellFormed)
    (contents : ∀ names, trackedContent rules old names = trackedContent rules new names) :
    trackedEntry rules old = trackedEntry rules new := by
  funext names
  refine trackedEntry_congr (contents names) ?_
  cases old with
  | none =>
    cases new with
    | none => exact Iff.rfl
    | some tree' => exact alike.elim
  | some tree =>
    cases new with
    | none => exact alike.elim
    | some tree' =>
      rw [trackedEntry_eq_folder (wellFormed tree rfl) place.name,
        trackedEntry_eq_folder (wellFormed' tree' rfl) place.name]
      exact Alike.tracksFolder_iff alike

end CodeAtlas
