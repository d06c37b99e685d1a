import CodeAtlas.Proofs.Files.Tree
import CodeAtlas.Proofs.Texts
import CodeAtlas.Tracking.Build

/-!
# What a digest tells about a tree

The digest of a folder is made from its name and from the sorted digests of what is
tracked in it.  So it tells the names of folders and the contents of files, but not the
names of files.  Two trees are alike if their folders are the same, and in each of them
the contents of the files, in any order and under any names.
-/

namespace CodeAtlas

variable {digest : DigestFunction} {rules : IgnoreRules}
variable {entries : List (String × FileTree Stored)} {name : String} {bytes : ByteArray}

mutual

/-- The bytes whose digest is the digest of an entry. -/
def digestedBytes (digest : DigestFunction) (rules : IgnoreRules) (name : String) :
    FileTree Stored → ByteArray
  | .file stored => stored.bytes
  | .folder entries =>
    (name ++ String.join (Text.sorted (entryDigests digest rules entries))).toUTF8

def entryDigests (digest : DigestFunction) (rules : IgnoreRules) :
    List (String × FileTree Stored) → List String
  | [] => []
  | (name, tree) :: rest =>
    if rules.ignores name then entryDigests digest rules rest
    else digest (digestedBytes digest rules name tree) :: entryDigests digest rules rest

end

theorem entryDigests_eq (entries : List (String × FileTree Stored)) :
    entryDigests digest rules entries =
      (entries.filter (fun entry => !rules.ignores entry.1)).map
        (fun entry => digest (digestedBytes digest rules entry.1 entry.2)) := by
  induction entries with
  | nil => rw [entryDigests]; rfl
  | cons entry rest ih =>
    obtain ⟨name, tree⟩ := entry
    rw [entryDigests, ih]
    cases ignored : rules.ignores name <;> simp [ignored]

theorem DigestNode.ofEntries_eq (below : List String) (entries : List (String × FileTree Stored)) :
    ofEntries digest rules below entries =
      (entries.filter (fun entry => !rules.ignores entry.1)).map
        (fun entry => (entry.1, ofTree digest rules (below ++ [entry.1]) entry.1 entry.2)) := by
  induction entries with
  | nil => rw [ofEntries]; rfl
  | cons entry rest ih =>
    obtain ⟨name, tree⟩ := entry
    rw [ofEntries, ih]
    cases ignored : rules.ignores name <;> simp [ignored]

theorem digest_ofTree (below : List String) (name : String) (tree : FileTree Stored) :
    (DigestNode.ofTree digest rules below name tree).digest =
      some (digest (digestedBytes digest rules name tree)) := by
  induction tree using FileTree.of_entries generalizing below name with
  | files stored => rfl
  | folders entries ih =>
    have same : (DigestNode.ofEntries digest rules below entries).map
        (fun entry => entry.2.digest.getD "") = entryDigests digest rules entries := by
      rw [DigestNode.ofEntries_eq, entryDigests_eq, List.map_map]
      apply List.map_congr_left
      intro entry kept
      rw [Function.comp_apply, ih entry (List.mem_filter.mp kept).1]
      rfl
    have order := (Text.sortedByKey_perm (DigestNode.ofEntries digest rules below entries)).map
      (fun entry => entry.2.digest.getD "")
    rw [same] at order
    rw [DigestNode.ofTree, DigestNode.ofFolder, DigestNode.digest, folderDigest,
      List.map_map, digestedBytes]
    exact congrArg (fun texts => some (digest (name ++ String.join texts).toUTF8))
      (Text.sorted_eq_of_perm order)

theorem entryDigests_append (entries others : List (String × FileTree Stored)) :
    entryDigests digest rules (entries ++ others) =
      entryDigests digest rules entries ++ entryDigests digest rules others := by
  simp [entryDigests_eq]

theorem entryDigests_eq_nil :
    entryDigests digest rules entries = [] ↔
      ∀ entry ∈ entries, rules.ignores entry.1 = true := by
  simp [entryDigests_eq]

/-- A digest of a tracked entry is that of one of the entries. -/
theorem exists_of_mem_entryDigests {text : String}
    (member : text ∈ entryDigests digest rules entries) :
    ∃ before name tree after, entries = before ++ (name, tree) :: after ∧
      rules.ignores name = false ∧
        text = digest (digestedBytes digest rules name tree) := by
  rw [entryDigests_eq] at member
  obtain ⟨⟨name, tree⟩, kept, rfl⟩ := List.mem_map.mp member
  obtain ⟨known, tracked⟩ := List.mem_filter.mp kept
  obtain ⟨before, after, split⟩ := List.append_of_mem known
  exact ⟨before, name, tree, after, split, by simpa using tracked, rfl⟩

mutual

/-- Two entries have the same outline: folders have the same name and alike entries,
files have the same content. -/
inductive Alike (rules : IgnoreRules) :
    String → FileTree Stored → String → FileTree Stored → Prop where
  | file {name name' : String} {stored stored' : Stored}
      (same : stored.bytes = stored'.bytes) :
      Alike rules name (.file stored) name' (.file stored')
  | folder {name : String} {entries entries' : List (String × FileTree Stored)}
      (same : AlikeEntries rules entries entries') :
      Alike rules name (.folder entries) name (.folder entries')

/-- The tracked entries can be paired so that each pair has the same outline. -/
inductive AlikeEntries (rules : IgnoreRules) :
    List (String × FileTree Stored) → List (String × FileTree Stored) → Prop where
  | nil {entries : List (String × FileTree Stored)}
      (ignored : ∀ entry ∈ entries, rules.ignores entry.1 = true) :
      AlikeEntries rules [] entries
  | ignored {name : String} {tree : FileTree Stored}
      {rest entries : List (String × FileTree Stored)}
      (ignored : rules.ignores name = true) (same : AlikeEntries rules rest entries) :
      AlikeEntries rules ((name, tree) :: rest) entries
  | paired {name name' : String} {tree tree' : FileTree Stored}
      {rest before after : List (String × FileTree Stored)}
      (tracked : rules.ignores name = false) (tracked' : rules.ignores name' = false)
      (alike : Alike rules name tree name' tree')
      (same : AlikeEntries rules rest (before ++ after)) :
      AlikeEntries rules ((name, tree) :: rest) (before ++ (name', tree') :: after)

end

mutual

/-- Alike entries have the same digested bytes, for every digest function. -/
theorem Alike.digestedBytes_eq {name name' : String} {tree tree' : FileTree Stored} :
    Alike rules name tree name' tree' →
      digestedBytes digest rules name tree = digestedBytes digest rules name' tree'
  | .file same => same
  | .folder same => by
    rw [digestedBytes, digestedBytes, Text.sorted_eq_of_perm same.perm]

theorem AlikeEntries.perm {entries entries' : List (String × FileTree Stored)} :
    AlikeEntries rules entries entries' →
      (entryDigests digest rules entries).Perm (entryDigests digest rules entries')
  | .nil ignored => by
    rw [entryDigests_eq_nil.mpr ignored]
    exact .nil
  | .ignored ignored same => by
    rw [entryDigests, if_pos ignored]
    exact same.perm
  | .paired tracked tracked' alike same => by
    have later := same.perm
    rw [entryDigests_append] at later ⊢
    simp only [entryDigests, tracked, tracked', alike.digestedBytes_eq, Bool.false_eq_true,
      if_false]
    exact List.perm_cons_append_cons _ later

end

/-- Names lead from a tree to an entry through folders in which they are tracked.  The
entry goes by the last of the names, or by that of the tree. -/
inductive Tracks (rules : IgnoreRules) :
    String → FileTree Stored → List String → String → FileTree Stored → Prop where
  | here (name : String) (tree : FileTree Stored) : Tracks rules name tree [] name tree
  | inside {name inner last : String} {entries : List (String × FileTree Stored)}
      {tree entry : FileTree Stored} {names : List String}
      (member : (inner, tree) ∈ entries) (tracked : rules.ignores inner = false)
      (further : Tracks rules inner tree names last entry) :
      Tracks rules name (.folder entries) (inner :: names) last entry

/-- A tracked file of the tree has this content. -/
def HoldsContent (rules : IgnoreRules) (name : String) (tree : FileTree Stored)
    (bytes : ByteArray) : Prop :=
  ∃ names last stored, Tracks rules name tree names last (.file stored) ∧
    stored.bytes = bytes

theorem holdsContent_file {stored : Stored} :
    HoldsContent rules name (.file stored) bytes ↔ stored.bytes = bytes := by
  constructor
  · rintro ⟨names, last, other, tracks, same⟩
    cases tracks
    exact same
  · intro same
    exact ⟨[], name, stored, .here _ _, same⟩

/-- A tracked file of the entries has this content. -/
def EntriesHold (rules : IgnoreRules) (entries : List (String × FileTree Stored))
    (bytes : ByteArray) : Prop :=
  ∃ entry ∈ entries, rules.ignores entry.1 = false ∧
    HoldsContent rules entry.1 entry.2 bytes

theorem entriesHold_cons {entry : String × FileTree Stored}
    {rest : List (String × FileTree Stored)} :
    EntriesHold rules (entry :: rest) bytes ↔
      (rules.ignores entry.1 = false ∧ HoldsContent rules entry.1 entry.2 bytes) ∨
        EntriesHold rules rest bytes := by
  simp [EntriesHold]

theorem holdsContent_folder :
    HoldsContent rules name (.folder entries) bytes ↔ EntriesHold rules entries bytes := by
  constructor
  · rintro ⟨names, last, stored, tracks, same⟩
    cases tracks with
    | inside member tracked further =>
      exact ⟨_, member, tracked, _, last, stored, further, same⟩
  · rintro ⟨⟨inner, tree⟩, member, tracked, names, last, stored, further, same⟩
    exact ⟨inner :: names, last, stored, .inside member tracked further, same⟩

mutual

theorem Alike.holdsContent_iff {name name' : String} {tree tree' : FileTree Stored}
    {bytes : ByteArray} : Alike rules name tree name' tree' →
      (HoldsContent rules name tree bytes ↔ HoldsContent rules name' tree' bytes)
  | .file same => by
    rw [holdsContent_file, holdsContent_file, same]
  | .folder same => by
    rw [holdsContent_folder, holdsContent_folder]
    exact same.entriesHold_iff

theorem AlikeEntries.entriesHold_iff {entries entries' : List (String × FileTree Stored)}
    {bytes : ByteArray} : AlikeEntries rules entries entries' →
      (EntriesHold rules entries bytes ↔ EntriesHold rules entries' bytes)
  | .nil ignored => by
    constructor
    · rintro ⟨_, member, _⟩
      cases member
    · rintro ⟨entry, member, tracked, _⟩
      simp [ignored entry member] at tracked
  | .ignored ignored same => by
    rw [entriesHold_cons, same.entriesHold_iff]
    simp [ignored]
  | .paired tracked tracked' alike same => by
    have moved : ∀ {before after : List (String × FileTree Stored)} {entry},
        EntriesHold rules (before ++ entry :: after) bytes ↔
          EntriesHold rules (entry :: (before ++ after)) bytes := by
      intro before after entry
      exact exists_congr (fun _ => and_congr_left' List.perm_middle.mem_iff)
    rw [moved, entriesHold_cons, entriesHold_cons, same.entriesHold_iff]
    simp [tracked, tracked', alike.holdsContent_iff]

end

/-- Both are files, or folders of the same name. -/
def SameKind : String → FileTree Stored → String → FileTree Stored → Prop
  | _, .file _, _, .file _ => True
  | name, .folder _, name', .folder _ => name = name'
  | _, _, _, _ => False

/-- Equal digests of tracked entries come from equal bytes, and those from entries of the
same kind. -/
def Separated (digest : DigestFunction) (rules : IgnoreRules) (name : String)
    (tree : FileTree Stored) (name' : String) (tree' : FileTree Stored) : Prop :=
  ∀ names last entry names' last' entry', Tracks rules name tree names last entry →
    Tracks rules name' tree' names' last' entry' →
    digest (digestedBytes digest rules last entry) =
      digest (digestedBytes digest rules last' entry') →
    digestedBytes digest rules last entry = digestedBytes digest rules last' entry' ∧
      SameKind last entry last' entry'

theorem Separated.below {name' inner inner' : String}
    {entries' : List (String × FileTree Stored)} {tree tree' : FileTree Stored}
    (separated : Separated digest rules name (.folder entries) name' (.folder entries'))
    (member : (inner, tree) ∈ entries) (tracked : rules.ignores inner = false)
    (member' : (inner', tree') ∈ entries') (tracked' : rules.ignores inner' = false) :
    Separated digest rules inner tree inner' tree' :=
  fun _ _ _ _ _ _ first second =>
    separated _ _ _ _ _ _ (.inside member tracked first) (.inside member' tracked' second)

theorem entryDigests_length {width : Nat} (fixed : ∀ bytes, (digest bytes).length = width)
    (entries : List (String × FileTree Stored)) :
    ∀ text ∈ entryDigests digest rules entries, text.length = width := by
  intro text member
  obtain ⟨_, name, tree, _, -, -, rfl⟩ := exists_of_mem_entryDigests member
  exact fixed _

/-- Folders of one name have the same bytes exactly if their entries have the same
digests. -/
theorem entryDigests_perm_of_bytes {width : Nat} (positive : 0 < width)
    (fixed : ∀ bytes, (digest bytes).length = width) {entries' : List (String × FileTree Stored)}
    (same : digestedBytes digest rules name (.folder entries) =
      digestedBytes digest rules name (.folder entries')) :
    (entryDigests digest rules entries).Perm (entryDigests digest rules entries') := by
  rw [digestedBytes, digestedBytes] at same
  have texts := String.toByteArray_inj.mp same
  have joins := (String.append_right_inj name).mp texts
  refine Text.perm_of_sorted_eq (Text.join_inj positive ?_ ?_ joins)
  · simpa using entryDigests_length fixed entries
  · simpa using entryDigests_length fixed entries'

mutual

/-- Where digests tell bytes and kinds apart, equal digests mean alike entries. -/
theorem alike_of_digest_eq {width : Nat} (positive : 0 < width)
    (fixed : ∀ bytes, (digest bytes).length = width) {name name' : String} :
    ∀ (tree tree' : FileTree Stored), Separated digest rules name tree name' tree' →
      digest (digestedBytes digest rules name tree) =
        digest (digestedBytes digest rules name' tree') →
      Alike rules name tree name' tree'
  | .file stored, .file stored', separated, same =>
    .file (separated _ _ _ _ _ _ (.here _ _) (.here _ _) same).1
  | .file _, .folder _, separated, same =>
    (separated _ _ _ _ _ _ (.here _ _) (.here _ _) same).2.elim
  | .folder _, .file _, separated, same =>
    (separated _ _ _ _ _ _ (.here _ _) (.here _ _) same).2.elim
  | .folder entries, .folder entries', separated, same => by
    obtain ⟨bytes, rfl⟩ := separated _ _ _ _ _ _ (.here _ _) (.here _ _) same
    exact .folder (alikeEntries_of_perm positive fixed entries entries'
      (fun _ _ _ _ member tracked member' tracked' =>
        separated.below member tracked member' tracked')
      (entryDigests_perm_of_bytes positive fixed bytes))

theorem alikeEntries_of_perm {width : Nat} (positive : 0 < width)
    (fixed : ∀ bytes, (digest bytes).length = width) :
    ∀ (entries entries' : List (String × FileTree Stored)),
      (∀ name tree name' tree', (name, tree) ∈ entries → rules.ignores name = false →
        (name', tree') ∈ entries' → rules.ignores name' = false →
          Separated digest rules name tree name' tree') →
      (entryDigests digest rules entries).Perm (entryDigests digest rules entries') →
      AlikeEntries rules entries entries'
  | [], entries', _, same => .nil (entryDigests_eq_nil.mp (List.nil_perm.mp same))
  | (name, tree) :: rest, entries', separated, same => by
    by_cases ignored : rules.ignores name = true
    · rw [entryDigests, if_pos ignored] at same
      exact .ignored ignored (alikeEntries_of_perm positive fixed rest entries'
        (fun _ _ _ _ member => separated _ _ _ _ (List.mem_cons_of_mem _ member)) same)
    · have tracked : rules.ignores name = false := by simpa using ignored
      rw [entryDigests, if_neg ignored] at same
      obtain ⟨before, name', tree', after, rfl, tracked', equal⟩ :=
        exists_of_mem_entryDigests (same.subset (List.mem_cons_self ..))
      have apart := separated name tree name' tree' (List.mem_cons_self ..) tracked
        (by simp) tracked'
      refine .paired tracked tracked'
        (alike_of_digest_eq positive fixed tree tree' apart equal)
        (alikeEntries_of_perm positive fixed rest (before ++ after) ?_ ?_)
      · intro _ _ _ _ member tracked member'
        refine separated _ _ _ _ (List.mem_cons_of_mem _ member) tracked ?_
        rcases List.mem_append.mp member' with first | second
        · exact List.mem_append_left _ first
        · exact List.mem_append_right _ (List.mem_cons_of_mem _ second)
      · rw [entryDigests_append, entryDigests, tracked', equal] at same
        have moved := same.trans List.perm_middle
        rw [entryDigests_append]
        exact moved.cons_inv

end

end CodeAtlas
