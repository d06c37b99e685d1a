import CodeAtlas.Proofs.Tracking.Comparison

/-!
# Changes as a patch

The changes between two digest trees are an exact account of their files.  Every file of either tree
is in one of the four lists.  Taking the files to remove out of the old files, and putting those to
index anew in with their new digests, makes the new files.  From the new tree to the old one the
changes are the same, with added and removed files exchanged.
-/

namespace CodeAtlas

namespace Text

theorem pairwise_lt_sorted {texts : List String} (single : texts.Nodup) :
    (sorted texts).Pairwise (· < ·) := by
  have different := (sorted_perm texts).nodup_iff.mpr single
  refine (List.Pairwise.and (pairwise_sorted texts) different).imp (fun both => ?_)
  exact Std.lt_of_le_of_ne both.1 both.2

end Text

namespace Table

variable {α : Type u}

/-- The table without the keys; none if one of them is missing when its turn comes. -/
def without? (table : Table String α) (keys : List String) : Option (Table String α) :=
  keys.foldlM (fun table key => if table.contains key then some (table.erase key) else none) table

/-- The table with the values that another one has for the keys; none if it has none for one of
them. -/
def updated? (table source : Table String α) (keys : List String) : Option (Table String α) :=
  keys.foldlM (fun table key => (source.get? key).map (table.insert key)) table

theorem exists_without? {table : Table String α} {keys : List String} (single : keys.Nodup)
    (known : ∀ key ∈ keys, (table.get? key).isSome) : ∃ rest, table.without? keys = some rest ∧
      ∀ key, rest.get? key = if key ∈ keys then none else table.get? key := by
  induction keys generalizing table with
  | nil => exact ⟨table, rfl, by simp⟩
  | cons first keys ih =>
    obtain ⟨missing, single⟩ := List.nodup_cons.mp single
    obtain ⟨here, later⟩ := List.forall_mem_cons.mp known
    have still : ∀ key ∈ keys, ((table.erase first).get? key).isSome := by
      intro key member
      have other : key ≠ first := fun same => missing (same ▸ member)
      simpa [other] using later key member
    obtain ⟨rest, erased, found⟩ := ih single still
    refine ⟨rest, ?_, fun key => ?_⟩
    · rw [without?, List.foldlM_cons, if_pos (show table.contains first = true from here)]
      exact erased
    · rw [found key, get?_erase]
      by_cases same : key = first <;> simp [same]

theorem exists_updated? (table : Table String α) {source : Table String α} {keys : List String}
    (known : ∀ key ∈ keys, (source.get? key).isSome) :
    ∃ done, table.updated? source keys = some done ∧
      ∀ key, done.get? key = if key ∈ keys then source.get? key else table.get? key := by
  induction keys generalizing table with
  | nil => exact ⟨table, rfl, by simp⟩
  | cons first keys ih =>
    obtain ⟨here, later⟩ := List.forall_mem_cons.mp known
    obtain ⟨value, given⟩ := Option.isSome_iff_exists.mp here
    obtain ⟨done, updated, found⟩ := ih (table.insert first value) later
    refine ⟨done, ?_, fun key => ?_⟩
    · rw [updated?, List.foldlM_cons, given]
      exact updated
    · rw [found key, get?_insert]
      by_cases same : key = first
      · subst same
        simp [given]
      · simp [same]

end Table

def DigestTree.digestTable (tree : DigestTree) : Table String (Option String) :=
  ⟨tree.fileDigests⟩

namespace Changes

/-- Take out the files to remove, and put in those to index anew with their new digests. -/
def patch (changes : Changes) (old new : Table String (Option String)) :
    Option (Table String (Option String)) := do
  (← old.without? changes.toRemove).updated? new changes.toReindex

variable {old new : DigestTree} {path : String}

theorem mem_unchanged : path ∈ (between old new).unchanged ↔
    (old.fileDigests.lookup path).isSome ∧
      old.fileDigests.lookup path = new.fileDigests.lookup path := by
  simp only [between, List.mem_filter, Text.mem_sorted, ← Table.isSome_lookup_iff,
    decide_eq_true_eq]
  constructor
  · rintro ⟨⟨known, -⟩, same⟩
    exact ⟨known, same⟩
  · rintro ⟨known, same⟩
    exact ⟨⟨known, by simpa [← same] using known⟩, same⟩

private theorem nodup_paths (tree : DigestTree) : (tree.fileDigests.map Prod.fst).Nodup := by
  have listed : tree.fileDigests.map Prod.fst = tree.files := by
    simp [DigestTree.fileDigests, DigestTree.files, Function.comp_def]
  exact listed ▸ tree.nodup_files

theorem pairwise_lt_between (old new : DigestTree) :
    (between old new).added.Pairwise (· < ·) ∧ (between old new).removed.Pairwise (· < ·) ∧
      (between old new).modified.Pairwise (· < ·) ∧
      (between old new).unchanged.Pairwise (· < ·) := by
  have common := Text.pairwise_lt_sorted ((nodup_paths old).filter
    (fun path => !(new.fileDigests.lookup path).isNone))
  exact ⟨Text.pairwise_lt_sorted ((nodup_paths new).filter _),
    Text.pairwise_lt_sorted ((nodup_paths old).filter _), common.filter _, common.filter _⟩

theorem disjoint_between (old new : DigestTree) :
    [(between old new).added, (between old new).removed, (between old new).modified,
      (between old new).unchanged].Pairwise List.Disjoint := by
  simp only [List.pairwise_cons, List.forall_mem_cons, List.not_mem_nil, false_implies,
    implies_true, List.Pairwise.nil, and_true, List.Disjoint, mem_added, mem_removed,
    mem_modified, mem_unchanged]
  grind

theorem between_swap (old new : DigestTree) : between new old =
    ⟨(between old new).removed, (between old new).added, (between old new).modified,
      (between old new).unchanged⟩ := by
  have common : Text.sorted ((new.fileDigests.map Prod.fst).filter
      (fun path => !(old.fileDigests.lookup path).isNone)) =
      Text.sorted ((old.fileDigests.map Prod.fst).filter
        (fun path => !(new.fileDigests.lookup path).isNone)) := by
    refine Text.sorted_eq_of_perm ((List.perm_ext_iff_of_nodup ((nodup_paths new).filter _)
      ((nodup_paths old).filter _)).mpr (fun path => ?_))
    simp only [List.mem_filter, ← Table.isSome_lookup_iff, Option.not_isNone]
    exact and_comm
  have same (path : String) : decide (new.fileDigests.lookup path = old.fileDigests.lookup path) =
      decide (old.fileDigests.lookup path = new.fileDigests.lookup path) :=
    decide_eq_decide.mpr eq_comm
  simp only [between, common, same]

theorem nodup_toRemove (old new : DigestTree) : (between old new).toRemove.Nodup := by
  obtain ⟨-, removed, modified, -⟩ := pairwise_lt_between old new
  rw [toRemove, (Text.sorted_perm _).nodup_iff]
  refine List.Nodup.append (removed.imp Std.ne_of_lt) (modified.imp Std.ne_of_lt) ?_
  exact (List.pairwise_cons.mp (List.pairwise_cons.mp (disjoint_between old new)).2).1 _
    List.mem_cons_self

theorem exists_patch (old new : DigestTree) : ∃ patched,
    (between old new).patch old.digestTable new.digestTable = some patched ∧
      ∀ path, patched.get? path = new.digestTable.get? path := by
  obtain ⟨rest, erased, left⟩ := @Table.exists_without? _ old.digestTable _
    (nodup_toRemove old new) (fun path member => (mem_toRemove.mp member).1)
  obtain ⟨patched, updated, found⟩ := @Table.exists_updated? _ rest new.digestTable
    (between old new).toReindex (fun path member => (mem_toReindex.mp member).1)
  refine ⟨patched, by rw [patch, erased]; exact updated, fun path => ?_⟩
  rw [found path, left path]
  simp only [mem_toReindex, mem_toRemove, DigestTree.digestTable, Table.get?]
  generalize old.fileDigests.lookup path = before
  generalize new.fileDigests.lookup path = after
  cases before <;> cases after <;> simp +contextual

end Changes

/-- The changes between two trees are in rising lists that share no file, tell which files of both
have another digest and which the same, and turn the files of the old tree into those of the new
one.  There are none exactly if the files are the same, and from the new tree to the old one added
and removed files change places. -/
theorem changes_are_exact_patch (old new : DigestTree) :
    let changes := Changes.between old new
    (changes.added.Pairwise (· < ·) ∧ changes.removed.Pairwise (· < ·) ∧
      changes.modified.Pairwise (· < ·) ∧ changes.unchanged.Pairwise (· < ·)) ∧
    [changes.added, changes.removed, changes.modified, changes.unchanged].Pairwise List.Disjoint ∧
    (∀ path, path ∈ changes.modified ↔ ∃ before after, old.digestTable.get? path = some before ∧
      new.digestTable.get? path = some after ∧ before ≠ after) ∧
    (∀ path, path ∈ changes.unchanged ↔ ∃ same, old.digestTable.get? path = some same ∧
      new.digestTable.get? path = some same) ∧
    (∃ patched, changes.patch old.digestTable new.digestTable = some patched ∧
      ∀ path, patched.get? path = new.digestTable.get? path) ∧
    (changes.hasChanges = false ↔
      ∀ path, old.digestTable.get? path = new.digestTable.get? path) ∧
    Changes.between new old =
      ⟨changes.removed, changes.added, changes.modified, changes.unchanged⟩ := by
  refine ⟨Changes.pairwise_lt_between old new, Changes.disjoint_between old new, fun path => ?_,
    fun path => ?_, Changes.exists_patch old new, Changes.hasChanges_eq_false,
    Changes.between_swap old new⟩
  · rw [Changes.mem_modified]
    simp only [DigestTree.digestTable, Table.get?]
    cases old.fileDigests.lookup path <;> cases new.fileDigests.lookup path <;> simp
  · rw [Changes.mem_unchanged]
    simp only [DigestTree.digestTable, Table.get?]
    cases old.fileDigests.lookup path <;> cases new.fileDigests.lookup path <;> simp [eq_comm]

end CodeAtlas
