import CodeAtlas.Files.Tree
import CodeAtlas.Proofs.Tables

/-!
# Entries of a changed file tree

Where an entry was put into a tree or taken out of it, every other place of the tree
holds what it held before, except for the folders on the way.  A file that is written
or deleted leaves every folder a folder.
-/

namespace CodeAtlas

namespace FileTree

variable {α : Type}
variable {other : List String}

@[simp]
theorem find?_nil (tree : FileTree α) : tree.find? [] = some tree := rfl

theorem find?_cons (tree : FileTree α) (name : String) (names : List String) :
    tree.find? (name :: names) =
      (tree.entries.lookup name).bind (fun entry => entry.find? names) := by
  cases found : tree.entries.lookup name <;> simp [find?, found]

theorem find?_append (tree : FileTree α) (names more : List String) :
    tree.find? (names ++ more) =
      (tree.find? names).bind (fun entry => entry.find? more) := by
  induction names generalizing tree with
  | nil => rfl
  | cons name names ih =>
    rw [List.cons_append, find?_cons, find?_cons]
    cases tree.entries.lookup name with
    | none => rfl
    | some entry => exact ih entry

@[simp]
theorem find?_file_cons (content : α) (name : String) (names : List String) :
    (FileTree.file content).find? (name :: names) = none := rfl

private theorem lookup_insert (tree entry : FileTree α) (name other : String)
    (names : List String) :
    (tree.insert (name :: names) entry).entries.lookup other =
      if other == name then
        some (((tree.entries.lookup name).getD (.folder [])).insert names entry)
      else tree.entries.lookup other :=
  Table.lookup_insertEntries name other _ tree.entries

theorem find?_insert_append (tree entry : FileTree α) (names more : List String) :
    (tree.insert names entry).find? (names ++ more) = entry.find? more := by
  induction names generalizing tree with
  | nil => rfl
  | cons name names ih =>
    rw [List.cons_append, find?_cons, lookup_insert]
    simp [ih]

theorem find?_insert_self (tree entry : FileTree α) (names : List String) :
    (tree.insert names entry).find? names = some entry := by
  simpa using find?_insert_append tree entry names []

/-- A folder on the way holds what it held, with the entry put in below. -/
theorem find?_insert_above (tree entry : FileTree α) (names more : List String) :
    (tree.insert (names ++ more) entry).find? names =
      some (((tree.find? names).getD (.folder [])).insert more entry) := by
  induction names generalizing tree with
  | nil => rfl
  | cons name names ih =>
    rw [List.cons_append, find?_cons, lookup_insert, find?_cons]
    cases tree.entries.lookup name with
    | none =>
      have missing : (FileTree.folder ([] : List (String × FileTree α))).find?
          names = none ∨ names = [] := by
        cases names with
        | nil => exact .inr rfl
        | cons next rest => exact .inl rfl
      rcases missing with missing | rfl
      · simp [ih, missing]
      · simp
    | some below => simp [ih]

theorem find?_insert_apart (tree entry : FileTree α)
    (names other : List String) (notAbove : ¬ other <+: names) (notBelow : ¬ names <+: other) :
    (tree.insert names entry).find? other = tree.find? other := by
  induction names generalizing tree other with
  | nil => exact (notBelow List.nil_prefix).elim
  | cons name names ih =>
    cases other with
    | nil => exact (notAbove List.nil_prefix).elim
    | cons first rest =>
      rw [find?_cons, find?_cons, lookup_insert]
      by_cases same : first = name
      · subst first
        rw [List.prefix_cons_inj] at notAbove notBelow
        have restNonempty : rest ≠ [] := by
          rintro rfl
          exact notAbove List.nil_prefix
        obtain ⟨next, more, rfl⟩ := List.exists_cons_of_ne_nil restNonempty
        cases tree.entries.lookup name with
        | none =>
          have unchanged := ih (.folder []) _ notAbove notBelow
          simpa [find?, entries] using unchanged
        | some below => simp [ih _ _ notAbove notBelow]
      · simp [same]

private theorem erase_cons_cons (tree : FileTree α) (name next : String) (names : List String) :
    tree.erase (name :: next :: names) =
      match tree.entries.lookup name with
      | some below =>
        .folder (Table.insertEntries name (below.erase (next :: names)) tree.entries)
      | none => tree := rfl

private theorem lookup_erase_single (tree : FileTree α) (name other : String) :
    (tree.erase [name]).entries.lookup other =
      if other == name then none else tree.entries.lookup other := by
  cases tree with
  | file content => simp [erase, entries]
  | folder items => exact Table.lookup_filter_ne name other items

private theorem lookup_erase (tree : FileTree α) (name next other : String) (names : List String) :
    (tree.erase (name :: next :: names)).entries.lookup other =
      if other == name then
        (tree.entries.lookup name).map (fun below => below.erase (next :: names))
      else tree.entries.lookup other := by
  rw [erase_cons_cons]
  cases found : tree.entries.lookup name with
  | none =>
    by_cases same : other = name
    · subst other
      simpa using found
    · simp [same]
  | some below =>
    exact Table.lookup_insertEntries name other _ tree.entries

theorem find?_erase_append (tree : FileTree α) (names more : List String) (nonempty : names ≠ []) :
    (tree.erase names).find? (names ++ more) = none := by
  induction names generalizing tree with
  | nil => exact (nonempty rfl).elim
  | cons name names ih =>
    rw [List.cons_append, find?_cons]
    cases names with
    | nil => simp [lookup_erase_single]
    | cons next rest =>
      rw [lookup_erase]
      cases tree.entries.lookup name with
      | none => simp
      | some below => simpa using ih below (by simp)

theorem find?_erase_self (tree : FileTree α) (names : List String)
    (nonempty : names ≠ []) : (tree.erase names).find? names = none := by
  simpa using find?_erase_append tree names [] nonempty

theorem find?_erase_above (tree : FileTree α) (names more : List String) (nonempty : more ≠ []) :
    (tree.erase (names ++ more)).find? names =
      (tree.find? names).map (fun entry => entry.erase more) := by
  induction names generalizing tree with
  | nil => rfl
  | cons name names ih =>
    obtain ⟨next, rest, split⟩ :=
      List.exists_cons_of_ne_nil (List.append_ne_nil_of_right_ne_nil names nonempty)
    rw [List.cons_append, find?_cons, split, lookup_erase, find?_cons, ← split]
    cases tree.entries.lookup name with
    | none => simp
    | some below => simp [ih]

theorem find?_erase_apart (tree : FileTree α) (names other : List String)
    (notAbove : ¬ other <+: names) (notBelow : ¬ names <+: other) :
    (tree.erase names).find? other = tree.find? other := by
  induction names generalizing tree other with
  | nil => exact (notBelow List.nil_prefix).elim
  | cons name names ih =>
    cases other with
    | nil => exact (notAbove List.nil_prefix).elim
    | cons first rest =>
      rw [find?_cons, find?_cons]
      by_cases same : first = name
      · subst first
        rw [List.prefix_cons_inj] at notAbove notBelow
        cases names with
        | nil => exact (notBelow List.nil_prefix).elim
        | cons next more =>
          rw [lookup_erase]
          cases tree.entries.lookup name with
          | none => simp
          | some below => simp [ih below rest notAbove notBelow]
      · cases names with
        | nil => simp [lookup_erase_single, same]
        | cons next more => simp [lookup_erase, same]

def HasFolder (tree : FileTree α) (names : List String) : Prop :=
  ∃ items, tree.find? names = some (.folder items)

theorem hasFolder_of_find?_append {tree entry : FileTree α}
    {names : List String} {name : String} {more : List String}
    (found : tree.find? (names ++ name :: more) = some entry) :
    tree.HasFolder names := by
  rw [find?_append] at found
  cases above : tree.find? names with
  | none => simp [above] at found
  | some below =>
    cases below with
    | file content => simp [above] at found
    | folder items => exact ⟨items, above⟩

theorem HasFolder.above {tree : FileTree α} {names other : List String}
    (folder : tree.HasFolder names) (above : other <+: names) :
    tree.HasFolder other := by
  obtain ⟨items, found⟩ := folder
  obtain ⟨more, rfl⟩ := above
  cases more with
  | nil => exact ⟨items, by simpa using found⟩
  | cons name more => exact hasFolder_of_find?_append found

theorem hasFolder_insert_above (tree entry : FileTree α) {names : List String}
    (onTheWay : other <+: names) (name : String) :
    (tree.insert (names ++ [name]) entry).HasFolder other := by
  obtain ⟨more, rfl⟩ := onTheWay
  rw [HasFolder, List.append_assoc, find?_insert_above]
  cases more with
  | nil => exact ⟨_, rfl⟩
  | cons first more => exact ⟨_, rfl⟩

@[simp]
theorem isFolder_erase (tree : FileTree α) (names : List String) :
    (tree.erase names).isFolder = tree.isFolder := by
  match names with
  | [] => rfl
  | [name] => cases tree <;> rfl
  | name :: next :: rest =>
    rw [erase_cons_cons]
    cases tree with
    | file content => rfl
    | folder items => cases entries (.folder items) |>.lookup name <;> rfl

theorem hasFolder_iff (tree : FileTree α) (names : List String) :
    tree.HasFolder names ↔ (tree.find? names).any isFolder = true := by
  unfold HasFolder
  cases tree.find? names with
  | none => simp
  | some entry => cases entry <;> simp [isFolder]

section Leaf

variable {tree : FileTree α} {names : List String} (notFolder : ¬ tree.HasFolder names)

include notFolder

private theorem find?_below_none (first : String) (more : List String) :
    tree.find? (names ++ first :: more) = none := by
  cases found : tree.find? (names ++ first :: more) with
  | none => rfl
  | some entry => exact (notFolder (hasFolder_of_find?_append found)).elim

/-- To put in a file or an empty folder changes no entry but this one and the folders above it. -/
theorem find?_insert_leaf {entry : FileTree α}
    (leaf : ∀ first more, entry.find? (first :: more) = none) (notAbove : ¬ other <+: names) :
    (tree.insert names entry).find? other = tree.find? other := by
  by_cases below : names <+: other
  · obtain ⟨more, rfl⟩ := below
    cases more with
    | nil => exact (notAbove (by simp)).elim
    | cons first more => rw [find?_insert_append, leaf, find?_below_none notFolder first more]
  · exact find?_insert_apart tree _ _ other notAbove below

theorem find?_erase_leaf (below : names ≠ []) (notAbove : ¬ other <+: names) :
    (tree.erase names).find? other = tree.find? other := by
  by_cases above : names <+: other
  · obtain ⟨more, rfl⟩ := above
    cases more with
    | nil => exact (notAbove (by simp)).elim
    | cons first more =>
      rw [find?_erase_append tree _ _ below, find?_below_none notFolder first more]
  · exact find?_erase_apart tree _ other notAbove above

end Leaf

section File

variable {tree : FileTree α} {names : List String} {name : String}
  (notFolder : ¬ tree.HasFolder (names ++ [name]))

include notFolder

theorem hasFolder_insert_file (parent : tree.HasFolder names) (content : α) (other : List String) :
    (tree.insert (names ++ [name]) (.file content)).HasFolder other ↔
      tree.HasFolder other := by
  by_cases above : other <+: names ++ [name]
  · rcases List.prefix_concat_iff.mp above with rfl | onTheWay
    · refine iff_of_false ?_ notFolder
      rintro ⟨items, found⟩
      simp [find?_insert_self] at found
    · exact iff_of_true (hasFolder_insert_above _ _ onTheWay _) (parent.above onTheWay)
  · unfold HasFolder
    rw [find?_insert_leaf notFolder (fun _ _ => rfl) above]

theorem hasFolder_erase_file (other : List String) :
    (tree.erase (names ++ [name])).HasFolder other ↔ tree.HasFolder other := by
  by_cases above : other <+: names ++ [name]
  · rcases List.prefix_concat_iff.mp above with rfl | onTheWay
    · refine iff_of_false ?_ notFolder
      rintro ⟨items, found⟩
      simp [find?_erase_self] at found
    · obtain ⟨more, rfl⟩ := onTheWay
      rw [hasFolder_iff, hasFolder_iff, List.append_assoc,
        find?_erase_above tree other _ (by simp)]
      cases tree.find? other <;> simp
  · unfold HasFolder
    rw [find?_erase_leaf notFolder (List.concat_ne_nil _ _) above]

end File

/-- What holds of a folder whenever it holds of its entries, and of files, holds of trees. -/
theorem of_entries {property : FileTree α → Prop} (files : ∀ content, property (.file content))
    (folders : ∀ entries, (∀ entry ∈ entries, property entry.2) → property (.folder entries)) :
    ∀ tree, property tree
  | .file content => files content
  | .folder entries => folders entries (fun entry member =>
    have smaller : sizeOf entry.2 < sizeOf (folder entries) := by
      have inside := List.sizeOf_lt_of_mem member
      obtain ⟨name, inner⟩ := entry
      simp only [Prod.mk.sizeOf_spec, folder.sizeOf_spec] at inside ⊢
      omega
    of_entries files folders entry.2)
termination_by tree => sizeOf tree
decreasing_by exact smaller

end FileTree

end CodeAtlas
