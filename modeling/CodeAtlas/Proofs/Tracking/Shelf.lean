import CodeAtlas.Digest.Md5
import CodeAtlas.Proofs.Tracking.Records

/-!
# The folder of snapshots as a table

Two files are kept of each project, named for the digest of its path.  Where the digests
tell the projects apart, the files of the folder are those of a table of projects: saving
puts a project into the table, deleting takes it out, and a clean-up leaves it alone.
-/

namespace CodeAtlas

variable {place : Path} {table : Table Path Holding}

/-! ## Names of projects -/

def IsHex (text : String) : Prop :=
  ∀ character ∈ text.toList, character ∈ "0123456789abcdef".toList

instance (text : String) : Decidable (IsHex text) :=
  inferInstanceAs (Decidable (∀ character ∈ text.toList, _))

theorem Digest.isHex_md5 (bytes : ByteArray) : IsHex (Digest.md5 bytes) := by
  have digits : ∀ digit < 16, hexDigit digit ∈ "0123456789abcdef".toList := by decide
  intro character member
  rw [Digest.md5, hexOfWords, String.toList_ofList] at member
  obtain ⟨byte, -, inside⟩ := List.mem_flatMap.mp member
  have small := byte.toNat_lt
  rcases List.mem_pair.mp inside with rfl | rfl
  · exact digits _ (by omega)
  · exact digits _ (by omega)

namespace SnapshotStore

variable {env : Environment} {store : SnapshotStore}

theorem endsWith_append (id ending : String) : Text.endsWith (id ++ ending) ending = true := by
  rw [Text.endsWith, String.toList_append, List.isSuffixOf_iff_suffix]
  exact List.suffix_append _ _

theorem endsWith_append_of_ne {ending ending' : String} (lengths : ending.length = ending'.length)
    (different : ending ≠ ending') (id : String) :
    Text.endsWith (id ++ ending) ending' = false := by
  rw [Bool.eq_false_iff]
  intro ends
  rw [Text.endsWith, String.toList_append, List.isSuffixOf_iff_suffix] at ends
  have same := List.suffix_of_suffix_length_le ends (List.suffix_append _ _)
    (by simp only [String.length_toList, lengths, Nat.le_refl])
  have equal := same.eq_of_length
    (by rw [String.length_toList, String.length_toList, lengths])
  exact different (String.toList_inj.mp equal).symm

private theorem replaceChars_skipped (needle : List Char) {skip : Nat} {characters : List Char}
    (short : characters.length ≤ skip) : Text.replaceChars needle [] skip characters = [] := by
  induction characters generalizing skip with
  | nil => rw [Text.replaceChars]
  | cons character rest ih =>
    obtain ⟨less, rfl⟩ := Nat.exists_eq_add_one_of_ne_zero
      (Nat.ne_of_gt (Nat.lt_of_lt_of_le (Nat.succ_pos _) short))
    rw [Text.replaceChars]
    exact ih (Nat.le_of_succ_le_succ short)

private theorem replaceChars_append (mark : Char) (rest : List Char) {characters : List Char}
    (plain : mark ∉ characters) :
    Text.replaceChars (mark :: rest) [] 0 (characters ++ mark :: rest) = characters := by
  induction characters with
  | nil =>
    have whole : (mark :: rest).isPrefixOf (mark :: rest) = true :=
      List.isPrefixOf_iff_prefix.mpr List.prefix_rfl
    rw [List.nil_append, Text.replaceChars, if_pos whole]
    exact replaceChars_skipped _ (Nat.le_refl _)
  | cons character characters ih =>
    rw [List.mem_cons, not_or] at plain
    rw [List.cons_append, Text.replaceChars, List.isPrefixOf_cons_cons,
      if_neg (by simp [plain.1]), ih plain.2]

/-- The name of a snapshot tells the project that it is named for. -/
theorem projectOfName_snapshot {id : String} (hex : IsHex id) :
    projectOfName (id ++ "_snapshot.json") = id := by
  have plain : '_' ∉ id.toList := fun member => absurd (hex _ member) (by decide)
  have backwards : (id ++ "_snapshot.json").toList.reverse =
      "nosj".toList ++ '.' :: ("tohspans_".toList ++ id.toList.reverse) := by
    rw [String.toList_append, List.reverse_append]
    rfl
  have stem : (Path.splitName (id ++ "_snapshot.json")).1 = id ++ "_snapshot" := by
    have tail : List.takeWhile (fun character => decide (character ≠ '.'))
        ("nosj".toList ++ '.' :: ("tohspans_".toList ++ id.toList.reverse)) = "nosj".toList := rfl
    have head : List.drop ("nosj".toList.length + 1)
        ("nosj".toList ++ '.' :: ("tohspans_".toList ++ id.toList.reverse)) =
          "tohspans_".toList ++ id.toList.reverse := rfl
    rw [Path.splitName, backwards]
    rw [tail, head, if_neg (by simp)]
    apply String.toList_inj.mp
    rw [String.toList_ofList, String.toList_append, List.reverse_append, List.reverse_reverse]
    rfl
  rw [projectOfName, stem, Text.replace, String.toList_append]
  exact (congrArg String.ofList (replaceChars_append '_' "snapshot".toList plain)).trans
    String.ofList_toList

/-! ## The files of a table -/

/-- What is kept of a project: the tree that was saved with its record and the time, and the
record about the project. -/
structure Holding where
  tree : KeptTree
  document : Value
  taken : String
  record : Record

def filesOf (env : Environment) (place : Path) (holding : Holding) : List (String × Value) :=
  [(projectId env place ++ "_snapshot.json", treeDocument holding.taken holding.document),
    (projectId env place ++ "_metadata.json", .record holding.record)]

def filesIn (env : Environment) (table : Table Path Holding) : Table String Value :=
  ⟨table.entries.flatMap fun entry => filesOf env entry.1 entry.2⟩

/-- The digests of the projects' paths are hexadecimal, and no two of them are equal. -/
structure TellsApart (env : Environment) (projects : Path → Prop) : Prop where
  hex : ∀ place, projects place → IsHex (projectId env place)
  inj : ∀ place other, projects place → projects other →
    projectId env place = projectId env other → place = other

variable {projects : Path → Prop}

private theorem TellsApart.names_ne (apart : TellsApart env projects) {other : Path}
    (known : projects place) (known' : projects other) (different : place ≠ other) :
    projectId env place ++ "_snapshot.json" ≠ projectId env other ++ "_snapshot.json" ∧
      projectId env place ++ "_metadata.json" ≠ projectId env other ++ "_metadata.json" := by
  have ids := mt (apart.inj place other known known') different
  exact ⟨mt (String.append_left_inj _).mp ids, mt (String.append_left_inj _).mp ids⟩

section Known

variable (apart : TellsApart env projects) (known : ∀ entry ∈ table.entries, projects entry.1)
  (here : projects place)

include apart known here

theorem filesIn_insert (holding : Holding) :
    filesIn env (table.insert place holding) =
      ((filesIn env table).insert (projectId env place ++ "_snapshot.json")
        (treeDocument holding.taken holding.document)).insert
        (projectId env place ++ "_metadata.json") (.record holding.record) := by
  obtain ⟨entries⟩ := table
  simp only [filesIn, Table.insert, Table.mk.injEq]
  induction entries with
  | nil =>
    simp [Table.insertEntries, filesOf, (snapshotName_ne_recordName _ _).symm]
  | cons entry rest ih =>
    obtain ⟨first, later⟩ := List.forall_mem_cons.mp known
    by_cases same : place = entry.1
    · subst same
      simp [Table.insertEntries, filesOf, (snapshotName_ne_recordName _ _).symm]
    · obtain ⟨one, two⟩ := apart.names_ne here first same
      rw [Table.insertEntries, if_neg (by simpa using same), List.flatMap_cons,
        List.flatMap_cons, ih later]
      simp [Table.insertEntries, filesOf, one, two, snapshotName_ne_recordName,
        (snapshotName_ne_recordName _ _).symm]

theorem filesIn_erase :
    filesIn env (table.erase place) =
      ((filesIn env table).erase (projectId env place ++ "_snapshot.json")).erase
        (projectId env place ++ "_metadata.json") := by
  obtain ⟨entries⟩ := table
  simp only [filesIn, Table.erase, Table.mk.injEq]
  induction entries with
  | nil => rfl
  | cons entry rest ih =>
    obtain ⟨first, later⟩ := List.forall_mem_cons.mp known
    by_cases same : place = entry.1
    · subst same
      rw [List.filter_cons_of_neg (by simp), List.flatMap_cons, List.filter_append,
        List.filter_append, ih later]
      simp [filesOf]
    · obtain ⟨one, two⟩ := apart.names_ne here first same
      rw [List.filter_cons_of_pos (by simpa using same), List.flatMap_cons, List.flatMap_cons,
        List.filter_append, List.filter_append, ih later]
      simp [filesOf, one, two, snapshotName_ne_recordName,
        (snapshotName_ne_recordName _ _).symm]

/-- What is kept under the names of a project. -/
theorem get?_filesIn :
    (filesIn env table).get? (projectId env place ++ "_snapshot.json") =
        (table.get? place).map (fun holding => treeDocument holding.taken holding.document) ∧
      (filesIn env table).get? (projectId env place ++ "_metadata.json") =
        (table.get? place).map (fun holding => .record holding.record) := by
  obtain ⟨entries⟩ := table
  simp only [filesIn, Table.get?]
  induction entries with
  | nil => exact ⟨rfl, rfl⟩
  | cons entry rest ih =>
    obtain ⟨first, later⟩ := List.forall_mem_cons.mp known
    by_cases same : place = entry.1
    · subst same
      simp [filesOf, Table.lookup_cons_ite, (snapshotName_ne_recordName _ _).symm]
    · obtain ⟨one, two⟩ := apart.names_ne here first same
      simpa [filesOf, Table.lookup_cons_ite, same, one, two, snapshotName_ne_recordName,
        (snapshotName_ne_recordName _ _).symm] using ih later

end Known

/-! ## The folder on the disk -/

def documentOf : FileTree Stored → Option Value
  | .file ⟨.document value, _⟩ => some value
  | _ => none

/-- The folder of the store stands at a place and holds these files. -/
structure Standing (store : SnapshotStore) (base : List String) (files : Table String Value)
    (world : World) : Prop where
  leads : world.locate store.folder = .ok base
  holds : ∃ entries, world.disk.find? base = some (.folder entries) ∧
    (Table.mk entries).map documentOf = files.map some

namespace Standing

variable {base : List String} {files : Table String Value} {world : World} {name : String}

theorem find? (standing : Standing store base files world) (name : String) :
    ∃ modified, world.disk.find? (base ++ [name]) =
      (files.get? name).map (fun value => .file ⟨.document value, modified⟩) := by
  obtain ⟨entries, found, same⟩ := standing.holds
  have under := congrArg (fun table => Table.get? table name) same
  simp only [Table.get?_map] at under
  have below : world.disk.find? (base ++ [name]) = (Table.mk entries).get? name := by
    rw [FileTree.find?_append, found, Option.bind_some, FileTree.find?_cons]
    exact Option.bind_fun_some _
  rw [below]
  cases kept : files.get? name with
  | none =>
    rw [kept] at under
    exact ⟨0, Option.map_eq_none_iff.mp under⟩
  | some value =>
    rw [kept] at under
    obtain ⟨tree, stands, document⟩ := Option.map_eq_some_iff.mp under
    match tree, document with
    | .file ⟨.document _, modified⟩, rfl => exact ⟨modified, stands⟩

theorem keeps (standing : Standing store base files world)
    (located : world.locate (store.folder.child name) = .ok (base ++ [name])) :
    world.Keeps (store.folder.child name) (files.get? name) := by
  obtain ⟨modified, found⟩ := standing.find? name
  refine ⟨_, located, ?_⟩
  cases kept : files.get? name with
  | none => simpa [kept] using found
  | some value => exact ⟨modified, by simpa [kept] using found⟩

theorem notFolder (standing : Standing store base files world) (name : String) :
    ¬world.disk.HasFolder (base ++ [name]) := by
  rintro ⟨items, folder⟩
  obtain ⟨modified, found⟩ := standing.find? name
  rw [folder] at found
  cases kept : files.get? name <;> simp [kept] at found

section Child

variable (standing : Standing store base files world) (notUp : name ≠ "..")
  (located : world.locate (store.folder.child name) = .ok (base ++ [name]))

include standing notUp located

theorem write (value : Value) : ∃ after,
    runFrom world (World.writeFile (store.folder.child name) (.document value)) =
        (.ok (), after) ∧
      Standing store base (files.insert name value) after ∧ after.clock = world.clock ∧
      World.SameApart (world.LeadsTo (store.folder.child name)) world after := by
  have placed := (World.placeFor_eq_ok_iff _ _ _).mpr ⟨located, standing.notFolder name⟩
  have same := World.put_sameApart notUp (.document value) located (standing.notFolder name)
  refine ⟨world.put (base ++ [name]) (.document value), ?_, ⟨?_, ?_⟩, rfl, same⟩
  · rw [World.runFrom_writeFile, placed]
  · exact (same.locate_iff _ _).mpr standing.leads
  · obtain ⟨entries, found, documents⟩ := standing.holds
    refine ⟨_, (FileTree.find?_insert_above _ _ base [name]).trans (by rw [found]; rfl), ?_⟩
    rw [Table.map_insert, ← documents]
    exact Table.map_insert documentOf ⟨entries⟩ name _

theorem discard : ∃ after,
    runFrom world (World.discard (store.folder.child name)) = (.ok (), after) ∧
      Standing store base (files.erase name) after ∧ after.clock = world.clock ∧
      World.SameApart (world.LeadsTo (store.folder.child name)) world after := by
  have keeps := standing.keeps located
  cases kept : files.get? name with
  | none =>
    rw [kept] at keeps
    rw [Table.erase_eq_self kept]
    refine ⟨world, ?_, standing, rfl, .refl _ _⟩
    simp [World.discard, keeps.exists?]
  | some value =>
    rw [kept] at keeps
    have same := World.drop_sameApart notUp located (standing.notFolder name)
    obtain ⟨modified, stands⟩ := standing.find? name
    rw [kept, Option.map_some] at stands
    refine ⟨world.drop (base ++ [name]), ?_, ⟨?_, ?_⟩, rfl, same⟩
    · simp [World.discard, keeps.exists?, World.deleteFile, located, stands, World.drop]
    · exact (same.locate_iff _ _).mpr standing.leads
    · obtain ⟨entries, found, documents⟩ := standing.holds
      refine ⟨_, (FileTree.find?_erase_above _ base [name] (by simp)).trans
        (by rw [found]; rfl), ?_⟩
      rw [Table.map_erase, ← documents]
      exact Table.map_erase documentOf ⟨entries⟩ name

end Child

end Standing

end SnapshotStore

end CodeAtlas
