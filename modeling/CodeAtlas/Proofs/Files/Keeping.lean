import CodeAtlas.Proofs.Actions
import CodeAtlas.Proofs.Files.Tree
import CodeAtlas.Proofs.Paths

/-!
# Documents kept in files

A file keeps a document, or nothing stands where it would be.  Writing and deleting such
files succeeds, and leaves every path leading to where it led and every other file as it
was.
-/

namespace CodeAtlas

namespace Disk

variable {disk : Disk} {shown : String} {passed parts names : List String} {value : Value}

/-- Where a path leads, if anywhere.  Of the refusals only that of a long name is told. -/
def reached : Except DiskFault (List String) →
    Except DiskFault (Option (List String))
  | .ok names => .ok (some names)
  | .error (.nameTooLong shown) => .error (.nameTooLong shown)
  | .error _ => .ok none

/-- Where paths lead depends on nothing but the folders. -/
theorem reached_follow_congr {before after : Disk}
    (folders : ∀ names, after.HasFolder names ↔ before.HasFolder names)
    (shown : String) (passed parts : List String) :
    reached (after.follow shown passed parts) =
      reached (before.follow shown passed parts) := by
  induction parts generalizing passed with
  | nil => rfl
  | cons part parts ih =>
    by_cases folder : before.HasFolder passed.reverse
    · obtain ⟨items, found⟩ := folder
      obtain ⟨items', found'⟩ := (folders _).mpr ⟨items, found⟩
      simp only [follow, found, found']
      split
      · rfl
      · exact ih _
    · have folder' : ¬ after.HasFolder passed.reverse :=
        fun stands => folder ((folders _).mp stands)
      have refused : ∀ disk : Disk, ¬ disk.HasFolder passed.reverse →
          reached (disk.follow shown passed (part :: parts)) = .ok none := by
        intro disk notFolder
        cases found : disk.find? passed.reverse with
        | none => simp [follow, found, reached]
        | some entry =>
          cases entry with
          | file content => simp [follow, found, reached]
          | folder items => exact (notFolder ⟨items, found⟩).elim
      rw [refused after folder', refused before folder]

theorem follow_concat {name : String} (notUp : name ≠ "..")
    (result : disk.follow shown passed (parts ++ [name]) = .ok names) :
    ∃ base, names = base ++ [name] ∧ disk.HasFolder base ∧
      disk.follow shown passed parts = .ok base := by
  induction parts generalizing passed with
  | nil =>
    cases found : disk.find? passed.reverse with
    | none => simp [follow, found] at result
    | some entry =>
      cases entry with
      | file content => simp [follow, found] at result
      | folder items =>
        simp only [List.nil_append, follow, found] at result
        split at result
        · cases result
        · refine ⟨passed.reverse, ?_, ⟨items, found⟩, rfl⟩
          simpa [notUp] using result.symm
  | cons part parts ih =>
    cases found : disk.find? passed.reverse with
    | none => simp [follow, found] at result
    | some entry =>
      cases entry with
      | file content => simp [follow, found] at result
      | folder items =>
        simp only [List.cons_append, follow, found] at result
        split at result
        · cases result
        · rename_i short
          simpa [follow, found, short] using ih result

theorem follow_shown (followed : disk.follow shown passed parts = .ok names)
    (shown' : String) : disk.follow shown' passed parts = .ok names := by
  induction parts generalizing passed with
  | nil => exact followed
  | cons part parts ih =>
    rw [follow] at followed ⊢
    split at followed
    · split at followed
      · cases followed
      · rename_i short
        rw [if_neg short]
        exact ih followed
    · cases followed
    · cases followed

theorem hasFolder_of_follow (followed : disk.follow shown passed parts = .ok names)
    (folder : disk.HasFolder names) : disk.HasFolder passed.reverse := by
  cases parts with
  | nil =>
    obtain rfl : passed.reverse = names := by simpa [follow] using followed
    exact folder
  | cons part parts =>
    unfold follow at followed
    split at followed
    · rename_i items found
      exact ⟨items, found⟩
    · cases followed
    · cases followed

theorem makeWay_of_follow (shown' : String) (followed : disk.follow shown passed parts = .ok names)
    (folder : disk.HasFolder names) (more : List String) :
    disk.makeWay shown' passed (parts ++ more) = disk.makeWay shown' names.reverse more := by
  induction parts generalizing passed with
  | nil => simp [← Except.ok.inj followed]
  | cons part parts ih =>
    obtain ⟨items, found⟩ := hasFolder_of_follow followed folder
    simp only [follow, found] at followed
    split at followed
    · cases followed
    · rename_i short
      by_cases up : part = ".."
      · simp only [up, beq_self_eq_true, if_true] at followed
        simpa [makeWay, up] using ih followed
      · simp only [beq_iff_eq, up, if_false] at followed
        obtain ⟨items', found'⟩ := hasFolder_of_follow followed folder
        rw [List.reverse_cons] at found'
        simpa [makeWay, up, short, found'] using ih followed

end Disk

namespace World

theorem locate_eq (world : World) (path : Path) :
    world.locate path =
      (checkPath path).bind (fun _ =>
        (world.disk.follow path.toString []
          (world.workingDirectory ++ path).parts).mapError .disk) := rfl

theorem follow_of_locate {world : World} {path : Path} (located : world.locate path = .ok names) :
    checkPath path = .ok () ∧ world.disk.follow path.toString []
      (world.workingDirectory ++ path).parts = .ok names := by
  rw [locate_eq] at located
  cases checked : checkPath path with
  | error fault =>
    rw [checked] at located
    cases located
  | ok _ =>
    rw [checked] at located
    cases followed : world.disk.follow path.toString []
        (world.workingDirectory ++ path).parts with
    | error fault => simp [followed, Except.bind] at located
    | ok found => simpa [followed, Except.bind] using located

/-- A path to a named entry leads into a folder, to which the path above it leads. -/
theorem locate_child {world : World} {folder : Path} {name : String}
    (notUp : name ≠ "..") (located : world.locate (folder.child name) = .ok names) :
    ∃ base, names = base ++ [name] ∧ world.disk.HasFolder base ∧
      checkPath (folder.child name) = .ok () ∧
      world.disk.follow (folder.child name).toString []
        (world.workingDirectory ++ folder).parts = .ok base := by
  obtain ⟨checked, followed⟩ := follow_of_locate located
  rw [@Path.parts_append (folder.child name) folder [name] rfl rfl] at followed
  obtain ⟨base, split, parent, way⟩ := Disk.follow_concat notUp followed
  exact ⟨base, split, parent, checked, way⟩

theorem checkPath_of_child {folder : Path} {name : String}
    (checked : checkPath (folder.child name) = .ok ()) :
    checkPath folder = .ok () := by
  unfold checkPath at checked ⊢
  split at checked
  · cases checked
  · rename_i noNull
    split at checked
    · cases checked
    · rename_i short
      have noNull' : folder.hasNull = false := by
        rw [Bool.not_eq_true] at noNull
        unfold Path.hasNull Path.child at noNull
        rw [List.any_append, Bool.or_eq_false_iff] at noNull
        exact noNull.1
      have short' : ¬ pathLimit < folder.toString.utf8ByteSize := by
        rcases folder.toString_eq_or_size_le name with dot | shorter
        · rw [dot]
          decide
        · omega
      simp [noNull', short']

theorem locate_eq_ok_iff (world : World) (path : Path) (names : List String) :
    world.locate path = .ok names ↔
      checkPath path = .ok () ∧
        Disk.reached (world.disk.follow path.toString []
          (world.workingDirectory ++ path).parts) = .ok (some names) := by
  rw [locate_eq]
  cases checkPath path with
  | error fault => simp [Except.bind]
  | ok _ =>
    cases world.disk.follow path.toString []
        (world.workingDirectory ++ path).parts with
    | ok found => simp [Except.bind, Disk.reached]
    | error fault => cases fault <;> simp [Except.bind, Disk.reached]

theorem lookUp_eq {path : Path} (checked : checkPath path = .ok ()) (world : World) :
    world.lookUp path =
      match Disk.reached (world.disk.follow path.toString []
          (world.workingDirectory ++ path).parts) with
      | .ok names => .ok (names.bind world.disk.find?)
      | .error fault => .error (.disk fault) := by
  unfold lookUp
  rw [locate_eq, checked]
  cases world.disk.follow path.toString []
      (world.workingDirectory ++ path).parts with
  | ok found => simp [Except.bind, Disk.reached]
  | error fault => cases fault <;> simp [Except.bind, Disk.reached]

theorem lookUp_refused {path : Path} {fault : Fault}
    (refused : checkPath path = .error fault) (before after : World) :
    after.lookUp path = before.lookUp path := by
  unfold lookUp
  rw [locate_eq, locate_eq, refused]
  cases fault with
  | disk fault => cases fault <;> rfl
  | _ => rfl

/-- The second world has the paths and folders of the first one, and differs from it in
the files at some spots at most. -/
structure SameApart (spots : List String → Prop) (before after : World) : Prop where
  workingDirectory : after.workingDirectory = before.workingDirectory
  folders : ∀ names,
    after.disk.HasFolder names ↔ before.disk.HasFolder names
  files : ∀ names, ¬ spots names → ¬ before.disk.HasFolder names →
    after.disk.find? names = before.disk.find? names
  trees : ∀ names, (∀ spot, spots spot → ¬ names <+: spot) →
    after.disk.find? names = before.disk.find? names

namespace SameApart

variable {spots : List String → Prop} {before after : World}

theorem refl (spots : List String → Prop) (world : World) :
    SameApart spots world world :=
  ⟨rfl, fun _ => Iff.rfl, fun _ _ _ => rfl, fun _ _ => rfl⟩

theorem of_disk (disk : after.disk = before.disk)
    (workingDirectory : after.workingDirectory = before.workingDirectory) :
    SameApart spots before after :=
  ⟨workingDirectory, fun _ => by rw [disk], fun _ _ _ => by rw [disk],
    fun _ _ => by rw [disk]⟩

theorem trans {last : World} (first : SameApart spots before after)
    (second : SameApart spots after last) : SameApart spots before last where
  workingDirectory := second.workingDirectory.trans first.workingDirectory
  folders names := (second.folders names).trans (first.folders names)
  files names apart notFolder :=
    (second.files names apart
      (fun stands => notFolder ((first.folders names).mp stands))).trans
        (first.files names apart notFolder)
  trees names apart := (second.trees names apart).trans (first.trees names apart)

variable (same : SameApart spots before after)

include same

theorem symm : SameApart spots after before where
  workingDirectory := same.workingDirectory.symm
  folders names := (same.folders names).symm
  files names apart notFolder := (same.files names apart
    (fun stands => notFolder ((same.folders names).mpr stands))).symm
  trees names apart := (same.trees names apart).symm

theorem mono {more : List String → Prop} (subset : ∀ names, spots names → more names) :
    SameApart more before after where
  workingDirectory := same.workingDirectory
  folders := same.folders
  files names apart := same.files names (fun spot => apart (subset names spot))
  trees names apart := same.trees names (fun spot member =>
    apart spot (subset spot member))

theorem reached (path : Path) :
    Disk.reached (after.disk.follow path.toString []
        (after.workingDirectory ++ path).parts) =
      Disk.reached (before.disk.follow path.toString []
        (before.workingDirectory ++ path).parts) := by
  rw [same.workingDirectory]
  exact Disk.reached_follow_congr same.folders _ _ _

theorem locate_iff (path : Path) (names : List String) :
    after.locate path = .ok names ↔ before.locate path = .ok names := by
  rw [locate_eq_ok_iff, locate_eq_ok_iff, same.reached]

/-- What stands where a path leads is found as before, if it is not changed there. -/
theorem lookUp_eq (path : Path) (unchanged : ∀ names, before.locate path = .ok names →
      after.disk.find? names = before.disk.find? names) :
    after.lookUp path = before.lookUp path := by
  cases checked : checkPath path with
  | error fault => exact lookUp_refused checked before after
  | ok _ =>
    rw [World.lookUp_eq checked, World.lookUp_eq checked, same.reached]
    cases found : Disk.reached (before.disk.follow path.toString []
        (before.workingDirectory ++ path).parts) with
    | error fault => rfl
    | ok names? =>
      cases names? with
      | none => rfl
      | some names =>
        have located : before.locate path = .ok names :=
          (locate_eq_ok_iff before path names).mpr ⟨checked, found⟩
        simp [unchanged names located]

end SameApart

/-- The file at a path keeps a document, or a file could be made there. -/
def Keeps (world : World) (path : Path) (document : Option Value) : Prop :=
  ∃ names, world.locate path = .ok names ∧
    match document with
    | none => world.disk.find? names = none
    | some value =>
      ∃ modified, world.disk.find? names = some (.file ⟨.document value, modified⟩)

namespace Keeps

variable {world : World} {path : Path} {document : Option Value}

theorem notFolder (keeps : world.Keeps path document)
    (located : world.locate path = .ok names) : ¬ world.disk.HasFolder names := by
  obtain ⟨names', located', stands⟩ := keeps
  obtain rfl : names' = names := by simpa [located'] using located
  rintro ⟨items, found⟩
  cases document with
  | none => simp [found] at stands
  | some value => simp [found] at stands

theorem lookUp (keeps : world.Keeps path document) :
    ∃ modified, world.lookUp path =
      .ok (document.map (fun value => .file ⟨.document value, modified⟩)) := by
  obtain ⟨names, located, stands⟩ := keeps
  cases document with
  | none => exact ⟨0, by simp [World.lookUp, located, stands]⟩
  | some value =>
    obtain ⟨modified, found⟩ := stands
    exact ⟨modified, by simp [World.lookUp, located, found]⟩

theorem exists? (keeps : world.Keeps path document) :
    runFrom world (World.exists? path) = (.ok document.isSome, world) := by
  obtain ⟨modified, found⟩ := keeps.lookUp
  simp [World.exists?, World.find, found]

theorem file (keeps : world.Keeps path (some value)) :
    ∃ modified, world.file path = .ok ⟨.document value, modified⟩ := by
  obtain ⟨names, located, modified, found⟩ := keeps
  refine ⟨modified, ?_⟩
  simp [World.file, located, found, bind, Except.bind]
  rfl

theorem documentAt (keeps : world.Keeps path (some value)) :
    runFrom world (World.documentAt path) = (.ok value, world) := by
  obtain ⟨modified, found⟩ := keeps.file
  simp [World.documentAt, World.fileAt, found, Stored.document]

theorem namesAt (keeps : world.Keeps path (some (.ofTexts names))) :
    runFrom world (World.namesAt path) = (.ok names, world) := by
  obtain ⟨modified, found⟩ := keeps.file
  have texts : (names.map Value.text).filterMap Value.asText? = names := by
    simp [List.filterMap_map, Function.comp_def, Value.asText?]
  simp [World.namesAt, World.fileAt, found, Value.ofTexts, texts]

/-- A file that is not at one of the changed spots keeps what it kept. -/
theorem apart {spots : List String → Prop} {after : World} (keeps : world.Keeps path document)
    (same : SameApart spots world after)
    (notSpot : ∀ names, world.locate path = .ok names → ¬ spots names) :
    after.Keeps path document := by
  obtain ⟨names, located, stands⟩ := id keeps
  have unchanged := same.files names (notSpot names located)
    (keeps.notFolder located)
  refine ⟨names, (same.locate_iff path names).mpr located, ?_⟩
  cases document with
  | none => exact unchanged.trans stands
  | some value =>
    obtain ⟨modified, found⟩ := stands
    exact ⟨modified, unchanged.trans found⟩

end Keeps

def LeadsTo (world : World) (path : Path) (names : List String) : Prop :=
  world.locate path = .ok names

def put (world : World) (names : List String) (body : Body) : World :=
  { world with
    disk := world.disk.insert names (.file ⟨body, world.now⟩)
    now := world.now + 1 }

def drop (world : World) (names : List String) : World :=
  { world with disk := world.disk.erase names }

theorem runFrom_writeFile (world : World) (path : Path) (body : Body) :
    runFrom world (writeFile path body) =
      match world.placeFor path with
      | .ok names => (.ok (), world.put names body)
      | .error fault => (.error fault, world) := by
  cases placed : world.placeFor path <;> simp [writeFile, placed, put]

theorem writeFile_failed {world after : World} {path : Path} {body : Body} {fault : Fault}
    (result : runFrom world (writeFile path body) = (.error fault, after)) : world = after := by
  rw [runFrom_writeFile] at result
  split at result
  · cases congrArg Prod.fst result
  · exact congrArg Prod.snd result

theorem placeFor_eq_ok_iff (world : World) (path : Path) (names : List String) :
    world.placeFor path = .ok names ↔
      world.locate path = .ok names ∧ ¬ world.disk.HasFolder names := by
  unfold placeFor
  cases located : world.locate path with
  | error fault => simp [bind, Except.bind]
  | ok found =>
    cases stands : world.disk.find? found with
    | none =>
      simp only [bind, Except.bind, stands, pure, Except.pure, Except.ok.injEq]
      refine ⟨fun same => ⟨same, ?_⟩, fun both => both.1⟩
      subst same
      rintro ⟨items, folder⟩
      simp [stands] at folder
    | some entry =>
      cases entry with
      | file content =>
        simp only [bind, Except.bind, stands, pure, Except.pure,
          Except.ok.injEq]
        refine ⟨fun same => ⟨same, ?_⟩, fun both => both.1⟩
        subst same
        rintro ⟨items, folder⟩
        simp [stands] at folder
      | folder items =>
        simp only [bind, Except.bind, stands, throw, throwThe,
          MonadExceptOf.throw, reduceCtorEq, false_iff, Except.ok.injEq]
        rintro ⟨rfl, notFolder⟩
        exact notFolder ⟨items, stands⟩

section Child

variable {world after : World} {folder : Path} {name : String}
  (notUp : name ≠ "..")

include notUp

theorem put_sameApart (body : Body) (located : world.locate (folder.child name) = .ok names)
    (notFolder : ¬ world.disk.HasFolder names) :
    SameApart (world.LeadsTo (folder.child name)) world (world.put names body) := by
  obtain ⟨base, rfl, parent, -⟩ := locate_child notUp located
  refine ⟨rfl, FileTree.hasFolder_insert_file notFolder parent _, ?_, ?_⟩
  · intro other notSpot notFolder'
    apply FileTree.find?_insert_leaf notFolder (fun _ _ => rfl)
    intro above
    rcases List.prefix_concat_iff.mp above with rfl | onTheWay
    · exact notSpot located
    · exact notFolder' (parent.above onTheWay)
  · intro other apart
    exact FileTree.find?_insert_leaf notFolder (fun _ _ => rfl) (apart _ located)

theorem drop_sameApart (located : world.locate (folder.child name) = .ok names)
    (notFolder : ¬ world.disk.HasFolder names) :
    SameApart (world.LeadsTo (folder.child name)) world (world.drop names) := by
  obtain ⟨base, rfl, parent, -⟩ := locate_child notUp located
  refine ⟨rfl, FileTree.hasFolder_erase_file notFolder, ?_, ?_⟩
  · intro other notSpot notFolder'
    apply FileTree.find?_erase_leaf notFolder (List.concat_ne_nil _ _)
    intro above
    rcases List.prefix_concat_iff.mp above with rfl | onTheWay
    · exact notSpot located
    · exact notFolder' (parent.above onTheWay)
  · intro other apart
    exact FileTree.find?_erase_leaf notFolder (List.concat_ne_nil _ _) (apart _ located)

theorem writeFile_ok (result : runFrom world (writeFile (folder.child name) (.document value)) =
      (.ok (), after)) :
    after.Keeps (folder.child name) (some value) ∧
      SameApart (world.LeadsTo (folder.child name)) world after := by
  rw [runFrom_writeFile] at result
  cases placed : world.placeFor (folder.child name) with
  | error fault => simp [placed] at result
  | ok names =>
    obtain ⟨located, notFolder⟩ := (placeFor_eq_ok_iff _ _ _).mp placed
    obtain rfl : world.put names (.document value) = after := by
      simpa [placed] using result
    have same := put_sameApart notUp (.document value) located notFolder
    exact ⟨⟨names, (same.locate_iff _ _).mpr located, world.now,
      FileTree.find?_insert_self _ _ _⟩, same⟩

theorem Keeps.writeFile {document : Option Value} (value : Value)
    (keeps : world.Keeps (folder.child name) document) :
    ∃ after, runFrom world
        (World.writeFile (folder.child name) (.document value)) = (.ok (), after) ∧
      after.Keeps (folder.child name) (some value) ∧
        SameApart (world.LeadsTo (folder.child name)) world after := by
  obtain ⟨names, located, _⟩ := id keeps
  have placed : world.placeFor (folder.child name) = .ok names :=
    (placeFor_eq_ok_iff _ _ _).mpr ⟨located, keeps.notFolder located⟩
  have written : runFrom world
      (World.writeFile (folder.child name) (.document value)) =
        (.ok (), world.put names (.document value)) := by
    rw [runFrom_writeFile, placed]
  exact ⟨_, written, writeFile_ok notUp written⟩

theorem Keeps.discard {document : Option Value} (keeps : world.Keeps (folder.child name) document) :
    ∃ after, runFrom world (World.discard (folder.child name)) = (.ok (), after) ∧
      after.Keeps (folder.child name) none ∧
        SameApart (world.LeadsTo (folder.child name)) world after := by
  cases document with
  | none =>
    refine ⟨world, ?_, keeps, SameApart.refl _ _⟩
    simp [World.discard, keeps.exists?]
  | some value =>
    obtain ⟨names, located, modified, found⟩ := id keeps
    have notFolder := keeps.notFolder located
    have same := drop_sameApart notUp located notFolder
    obtain ⟨base, split, _⟩ := locate_child notUp located
    refine ⟨world.drop names, ?_, ⟨names, (same.locate_iff _ _).mpr located,
      FileTree.find?_erase_self _ _ (by simp [split])⟩, same⟩
    simp [World.discard, keeps.exists?, World.deleteFile, located, found, drop]

theorem discard_sameApart (world : World) (folder : Path) :
    SameApart (world.LeadsTo (folder.child name)) world
      (runFrom world (World.discard (folder.child name))).2 := by
  cases found : world.lookUp (folder.child name) with
  | error fault =>
    simpa [World.discard, World.exists?, World.find, found] using SameApart.refl _ world
  | ok entry =>
    cases entry with
    | none => simpa [World.discard, World.exists?, World.find, found] using SameApart.refl _ world
    | some tree =>
      have same : (runFrom world (World.discard (folder.child name))).2 =
          (runFrom world (World.deleteFile (folder.child name))).2 := by
        simp [World.discard, World.exists?, World.find, found]
      rw [same]
      cases located : world.locate (folder.child name) with
      | error fault => simpa [World.deleteFile, located] using SameApart.refl _ world
      | ok names =>
        cases stands : world.disk.find? names with
        | none => simpa [World.deleteFile, located, stands] using SameApart.refl _ world
        | some entry =>
          cases entry with
          | folder items =>
            simpa [World.deleteFile, located, stands] using SameApart.refl _ world
          | file stored =>
            have notFolder : ¬ world.disk.HasFolder names := by
              rintro ⟨items, folder⟩
              simp [stands] at folder
            simpa [World.deleteFile, located, stands, drop] using
              drop_sameApart notUp located notFolder

/-- The folder of a kept file stands, and making it again changes nothing. -/
theorem Keeps.makeFolder {document : Option Value}
    (keeps : world.Keeps (folder.child name) document) :
    runFrom world (World.makeFolder folder) = (.ok (), world) := by
  obtain ⟨names, located, -⟩ := keeps
  obtain ⟨base, -, parent, checked, way⟩ := locate_child notUp located
  have made := Disk.makeWay_of_follow folder.toString way parent []
  rw [List.append_nil, Disk.makeWay] at made
  simp [World.makeFolder, checkPath_of_child checked, made]

/-- A file in a folder and one of another name stand at different places. -/
theorem notLeadsTo_of_ne {other : Path} {otherName : String}
    (otherNotUp : otherName ≠ "..") (different : otherName ≠ name) (names : List String)
    (located : world.locate (other.child otherName) = .ok names) :
    ¬ world.LeadsTo (folder.child name) names := by
  intro located'
  obtain ⟨base, split, _⟩ := locate_child otherNotUp located
  obtain ⟨base', split', _⟩ := locate_child notUp located'
  rw [split] at split'
  exact different (List.append_inj_right' split' rfl |> List.singleton_inj.mp)

theorem Keeps.beside {other : Path} {otherName : String} {document : Option Value}
    (keeps : world.Keeps (other.child otherName) document)
    (same : SameApart (world.LeadsTo (folder.child name)) world after)
    (otherNotUp : otherName ≠ "..") (different : otherName ≠ name) :
    after.Keeps (other.child otherName) document :=
  keeps.apart same (fun names located =>
    notLeadsTo_of_ne notUp otherNotUp different names located)

end Child

end World

end CodeAtlas
