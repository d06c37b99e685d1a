import CodeAtlas.Proofs.Files.Reading

/-!
# What files hold

A path names a place below the root, whether or not the folders on the way to it stand.  To make
folders changes what no file holds, and to write or delete a file changes what that file holds.
-/

namespace CodeAtlas

namespace FileTree

variable {α : Type} {tree : FileTree α} {names : List String} {name : String}

/-- What the file where the names lead holds, if a file stands there. -/
def fileAt? (tree : FileTree α) (names : List String) : Option α :=
  (tree.find? names).bind content?

theorem HasFolder.fileAt? (folder : tree.HasFolder names) : tree.fileAt? names = none := by
  obtain ⟨entries, found⟩ := folder
  rw [FileTree.fileAt?, found]
  rfl

theorem fileAt?_insert_folder (missing : tree.find? (names ++ [name]) = none)
    (parent : names = [] ∨ tree.HasFolder names) {other : List String} (below : other ≠ []) :
    (tree.insert (names ++ [name]) (.folder [])).fileAt? other = tree.fileAt? other := by
  by_cases above : other <+: names ++ [name]
  · rcases List.prefix_concat_iff.mp above with rfl | onTheWay
    · rw [fileAt?, fileAt?, find?_insert_self, missing]
      rfl
    · have folder : tree.HasFolder other := by
        rcases parent with rfl | folder
        · exact absurd (List.prefix_nil.mp onTheWay) below
        · exact folder.above onTheWay
      rw [folder.fileAt?, (hasFolder_insert_above tree _ onTheWay name).fileAt?]
  · rw [fileAt?, fileAt?, find?_insert_leaf (by simp [HasFolder, missing]) (fun _ _ => rfl) above]

end FileTree

namespace Disk

theorem fileAt?_makeWay (disk : Disk) (shown : String) (passed parts : List String)
    (parent : passed = [] ∨ disk.HasFolder passed.reverse) {names : List String}
    (below : names ≠ []) :
    (disk.makeWay shown passed parts).1.fileAt? names = disk.fileAt? names := by
  induction parts generalizing disk passed with
  | nil => rfl
  | cons part parts ih =>
    rw [makeWay]
    split
    · apply ih
      rcases passed with _ | ⟨last, passed⟩
      · exact .inl rfl
      · rcases parent with none | folder
        · cases none
        · rw [List.reverse_cons] at folder
          exact .inr (folder.above (List.prefix_append _ _))
    · split
      · rfl
      · split
        · rename_i entries found
          exact ih _ _ (.inr ⟨entries, found⟩)
        · rfl
        · rename_i missing
          rw [ih _ _ (.inr ⟨[], FileTree.find?_insert_self _ _ _⟩)]
          rw [List.reverse_cons] at missing ⊢
          refine FileTree.fileAt?_insert_folder missing ?_ below
          exact parent.imp (fun none => by rw [none]; rfl) id

end Disk

theorem Path.resolve_child {folder : Path} {name : String} (notUp : name ≠ "..")
    (workingDirectory : Path) :
    ((folder.child name).resolve workingDirectory).parts =
      (folder.resolve workingDirectory).parts ++ [name] :=
  @resolve_append (folder.child name) folder [name] rfl rfl (by simpa using notUp) workingDirectory

namespace World

/-- What the file at the place that a path names holds, if a file stands there. -/
def stored (world : World) (path : Path) : Option Stored :=
  world.disk.fileAt? (path.resolve world.workingDirectory).parts

theorem SameApart.stored {spots : List String → Prop} {before after : World} {path : Path}
    (same : SameApart spots before after)
    (apart : ¬ spots (path.resolve before.workingDirectory).parts) :
    after.stored path = before.stored path := by
  rw [World.stored, World.stored, same.workingDirectory]
  by_cases folder : before.disk.HasFolder (path.resolve before.workingDirectory).parts
  · rw [folder.fileAt?, ((same.folders _).mpr folder).fileAt?]
  · rw [FileTree.fileAt?, FileTree.fileAt?, same.files _ apart folder]

/-- A later world in which some files hold what they held. -/
structure Spares (files : Path → Prop) (before after : World) : Prop where
  workingDirectory : after.workingDirectory = before.workingDirectory
  stored : ∀ path, files path → after.stored path = before.stored path

namespace Spares

variable {files : Path → Prop} {before after start : World}

theorem refl (files : Path → Prop) (world : World) : Spares files world world :=
  ⟨rfl, fun _ _ => rfl⟩

theorem trans {last : World} (first : Spares files before after)
    (second : Spares files after last) : Spares files before last where
  workingDirectory := second.workingDirectory.trans first.workingDirectory
  stored path file := (second.stored path file).trans (first.stored path file)

theorem mono {fewer : Path → Prop} (spares : Spares files before after)
    (subset : ∀ path, fewer path → files path) : Spares fewer before after :=
  ⟨spares.workingDirectory, fun path file => spares.stored path (subset path file)⟩

theorem of_sameApart {spots : List String → Prop} (same : SameApart spots before after)
    (apart : ∀ path, files path → ¬ spots (path.resolve before.workingDirectory).parts) :
    Spares files before after :=
  ⟨same.workingDirectory, fun path file => same.stored (apart path file)⟩

/-- What each world is spared each later world is. -/
theorem preserves {α : Type} {action : Act α}
    (step : ∀ world, Spares files world (runFrom world action).2) :
    Preserves (Spares files start) action :=
  fun world spares => spares.trans (step world)

theorem of_disk (disk : after.disk = before.disk)
    (workingDirectory : after.workingDirectory = before.workingDirectory) :
    Spares files before after where
  workingDirectory := workingDirectory
  stored path _ := by rw [World.stored, World.stored, disk, workingDirectory]

theorem readClock : Preserves (Spares files start) World.readClock :=
  preserves (fun _ => of_disk rfl rfl)

theorem makeFolder (below : ∀ path workingDirectory, files path →
      (path.resolve workingDirectory).parts ≠ []) (folder : Path) :
    Preserves (Spares files start) (World.makeFolder folder) := by
  refine preserves (fun world => ?_)
  cases checked : checkPath folder with
  | error fault =>
    have same : (runFrom world (World.makeFolder folder)).2 = world := by
      simp [World.makeFolder, checked]
    rw [same]
    exact refl files world
  | ok _ =>
    have made : (runFrom world (World.makeFolder folder)).2 = { world with
        disk := (world.disk.makeWay folder.toString []
          (world.workingDirectory ++ folder).parts).1 } := by
      simp [World.makeFolder, checked]
    rw [made]
    exact ⟨rfl, fun path file => Disk.fileAt?_makeWay _ _ _ _ (.inl rfl) (below path _ file)⟩

theorem makeSubfolder (below : ∀ path workingDirectory, files path →
      (path.resolve workingDirectory).parts ≠ []) (folder : Path) {name : String}
    (notUp : name ≠ "..") :
    Preserves (Spares files start) (World.makeSubfolder (folder.child name)) := by
  refine preserves (fun world => ?_)
  cases located : world.locate (folder.child name) with
  | error fault =>
    simpa [World.makeSubfolder, located] using refl files world
  | ok names =>
    cases stands : world.disk.find? names with
    | some entry =>
      cases entry with
      | folder entries =>
        simpa [World.makeSubfolder, located, stands] using refl files world
      | file content =>
        simpa [World.makeSubfolder, located, stands] using refl files world
    | none =>
      obtain ⟨base, rfl, parent, -⟩ := locate_child notUp located
      have made : (runFrom world (World.makeSubfolder (folder.child name))).2 = { world with
          disk := world.disk.insert (base ++ [name]) (.folder []) } := by
        simp [World.makeSubfolder, located, stands]
      rw [made]
      exact ⟨rfl, fun path file =>
        FileTree.fileAt?_insert_folder stands (.inr parent) (below path _ file)⟩

theorem writeFile {folder : Path} {name : String} (notUp : name ≠ "..")
    (apart : ∀ path workingDirectory, files path → (path.resolve workingDirectory).parts ≠
      ((folder.child name).resolve workingDirectory).parts) (body : Body) :
    Preserves (Spares files start) (World.writeFile (folder.child name) body) := by
  refine preserves (fun world => ?_)
  rw [runFrom_writeFile]
  cases placed : world.placeFor (folder.child name) with
  | error fault => exact refl files world
  | ok names =>
    obtain ⟨located, notFolder⟩ := (placeFor_eq_ok_iff _ _ _).mp placed
    exact of_sameApart (put_sameApart notUp body located notFolder) (fun path file leads =>
      apart path _ file (eq_resolve_of_locate leads))

end Spares

end World

end CodeAtlas
