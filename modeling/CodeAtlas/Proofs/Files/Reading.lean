import CodeAtlas.Proofs.Files.Keeping

/-!
# Reading the files below a place

A file that the names below a place lead to is read exactly if the file system takes its
path, as a whole and name by name.  What was changed elsewhere on the disk makes no
difference.
-/

namespace CodeAtlas

namespace Path

variable {tree : FileTree Stored}

/-- The path of what the names lead to from a place. -/
def below (place : Path) (names : List String) : Path :=
  ⟨place.anchor, place.parts ++ names⟩

/-- Whether the file system takes a path: as a whole and each of its names. -/
def isReachable (path : Path) : Bool :=
  (World.checkPath path).isOk && path.parts.all (fun part => part.utf8ByteSize ≤ nameLimit)

theorem below_concat (place : Path) (names : List String) (name : String) :
    place.below (names ++ [name]) = (place.below names).child name := by
  simp [below, child]

theorem ofString_below {place : Path} {names : List String} (isPlace : place.IsPlace)
    (validNames : ∀ part ∈ names, ValidName part) :
    ofString (place.below names).toString = place.below names := by
  refine ofString_toString (by simp [below, isPlace.absolute]) (fun part member => ?_)
  exact (List.mem_append.mp member).elim (isPlace.valid part) (validNames part)

end Path

namespace Disk

variable {disk : Disk} {shown : String} {passed parts : List String}

/-- Where the folders on the way stand, only a name that is too long stops. -/
theorem follow_of_folders (plain : ∀ part ∈ parts, part ≠ "..")
    (folders : parts ≠ [] → disk.HasFolder (passed.reverse ++ parts.dropLast)) :
    disk.follow shown passed parts =
      if parts.all (fun part => part.utf8ByteSize ≤ nameLimit) then
        .ok (passed.reverse ++ parts)
      else .error (.nameTooLong shown) := by
  induction parts generalizing passed with
  | nil => simp [follow]
  | cons part parts ih =>
    obtain ⟨notUp, plain'⟩ := List.forall_mem_cons.mp plain
    have stands := folders (List.cons_ne_nil part parts)
    obtain ⟨entries, folder⟩ := stands.above (List.prefix_append _ _)
    have later := @ih (part :: passed) plain' (fun some => by
      simpa [List.dropLast_cons_of_ne_nil some] using stands)
    rw [follow, folder]
    by_cases long : nameLimit < part.utf8ByteSize
    · simp [long, Nat.not_le.mpr long]
    · simp [long, notUp, later, Nat.not_lt.mp long]

/-- Following components climbs as resolving does. -/
theorem eq_climb_of_follow {names : List String}
    (followed : disk.follow shown passed parts = .ok names) :
    names = (parts.foldl Path.climb passed).reverse := by
  induction parts generalizing passed with
  | nil => exact (Except.ok.inj followed).symm
  | cons part parts ih =>
    rw [follow] at followed
    split at followed
    · split at followed
      · cases followed
      · exact ih followed
    · cases followed
    · cases followed

end Disk

namespace World

variable {world after : World} {place : Path} {names : List String}

theorem append_absolute (base : Path) (absolute : place.anchor = .root) :
    base ++ place = place := by
  show Path.append base place = place
  simp [Path.append, Path.isAbsolute, absolute]

theorem eq_resolve_of_locate {path : Path} (located : world.locate path = .ok names) :
    names = (path.resolve world.workingDirectory).parts :=
  Disk.eq_climb_of_follow (follow_of_locate located).2

/-- Without double dots the components lead to where they say. -/
theorem eq_parts_of_locate (absolute : place.anchor = .root)
    (plain : ∀ part ∈ place.parts, part ≠ "..") (leads : world.locate place = .ok names) :
    names = place.parts := by
  rw [eq_resolve_of_locate leads, Path.resolve, append_absolute _ absolute, Path.normalParts,
    Path.foldl_climb plain, List.append_nil, List.reverse_reverse]

/-- Where something stands at a place without double dots, its names lead there. -/
theorem locate_of_lookUp (isPlace : place.IsPlace)
    (found : world.lookUp place = .ok (some tree)) : world.locate place = .ok place.parts := by
  unfold lookUp at found
  split at found
  · rename_i located leads
    rw [leads, eq_parts_of_locate isPlace.absolute isPlace.plain leads]
  · cases found
  · cases Except.ok.inj found

theorem find?_of_lookUp (isPlace : place.IsPlace) (found : world.lookUp place = .ok (some tree)) :
    world.disk.find? place.parts = some tree := by
  have leads := locate_of_lookUp isPlace found
  rw [lookUp, leads] at found
  exact Except.ok.inj found

/-- A file below a place is read exactly if its path is taken. -/
theorem file_below {stored : Stored} (isPlace : place.IsPlace)
    (validNames : ∀ part ∈ names, ValidName part) (found : world.lookUp place = .ok (some tree))
    (leads : tree.find? names = some (.file stored)) :
    (world.file (place.below names)).toOption =
      if (place.below names).isReachable then some stored else none := by
  have stands : world.disk.find? (place.parts ++ names) = some (.file stored) := by
    rw [FileTree.find?_append, find?_of_lookUp isPlace found]
    exact leads
  have plain : ∀ part ∈ place.parts ++ names, part ≠ ".." := by
    intro part member
    rcases List.mem_append.mp member with inPlace | inNames
    · exact isPlace.plain part inPlace
    · exact (validNames part inNames).notUp
  have folders (some : place.parts ++ names ≠ []) :
      world.disk.HasFolder (place.parts ++ names).dropLast := by
    rw [← List.dropLast_concat_getLast some] at stands
    exact FileTree.hasFolder_of_find?_append stands
  have followed := @Disk.follow_of_folders world.disk (place.below names).toString []
    (place.parts ++ names) plain folders
  have same : world.workingDirectory ++ place.below names = place.below names :=
    append_absolute _ isPlace.absolute
  unfold file Path.isReachable
  rw [locate_eq, same]
  cases checked : checkPath (place.below names) with
  | error fault => rfl
  | ok _ =>
    by_cases short :
        (place.parts ++ names).all (fun part => part.utf8ByteSize ≤ nameLimit) = true
    · rw [if_pos short] at followed
      have short' : (place.below names).parts.all
          (fun part => part.utf8ByteSize ≤ nameLimit) = true := short
      have followed' : world.disk.follow (place.below names).toString []
          (place.below names).parts = .ok (place.parts ++ names) := followed
      rw [followed', short']
      simp [Except.bind, bind, stands, pure, Except.pure, Except.toOption,
        Except.isOk, Except.toBool]
    · rw [if_neg short] at followed
      have short' : (place.below names).parts.all
          (fun part => part.utf8ByteSize ≤ nameLimit) = false := by
        simpa [Path.below] using short
      have followed' : world.disk.follow (place.below names).toString []
          (place.below names).parts = .error (.nameTooLong (place.below names).toString) :=
        followed
      rw [followed', short']
      simp [Except.bind, bind, Except.toOption]

theorem SameApart.lookUp_ok {spots : List String → Prop} {path : Path}
    {files : Option (FileTree Stored)} (same : SameApart spots world after)
    (found : world.lookUp path = .ok files) : ∃ files', after.lookUp path = .ok files' := by
  cases checked : checkPath path with
  | error fault => exact ⟨files, (lookUp_refused checked world after).trans found⟩
  | ok _ =>
    rw [World.lookUp_eq checked] at found ⊢
    rw [same.reached]
    split at found
    · exact ⟨_, rfl⟩
    · cases found

theorem SameApart.file_toOption {spots : List String → Prop} {path : Path}
    (same : SameApart spots world after)
    (notSpot : ∀ names, world.locate path = .ok names → ¬ spots names) :
    (after.file path).toOption = (world.file path).toOption := by
  have wanted : ∀ world : World, (world.file path).toOption =
      ((world.locate path).toOption.bind world.disk.find?).bind FileTree.content? := by
    intro world
    unfold file
    cases world.locate path with
    | error fault => rfl
    | ok names =>
      simp only [bind, Except.bind, Except.toOption, Option.bind_some]
      cases world.disk.find? names with
      | none => rfl
      | some entry => cases entry <;> rfl
  rw [wanted, wanted]
  cases located : world.locate path with
  | error fault =>
    cases located' : after.locate path with
    | error fault => rfl
    | ok names =>
      rw [(same.locate_iff path names).mp located'] at located
      cases located
  | ok names =>
    rw [(same.locate_iff path names).mpr located]
    by_cases folder : world.disk.HasFolder names
    · -- A folder stays one, whatever is in it.
      obtain ⟨entries, here⟩ := folder
      obtain ⟨entries', here'⟩ := (same.folders names).mpr ⟨entries, here⟩
      simp [Except.toOption, here, here', FileTree.content?]
    · simp [Except.toOption, same.files names (notSpot names located) folder]

end World

end CodeAtlas
