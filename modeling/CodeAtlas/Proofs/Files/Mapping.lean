import CodeAtlas.Proofs.Files.Storing
import CodeAtlas.Proofs.Tracking.Files

/-!
# Disks whose files hold something else

The files of a disk are mapped: each one holds something else, which depends on where the file
stands.  Folders and names stay, so every path leads to where it led, and what is written, made or
deleted is so on the mapped disk too.  Two actions mirror each other if the second one does from
the image of a state what the first one does from the state.
-/

namespace CodeAtlas

section Mirrors

variable {σ α β γ δ : Type}

/-- Both outcomes are values, which are related, or both are the same fault. -/
inductive Matches (related : α → β → Prop) : Except Fault α → Except Fault β → Prop where
  | ok {value : α} {other : β} : related value other → Matches related (.ok value) (.ok other)
  | error (fault : Fault) : Matches related (.error fault) (.error fault)

namespace Matches

variable {related : α → β → Prop}

theorem of_eq {first second : Except Fault α} (same : second = first) :
    Matches Eq first second := by
  subst same
  cases second with
  | ok value => exact .ok rfl
  | error fault => exact .error fault

theorem of_map {first : Except Fault α} {second : Except Fault β} {change : α → β}
    (same : second = first.map change) :
    Matches (fun value other => other = change value) first second := by
  subst same
  cases first with
  | ok value => exact .ok rfl
  | error fault => exact .error fault

theorem eq_map {first : Except Fault α} {second : Except Fault β} {change : α → β}
    (fits : Matches (fun value other => other = change value) first second) :
    second = first.map change := by
  cases fits with
  | ok same => exact congrArg Except.ok same
  | error fault => rfl

theorem mono {wider : α → β → Prop} {first : Except Fault α} {second : Except Fault β}
    (fits : Matches related first second)
    (weaker : ∀ value other, related value other → wider value other) :
    Matches wider first second := by
  cases fits with
  | ok holds => exact .ok (weaker _ _ holds)
  | error fault => exact .error fault

end Matches

variable {image : σ → σ} {property : σ → Prop} {related : α → β → Prop}
  {action : ExceptT Fault (StateM σ) α} {other : ExceptT Fault (StateM σ) β}
  {next : α → ExceptT Fault (StateM σ) γ} {next' : β → ExceptT Fault (StateM σ) δ}

/-- Where the property holds, the second action does from the image of a state what the first one
does from the state: the outcomes match, and the state that is left is the image. -/
def Mirrors (image : σ → σ) (property : σ → Prop) (related : α → β → Prop)
    (action : ExceptT Fault (StateM σ) α) (other : ExceptT Fault (StateM σ) β) : Prop :=
  ∀ state, property state → property (runFrom state action).2 ∧
    (runFrom (image state) other).2 = image (runFrom state action).2 ∧
    Matches related (runFrom state action).1 (runFrom (image state) other).1

namespace Mirrors

variable {related' : γ → δ → Prop}

theorem pure {value : α} {other : β} (holds : related value other) :
    Mirrors image property related (Pure.pure value : ExceptT Fault (StateM σ) α)
      (Pure.pure other) :=
  fun _ kept => ⟨kept, rfl, .ok holds⟩

theorem throw (fault : Fault) :
    Mirrors image property related (MonadExcept.throw fault : ExceptT Fault (StateM σ) α)
      (MonadExcept.throw fault) :=
  fun _ kept => ⟨kept, rfl, .error fault⟩

theorem orFail {result : Except Fault α} {other : Except Fault β}
    (fits : Matches related result other) :
    Mirrors image property related (CodeAtlas.orFail result : ExceptT Fault (StateM σ) α)
      (CodeAtlas.orFail other) := by
  intro state kept
  rw [runFrom_orFail, runFrom_orFail]
  exact ⟨kept, rfl, fits⟩

theorem mono {wider : α → β → Prop} (mirrors : Mirrors image property related action other)
    (weaker : ∀ value other, related value other → wider value other) :
    Mirrors image property wider action other := by
  intro state kept
  obtain ⟨after, same, fits⟩ := mirrors state kept
  exact ⟨after, same, fits.mono weaker⟩

/-- Both actions fail alike, or both give values that are related. -/
theorem outcomes (mirrors : Mirrors image property related action other) {state : σ}
    (kept : property state) :
    (∃ fault after, property after ∧ runFrom state action = (.error fault, after) ∧
      runFrom (image state) other = (.error fault, image after)) ∨
    ∃ value value' after, property after ∧ related value value' ∧
      runFrom state action = (.ok value, after) ∧
      runFrom (image state) other = (.ok value', image after) := by
  obtain ⟨after, same, fits⟩ := mirrors state kept
  rcases one : runFrom state action with ⟨outcome, between⟩
  rcases two : runFrom (image state) other with ⟨outcome', between'⟩
  rw [one] at after same fits
  rw [two] at same fits
  dsimp only at after same fits
  subst same
  cases fits with
  | error fault => exact .inl ⟨fault, between, after, rfl, rfl⟩
  | ok holds => exact .inr ⟨_, _, between, after, holds, rfl, rfl⟩

theorem bind (first : Mirrors image property related action other)
    (second : ∀ value other, related value other →
      Mirrors image property related' (next value) (next' other)) :
    Mirrors image property related' (action >>= next) (other >>= next') := by
  intro state kept
  rw [runFrom_bind, runFrom_bind]
  rcases first.outcomes kept with ⟨fault, between, after, one, two⟩ |
    ⟨value, value', between, after, holds, one, two⟩
  · rw [one, two]
    exact ⟨after, rfl, .error fault⟩
  · rw [one, two]
    exact second value value' holds between after

theorem tryCatch {handle : Fault → ExceptT Fault (StateM σ) α}
    {handle' : Fault → ExceptT Fault (StateM σ) β}
    (first : Mirrors image property related action other)
    (second : ∀ fault, Mirrors image property related (handle fault) (handle' fault)) :
    Mirrors image property related (MonadExcept.tryCatch action handle)
      (MonadExcept.tryCatch other handle') := by
  intro state kept
  rw [runFrom_tryCatch, runFrom_tryCatch]
  rcases first.outcomes kept with ⟨fault, between, after, one, two⟩ |
    ⟨value, value', between, after, holds, one, two⟩
  · rw [one, two]
    exact second fault between after
  · rw [one, two]
    exact ⟨after, rfl, .ok holds⟩

theorem branch {condition : Prop} [Decidable condition] {one two : ExceptT Fault (StateM σ) α}
    {one' two' : ExceptT Fault (StateM σ) β} (first : Mirrors image property related one one')
    (second : Mirrors image property related two two') :
    Mirrors image property related (if condition then one else two)
      (if condition then one' else two') := by
  split
  · exact first
  · exact second

theorem guarded {condition : Prop} [Decidable condition] {first other : ExceptT Fault (StateM σ) γ}
    {next : ExceptT Fault (StateM σ) α} {next' : ExceptT Fault (StateM σ) β}
    (earlier : Mirrors image property Eq first other)
    (later : Mirrors image property related next next') :
    Mirrors image property related (if condition then first >>= fun _ => next else next)
      (if condition then other >>= fun _ => next' else next') :=
  .branch (.bind earlier (fun _ _ _ => later)) later

theorem either {condition : Prop} [Decidable condition] {one two : ExceptT Fault (StateM σ) α}
    {one' two' : ExceptT Fault (StateM σ) β} (first : Mirrors image property related one one')
    (second : Mirrors image property related two two') (rest : ∀ value other, related value other →
      Mirrors image property related' (next value) (next' other)) :
    Mirrors image property related' (if condition then one >>= next else two >>= next)
      (if condition then one' >>= next' else two' >>= next') :=
  .branch (.bind first rest) (.bind second rest)

theorem mapM {step : α → ExceptT Fault (StateM σ) γ} {step' : β → ExceptT Fault (StateM σ) δ}
    {change : α → β} (each : ∀ item, Mirrors image property related' (step item)
      (step' (change item))) (items : List α) :
    Mirrors image property (fun _ _ => True) (items.mapM step)
      ((items.map change).mapM step') := by
  induction items with
  | nil => exact .pure trivial
  | cons item items ih =>
    rw [List.map_cons, List.mapM_cons, List.mapM_cons]
    exact .bind (each item) (fun _ _ _ => .bind ih (fun _ _ _ => .pure trivial))

end Mirrors

/-- Where the property holds, the second action leaves the image of the state that the first one
leaves, whatever the outcomes are. -/
def Shadows (image : σ → σ) (property : σ → Prop) (action : ExceptT Fault (StateM σ) α)
    (other : ExceptT Fault (StateM σ) β) : Prop :=
  ∀ state, property state → property (runFrom state action).2 ∧
    (runFrom (image state) other).2 = image (runFrom state action).2

namespace Shadows

theorem of_mirrors (mirrors : Mirrors image property related action other) :
    Shadows image property action other :=
  fun state kept => ⟨(mirrors state kept).1, (mirrors state kept).2.1⟩

theorem of_same (same : ∀ state, (runFrom state action).2 = state)
    (same' : ∀ state, (runFrom state other).2 = state) : Shadows image property action other := by
  intro state kept
  rw [same, same']
  exact ⟨kept, rfl⟩

theorem bind (first : Mirrors image property related action other)
    (second : ∀ value other, related value other →
      Shadows image property (next value) (next' other)) :
    Shadows image property (action >>= next) (other >>= next') := by
  intro state kept
  rw [runFrom_bind, runFrom_bind]
  rcases first.outcomes kept with ⟨fault, between, after, one, two⟩ |
    ⟨value, value', between, after, holds, one, two⟩
  · rw [one, two]
    exact ⟨after, rfl⟩
  · rw [one, two]
    exact second value value' holds between after

end Shadows

end Mirrors

namespace FileTree

variable {α : Type}

mutual

/-- The tree with what each file holds changed; the names lead to the file. -/
def mapFiles (change : List String → α → α) : FileTree α → FileTree α
  | .file content => .file (change [] content)
  | .folder entries => .folder (mapFilesOf change entries)

def mapFilesOf (change : List String → α → α) :
    List (String × FileTree α) → List (String × FileTree α)
  | [] => []
  | (name, tree) :: rest =>
    (name, mapFiles (fun names => change (name :: names)) tree) :: mapFilesOf change rest

end

variable {change : List String → α → α}

@[simp]
theorem isFolder_mapFiles (tree : FileTree α) : (tree.mapFiles change).isFolder = tree.isFolder := by
  cases tree <;> rfl

theorem entries_mapFiles (tree : FileTree α) :
    (tree.mapFiles change).entries = mapFilesOf change tree.entries := by
  cases tree <;> rfl

theorem lookup_mapFilesOf (entries : List (String × FileTree α)) (name : String) :
    (mapFilesOf change entries).lookup name =
      (entries.lookup name).map (mapFiles (fun names => change (name :: names))) := by
  induction entries with
  | nil => rfl
  | cons entry entries ih =>
    obtain ⟨first, tree⟩ := entry
    rw [mapFilesOf, List.lookup_cons, List.lookup_cons]
    cases same : name == first with
    | false => exact ih
    | true =>
      obtain rfl : name = first := beq_iff_eq.mp same
      rfl

theorem find?_mapFiles (tree : FileTree α) (names : List String) :
    (tree.mapFiles change).find? names =
      (tree.find? names).map (mapFiles (fun more => change (names ++ more))) := by
  induction names generalizing tree change with
  | nil => rfl
  | cons name names ih =>
    rw [find?_cons, find?_cons, entries_mapFiles, lookup_mapFilesOf]
    cases tree.entries.lookup name with
    | none => rfl
    | some below => exact ih below

theorem mapFilesOf_eq (change : List String → α → α) (entries : List (String × FileTree α)) :
    mapFilesOf change entries = entries.map (fun entry =>
      (entry.1, entry.2.mapFiles (fun names => change (entry.1 :: names)))) := by
  induction entries with
  | nil => rfl
  | cons entry rest ih => exact congrArg _ ih

theorem mapFilesOf_of_each {entries : List (String × FileTree α)} (each : ∀ entry ∈ entries,
      entry.2.mapFiles (fun names => change (entry.1 :: names)) = entry.2) :
    mapFilesOf change entries = entries := by
  rw [mapFilesOf_eq]
  refine (List.map_congr_left (fun entry member => ?_)).trans (List.map_id entries)
  rw [each entry member]
  rfl

theorem mapFiles_of_fixed (fixed : ∀ names content, change names content = content)
    (tree : FileTree α) : tree.mapFiles change = tree := by
  induction tree using of_entries generalizing change with
  | files content => rw [mapFiles, fixed]
  | folders entries ih =>
    exact congrArg folder (mapFilesOf_of_each (fun entry member =>
      ih entry member (fun names => fixed (entry.1 :: names))))

theorem mapFiles_of_found {tree : FileTree α} (wellFormed : tree.WellFormed)
    (fixed : ∀ names content, tree.find? names = some (.file content) →
      change names content = content) : tree.mapFiles change = tree := by
  induction tree using of_entries generalizing change with
  | files content => rw [mapFiles, fixed [] content rfl]
  | folders entries ih =>
    refine congrArg folder (mapFilesOf_of_each (fun entry member => ?_))
    have found := wellFormed.find?_of_mem member
    apply ih entry member (wellFormed.below found)
    intro names content below
    apply fixed (entry.1 :: names) content
    exact (find?_append _ [entry.1] names).trans (by rw [found, Option.bind_some, below])

theorem mapFilesOf_insertEntries (name : String) (tree : FileTree α)
    (entries : List (String × FileTree α)) :
    mapFilesOf change (Table.insertEntries name tree entries) =
      Table.insertEntries name (tree.mapFiles (fun names => change (name :: names)))
        (mapFilesOf change entries) := by
  induction entries with
  | nil => rfl
  | cons entry entries ih =>
    obtain ⟨first, other⟩ := entry
    rw [mapFilesOf, Table.insertEntries, Table.insertEntries]
    cases same : name == first with
    | false =>
      rw [if_neg (by simp), if_neg (by simp), mapFilesOf, ih]
    | true =>
      obtain rfl : name = first := beq_iff_eq.mp same
      rw [if_pos rfl, if_pos rfl, mapFilesOf]

theorem mapFiles_insert (tree entry : FileTree α) (names : List String) :
    (tree.insert names entry).mapFiles change =
      (tree.mapFiles change).insert names
        (entry.mapFiles (fun more => change (names ++ more))) := by
  induction names generalizing tree change with
  | nil => rfl
  | cons name names ih =>
    rw [insert, insert, mapFiles, mapFilesOf_insertEntries, entries_mapFiles, lookup_mapFilesOf,
      ih]
    cases tree.entries.lookup name <;> rfl

theorem mapFilesOf_filter (keep : String → Bool) (entries : List (String × FileTree α)) :
    mapFilesOf change (entries.filter (fun entry => keep entry.1)) =
      (mapFilesOf change entries).filter (fun entry => keep entry.1) := by
  rw [mapFilesOf_eq, mapFilesOf_eq, List.filter_map]
  rfl

theorem mapFiles_erase {change : List String → α → α} (tree : FileTree α) (names : List String) :
    (tree.erase names).mapFiles change = (tree.mapFiles change).erase names := by
  match names with
  | [] => rfl
  | [name] =>
    cases tree with
    | file content => rfl
    | folder entries => exact congrArg _ (mapFilesOf_filter (fun other => !(name == other)) entries)
  | name :: next :: names =>
    rw [erase, erase, entries_mapFiles, lookup_mapFilesOf]
    · cases tree.entries.lookup name with
      | none => rfl
      | some below =>
        exact congrArg _ ((mapFilesOf_insertEntries name _ _).trans
          (congrArg (Table.insertEntries name · _) (mapFiles_erase below (next :: names))))
    · exact List.cons_ne_nil next names
    · exact List.cons_ne_nil next names

mutual

theorem anyName_mapFiles (change : List String → α → α) (property : String → Bool)
    (tree : FileTree α) : (tree.mapFiles change).anyName property = tree.anyName property := by
  cases tree with
  | file content => rfl
  | folder entries => exact anyNameOf_mapFilesOf change property entries

theorem anyNameOf_mapFilesOf (change : List String → α → α) (property : String → Bool)
    (entries : List (String × FileTree α)) :
    anyNameOf property (mapFilesOf change entries) = anyNameOf property entries := by
  match entries with
  | [] => rfl
  | (name, tree) :: rest =>
    rw [mapFilesOf, anyNameOf, anyNameOf, anyName_mapFiles _ property tree,
      anyNameOf_mapFilesOf change property rest]

end

end FileTree

namespace Disk

variable {change : List String → Stored → Stored}

theorem follow_mapFiles (disk : Disk) (shown : String) (passed parts : List String) :
    Disk.follow (disk.mapFiles change) shown passed parts = disk.follow shown passed parts := by
  induction parts generalizing passed with
  | nil => rfl
  | cons part parts ih =>
    rw [follow, follow, FileTree.find?_mapFiles]
    rcases disk.find? passed.reverse with _ | ⟨stored⟩ | ⟨entries⟩
    · rfl
    · rfl
    · simp only [Option.map_some, FileTree.mapFiles, ih]

theorem makeWay_mapFiles (disk : Disk) (shown : String) (passed parts : List String) :
    Disk.makeWay (disk.mapFiles change) shown passed parts =
      (FileTree.mapFiles change (disk.makeWay shown passed parts).1,
        (disk.makeWay shown passed parts).2) := by
  induction parts generalizing disk passed with
  | nil => rfl
  | cons part parts ih =>
    have made (names : List String) : (FileTree.mapFiles change disk).insert names (.folder []) =
        (disk.insert names (.folder [])).mapFiles change :=
      (FileTree.mapFiles_insert disk (.folder []) names).symm
    rw [makeWay, makeWay, FileTree.find?_mapFiles]
    split
    · exact ih disk passed.tail
    · split
      · rfl
      · rcases disk.find? (part :: passed).reverse with _ | ⟨stored⟩ | ⟨entries⟩
        · simp only [Option.map_none, made]
          exact ih _ _
        · rfl
        · exact ih disk (part :: passed)

end Disk

namespace World

variable {change : List String → Stored → Stored} {world : World} {directory : Path}

def mapFiles (change : List String → Stored → Stored) (world : World) : World :=
  { world with disk := world.disk.mapFiles change }

/-- Where a path leads to, seen from a working directory. -/
def spotOf (directory path : Path) : List String :=
  (path.resolve directory).parts

def IsIn (directory : Path) (world : World) : Prop :=
  world.workingDirectory = directory

theorem locate_mapFiles (world : World) (path : Path) :
    (world.mapFiles change).locate path = world.locate path := by
  rw [locate_eq, locate_eq]
  exact congrArg _ (funext fun _ => congrArg (Except.mapError Fault.disk)
    (Disk.follow_mapFiles world.disk _ _ _))

theorem eq_spotOf_of_locate (inside : world.IsIn directory) {path : Path} {names : List String}
    (located : world.locate path = .ok names) : names = spotOf directory path := by
  rw [eq_resolve_of_locate located, inside]
  rfl

theorem lookUp_mapFiles (inside : world.IsIn directory) (path : Path) :
    (world.mapFiles change).lookUp path =
      (world.lookUp path).map (Option.map
        (FileTree.mapFiles (fun more => change (spotOf directory path ++ more)))) := by
  rw [lookUp, lookUp, locate_mapFiles]
  cases located : world.locate path with
  | ok names =>
    obtain rfl := eq_spotOf_of_locate inside located
    exact congrArg Except.ok (FileTree.find?_mapFiles world.disk _)
  | error fault =>
    cases fault with
    | disk fault => cases fault <;> rfl
    | _ => rfl

theorem file_mapFiles (inside : world.IsIn directory) (path : Path) :
    (world.mapFiles change).file path =
      (world.file path).map (change (spotOf directory path)) := by
  rw [file, file, locate_mapFiles]
  cases located : world.locate path with
  | error fault => rfl
  | ok names =>
    obtain rfl := eq_spotOf_of_locate inside located
    have found : (world.mapFiles change).disk.find? (spotOf directory path) = _ :=
      FileTree.find?_mapFiles world.disk _
    simp only [bind, Except.bind, found]
    rcases world.disk.find? (spotOf directory path) with _ | ⟨stored⟩ | ⟨entries⟩
    · rfl
    · simp [FileTree.mapFiles, Except.map, Pure.pure, Except.pure]
    · rfl

theorem placeFor_mapFiles (world : World) (path : Path) :
    (world.mapFiles change).placeFor path = world.placeFor path := by
  rw [placeFor, placeFor, locate_mapFiles]
  cases world.locate path with
  | error fault => rfl
  | ok names =>
    have found : (world.mapFiles change).disk.find? names = _ :=
      FileTree.find?_mapFiles world.disk _
    simp only [bind, Except.bind, found]
    rcases world.disk.find? names with _ | ⟨stored⟩ | ⟨entries⟩
    · rfl
    · rfl
    · rfl

section Mirrors

variable {path : Path}

/-- Two actions do the same on a disk and on the mapped one. -/
abbrev MirrorsFiles {α β : Type} (change : List String → Stored → Stored) (directory : Path)
    (related : α → β → Prop) (action : Act α) (other : Act β) : Prop :=
  Mirrors (mapFiles change) (IsIn directory) related action other

theorem mirrors_get :
    MirrorsFiles change directory (fun world other => world.IsIn directory ∧
      other = world.mapFiles change) get get :=
  fun _ inside => ⟨inside, rfl, .ok ⟨inside, rfl⟩⟩

theorem mirrors_find (path : Path) :
    MirrorsFiles change directory (fun found other => other = found.map
      (FileTree.mapFiles (fun more => change (spotOf directory path ++ more))))
      (find path) (find path) := by
  refine .bind mirrors_get ?_
  rintro world _ ⟨inside, rfl⟩
  exact .orFail (.of_map (lookUp_mapFiles inside path))

theorem mirrors_exists? (path : Path) :
    MirrorsFiles change directory Eq (exists? path) (exists? path) := by
  refine .bind (mirrors_find path) ?_
  rintro found _ rfl
  exact .pure (by simp)

theorem mirrors_isFolder (path : Path) :
    MirrorsFiles change directory Eq (isFolder path) (isFolder path) := by
  refine .bind (mirrors_find path) ?_
  rintro (_ | tree) _ rfl
  · exact .pure rfl
  · exact .pure (FileTree.isFolder_mapFiles tree).symm

theorem mirrors_fileAt (path : Path) :
    MirrorsFiles change directory
      (fun stored other => other = change (spotOf directory path) stored)
      (fileAt path) (fileAt path) := by
  refine .bind mirrors_get ?_
  rintro world _ ⟨inside, rfl⟩
  exact .orFail (.of_map (file_mapFiles inside path))

theorem mirrors_documentAt_of {view : Value → Value}
    (reads : ∀ stored, (change (spotOf directory path) stored).document =
      stored.document.map view) :
    MirrorsFiles change directory (fun value other => other = view value)
      (documentAt path) (documentAt path) := by
  refine .bind (mirrors_fileAt path) ?_
  rintro stored _ rfl
  rw [reads]
  cases stored.document with
  | ok value => exact .pure rfl
  | error fault => exact .throw fault

section Unchanged

variable (unchanged : ∀ stored, change (spotOf directory path) stored = stored)

include unchanged

theorem mirrors_documentAt :
    MirrorsFiles change directory Eq (documentAt path) (documentAt path) := by
  have reads : ∀ stored, (change (spotOf directory path) stored).document =
      stored.document.map id := by
    intro stored
    rw [unchanged]
    cases stored.document <;> rfl
  exact (mirrors_documentAt_of reads).mono (fun _ _ same => same.symm)

theorem mirrors_namesAt : MirrorsFiles change directory Eq (namesAt path) (namesAt path) := by
  refine .bind (mirrors_fileAt path) ?_
  rintro stored _ rfl
  rw [unchanged]
  split
  · exact .pure rfl
  · exact .pure rfl
  · exact .throw _

end Unchanged

theorem mirrors_writeFile {body other : Body}
    (writes : ∀ now, change (spotOf directory path) ⟨body, now⟩ = ⟨other, now⟩) :
    MirrorsFiles change directory Eq (writeFile path body) (writeFile path other) := by
  intro world inside
  rw [runFrom_writeFile, runFrom_writeFile, placeFor_mapFiles]
  cases placed : world.placeFor path with
  | error fault => exact ⟨inside, rfl, .error fault⟩
  | ok names =>
    obtain rfl := eq_spotOf_of_locate inside ((placeFor_eq_ok_iff world path names).mp placed).1
    refine ⟨inside, ?_, .ok rfl⟩
    have inserted : (world.disk.insert (spotOf directory path)
        (.file ⟨body, world.now⟩)).mapFiles change = _ := FileTree.mapFiles_insert _ _ _
    rw [FileTree.mapFiles, List.append_nil, writes] at inserted
    simp only [put, mapFiles, inserted]

theorem mirrors_makeFolder (path : Path) :
    MirrorsFiles change directory Eq (makeFolder path) (makeFolder path) := by
  intro world inside
  simp only [makeFolder, runFrom_bind, runFrom_get, andThen_ok, runFrom_orFail]
  cases checkPath path with
  | error fault => exact ⟨inside, rfl, .error fault⟩
  | ok _ =>
    have made : Disk.makeWay (world.disk.mapFiles change) path.toString []
        (world.workingDirectory ++ path).parts = _ := Disk.makeWay_mapFiles _ _ _ _
    simp only [andThen_ok, mapFiles, made, runFrom_set]
    exact ⟨inside, trivial, .of_eq rfl⟩

theorem mirrors_makeSubfolder (path : Path) :
    MirrorsFiles change directory Eq (makeSubfolder path) (makeSubfolder path) := by
  intro world inside
  simp only [makeSubfolder, runFrom_bind, runFrom_get, andThen_ok, runFrom_orFail,
    locate_mapFiles]
  cases world.locate path with
  | error fault => exact ⟨inside, rfl, .error fault⟩
  | ok names =>
    have found : (world.mapFiles change).disk.find? names = _ :=
      FileTree.find?_mapFiles world.disk names
    simp only [andThen_ok, found]
    rcases world.disk.find? names with _ | ⟨stored⟩ | ⟨entries⟩
    · have inserted : (world.disk.insert names (.folder [])).mapFiles change = _ :=
        FileTree.mapFiles_insert _ _ _
      exact ⟨inside, congrArg (fun disk => { world with disk := disk }) inserted.symm, .ok rfl⟩
    · exact ⟨inside, rfl, .error _⟩
    · exact ⟨inside, rfl, .ok rfl⟩

theorem mirrors_deleteFile (path : Path) :
    MirrorsFiles change directory Eq (deleteFile path) (deleteFile path) := by
  intro world inside
  simp only [deleteFile, runFrom_bind, runFrom_get, andThen_ok, runFrom_orFail,
    locate_mapFiles]
  cases world.locate path with
  | error fault => exact ⟨inside, rfl, .error fault⟩
  | ok names =>
    have found : (world.mapFiles change).disk.find? names = _ :=
      FileTree.find?_mapFiles world.disk names
    simp only [andThen_ok, found]
    rcases world.disk.find? names with _ | ⟨stored⟩ | ⟨entries⟩
    · exact ⟨inside, rfl, .error _⟩
    · have erased : (world.disk.erase names).mapFiles change = _ :=
        FileTree.mapFiles_erase _ _
      exact ⟨inside, congrArg (fun disk => { world with disk := disk }) erased.symm, .ok rfl⟩
    · exact ⟨inside, rfl, .error _⟩

theorem mirrors_discard (path : Path) :
    MirrorsFiles change directory Eq (discard path) (discard path) := by
  refine .bind (mirrors_exists? path) ?_
  rintro found _ rfl
  split
  · exact mirrors_deleteFile path
  · exact .pure rfl

theorem mirrors_readClock : MirrorsFiles change directory Eq readClock readClock :=
  fun _ inside => ⟨inside, rfl, .ok rfl⟩

theorem mirrors_print (line : String) :
    MirrorsFiles change directory Eq (print line) (print line) :=
  fun _ inside => ⟨inside, rfl, .ok rfl⟩

theorem mirrors_resolve (text : String) :
    MirrorsFiles change directory (fun found other => other = found ∧
      found = (Path.ofString text).resolve directory) (resolve text) (resolve text) := by
  intro world inside
  cases null : (Path.ofString text).hasNull with
  | true =>
    simp only [resolve, null, if_true, runFrom_bind, runFrom_throw, andThen_error]
    exact ⟨inside, trivial, .error _⟩
  | false =>
    simp only [resolve, null, Bool.false_eq_true, if_false, runFrom_bind, runFrom_pure,
      runFrom_get, andThen_ok]
    exact ⟨inside, trivial, .ok ⟨rfl, congrArg _ inside⟩⟩

end Mirrors

end World

end CodeAtlas
