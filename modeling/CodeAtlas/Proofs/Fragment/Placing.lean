import CodeAtlas.Chunk.Loose
import CodeAtlas.Proofs.Actions
import CodeAtlas.Proofs.Paths
import Mathlib.Data.List.Forall2

/-!
# Placing fragments

Each fragment of a file below a root becomes one chunk, in order.  The path fields of the
chunk agree: the root and the relative path give the path of the file, and the folders are
the components of the relative path without the last.  An empty root counts as none, and then
only the folder that holds the file is kept.
-/

namespace CodeAtlas

theorem exists_mapM_forall₂ {α β γ : Type} {step : β → Except Fault γ} {related : α → γ → Prop}
    {sources : List α} {inputs : List β}
    (each : List.Forall₂ (fun source input => ∃ result, step input = .ok result ∧
      related source result) sources inputs) :
    ∃ results, inputs.mapM step = .ok results ∧ List.Forall₂ related sources results := by
  induction each with
  | nil => exact ⟨[], rfl, .nil⟩
  | cons first _ ih =>
    obtain ⟨result, made, here⟩ := first
    obtain ⟨results, others, rest⟩ := ih
    exact ⟨result :: results, by rw [List.mapM_cons, made, others]; rfl, .cons here rest⟩

theorem forall₂_of_mapM {α β : Type} {step : α → Option β} {inputs : List α} {results : List β}
    (succeeds : inputs.mapM step = some results) :
    List.Forall₂ (fun input result => step input = some result) inputs results := by
  induction inputs generalizing results with
  | nil =>
    obtain rfl : [] = results := Option.some.inj succeeds
    exact .nil
  | cons input inputs ih =>
    simp only [List.mapM_cons, bind, Option.bind_eq_some_iff] at succeeds
    obtain ⟨result, first, results, rest, ⟨⟩⟩ := succeeds
    exact .cons first (ih rest)

def Chunk.toLoose (chunk : Chunk) : LooseChunk where
  content := .text chunk.content
  kind := .text chunk.kind
  startLine := .int chunk.startLine
  endLine := .int chunk.endLine
  filePath := .text chunk.filePath
  relativePath := .text chunk.relativePath
  folders := .ofTexts chunk.folders
  name := .ofText? chunk.name
  parentName := .ofText? chunk.parentName
  docstring := .ofText? chunk.docstring
  decorators := .ofTexts chunk.decorators
  imports := .ofTexts chunk.imports
  complexity := .int chunk.complexity
  tags := .ofTexts chunk.tags

/-- The chunk of a fragment at a place: it has the content and the lines of the fragment, its
path fields agree, its tags end with the language, and no function has a parent. -/
structure PlacedAt (root file : Path) (fragment : LooseFragment) (chunk : LooseChunk) :
    Prop where
  content : chunk.content = fragment.content
  startLine : chunk.startLine = fragment.startLine
  endLine : chunk.endLine = fragment.endLine
  filePath : chunk.filePath = .text file.toString
  folders : ∃ relative folders, chunk.relativePath = .text relative ∧
    (root ++ Path.ofString relative).toString = file.toString ∧
    chunk.folders = .ofTexts folders ∧
    folders ++ [file.name] = (Path.ofString relative).allParts
  tags : ∃ marks, chunk.tags = .list (marks ++ [fragment.language])
  kind : chunk.parentName.isTruthy = true → chunk.kind ≠ .text "function"

namespace LooseFragment

theorem eq_of_regular? {loose : LooseFragment} {fragment : Fragment}
    (known : loose.regular? = some fragment) :
    loose.content = .text fragment.content ∧ loose.startLine = .int fragment.startLine ∧
      loose.endLine = .int fragment.endLine ∧ loose.language = .text fragment.language := by
  have text : ∀ {value : Value} {text}, value.asText? = some text → value = .text text := by
    rintro ⟨⟩ _ ⟨⟩
    rfl
  have whole : ∀ {value : Value} {number}, value.asWhole? = some number →
      value = .int number := by
    rintro ⟨⟩ _ ⟨⟩
    rfl
  obtain ⟨content, startLine, endLine, kind, language, facts⟩ := loose
  cases facts with
  | record fields =>
    simp only [regular?, bind, Option.bind_eq_some_iff] at known
    obtain ⟨_, -, _, content, _, startLine, _, endLine, _, -, _, language, ⟨⟩⟩ := known
    exact ⟨text content, whole startLine, whole endLine, text language⟩
  | _ => cases known

/-- A kind that can be looked up has a common word, which is no function under a parent. -/
theorem chunkKind_of_isPlain {kind : Value} (plain : kind.isPlain = true) (parent : Value) :
    ∃ common, chunkKind kind parent = .ok common ∧
      (parent.isTruthy = true → common ≠ .text "function") := by
  unfold chunkKind
  simp only [plain, Bool.not_true, Bool.false_eq_true, if_false]
  cases kind.asText?.bind (fun name => commonKinds.lookup name)
  all_goals
    dsimp only
    split
    · refine ⟨_, rfl, fun inside => ?_⟩
      simp [inside]
    · rename_i other
      exact ⟨_, rfl, fun _ => other⟩

end LooseFragment

section Below

variable {root path relative : Path} (components : ∀ part ∈ path.parts, IsComponent part)
  (seen : path.relativeTo? root = some relative) (strict : relative.parts ≠ [])

include seen

theorem Path.append_of_relativeTo? : root ++ relative = path := by
  obtain ⟨isRelative, anchor, parts⟩ := Path.eq_of_relativeTo? seen
  have joined : root ++ relative = ⟨root.anchor, root.parts ++ relative.parts⟩ :=
    if_neg (by simp [Path.isAbsolute, isRelative])
  rw [joined, ← anchor, ← parts]

theorem Path.name_of_relativeTo? (strict : relative.parts ≠ []) :
    relative.parent.parts ++ [path.name] = relative.parts := by
  obtain ⟨-, -, parts⟩ := Path.eq_of_relativeTo? seen
  rw [Path.name, parts, List.getLast?_append_of_ne_nil _ strict,
    List.getLast?_eq_some_getLast strict]
  exact List.dropLast_concat_getLast strict

include components

theorem Path.ofString_of_relativeTo? : Path.ofString relative.toString = relative := by
  obtain ⟨isRelative, -, parts⟩ := Path.eq_of_relativeTo? seen
  refine Path.ofString_toString_of_components (by simp [isRelative]) (fun part member => ?_)
  exact components part (parts ▸ List.mem_append_right _ member)

/-- The folders that are filled in are those that are there already. -/
theorem Chunk.foldersAbove_of_relativeTo? :
    Chunk.foldersAbove relative.toString = relative.parent.parts := by
  rw [Chunk.foldersAbove, Path.ofString_of_relativeTo? components seen]
  exact if_pos (Path.eq_of_relativeTo? seen).1

theorem Chunk.place_of_relativeTo? {chunk : Chunk}
    (isRelative : chunk.relativePath = relative.toString)
    (folders : chunk.folders = relative.parent.parts) : chunk.place = chunk := by
  have same := Chunk.foldersAbove_of_relativeTo? components seen
  rw [← isRelative, ← folders] at same
  rw [Chunk.place, same]
  exact ite_self chunk

theorem LooseChunk.place_of_relativeTo? {chunk : LooseChunk}
    (isRelative : chunk.relativePath = .text relative.toString)
    (folders : chunk.folders = .ofTexts relative.parent.parts) :
    chunk.place = .ok { chunk with
      decorators := listOr chunk.decorators
      imports := listOr chunk.imports
      tags := listOr chunk.tags } := by
  have same := Chunk.foldersAbove_of_relativeTo? components seen
  simp only [LooseChunk.place, isRelative, folders, Value.needText, bind, Except.bind, same]
  exact ite_self _

theorem placed_text : (root ++ Path.ofString relative.toString).toString = path.toString := by
  rw [Path.ofString_of_relativeTo? components seen, Path.append_of_relativeTo? seen]

include strict

theorem placed_folders : relative.parent.parts ++ [path.name] =
    (Path.ofString relative.toString).allParts := by
  rw [Path.name_of_relativeTo? seen strict, Path.ofString_of_relativeTo? components seen]
  exact (if_pos (Path.eq_of_relativeTo? seen).1).symm

theorem Fragment.exists_placedAt {loose : LooseFragment} {fragment : Fragment}
    (known : loose.regular? = some fragment) :
    ∃ chunk, fragment.toChunk (some root) path = .ok chunk ∧
      PlacedAt root path loose chunk.toLoose := by
  have found : path.relativeTo root = .ok relative := by rw [Path.relativeTo, seen]
  obtain ⟨content, startLine, endLine, language⟩ := LooseFragment.eq_of_regular? known
  refine ⟨_, by
    simp only [Fragment.toChunk, found, bind, Except.bind, pure, Except.pure]
    rw [Chunk.place_of_relativeTo? components seen rfl rfl], ?_⟩
  refine ⟨content.symm, startLine.symm, endLine.symm, rfl, ?_, ?_, fun inside => ?_⟩
  · exact ⟨_, _, rfl, placed_text components seen, rfl, placed_folders components seen strict⟩
  · rw [language]
    exact ⟨_, congrArg Value.list List.map_append⟩
  · have named : (!(fragment.containerName?.getD "").isEmpty) = true := by
      cases known : fragment.containerName? with
      | none => simp [Chunk.toLoose, known, Value.ofText?, Value.isTruthy] at inside
      | some name => simpa [Chunk.toLoose, known, Value.ofText?, Value.isTruthy] using inside
    simp only [Chunk.toLoose, Fragment.chunkKind, named, Bool.true_and]
    split <;> simp_all

theorem LooseFragment.exists_placedAt {fragment : LooseFragment} {facts : Record}
    (plain : fragment.kind.isPlain = true) (described : fragment.facts = .record facts) :
    ∃ chunk, fragment.toChunk (some root) path = .ok chunk ∧ PlacedAt root path fragment chunk := by
  have found : path.relativeTo root = .ok relative := by rw [Path.relativeTo, seen]
  obtain ⟨kind, isKind, different⟩ := chunkKind_of_isPlain plain
    ((facts.lookup "parent_name").getD .null)
  refine ⟨_, by
    simp only [LooseFragment.toChunk, described, isKind, found, bind, Except.bind, pure,
      Except.pure]
    rw [LooseChunk.place_of_relativeTo? components seen rfl rfl], ?_⟩
  exact ⟨rfl, rfl, rfl, rfl, ⟨_, _, rfl, placed_text components seen, rfl,
    placed_folders components seen strict⟩, ⟨_, rfl⟩, different⟩

end Below

/-- Below a root that is not empty, each fragment becomes one chunk, in order. -/
theorem fragments_are_placed_in_order {root file : String} {relative : Path}
    {fragments : List LooseFragment} (rooted : root ≠ "")
    (below : (Path.ofString file).relativeTo? (Path.ofString root) = some relative)
    (strictly : relative.parts ≠ [])
    (suitable : ∀ fragment ∈ fragments, fragment.kind.isPlain = true ∧
      ∃ facts, fragment.facts = .record facts) :
    ∃ chunks : List LooseChunk,
      chunkRecords root file fragments = .ok (chunks.map LooseChunk.toRecord) ∧
      List.Forall₂ (PlacedAt (Path.ofString root) (Path.ofString file)) fragments chunks := by
  have components : ∀ part ∈ (Path.ofString file).parts, IsComponent part :=
    fun _ member => Path.isComponent_of_mem member
  have base : (if root.isEmpty then none else some (Path.ofString root)) =
      some (Path.ofString root) := if_neg (by simpa using rooted)
  cases regular : fragments.mapM LooseFragment.regular? with
  | some typed =>
    obtain ⟨chunks, made, placed⟩ := exists_mapM_forall₂ ((forall₂_of_mapM regular).imp
      fun _ _ known => Fragment.exists_placedAt components below strictly known)
    refine ⟨chunks.map Chunk.toLoose, ?_, List.forall₂_map_right_iff.mpr placed⟩
    rw [chunkRecords, regular, List.map_map]
    simp only [chunksOfFragments, base, made]
    rfl
  | none =>
    obtain ⟨chunks, made, placed⟩ := exists_mapM_forall₂ (List.forall₂_same.mpr
      fun fragment member => by
        obtain ⟨plain, facts, described⟩ := suitable fragment member
        exact LooseFragment.exists_placedAt components below strictly plain described)
    refine ⟨chunks, ?_, placed⟩
    rw [chunkRecords, regular]
    simp only [base, made]
    rfl

/-- A function in a class, in a file under double dots. -/
theorem fragment_under_dots_is_placed :
    let fragment : LooseFragment := ⟨.text "def f(self): 0", .int 3, .int 3,
      .text "function_definition", .text "python", .record [("parent_name", .text "A")]⟩
    (Path.ofString "/p/x/a/../b.py").relativeTo? (Path.ofString "/p/./x//") =
        some ⟨.relative, ["a", "..", "b.py"]⟩ ∧
      ∃ chunks : List LooseChunk, chunkRecords "/p/./x//" "/p/x/a/../b.py" [fragment] =
          .ok (chunks.map LooseChunk.toRecord) ∧
        List.Forall₂ (PlacedAt (Path.ofString "/p/./x//") (Path.ofString "/p/x/a/../b.py"))
          [fragment] chunks := by
  have below : (Path.ofString "/p/x/a/../b.py").relativeTo? (Path.ofString "/p/./x//") =
      some ⟨.relative, ["a", "..", "b.py"]⟩ := by decide +kernel
  refine ⟨below, fragments_are_placed_in_order (by decide) below (by simp) ?_⟩
  rintro _ (_ | ⟨_, ⟨⟩⟩)
  exact ⟨rfl, _, rfl⟩

/-- Under an empty root, only the folder that holds the file is kept. -/
theorem empty_root_keeps_one_folder :
    let fragment : LooseFragment := ⟨.text "", .int 1, .int 1, .text "function_definition",
      .text "python", .record []⟩
    (Path.ofString "a/b/c.py").relativeTo? (Path.ofString "") =
        some ⟨.relative, ["a", "b", "c.py"]⟩ ∧
      ¬∃ chunks : List LooseChunk, chunkRecords "" "a/b/c.py" [fragment] =
          .ok (chunks.map LooseChunk.toRecord) ∧
        List.Forall₂ (PlacedAt (Path.ofString "") (Path.ofString "a/b/c.py")) [fragment]
          chunks := by
  intro fragment
  refine ⟨by decide +kernel, ?_⟩
  rintro ⟨_, made, placed⟩
  cases placed with
  | @cons _ chunk _ _ placed others =>
    cases others
    obtain ⟨relative, folders, isRelative, -, isFolders, agree⟩ := placed.folders
    let places (records : List Record) : List (Option Value × Option Value) :=
      records.map fun record =>
        (record.lookup "relative_path", record.lookup "folder_structure")
    have known : Except.ok [(some (.text "a/b/c.py"), some (.ofTexts ["b"]))] =
        Except.ok [(some chunk.relativePath, some chunk.folders)] :=
      congrArg (Except.map places) made
    rw [isRelative, isFolders] at known
    obtain ⟨rfl, rfl⟩ : "a/b/c.py" = relative ∧ ["b"] = folders := by
      simpa [Value.ofTexts, eq_comm] using known
    exact absurd agree (by decide +kernel)

end CodeAtlas
