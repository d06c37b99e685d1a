import CodeAtlas.Proofs.Files.Keeping
import CodeAtlas.Proofs.Texts
import CodeAtlas.Tracking.Detection

/-!
# Snapshots are read as they were saved

A digest tree is read back from its record with the same nodes, now listed folder first.
So a project's snapshot is loaded as the tree that was saved, as long as its file is left
alone.
-/

namespace CodeAtlas

namespace DigestNode

theorem headOf_toValue (path : String) (digest : Option String) (fileMark : Value)
    (size : Int) (children : List Value) :
    headOf [("path", .text path), ("hash", .ofText? digest), ("is_file", fileMark),
        ("size", .int size), ("children", .list children)] =
      .ok (.mk path digest fileMark size) := by
  cases digest <;> rfl

mutual

theorem ofValue_toValue : ∀ node : DigestNode, ofValue node.toValue = .ok node
  | .mk path digest fileMark size children => by
    have below := ofValues_toValues children
    rw [toValue, ofValue, headOf_toValue]
    simp [ofChildren, ofChildrenValue, below, bind, Except.bind, pure, Except.pure]

theorem ofValues_toValues :
    ∀ nodes : List DigestNode, ofValues (toValues nodes) = .ok nodes
  | [] => rfl
  | node :: rest => by
    rw [toValues, ofValues, ofValue_toValue node, ofValues_toValues rest]
    rfl

end

theorem isTruthy_toValue (node : DigestNode) : node.toValue.isTruthy = true := by
  cases node
  rfl

end DigestNode

theorem KeptTree.ofValue_toValue (tree : DigestTree) (workingDirectory : Path)
    (noNull : (Path.ofString tree.rootPath.toString).hasNull = false) :
    KeptTree.ofValue workingDirectory tree.toValue =
      .ok (.regular ⟨(Path.ofString tree.rootPath.toString).resolve workingDirectory,
        tree.root, .folderFirst⟩) := by
  have read : DigestTree.ofValue workingDirectory tree.toValue =
      .ok ⟨(Path.ofString tree.rootPath.toString).resolve workingDirectory,
        tree.root, .folderFirst⟩ := by
    obtain ⟨rootPath, root, listing⟩ := tree
    cases root with
    | none =>
      simp [DigestTree.ofValue, DigestTree.toValue, Value.needRecord, Record.need,
        Value.needText, noNull, Value.isTruthy, bind, Except.bind, pure, Except.pure,
        List.lookup_cons]
    | some node =>
      simp [DigestTree.ofValue, DigestTree.toValue, Value.needRecord, Record.need,
        Value.needText, noNull, DigestNode.isTruthy_toValue, DigestNode.ofValue_toValue,
        bind, Except.bind, pure, Except.pure, List.lookup_cons]
  rw [KeptTree.ofValue, read]

theorem LooseChanges.hasChanges_ofChanges (changes : Changes) :
    (LooseChanges.ofChanges changes).hasChanges = changes.hasChanges := by
  obtain ⟨added, removed, modified, unchanged⟩ := changes
  cases added <;> cases removed <;> cases modified <;> rfl

theorem World.runFrom_resolve {project : String}
    (noNull : (Path.ofString project).hasNull = false) (world : World) :
    runFrom world (World.resolve project) =
      (.ok ((Path.ofString project).resolve world.workingDirectory), world) := by
  simp [World.resolve, noNull]

theorem World.resolve_place {place : Path} (isPlace : place.IsPlace) (world : World) :
    runFrom world (World.resolve place.toString) = (.ok place, world) := by
  rw [runFrom_resolve (Path.hasNull_ofString_toString isPlace), Path.resolve_toString isPlace]

def World.tick (world : World) : World :=
  { world with clock := world.clock + 1 }

theorem World.runFrom_readClock (world : World) :
    runFrom world World.readClock = (.ok (Clock.text world.clock), world.tick) := rfl

theorem World.tick_sameApart {spots : List String → Prop} (world : World) :
    SameApart spots world world.tick :=
  .of_disk rfl rfl

theorem DigestTree.runFrom_build (digest : DigestFunction) (rules : IgnoreRules)
    {place : Path} {world : World} {files : Option (FileTree Stored)}
    (found : world.lookUp place = .ok files) :
    runFrom world (DigestTree.build digest rules place) =
      (.ok (DigestTree.ofFiles digest rules place files), world) := by
  unfold DigestTree.build
  by_cases ignored : rules.ignores place.name = true
  · have same : ofFiles digest rules place none = ofFiles digest rules place files := by
      cases files <;> simp [ofFiles, ignored]
    simp [ignored, same]
  · simp [ignored, World.find, found]

namespace SnapshotStore

variable {env : Environment} {store : SnapshotStore} {project : String} {world after : World}

theorem append_ne_up {ending : String} (long : 2 < ending.length) (id : String) :
    id ++ ending ≠ ".." := by
  intro same
  have sizes := congrArg String.length same
  rw [String.length_append] at sizes
  have short : "..".length = 2 := by decide
  omega

theorem snapshotName_ne_up (id : String) : id ++ "_snapshot.json" ≠ ".." :=
  append_ne_up (by decide) id

theorem recordName_ne_up (id : String) : id ++ "_metadata.json" ≠ ".." :=
  append_ne_up (by decide) id

theorem append_inj_of_ending {id other ending ending' : String}
    (same : id ++ ending = other ++ ending') (lengths : ending.length = ending'.length) :
    id = other ∧ ending = ending' := by
  have sizes := congrArg String.length same
  rw [String.length_append, String.length_append] at sizes
  exact Text.append_inj same (by omega)

theorem snapshotName_ne_recordName (id other : String) :
    id ++ "_snapshot.json" ≠ other ++ "_metadata.json" := fun same =>
  absurd (append_inj_of_ending same (by decide)).2 (by decide)

/-- The files that a snapshot of a project is kept in. -/
def Spots (env : Environment) (store : SnapshotStore) (place : Path) (world : World)
    (names : List String) : Prop :=
  world.LeadsTo (store.snapshotFile env place) names ∨
    world.LeadsTo (store.recordFile env place) names

/-- A tree that was saved is kept, and nothing but the files of the snapshot changed. -/
theorem save_ok {tree : DigestTree} {record : Record}
    (result : runFrom world (store.save env tree record) = (.ok (), after)) :
    (∃ taken, after.Keeps (store.snapshotFile env tree.rootPath)
        (some (treeDocument taken tree.toValue))) ∧
      World.SameApart (store.Spots env tree.rootPath world) world after := by
  simp only [save, saveKept, runFrom_bind, World.runFrom_readClock, andThen_ok, runFrom_pure,
    KeptTree.toValue, runFrom_orFail] at result
  obtain ⟨_, written, first, second⟩ := andThen_eq_ok_iff.mp result
  obtain ⟨kept, snapshot⟩ := World.writeFile_ok (snapshotName_ne_up _) first
  obtain ⟨-, described⟩ := World.writeFile_ok (recordName_ne_up _) second
  have before : World.SameApart (store.Spots env tree.rootPath world) world written :=
    world.tick_sameApart.trans (snapshot.mono (fun _ leads => Or.inl leads))
  have whole := before.trans written.tick_sameApart
  have keptStill := kept.apart written.tick_sameApart (fun _ _ => id)
  refine ⟨⟨_, keptStill.beside (recordName_ne_up _) described ?_ ?_⟩, whole.trans ?_⟩
  · exact snapshotName_ne_up _
  · exact snapshotName_ne_recordName _ _
  · exact described.mono (fun names leads => .inr ((whole.locate_iff _ names).mp leads))

theorem save_of_keeps {tree : DigestTree} {document document' : Option Value} (record : Record)
    (snapshot : world.Keeps (store.snapshotFile env tree.rootPath) document)
    (described : world.Keeps (store.recordFile env tree.rootPath) document') :
    ∃ after, runFrom world (store.save env tree record) = (.ok (), after) ∧
      ∃ fields, after.Keeps (store.recordFile env tree.rootPath) (some (.record fields)) := by
  have ready := snapshot.apart world.tick_sameApart (fun _ _ => id)
  obtain ⟨written, first, -, same⟩ := ready.writeFile (snapshotName_ne_up _)
    (treeDocument (Clock.text world.clock) tree.toValue)
  have there := (described.apart world.tick_sameApart (fun _ _ => id)).beside
    (snapshotName_ne_up _) same (recordName_ne_up _) (snapshotName_ne_recordName _ _).symm
  have ready' := there.apart written.tick_sameApart (fun _ _ => id)
  obtain ⟨after, second, kept, -⟩ := ready'.writeFile (recordName_ne_up _)
    (.record (Record.update record (facts env (Clock.text written.clock) tree.rootPath
      (KeptTree.regular tree).files.length (KeptTree.regular tree).rootDigest)))
  refine ⟨after, ?_, _, kept⟩
  simp only [save, saveKept, runFrom_bind, World.runFrom_readClock, andThen_ok, runFrom_pure,
    KeptTree.toValue, runFrom_orFail, KeptTree.rootPath]
  exact (congrArg (fun outcome => andThen outcome _) first).trans second

theorem load_of_keeps {tree : DigestTree} {taken : String}
    (noNull : (Path.ofString project).hasNull = false)
    (same : tree.rootPath = (Path.ofString project).resolve world.workingDirectory)
    (valid : ∀ part ∈ tree.rootPath.parts, ValidName part)
    (keeps : world.Keeps (store.snapshotFile env tree.rootPath)
      (some (treeDocument taken tree.toValue))) :
    runFrom world (store.load env project) =
      (.ok (some (.regular ⟨tree.rootPath, tree.root, .folderFirst⟩)), world) := by
  have isPlace : tree.rootPath.IsPlace := ⟨by rw [same]; rfl, valid⟩
  have read := KeptTree.ofValue_toValue tree world.workingDirectory
    (Path.hasNull_ofString_toString isPlace)
  rw [Path.resolve_toString isPlace] at read
  have opened : runFrom world (treeOf (treeDocument taken tree.toValue)) =
      (.ok (.regular ⟨tree.rootPath, tree.root, .folderFirst⟩), world) := by
    simp [treeOf, treeDocument, Value.agrees, Record.need, List.lookup_cons, read]
  simp [load, World.runFrom_resolve noNull, ← same, keeps.exists?, keeps.documentAt, opened]

end SnapshotStore

end CodeAtlas
