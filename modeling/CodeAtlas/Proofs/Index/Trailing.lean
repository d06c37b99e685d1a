import CodeAtlas.Proofs.Index.Calls

/-!
# Catalogs that are read later

Two states of an index differ only in that one of them has not read its catalog yet.  As
long as the file keeps that catalog, no call tells them apart: the actions of the index
are simulated step by step, and once the catalog is read the states are the same.
-/

namespace CodeAtlas

namespace IndexState

def unread (state : IndexState) : IndexState :=
  { state with chunks := { state.chunks with catalog := none } }

/-- The second state is the first one, or the first one before it read its catalog. -/
inductive Trails (folder : Path) : IndexState → IndexState → Prop where
  | same (state : IndexState) : Trails folder state state
  | unread {state : IndexState} (catalog : Catalog)
      (here : state.chunks.folder = folder)
      (read : state.chunks.catalog = some catalog)
      (kept : state.world.Keeps (folder.child KeptFile.catalog.name)
        (some catalog.toValue)) :
      Trails folder state state.unread

end IndexState

open IndexState

variable {folder : Path} {α β : Type}

/-- States of which one trails the other answer alike, and one still trails the other
afterwards. -/
abbrev Simulated (folder : Path) (action : IndexAct α) : Prop :=
  Parallel (Trails folder) action

namespace Simulated

variable (gpu : GpuSupport)

/-- Looking at anything but the catalog gives the same. -/
theorem current_bind {next : ChunkIndex → IndexAct α}
    (blind : ∀ chunks, next { chunks with catalog := none } = next chunks)
    (each : ∀ chunks, chunks.folder = folder → Simulated folder (next chunks)) :
    Simulated folder (ChunkIndex.current >>= next) := by
  rintro ahead behind (_ | ⟨catalog, here, read, kept⟩)
  · exact ⟨rfl, .same _⟩
  · simp only [runFrom_bind, runFrom_current, andThen_ok]
    have same : next ahead.unread.chunks = next ahead.chunks := blind ahead.chunks
    rw [same]
    exact each ahead.chunks here _ _ (.unread catalog here read kept)

theorem change {update : ChunkIndex → ChunkIndex}
    (blind : ∀ chunks, update { chunks with catalog := none } =
      { update chunks with catalog := none })
    (sameCatalog : ∀ chunks, (update chunks).catalog = chunks.catalog)
    (sameFolder : ∀ chunks, (update chunks).folder = chunks.folder) :
    Simulated folder (ChunkIndex.change update) := by
  rintro ahead behind (_ | ⟨catalog, here, read, kept⟩)
  · exact ⟨rfl, .same _⟩
  · refine ⟨rfl, ?_⟩
    have both : (runFrom ahead.unread (ChunkIndex.change update)).2 =
        (runFrom ahead (ChunkIndex.change update)).2.unread := by
      simp [IndexState.unread, blind]
    rw [both]
    exact .unread catalog ((sameFolder _).trans here) ((sameCatalog _).trans read) kept

/-- Acting on the world is the same for both states, if the catalog stays kept. -/
theorem lift {action : Act α} (keeps : ∀ value, Preserves
      (fun world => world.Keeps (folder.child KeptFile.catalog.name) (some value)) action) :
    Simulated folder (liftM action : IndexAct α) := by
  rintro ahead behind (_ | ⟨catalog, here, read, kept⟩)
  · exact ⟨rfl, .same _⟩
  · exact ⟨rfl, .unread catalog here read (keeps _ _ kept)⟩

/-- Once the catalog is read, the states are the same. -/
theorem catalog_bind (next : Catalog → IndexAct α) :
    Simulated folder (ChunkIndex.catalog! >>= next) := by
  rintro ahead behind (_ | ⟨catalog, here, read, kept⟩)
  · exact ⟨rfl, .same _⟩
  · subst here
    have caughtUp : runFrom ahead.unread ChunkIndex.catalog! =
        runFrom ahead ChunkIndex.catalog! := by
      have found : runFrom ahead.world (World.exists? ahead.chunks.catalogFile) =
          (.ok true, ahead.world) := kept.exists?
      have document : runFrom ahead.world (World.documentAt ahead.chunks.catalogFile) =
          (.ok catalog.toValue, ahead.world) := kept.documentAt
      have file : ahead.unread.chunks.catalogFile = ahead.chunks.catalogFile := rfl
      obtain ⟨⟨folder, vectors, names, _, onGpu⟩, world⟩ := ahead
      simp only at read
      subst read
      simp only [unread] at file
      simp [ChunkIndex.catalog!, IndexState.unread, file, found, document,
        Catalog.ofValue_toValue]
    rw [runFrom_bind, runFrom_bind, caughtUp]
    exact ⟨rfl, .same _⟩

private theorem writeFile_keeps (file : KeptFile) (other : file ≠ .catalog) (value kept : Value) :
    Preserves (fun world => world.Keeps (folder.child KeptFile.catalog.name) (some kept))
      (World.writeFile (folder.child file.name) (.document value)) := by
  intro world keeps
  have apart : KeptFile.catalog.name ≠ file.name := fun same =>
    other (KeptFile.name_injective same).symm
  rcases result : runFrom world
      (World.writeFile (folder.child file.name) (.document value)) with ⟨fault | _, after⟩
  · obtain rfl := World.writeFile_failed result
    exact keeps
  · obtain ⟨-, same⟩ := World.writeFile_ok file.name_notUp result
    exact keeps.beside file.name_notUp same KeptFile.catalog.name_notUp apart

private theorem writeFile (file : KeptFile) (other : file ≠ .catalog) (value : Value) :
    Simulated folder
      (liftM (World.writeFile (folder.child file.name) (.document value)) : IndexAct Unit) :=
  lift (writeFile_keeps file other value)

private theorem look {action : Act α} (looks : ∀ world, (runFrom world action).2 = world) :
    Simulated folder (liftM action : IndexAct α) :=
  lift (fun value world keeps => by rw [looks]; exact keeps)

private theorem exists? (path : Path) :
    Simulated folder (liftM (World.exists? path) : IndexAct Bool) :=
  look (World.exists?_snd path)

private theorem documentAt (path : Path) :
    Simulated folder (liftM (World.documentAt path) : IndexAct Value) :=
  look (World.documentAt_snd path)

private theorem namesAt (path : Path) :
    Simulated folder (liftM (World.namesAt path) : IndexAct (List String)) :=
  look (World.namesAt_snd path)

private theorem moveToGpu :
    Simulated folder (ChunkIndex.moveToGpu gpu) := by
  refine change ?_ ?_ ?_
  all_goals
    rintro ⟨_, vectors, _, _, onGpu⟩
    cases vectors with
    | none => rfl
    | some index =>
      dsimp only
      split
      · rfl
      · cases gpu.move index <;> rfl

private theorem load : Simulated folder (ChunkIndex.load gpu) := by
  refine current_bind (fun _ => rfl) (fun chunks _ => .bind (exists? _) (fun found => ?_))
  split
  · refine .bind (documentAt _) (fun value => ?_)
    split
    · exact .throw _
    · refine .bind (change (fun _ => rfl) (fun _ => rfl) (fun _ => rfl)) (fun _ => ?_)
      refine .bind (moveToGpu gpu) (fun _ => .bind (exists? _) (fun found => ?_))
      split
      · exact .bind (namesAt _)
          (fun _ => change (fun _ => rfl) (fun _ => rfl) (fun _ => rfl))
      · exact .pure _
  · exact change (fun _ => rfl) (fun _ => rfl) (fun _ => rfl)

theorem vectors! : Simulated folder (ChunkIndex.vectors! gpu) := by
  refine current_bind (fun _ => rfl) (fun chunks _ => ?_)
  have result : Simulated folder (do return (← ChunkIndex.current).vectors) :=
    current_bind (fun _ => rfl) (fun _ _ => .pure _)
  split
  · exact .bind (load gpu) (fun _ => result)
  · exact result

private theorem create (dimension : Int) (kind : Value) :
    Simulated folder (ChunkIndex.create gpu dimension kind) := by
  have start : ∀ index, Simulated folder (do
      ChunkIndex.change (fun chunks => { chunks with vectors := some index })
      ChunkIndex.moveToGpu gpu) := fun index =>
    .bind (change (fun _ => rfl) (fun _ => rfl) (fun _ => rfl)) (fun _ => moveToGpu gpu)
  unfold ChunkIndex.create
  split
  · exact start _
  · exact start _
  · exact .bind (.throw _) (fun index => start index)

private theorem writeStatistics : Simulated folder ChunkIndex.writeStatistics := by
  refine current_bind (fun _ => rfl) (fun chunks here => ?_)
  split
  · refine .bind (.pure _) (fun _ => .bind (.orFail _) (fun _ => ?_))
    subst here
    exact writeFile .statistics (by decide) _
  · exact catalog_bind _

private theorem search (query : Embedding) (count : Int)
    (filter : Value) : Simulated folder (ChunkIndex.search gpu query count filter) := by
  refine .bind (vectors! gpu) (fun found => ?_)
  split
  · exact .pure _
  · split
    · exact .pure _
    · refine .bind (.orFail _) (fun found => ?_)
      split
      · exact .pure _
      · exact catalog_bind _

theorem searchUpTo (query : Embedding) (count filter : Value) :
    Simulated folder (ChunkIndex.searchUpTo gpu query count filter) := by
  refine .bind (vectors! gpu) (fun found => ?_)
  split
  · exact .pure _
  · split
    · exact .pure _
    · split
      · exact search gpu query _ filter
      · split
        · split
          · exact .throw _
          · exact .throw _
        · exact .throw _

private theorem similarUpTo (identifier count : Value) :
    Simulated folder (ChunkIndex.similarUpTo gpu identifier count) := by
  refine .bind ?_ (fun vector => ?_)
  · refine .bind (catalog_bind _) (fun entry => ?_)
    split
    · exact .pure _
    · exact current_bind (fun _ => rfl) (fun _ _ => .pure _)
  · split
    · exact .pure _
    · exact .bind (.orFail _) (fun _ => .bind (searchUpTo gpu _ _ _)
        (fun _ => .bind (.orFail _) (fun _ => .pure _)))

private theorem removeFile (path project : Value) :
    Simulated folder (ChunkIndex.removeFile path project) := by
  refine current_bind (fun _ => rfl) (fun chunks _ => ?_)
  dsimp only
  split
  · exact .bind (.pure _) (fun _ => .bind (.orFail _) (fun _ => catalog_bind _))
  · exact catalog_bind _

private theorem add (items : List Embedded) :
    Simulated folder (ChunkIndex.add gpu items) := by
  cases items with
  | nil => exact .pure _
  | cons first rest =>
    refine current_bind (fun _ => rfl) (fun chunks _ => ?_)
    dsimp only
    split
    -- after the index was made, both branches go on alike
    refine .bind (create gpu _ _) (fun _ => ?_)
    all_goals
      refine .bind (.orFail _) (fun rows => ?_)
      refine .bind (change (fun _ => rfl) (fun _ => rfl) (fun _ => rfl)) (fun _ => ?_)
      refine current_bind (fun _ => rfl) (fun chunks _ => ?_)
      split
      · exact .pure _
      · exact .bind (.orFail _) (fun _ =>
          current_bind (fun _ => rfl) (fun _ _ => catalog_bind _))

private theorem save : Simulated folder (ChunkIndex.save gpu) := by
  refine current_bind (fun _ => rfl) (fun chunks here => ?_)
  subst here
  have names : Simulated chunks.folder (do
      World.writeFile chunks.nameFile (.document (.ofTexts chunks.names))
      ChunkIndex.writeStatistics) :=
    .bind (writeFile .names (by decide) _) (fun _ => writeStatistics)
  dsimp only
  split
  · exact names
  · refine .bind (lift (fun value => ?_)) (fun _ => names)
    exact ChunkIndex.writeVectors_preserves gpu
      (fun index => writeFile_keeps .vectors (by decide) index.toValue value)
      (fun world keeps => keeps.apart (World.SameApart.of_disk rfl rfl) (fun _ _ => id)) _ _

private theorem clear : Simulated folder ChunkIndex.clear := by
  rintro ahead behind (_ | ⟨catalog, here, read, kept⟩)
  · exact ⟨rfl, .same _⟩
  · exact ⟨rfl, .same _⟩

/-- No call tells an index from one that has not read its catalog yet. -/
theorem call (call : IndexCall) : Simulated folder (call.action gpu) := by
  cases call with
  | add items => exact .bind (add gpu items) (fun _ => .pure _)
  | removeFile path project => exact .bind (removeFile path project) (fun _ => .pure _)
  | search query count filter =>
    exact .bind (searchUpTo gpu query count filter) (fun _ => .pure _)
  | similar identifier count =>
    exact .bind (similarUpTo gpu identifier count) (fun _ => .pure _)
  | recordOf identifier =>
    exact .bind (.bind (catalog_bind _) (fun _ => .pure _)) (fun _ => .pure _)
  | save => exact .bind (save gpu) (fun _ => .pure _)
  | clear => exact .bind clear (fun _ => .pure _)

end Simulated

/-- An index and one that has not read its catalog yet give the same answers. -/
theorem IndexState.Trails.answers_eq {ahead behind : IndexState}
    (trails : Trails folder ahead behind) (gpu : GpuSupport) (calls : List IndexCall) :
    IndexCall.answers gpu calls behind = IndexCall.answers gpu calls ahead := by
  induction calls generalizing ahead behind with
  | nil => rfl
  | cons call calls ih =>
    obtain ⟨answer, trails'⟩ := Simulated.call gpu call ahead behind trails
    rw [IndexCall.answers, IndexCall.answers, answer]
    exact congrArg _ (ih trails')

end CodeAtlas
