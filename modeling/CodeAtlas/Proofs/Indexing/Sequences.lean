import CodeAtlas.Proofs.Indexing.Outcomes

/-!
# Sequences of edits and runs

A project is edited and indexed any number of times with one index.  An index that was ready
for the first run is ready for every later one, and each run has one of the effects that runs
can have.
-/

namespace CodeAtlas

/-- How a run is called, and the encoder that it finds. -/
structure RunCall where
  path : String
  name : Value
  full : Bool
  encoder : Encoder

/-- The call is for the project at a place, and its vectors have the given length. -/
structure RunCall.Suits (call : RunCall) (place : Path) (dimension : Nat) (world : World) :
    Prop where
  resolved : runFrom world (World.resolve call.path) = (.ok place, world)
  gives : call.encoder.Gives dimension

namespace Indexer

open IndexState

variable {indexer : Indexer} {place : Path} {dimension : Nat} {view : IndexView}
  {snapshot : Option FileContents} {start before : IndexState} {world : World} {call : RunCall}
  {calls : List RunCall}

def withEncoder (indexer : Indexer) (encoder : Encoder) : Indexer :=
  { indexer with env := { indexer.env with encoder } }

private theorem fragmentsBy_withEncoder (env : Environment) (encoder : Encoder) :
    fragmentsBy { env with encoder } = fragmentsBy env := by
  funext language source
  unfold fragmentsBy
  with_reducible rfl

private theorem chunksOfText_withEncoder (env : Environment) (encoder : Encoder)
    (root file : String) (text : Option String) :
    chunksOfText { env with encoder } root file text = chunksOfText env root file text := by
  unfold chunksOfText
  rw [fragmentsBy_withEncoder]

@[simp]
theorem chunksAt_withEncoder (indexer : Indexer) (encoder : Encoder) (place : Path)
    (names : List String) (bytes : ByteArray) :
    (indexer.withEncoder encoder).chunksAt place names bytes =
      indexer.chunksAt place names bytes := by
  simp only [chunksAt, withEncoder, chunksOfText_withEncoder]

@[simp]
theorem chunksOf_withEncoder (indexer : Indexer) (encoder : Encoder) (world : World)
    (place : Path) (files : List String) :
    (indexer.withEncoder encoder).chunksOf world place files =
      indexer.chunksOf world place files := by
  simp only [chunksOf, withEncoder, chunksOfFile_eq, chunksOfText_withEncoder]

def perform (indexer : Indexer) (call : RunCall) : IndexAct RunResult :=
  (indexer.withEncoder call.encoder).run call.path call.name call.full

/-- A world after edits of a project, which leave alone what is kept about it. -/
structure Edited (indexer : Indexer) (place : Path) (before : IndexState) (world : World) :
    Prop where
  index : ∀ kept, before.world.KeepsIndex before.chunks.folder kept →
    world.KeepsIndex before.chunks.folder kept
  snapshot : ∀ document,
    before.world.Keeps (indexer.store.snapshotFile indexer.env place) document →
      world.Keeps (indexer.store.snapshotFile indexer.env place) document
  record : ∀ document,
    before.world.Keeps (indexer.store.recordFile indexer.env place) document →
      world.Keeps (indexer.store.recordFile indexer.env place) document
  found : ∃ files, world.lookUp place = .ok files
  wellFormed : world.WellFormed

/-- The states of an index after edits and runs, with the calls of the runs, the last one
first. -/
inductive Reached (indexer : Indexer) (place : Path) (dimension : Nat) (start : IndexState) :
    List RunCall → IndexState → Prop where
  | start : Reached indexer place dimension start [] start
  | run {calls : List RunCall} {before : IndexState} {world : World} {call : RunCall} :
      Reached indexer place dimension start calls before →
      indexer.Edited place before world → call.Suits place dimension world →
      Reached indexer place dimension start (call :: calls)
        (runFrom { before with world } (indexer.perform call)).2

theorem Ready.withEncoder {state : IndexState} (encoder : Encoder)
    (ready : indexer.Ready place dimension view snapshot state) :
    (indexer.withEncoder encoder).Ready place dimension view snapshot state :=
  ⟨ready.shows, ready.inOrder, ready.stands.snapshot, ready.stands.record, ready.stands.found⟩

theorem Ready.ofEncoder {state : IndexState} {encoder : Encoder}
    (ready : (indexer.withEncoder encoder).Ready place dimension view snapshot state) :
    indexer.Ready place dimension view snapshot state :=
  ⟨ready.shows, ready.inOrder, ready.stands.snapshot, ready.stands.record, ready.stands.found⟩

theorem Edited.ready (edited : indexer.Edited place before world)
    (ready : indexer.Ready place dimension view snapshot before) :
    indexer.Ready place dimension view snapshot { before with world } := by
  obtain ⟨shows, inOrder, remembers, ⟨document, described⟩, -⟩ := ready
  exact ⟨shows.edited edited.index, inOrder, remembers.of_keeps edited.snapshot,
    ⟨document, edited.record _ described⟩, edited.found⟩

theorem perform_effect (ready : indexer.Ready place dimension view snapshot before)
    (edited : indexer.Edited place before world) (suits : call.Suits place dimension world) :
    ∃ result view' snapshot' after,
      runFrom { before with world } (indexer.perform call) = (.ok result, after) ∧
      (indexer.withEncoder call.encoder).Effect place (projectName call.name place)
        { before with world } view call.full snapshot result view' snapshot' ∧
      after.chunks.folder = before.chunks.folder ∧
      indexer.Ready place dimension view' snapshot' after := by
  obtain ⟨result, view', snapshot', after, ran, effect, folder, ready'⟩ :=
    @run_effect (indexer.withEncoder call.encoder) place dimension view snapshot
      { before with world } call.path call.name call.full
      ((edited.ready ready).withEncoder call.encoder) edited.wellFormed suits.gives suits.resolved
  exact ⟨result, view', snapshot', after, ran, effect, folder, ready'.ofEncoder⟩

theorem Reached.ready (history : indexer.Reached place dimension start calls before)
    (ready : indexer.Ready place dimension view snapshot start) :
    ∃ view' snapshot', indexer.Ready place dimension view' snapshot' before := by
  induction history with
  | start => exact ⟨view, snapshot, ready⟩
  | run _ edited suits ih =>
    obtain ⟨view', snapshot', ready'⟩ := ih
    obtain ⟨result, view'', snapshot'', after, ran, -, -, ready''⟩ :=
      perform_effect ready' edited suits
    rw [ran]
    exact ⟨view'', snapshot'', ready''⟩

theorem Finds.unique {changes others : Changes} (finds : indexer.Finds place world changes)
    (finds' : indexer.Finds place world others) : changes = others := by
  obtain ⟨tree, found⟩ := finds
  obtain ⟨tree', found'⟩ := finds'
  rw [found] at found'
  obtain ⟨same, -⟩ := Prod.mk.inj (Except.ok.inj (congrArg Prod.fst found'))
  have texts := congrArg LooseChanges.texts? same
  rwa [LooseChanges.texts?_ofChanges, LooseChanges.texts?_ofChanges, Option.some.injEq] at texts

end Indexer

end CodeAtlas
