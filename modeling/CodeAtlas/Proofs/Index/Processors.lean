import CodeAtlas.Proofs.Index.Outlasting
import Mathlib.Data.List.Induction

/-!
# When the flag for graphics processors tells the truth

On a machine that can move every index to its graphics processors, the flag of an index and the
place of its vectors go together as long as no vectors are forgotten.  Clearing forgets the
vectors but not the flag, and the flag keeps later vectors in main memory, until the index is
opened again.
-/

namespace CodeAtlas

/-- What happens to an index: a call, or that it is opened again, on whatever the disk has become
by then. -/
inductive IndexEvent where
  | call (made : IndexCall)
  | reopen (world : World)

namespace IndexEvent

def after (gpu : GpuSupport) (state : IndexState) : IndexEvent → IndexState
  | .call made => made.after gpu state
  | .reopen world => ⟨.ofFolder state.chunks.folder, world⟩

def stateAfter (gpu : GpuSupport) (events : List IndexEvent) (start : IndexState) : IndexState :=
  events.foldl (after gpu) start

/-- Since the index was opened last, it was cleared while it had vectors. -/
def ForgotVectors (gpu : GpuSupport) (events : List IndexEvent) (start : IndexState) : Prop :=
  ∃ front back, events = front ++ .call .clear :: back ∧ (∀ world, .reopen world ∉ back) ∧
    (stateAfter gpu front start).chunks.vectors.isSome ∧
    (runFrom (stateAfter gpu front start) ChunkIndex.clear).1 = .ok ()

variable {gpu : GpuSupport} {events : List IndexEvent} {start : IndexState}

theorem stateAfter_append (event : IndexEvent) :
    stateAfter gpu (events ++ [event]) start = event.after gpu (stateAfter gpu events start) :=
  List.foldl_append

/-- Whether vectors are forgotten is settled by the last event and by what was before. -/
theorem forgotVectors_append (event : IndexEvent) :
    ForgotVectors gpu (events ++ [event]) start ↔
      (∀ world, event ≠ .reopen world) ∧ (ForgotVectors gpu events start ∨
        event = .call .clear ∧ (stateAfter gpu events start).chunks.vectors.isSome ∧
          (runFrom (stateAfter gpu events start) ChunkIndex.clear).1 = .ok ()) := by
  constructor
  · rintro ⟨front, back, split, stays, forgot⟩
    rcases List.eq_nil_or_concat back with rfl | ⟨back, last, rfl⟩
    · obtain ⟨rfl, same⟩ := List.append_inj' split rfl
      obtain rfl := List.singleton_inj.mp same
      exact ⟨by simp, .inr ⟨rfl, forgot⟩⟩
    · rw [List.concat_eq_append, ← List.cons_append, ← List.append_assoc] at split
      obtain ⟨rfl, same⟩ := List.append_inj' split rfl
      obtain rfl := List.singleton_inj.mp same
      simp only [List.concat_eq_append, List.mem_append, List.mem_singleton, not_or] at stays
      exact ⟨fun world same => (stays world).2 same.symm,
        .inl ⟨front, back, rfl, fun world => (stays world).1, forgot⟩⟩
  · rintro ⟨stays, ⟨front, back, rfl, before, forgot⟩ | ⟨rfl, forgot⟩⟩
    · refine ⟨front, back ++ [event], by simp, fun world => ?_, forgot⟩
      simpa using ⟨before world, fun same => stays world same.symm⟩
    · exact ⟨events, [], rfl, by simp, forgot⟩

end IndexEvent

namespace IndexState

/-- The index has the flag exactly if it has vectors, and they are on graphics processors. -/
structure OnProcessors (folder : Path) (state : IndexState) : Prop where
  folder : state.chunks.folder = folder
  flag : state.chunks.onGpu = state.chunks.vectors.isSome
  vectors : ∀ index, state.chunks.vectors = some index → index.onGpu = true

/-- The index has the flag, but no vectors on graphics processors. -/
structure Misled (folder : Path) (state : IndexState) : Prop where
  folder : state.chunks.folder = folder
  flag : state.chunks.onGpu = true
  vectors : ∀ index, state.chunks.vectors = some index → index.onGpu = false

variable {gpu : GpuSupport} {folder : Path}

theorem OnProcessors.outlasts (available : gpu.isAvailable = true) (moves : gpu.moves = true) :
    OutlastsSteps gpu folder (OnProcessors folder) where
  inFolder _ here := here.folder
  written _ _ _ here := ⟨here.folder, here.flag, here.vectors⟩
  counted _ here := ⟨here.folder, here.flag, here.vectors⟩
  remembered _ _ _ here := ⟨here.folder, here.flag, here.vectors⟩
  exchanged state index other here vectors place := by
    refine ⟨here.folder, ?_, ?_⟩
    · exact here.flag.trans (by rw [vectors]; rfl)
    · rintro _ ⟨⟩
      exact place.trans (here.vectors index vectors)
  started state index here none _ := by
    -- without vectors there is no flag yet, so the new ones are moved
    have unset : state.chunks.onGpu = false := here.flag.trans (congrArg Option.isSome none)
    have moved : runFrom { state with chunks := { state.chunks with vectors := some index } }
        (ChunkIndex.moveToGpu gpu) = (.ok (), { state with chunks := { state.chunks with
          vectors := some { index with onGpu := true }, onGpu := true } }) := by
      simp [ChunkIndex.moveToGpu, unset, available, GpuSupport.move, moves]
    rw [moved]
    refine ⟨here.folder, rfl, ?_⟩
    rintro _ ⟨⟩
    rfl

theorem Misled.outlasts (gpu : GpuSupport) : OutlastsSteps gpu folder (Misled folder) where
  inFolder _ here := here.folder
  written _ _ _ here := ⟨here.folder, here.flag, here.vectors⟩
  counted _ here := ⟨here.folder, here.flag, here.vectors⟩
  remembered _ _ _ here := ⟨here.folder, here.flag, here.vectors⟩
  exchanged state index other here vectors place := by
    refine ⟨here.folder, here.flag, ?_⟩
    rintro _ ⟨⟩
    exact place.trans (here.vectors index vectors)
  started state index here _ atHome := by
    -- the flag says that nothing is left to move
    have stays : runFrom { state with chunks := { state.chunks with vectors := some index } }
        (ChunkIndex.moveToGpu gpu) = (.ok (), { state with chunks := { state.chunks with
          vectors := some index } }) := by
      simp [ChunkIndex.moveToGpu, here.flag]
    rw [stays]
    refine ⟨here.folder, here.flag, ?_⟩
    rintro _ ⟨⟩
    exact atHome

theorem onProcessors_of_opened {state : IndexState} (opened : state.chunks = .ofFolder folder) :
    OnProcessors folder state := by
  obtain ⟨chunks, world⟩ := state
  obtain rfl : chunks = .ofFolder folder := opened
  exact ⟨rfl, rfl, by simp [ChunkIndex.ofFolder]⟩

theorem Misled.cleared {state : IndexState} (here : Misled folder state) :
    Misled folder (runFrom state ChunkIndex.clear).2 := by
  obtain ⟨world, cleared | ⟨fault, failed⟩⟩ := runFrom_clear_or state
  · rw [cleared]
    exact ⟨here.folder, here.flag, by simp⟩
  · rw [failed]
    exact ⟨here.folder, here.flag, here.vectors⟩

/-- Clearing an index without the flag leaves it so, unless it forgets vectors. -/
theorem OnProcessors.cleared {state : IndexState} (here : OnProcessors folder state) :
    let forgets := state.chunks.vectors.isSome ∧ (runFrom state ChunkIndex.clear).1 = .ok ()
    forgets ∧ Misled folder (runFrom state ChunkIndex.clear).2 ∨
      ¬ forgets ∧ OnProcessors folder (runFrom state ChunkIndex.clear).2 := by
  obtain ⟨world, cleared | ⟨fault, failed⟩⟩ := runFrom_clear_or state
  · rw [cleared]
    cases vectors : state.chunks.vectors with
    | none =>
      refine .inr ⟨by simp, here.folder, ?_, by simp⟩
      exact here.flag.trans (congrArg Option.isSome vectors)
    | some index =>
      refine .inl ⟨by simp, here.folder, ?_, by simp⟩
      exact here.flag.trans (congrArg Option.isSome vectors)
  · rw [failed]
    exact .inr ⟨by simp, here.folder, here.flag, here.vectors⟩

/-- After any events the flag and the vectors go together, or vectors were forgotten and the flag
is all that is left of them. -/
theorem misled_or_onProcessors (available : gpu.isAvailable = true) (moves : gpu.moves = true)
    {start : IndexState} (opened : start.chunks = .ofFolder folder) (events : List IndexEvent) :
    IndexEvent.ForgotVectors gpu events start ∧
        Misled folder (IndexEvent.stateAfter gpu events start) ∨
      ¬ IndexEvent.ForgotVectors gpu events start ∧
        OnProcessors folder (IndexEvent.stateAfter gpu events start) := by
  induction events using List.reverseRecOn with
  | nil =>
    refine .inr ⟨?_, onProcessors_of_opened opened⟩
    rintro ⟨front, back, split, -⟩
    simp at split
  | append_singleton events event ih =>
    rw [IndexEvent.stateAfter_append, IndexEvent.forgotVectors_append]
    generalize IndexEvent.stateAfter gpu events start = state at ih ⊢
    cases event with
    | reopen later =>
      have same : state.chunks.folder = folder := ih.elim (·.2.folder) (·.2.folder)
      refine .inr ⟨by simp, ?_⟩
      exact onProcessors_of_opened (congrArg ChunkIndex.ofFolder same)
    | call made =>
      by_cases clears : made = .clear
      · subst clears
        have ended : IndexEvent.after gpu state (.call .clear) =
            (runFrom state ChunkIndex.clear).2 := congrArg Prod.snd (runFrom_bind_pure _ _ _)
        rw [ended]
        rcases ih with ⟨forgot, here⟩ | ⟨kept, here⟩
        · exact .inl ⟨⟨by simp, .inl forgot⟩, here.cleared⟩
        · refine here.cleared.imp ?_ ?_
          · exact fun ⟨forgets, misled⟩ => ⟨⟨by simp, .inr ⟨rfl, forgets⟩⟩, misled⟩
          · rintro ⟨keeps, on⟩
            exact ⟨fun ⟨_, forgot⟩ => forgot.elim kept (keeps ·.2), on⟩
      · rcases ih with ⟨forgot, here⟩ | ⟨kept, here⟩
        · exact .inl ⟨⟨by simp, .inl forgot⟩, (Misled.outlasts gpu).call clears state here⟩
        · refine .inr ⟨fun ⟨_, forgot⟩ => forgot.elim kept ?_, ?_⟩
          · exact fun ⟨same, _⟩ => clears (IndexEvent.call.inj same)
          · exact (OnProcessors.outlasts available moves).call clears state here

end IndexState

open IndexState IndexEvent in
/-- On a machine that moves every index to its graphics processors, from opening an index and
after any calls and further openings, the flag is set exactly if there are vectors on graphics
processors, unless vectors were forgotten since the index was opened last.  Till then all vectors
are there.  From then on the flag stays set and all vectors stay in main memory. -/
theorem gpu_flag_true_unless_forgotten {gpu : GpuSupport} (available : gpu.isAvailable = true)
    (moves : gpu.moves = true) {folder : Path} {start : IndexState}
    (opened : start.chunks = .ofFolder folder) (events : List IndexEvent) :
    let chunks := (stateAfter gpu events start).chunks
    ((chunks.onGpu = true ↔ ∃ index, chunks.vectors = some index ∧ index.onGpu = true) ↔
        ¬ ForgotVectors gpu events start) ∧
      (¬ ForgotVectors gpu events start →
        ∀ index, chunks.vectors = some index → index.onGpu = true) ∧
      (ForgotVectors gpu events start → chunks.onGpu = true ∧
        ∀ index, chunks.vectors = some index → index.onGpu = false) := by
  intro chunks
  rcases misled_or_onProcessors available moves opened events with
    ⟨forgot, misled⟩ | ⟨kept, on⟩
  · refine ⟨iff_of_false (fun truth => ?_) (not_not.mpr forgot), absurd forgot,
      fun _ => ⟨misled.flag, misled.vectors⟩⟩
    obtain ⟨index, found, there⟩ := truth.mp misled.flag
    rw [misled.vectors index found] at there
    cases there
  · refine ⟨iff_of_true ?_ kept, fun _ => on.vectors, (absurd · kept)⟩
    rw [on.flag, Option.isSome_iff_exists]
    exact ⟨fun ⟨index, found⟩ => ⟨index, found, on.vectors index found⟩,
      fun ⟨index, found, _⟩ => ⟨index, found⟩⟩

namespace IndexEvent

def machine : GpuSupport :=
  ⟨true, .known 1, true, .works, .standard⟩

def store : Path :=
  ⟨.root, ["store"]⟩

def fresh : IndexState :=
  ⟨.ofFolder store, .bare store⟩

def addition : IndexEvent :=
  .call (.add [⟨"a", [1.0], []⟩])

end IndexEvent

open IndexEvent in
/-- What is added after clearing stays in main memory, and after opening again it is moved. -/
theorem addition_after_clearing_is_not_moved :
    let cleared := [addition, .call .clear, addition]
    let chunks := (stateAfter machine cleared fresh).chunks
    let later := (stateAfter machine (cleared ++ [.reopen fresh.world, addition]) fresh).chunks
    machine.isAvailable = true ∧ machine.moves = true ∧
      chunks.vectors.isSome ∧ (∀ index, chunks.vectors = some index → index.onGpu = false) ∧
      later.vectors.isSome ∧ ∀ index, later.vectors = some index → index.onGpu = true := by
  intro cleared chunks later
  have emptied : (runFrom (stateAfter machine [addition] fresh) ChunkIndex.clear).1.isOk = true := by
    decide +kernel
  have forgot : ForgotVectors machine cleared fresh := by
    refine ⟨[addition], [addition], rfl, by simp [addition], by decide +kernel, ?_⟩
    cases outcome : (runFrom (stateAfter machine [addition] fresh) ChunkIndex.clear).1 with
    | ok _ => rfl
    | error fault =>
      rw [outcome] at emptied
      cases emptied
  have kept : ¬ ForgotVectors machine (cleared ++ [.reopen fresh.world, addition]) fresh := by
    rw [List.append_cons, forgotVectors_append, forgotVectors_append]
    simp [addition]
  have flagged := @gpu_flag_true_unless_forgotten machine rfl rfl store fresh rfl
  exact ⟨rfl, rfl, by decide +kernel, ((flagged cleared).2.2 forgot).2, by decide +kernel,
    (flagged _).2.1 kept⟩

open IndexEvent in
/-- Clearing forgets the vectors and leaves the flag. -/
theorem flag_outlives_vectors :
    let chunks := (stateAfter machine [addition, .call .clear] fresh).chunks
    machine.isAvailable = true ∧ machine.moves = true ∧
      ¬ (chunks.onGpu = true ↔ ∃ index, chunks.vectors = some index ∧ index.onGpu = true) := by
  intro chunks
  have flag : chunks.onGpu = true := by decide +kernel
  have none : chunks.vectors.isNone = true := by decide +kernel
  refine ⟨rfl, rfl, fun truth => ?_⟩
  obtain ⟨index, found, -⟩ := truth.mp flag
  rw [found] at none
  cases none

end CodeAtlas
