import CodeAtlas.Index.Manager

/-!
# Running actions

An action runs from a state and ends with an outcome and a state.  Running is described
by one equation for each way in which actions are put together, so that a longer action
is run by rewriting.  What was done before a failure stays in the state.  Two runs of an action
are parallel if they give the same from states that are related, and leave such states.
-/

namespace CodeAtlas

variable {σ α β : Type}
variable {value : β} {state : σ} {action : ExceptT Fault (StateM σ) α}
  {next : α → ExceptT Fault (StateM σ) β}

/-- The outcome of an action and the state that it leaves. -/
def runFrom (state : σ) (action : ExceptT Fault (StateM σ) α) :
    Except Fault α × σ :=
  action.run.run state

/-- Go on from an outcome, unless it is a fault. -/
def andThen (first : Except Fault α × σ) (next : α → σ → Except Fault β × σ) : Except Fault β × σ :=
  match first with
  | (.ok value, state) => next value state
  | (.error fault, state) => (.error fault, state)

@[simp]
theorem andThen_ok (value : α) (state : σ) (next : α → σ → Except Fault β × σ) :
    andThen (.ok value, state) next = next value state := rfl

@[simp]
theorem andThen_error (fault : Fault) (state : σ) (next : α → σ → Except Fault β × σ) :
    andThen (.error fault, state) next = (.error fault, state) := rfl

@[simp]
theorem runFrom_pure (state : σ) (value : α) :
    runFrom state (pure value) = (.ok value, state) := rfl

@[simp]
theorem runFrom_throw (state : σ) (fault : Fault) :
    runFrom state (throw fault : ExceptT Fault (StateM σ) α) =
      (.error fault, state) := rfl

@[simp]
theorem runFrom_bind (state : σ) (action : ExceptT Fault (StateM σ) α)
    (next : α → ExceptT Fault (StateM σ) β) :
    runFrom state (action >>= next) =
      andThen (runFrom state action)
        (fun value after => runFrom after (next value)) := by
  simp only [runFrom, ExceptT.run_bind, StateT.run_bind]
  rcases StateT.run (ExceptT.run action) state with ⟨_ | _, after⟩
  · rfl
  · rfl

theorem runFrom_then {after : σ} {first : α} (ran : runFrom state action = (.ok first, after)) :
    runFrom state (action >>= next) = runFrom after (next first) := by
  rw [runFrom_bind, ran, andThen_ok]

@[simp]
theorem runFrom_map (state : σ) (action : ExceptT Fault (StateM σ) α) (change : α → β) :
    runFrom state (change <$> action) =
      andThen (runFrom state action)
        (fun value after => (.ok (change value), after)) := by
  rw [← bind_pure_comp, runFrom_bind]
  rfl

theorem runFrom_bind_pure (state : σ) (action : ExceptT Fault (StateM σ) α) (change : α → β) :
    runFrom state (action >>= fun value => pure (change value)) =
      ((runFrom state action).1.map change, (runFrom state action).2) := by
  rw [runFrom_bind]
  rcases runFrom state action with ⟨_ | _, after⟩
  · rfl
  · rfl

@[simp]
theorem runFrom_tryCatch (state : σ) (action : ExceptT Fault (StateM σ) α)
    (handle : Fault → ExceptT Fault (StateM σ) α) :
    runFrom state (tryCatch action handle) =
      match runFrom state action with
      | (.ok value, after) => (.ok value, after)
      | (.error fault, after) => runFrom after (handle fault) := by
  simp only [runFrom, ExceptT.run_tryCatch, StateT.run_bind]
  rcases StateT.run (ExceptT.run action) state with ⟨_ | _, after⟩
  · rfl
  · rfl

theorem runFrom_tryCatch_handled {action : ExceptT Fault (StateM σ) Unit}
    {handle : Fault → ExceptT Fault (StateM σ) Unit}
    (handled : ∀ fault state, (runFrom state (handle fault)).1 = .ok ())
    (state : σ) : (runFrom state (tryCatch action handle)).1 = .ok () := by
  rw [runFrom_tryCatch]
  rcases runFrom state action with ⟨fault | _, after⟩
  · exact handled fault after
  · rfl

@[simp]
theorem runFrom_get (state : σ) :
    runFrom state (get : ExceptT Fault (StateM σ) σ) = (.ok state, state) := rfl

@[simp]
theorem runFrom_getThe (state : σ) :
    runFrom state (getThe σ : ExceptT Fault (StateM σ) σ) =
      (.ok state, state) := rfl

@[simp]
theorem runFrom_set (state other : σ) :
    runFrom state (set other : ExceptT Fault (StateM σ) PUnit) =
      (.ok ⟨⟩, other) := rfl

@[simp]
theorem mapError_ok {ε ε' : Type} (change : ε → ε') (value : α) :
    (Except.ok value).mapError change = .ok value := rfl

@[simp]
theorem mapError_error {ε ε' : Type} (change : ε → ε') (fault : ε) :
    (Except.error fault : Except ε α).mapError change = .error (change fault) := rfl

@[simp]
theorem runFrom_orFail (state : σ) (result : Except Fault α) :
    runFrom state (orFail result : ExceptT Fault (StateM σ) α) =
      (result, state) := by
  cases result with
  | ok value => rfl
  | error fault => rfl

/-- An action on the world around an index changes nothing but the world. -/
@[simp]
theorem runFrom_lift (state : IndexState) (action : Act α) :
    runFrom state (liftM action : IndexAct α) =
      ((runFrom state.world action).1,
        { state with world := (runFrom state.world action).2 }) := rfl

theorem runFrom_lift_ok {state after : IndexState} {action : Act α} {value : α}
    (result : runFrom state (liftM action : IndexAct α) = (.ok value, after)) :
    ∃ world, runFrom state.world action = (.ok value, world) ∧
      after = { state with world } := by
  rw [runFrom_lift] at result
  obtain ⟨outcome, rfl⟩ := Prod.mk.inj result
  exact ⟨_, Prod.ext outcome rfl, rfl⟩

@[simp]
theorem runFrom_current (state : IndexState) :
    runFrom state ChunkIndex.current = (.ok state.chunks, state) := rfl

@[simp]
theorem runFrom_change (state : IndexState) (update : ChunkIndex → ChunkIndex) :
    runFrom state (ChunkIndex.change update) =
      (.ok (), { state with chunks := update state.chunks }) := rfl

theorem exists_ok_of_toOption {α β : Type} {outcome : Except Fault α} {told : α → β} {value : β}
    (ended : outcome.toOption.map told = some value) :
    ∃ result, outcome = .ok result ∧ told result = value := by
  cases outcome with
  | error fault => cases ended
  | ok result => exact ⟨result, rfl, Option.some.inj ended⟩

theorem andThen_eq_ok_iff {first : Except Fault α × σ}
    {next : α → σ → Except Fault β × σ} {after : σ} :
    andThen first next = (.ok value, after) ↔
      ∃ middle between, first = (.ok middle, between) ∧
        next middle between = (.ok value, after) := by
  obtain ⟨_ | middle, between⟩ := first
  · simp
  · constructor
    · intro result
      exact ⟨middle, between, rfl, result⟩
    · rintro ⟨_, _, same, result⟩
      cases same
      exact result

theorem runFrom_bind_ok {after : σ}
    (result : runFrom state (action >>= next) = (.ok value, after)) :
    ∃ middle between, runFrom state action = (.ok middle, between) ∧
      runFrom between (next middle) = (.ok value, after) := by
  rw [runFrom_bind] at result
  exact andThen_eq_ok_iff.mp result

/-- Whatever its outcome, the action leaves a state with the property. -/
def Preserves (property : σ → Prop) (action : ExceptT Fault (StateM σ) α) : Prop :=
  ∀ state, property state → property (runFrom state action).2

namespace Preserves

variable {property : σ → Prop}

theorem after {action : ExceptT Fault (StateM σ) α} {state after : σ} {outcome : Except Fault α}
    (preserves : Preserves property action) (holds : property state)
    (ran : runFrom state action = (outcome, after)) : property after := by
  have done := preserves state holds
  rwa [ran] at done

theorem of_same (same : ∀ state, (runFrom state action).2 = state) : Preserves property action := by
  intro state holds
  rwa [same]

theorem pure (value : α) :
    Preserves property (Pure.pure value : ExceptT Fault (StateM σ) α) :=
  fun _ holds => holds

theorem throw (fault : Fault) :
    Preserves property (MonadExcept.throw fault : ExceptT Fault (StateM σ) α) :=
  fun _ holds => holds

theorem orFail (result : Except Fault α) :
    Preserves property (CodeAtlas.orFail result : ExceptT Fault (StateM σ) α) := by
  intro state holds
  simpa using holds

theorem bind_at (first : property (runFrom state action).2)
    (second : ∀ value, Preserves property (next value)) :
    property (runFrom state (action >>= next)).2 := by
  rw [runFrom_bind]
  rcases result : runFrom state action with ⟨fault | value, after⟩
  · rwa [result] at first
  · rw [result] at first
    exact second value after first

theorem bind (first : Preserves property action)
    (second : ∀ value, Preserves property (next value)) :
    Preserves property (action >>= next) :=
  fun state holds => bind_at (first state holds) second

theorem bind_of_ok {good : α → Prop} (first : Preserves property action)
    (outcome : ∀ {state value after}, property state →
      runFrom state action = (.ok value, after) → good value)
    (second : ∀ value, good value → Preserves property (next value)) :
    Preserves property (action >>= next) := by
  intro state holds
  rw [runFrom_bind]
  rcases result : runFrom state action with ⟨fault | value, after⟩
  · exact first.after holds result
  · exact second value (outcome holds result) after (first.after holds result)

theorem guarded_at {condition : Prop} [Decidable condition] {next : ExceptT Fault (StateM σ) β}
    (first : condition → property (runFrom state action).2)
    (skipped : ¬ condition → property state) (second : Preserves property next) :
    property (runFrom state (if condition then action >>= fun _ => next else next)).2 := by
  split
  · rename_i holds
    exact bind_at (first holds) (fun _ => second)
  · rename_i fails
    exact second state (skipped fails)

theorem guarded {condition : Prop} [Decidable condition]
    {next : ExceptT Fault (StateM σ) β} (first : Preserves property action)
    (second : Preserves property next) :
    Preserves property (if condition then action >>= fun _ => next else next) :=
  fun state holds => guarded_at (fun _ => first state holds) (fun _ => holds) second

theorem either {condition : Prop} [Decidable condition]
    {other : ExceptT Fault (StateM σ) α} (first : Preserves property action)
    (second : Preserves property other) (rest : ∀ value, Preserves property (next value)) :
    Preserves property (if condition then action >>= next else other >>= next) := by
  split
  · exact .bind first rest
  · exact .bind second rest

theorem mapM {step : α → ExceptT Fault (StateM σ) β}
    (each : ∀ item, Preserves property (step item)) (items : List α) :
    Preserves property (items.mapM step) := by
  induction items with
  | nil => exact .pure _
  | cons item items ih =>
    rw [List.mapM_cons]
    exact .bind (each item) (fun _ => .bind ih (fun _ => .pure _))

theorem tryCatch {handle : Fault → ExceptT Fault (StateM σ) α} (first : Preserves property action)
    (second : ∀ fault, Preserves property (handle fault)) :
    Preserves property (MonadExcept.tryCatch action handle) := by
  intro state holds
  rw [runFrom_tryCatch]
  have between := first state holds
  rcases result : runFrom state action with ⟨fault | value, after⟩
  · exact second fault after (by simpa [result] using between)
  · simpa [result] using between

end Preserves

theorem bind_eq_ok_iff {result : Except Fault α} {next : α → Except Fault β} :
    result >>= next = .ok value ↔ ∃ inner, result = .ok inner ∧ next inner = .ok value := by
  cases result with
  | error fault => simp [bind, Except.bind]
  | ok inner => simp [bind, Except.bind]

theorem mapM_eq_ok {step : α → Except Fault β} {result : α → β} {inputs : List α}
    (each : ∀ input ∈ inputs, step input = .ok (result input)) :
    inputs.mapM step = .ok (inputs.map result) := by
  induction inputs with
  | nil => rfl
  | cons input inputs ih =>
    obtain ⟨here, later⟩ := List.forall_mem_cons.mp each
    rw [List.mapM_cons, here, ih later]
    rfl

theorem runFrom_mapM {step : α → ExceptT Fault (StateM σ) β} {result : α → β} {state : σ}
    {inputs : List α} (each : ∀ input ∈ inputs,
      runFrom state (step input) = (.ok (result input), state)) :
    runFrom state (inputs.mapM step) = (.ok (inputs.map result), state) := by
  induction inputs with
  | nil => rfl
  | cons input inputs ih =>
    obtain ⟨here, later⟩ := List.forall_mem_cons.mp each
    rw [List.mapM_cons, runFrom_then here, runFrom_then (ih later)]
    rfl

theorem exists_mapM_ok {step : α → Except Fault β} {inputs : List α}
    (each : ∀ input ∈ inputs, ∃ result, step input = .ok result) :
    ∃ results, inputs.mapM step = .ok results := by
  induction inputs with
  | nil => exact ⟨[], rfl⟩
  | cons input inputs ih =>
    obtain ⟨here, later⟩ := List.forall_mem_cons.mp each
    obtain ⟨result, first⟩ := here
    obtain ⟨results, rest⟩ := ih later
    exact ⟨result :: results, by rw [List.mapM_cons, first, rest]; rfl⟩

namespace World

theorem resolve_snd (path : String) (world : World) :
    (runFrom world (World.resolve path)).2 = world := by
  cases null : (Path.ofString path).hasNull <;> simp [World.resolve, null]

theorem find_snd (path : Path) (world : World) :
    (runFrom world (World.find path)).2 = world := by
  simp [World.find]

theorem exists?_snd (path : Path) (world : World) :
    (runFrom world (World.exists? path)).2 = world := by
  cases found : world.lookUp path <;> simp [World.exists?, World.find, found]

theorem isFolder_snd (path : Path) (world : World) :
    (runFrom world (World.isFolder path)).2 = world := by
  rcases found : world.lookUp path with fault | _ | entry <;>
    simp [World.isFolder, World.find, found]

theorem documentAt_snd (path : Path) (world : World) :
    (runFrom world (World.documentAt path)).2 = world := by
  cases found : world.file path with
  | error fault => simp [World.documentAt, World.fileAt, found]
  | ok stored =>
    cases read : stored.document <;> simp [World.documentAt, World.fileAt, found, read]

theorem namesAt_snd (path : Path) (world : World) :
    (runFrom world (World.namesAt path)).2 = world := by
  cases found : world.file path with
  | error fault => simp [World.namesAt, World.fileAt, found]
  | ok stored =>
    simp only [World.namesAt, World.fileAt, runFrom_bind, runFrom_get, andThen_ok,
      runFrom_orFail, found]
    split <;> rfl

end World

theorem Preserves.of_looking {property : IndexState → Prop} {action : Act α}
    (looks : ∀ world, (runFrom world action).2 = world) :
    Preserves property (liftM action : IndexAct α) := by
  intro state holds
  rwa [runFrom_lift, looks]

section Parallel

variable {σ α β : Type} {related : σ → σ → Prop} {action : ExceptT Fault (StateM σ) α}
  {next : α → ExceptT Fault (StateM σ) β}

/-- From related states the action gives the same, and leaves related states. -/
def Parallel (related : σ → σ → Prop) (action : ExceptT Fault (StateM σ) α) : Prop :=
  ∀ first second, related first second →
    (runFrom second action).1 = (runFrom first action).1 ∧
      related (runFrom first action).2 (runFrom second action).2

namespace Parallel

theorem pure (value : α) :
    Parallel related (Pure.pure value : ExceptT Fault (StateM σ) α) :=
  fun _ _ holds => ⟨rfl, holds⟩

theorem throw (fault : Fault) :
    Parallel related (MonadExcept.throw fault : ExceptT Fault (StateM σ) α) :=
  fun _ _ holds => ⟨rfl, holds⟩

theorem orFail (result : Except Fault α) :
    Parallel related (CodeAtlas.orFail result : ExceptT Fault (StateM σ) α) := by
  intro first second holds
  simpa using holds

theorem exists_answer (parallel : Parallel related action) {first second : σ}
    (holds : related first second) :
    ∃ answer first' second', runFrom first action = (answer, first') ∧
      runFrom second action = (answer, second') ∧ related first' second' := by
  obtain ⟨same, between⟩ := parallel first second holds
  exact ⟨_, _, (runFrom second action).2, rfl, Prod.ext same rfl, between⟩

theorem bind (earlier : Parallel related action)
    (later : ∀ value, Parallel related (next value)) : Parallel related (action >>= next) := by
  intro first second holds
  obtain ⟨fault | value, _, _, one, other, between⟩ := earlier.exists_answer holds
  · rw [runFrom_bind, runFrom_bind, one, other]
    exact ⟨rfl, between⟩
  · rw [runFrom_bind, runFrom_bind, one, other]
    exact later value _ _ between

theorem orFail_bind {result : Except Fault α}
    (later : ∀ value, result = .ok value → Parallel related (next value)) :
    Parallel related (CodeAtlas.orFail result >>= next) := by
  intro first second holds
  rw [runFrom_bind, runFrom_bind, runFrom_orFail, runFrom_orFail]
  cases result with
  | error fault => exact ⟨rfl, holds⟩
  | ok value => exact later value rfl first second holds

theorem guarded {condition : Prop} [Decidable condition] {next : ExceptT Fault (StateM σ) β}
    (earlier : Parallel related action) (later : Parallel related next) :
    Parallel related (if condition then action >>= fun _ => next else next) := by
  split
  · exact .bind earlier (fun _ => later)
  · exact later

theorem tryCatch {handle : Fault → ExceptT Fault (StateM σ) α} (earlier : Parallel related action)
    (later : ∀ fault, Parallel related (handle fault)) :
    Parallel related (MonadExcept.tryCatch action handle) := by
  intro first second holds
  obtain ⟨fault | value, _, _, one, other, between⟩ := earlier.exists_answer holds
  · rw [runFrom_tryCatch, runFrom_tryCatch, one, other]
    exact later fault _ _ between
  · rw [runFrom_tryCatch, runFrom_tryCatch, one, other]
    exact ⟨rfl, between⟩

theorem and {property : σ → Prop} (parallel : Parallel related action)
    (kept : Preserves property action) :
    Parallel (fun first second => related first second ∧ property first ∧ property second)
      action := by
  rintro first second ⟨holds, one, other⟩
  obtain ⟨answer, after⟩ := parallel first second holds
  exact ⟨answer, after, kept first one, kept second other⟩

end Parallel

end Parallel

end CodeAtlas
