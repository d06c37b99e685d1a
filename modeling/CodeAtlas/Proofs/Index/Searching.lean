import CodeAtlas.Proofs.Index.Nearest
import CodeAtlas.Proofs.Index.Storage

/-!
# What a search answers

A search reads three things: the vectors, the names of the chunks by position and the
catalog of live chunks.  Its answer depends on nothing else.  It is cut twice: at three
times as many vectors as results are asked for, and at the number of results.  Both cuts
are prefixes of one ranking, so that asking for more only adds results at the end.
-/

namespace CodeAtlas

variable {hit : Hit} {candidate : Similarity × Nat} {kept : List Hit}

/-- A filter on the kind of chunk compares the kinds, and judges every record. -/
theorem Filter.accepts_kind (record : Record) (kind : String) :
    accepts record (.record [("chunk_type", .text kind)]) =
      .ok (((record.lookup "chunk_type").getD .null).agrees (.text kind)) := by
  cases same : ((record.lookup "chunk_type").getD .null).agrees (.text kind) <;>
    simp [accepts, Value.isTruthy, demandsOf, meetsAll, meets, same, bind, Except.bind, pure,
      Except.pure]

namespace Hit

def passes (filter : Value) (hit : Hit) : Bool :=
  (Filter.accepts hit.record filter).toOption.getD false

theorem passes_iff {filter : Value} :
    hit.passes filter = true ↔ Filter.accepts hit.record filter = .ok true := by
  unfold passes
  cases Filter.accepts hit.record filter with
  | error fault => simp [Except.toOption]
  | ok verdict => simp [Except.toOption]

theorem passes_null (hit : Hit) : hit.passes .null = true := rfl

end Hit

/-- What a search looks at. -/
structure SearchSpace where
  vectors : Option VectorIndex
  names : List String
  catalog : Catalog
  library : VectorLibrary

namespace SearchSpace

def index (space : SearchSpace) : VectorIndex :=
  space.vectors.getD (.flat 0)

def Paired (space : SearchSpace) : Prop :=
  space.names.length = space.index.size

/-- The query has the dimension of the index, once there is one. -/
def Suits (space : SearchSpace) (query : Embedding) : Prop :=
  ∀ index, space.vectors = some index → index.fits query = true

/-- The filter raises the fault at the record of a live chunk. -/
def Raises (space : SearchSpace) (filter : Value) (fault : Fault) : Prop :=
  ∃ identifier entry, space.catalog.get? identifier = some entry ∧
    Filter.accepts entry.record filter = .error fault

def hit? (space : SearchSpace) (candidate : Similarity × Nat) : Option Hit :=
  space.names[candidate.2]?.bind (fun name =>
    (space.catalog.get? name).map (fun entry => ⟨name, candidate.1, entry.record⟩))

/-- The positions that are looked at, with their similarities. -/
def scored (space : SearchSpace) (query : Embedding) : List (Similarity × Nat) :=
  space.index.scored space.library (space.library.normalize query)

def ranked (space : SearchSpace) (query : Embedding) : List (Similarity × Nat) :=
  space.index.ranked space.library (space.library.normalize query)

def nearest (space : SearchSpace) (query : Embedding) (count : Nat) : List (Similarity × Nat) :=
  space.index.nearest space.library (space.library.normalize query) count

def liveHits (space : SearchSpace) (query : Embedding) (count : Nat) : List Hit :=
  (space.nearest query count).filterMap space.hit?

/-- The first live chunks that pass the filter, out of three times as many candidates. -/
def answer (space : SearchSpace) (query : Embedding) (count : Nat) (filter : Value) :
    List Hit :=
  ((space.liveHits query (3 * count)).filter (Hit.passes filter)).take count

variable {space : SearchSpace} {query : Embedding} {filter : Value} {count : Nat}

theorem ranked_perm (space : SearchSpace) (query : Embedding) :
    (space.ranked query).Perm (space.scored query) :=
  space.index.ranked_perm _ _

theorem nearest_sublist (space : SearchSpace) (query : Embedding) (count : Nat) :
    (space.nearest query count).Sublist (space.ranked query) :=
  space.index.nearest_sublist _ _ _

theorem hit?_eq_some_iff :
    space.hit? candidate = some hit ↔
      space.names[candidate.2]? = some hit.identifier ∧ candidate.1 = hit.similarity ∧
        ∃ entry, space.catalog.get? hit.identifier = some entry ∧
          entry.record = hit.record := by
  obtain ⟨identifier, similarity, record⟩ := hit
  rw [hit?, Option.bind_eq_some_iff]
  constructor
  · rintro ⟨name, named, mapped⟩
    obtain ⟨entry, live, same⟩ := Option.map_eq_some_iff.mp mapped
    obtain ⟨rfl, rfl, rfl⟩ := Hit.mk.inj same
    exact ⟨named, rfl, entry, live, rfl⟩
  · rintro ⟨named, rfl, entry, live, rfl⟩
    exact ⟨identifier, named, by rw [live]; rfl⟩

private theorem collect_dead {rest : List (Similarity × Nat)}
    (inside : candidate.2 < space.names.length) (dead : space.hit? candidate = none) :
    space.catalog.collect space.names filter count kept (candidate :: rest) =
      space.catalog.collect space.names filter count kept rest := by
  have named := List.getElem?_eq_getElem inside
  rw [hit?, named, Option.bind_some, Option.map_eq_none_iff] at dead
  rw [Catalog.collect, named]
  dsimp only
  rw [dead]

/-- A live candidate is judged by the filter, and ends the search if it is the last one that
was asked for. -/
private theorem collect_live {rest : List (Similarity × Nat)}
    (live : space.hit? candidate = some hit) :
    space.catalog.collect space.names filter count kept (candidate :: rest) =
      (Filter.accepts hit.record filter).bind (fun accepted =>
        if accepted then
          if count ≤ kept.length + 1 then .ok (hit :: kept).reverse
          else space.catalog.collect space.names filter count (hit :: kept) rest
        else space.catalog.collect space.names filter count kept rest) := by
  obtain ⟨named, same, entry, known, record⟩ := hit?_eq_some_iff.mp live
  have whole : Hit.mk hit.identifier candidate.1 entry.record = hit := by rw [same, record]
  have enough : ((count : Int) ≤ (hit :: kept).length) = (count ≤ kept.length + 1) := by
    rw [List.length_cons, Int.ofNat_le]
  rw [Catalog.collect, named]
  dsimp only
  rw [known]
  dsimp only
  rw [whole, record]
  simp only [enough]
  rfl

/-- Going over candidates ends with a fault of the filter at a live chunk, or with the
first live chunks that pass. -/
theorem collect_cases (space : SearchSpace) (filter : Value) {found : List (Similarity × Nat)}
    (inside : ∀ candidate ∈ found, candidate.2 < space.names.length) (room : kept.length < count) :
    (∃ hit ∈ found.filterMap space.hit?, ∃ fault,
        Filter.accepts hit.record filter = .error fault ∧
        space.catalog.collect space.names filter count kept found = .error fault) ∨
      space.catalog.collect space.names filter count kept found =
        .ok (kept.reverse ++
          ((found.filterMap space.hit?).filter (Hit.passes filter)).take
            (count - kept.length)) := by
  induction found generalizing kept with
  | nil =>
    right
    simp [Catalog.collect]
  | cons candidate rest ih =>
    have inside' : ∀ other ∈ rest, other.2 < space.names.length :=
      fun other member => inside other (List.mem_cons_of_mem _ member)
    cases live : space.hit? candidate with
    | none =>
      rw [List.filterMap_cons_none live,
        collect_dead (inside candidate List.mem_cons_self) live]
      exact ih inside' room
    | some hit =>
      rw [List.filterMap_cons_some live, collect_live live]
      cases judged : Filter.accepts hit.record filter with
      | error fault =>
        left
        exact ⟨hit, List.mem_cons_self, fault, judged, rfl⟩
      | ok verdict =>
        cases verdict with
        | false =>
          have refused : ¬ hit.passes filter = true := by
            simp [Hit.passes_iff, judged]
          rw [List.filter_cons_of_neg refused]
          refine (ih inside' room).imp_left ?_
          rintro ⟨other, member, raised⟩
          exact ⟨other, List.mem_cons_of_mem _ member, raised⟩
        | true =>
          rw [List.filter_cons_of_pos (Hit.passes_iff.mpr judged)]
          by_cases full : count ≤ kept.length + 1
          · right
            have single : count - kept.length = 1 := by omega
            simp [Except.bind, full, single]
          · have next : (hit :: kept).length < count := by
              rw [List.length_cons]
              omega
            have less : count - kept.length = count - (hit :: kept).length + 1 := by
              rw [List.length_cons]
              omega
            rw [less, List.take_succ_cons]
            rcases ih inside' next with ⟨other, member, fault, raised, failed⟩ | done
            · left
              refine ⟨other, List.mem_cons_of_mem _ member, fault, raised, ?_⟩
              simpa [Except.bind, full] using failed
            · right
              simpa [Except.bind, full] using done

theorem candidate_lt (paired : space.Paired)
    (member : candidate ∈ space.nearest query count) :
    candidate.2 < space.names.length := by
  obtain ⟨⟨vector, found, -⟩, -⟩ :=
    VectorIndex.mem_scored.mp (VectorIndex.mem_scored_of_mem_nearest member)
  have inside := (List.getElem?_eq_some_iff.mp found).1
  rw [paired]
  exact inside

theorem mem_liveHits :
    hit ∈ space.liveHits query count ↔
      ∃ candidate ∈ space.nearest query count, space.hit? candidate = some hit :=
  List.mem_filterMap

theorem entry_of_mem_liveHits (member : hit ∈ space.liveHits query count) :
    ∃ entry, space.catalog.get? hit.identifier = some entry ∧ entry.record = hit.record := by
  obtain ⟨candidate, -, found⟩ := mem_liveHits.mp member
  obtain ⟨-, -, entry, live, record⟩ := hit?_eq_some_iff.mp found
  exact ⟨entry, live, record⟩

theorem liveHits_prefix (space : SearchSpace) (query : Embedding) {few many : Nat}
    (le : few ≤ many) : space.liveHits query few <+: space.liveHits query many :=
  (space.index.nearest_prefix _ _ le).filterMap space.hit?

theorem length_liveHits_le (space : SearchSpace) (query : Embedding) (count : Nat) :
    (space.liveHits query count).length ≤ count :=
  (List.length_filterMap_le _ _).trans (space.index.length_nearest_le _ _ _)

/-- Candidates that come one after the other stand for hits by falling similarity. -/
theorem hits_fall {candidates : List (Similarity × Nat)} (ordered : candidates.Pairwise Comes) :
    (candidates.filterMap space.hit?).Pairwise
      (fun first second => second.similarity ≤ first.similarity) := by
  refine ordered.filterMap _ ?_
  intro first second comes hit live hit' live'
  obtain ⟨-, same, -⟩ := hit?_eq_some_iff.mp live
  obtain ⟨-, same', -⟩ := hit?_eq_some_iff.mp live'
  rw [← same, ← same']
  exact comes.similarity_le

theorem answer_sublist_liveHits (space : SearchSpace) (query : Embedding) (count : Nat)
    (filter : Value) :
    (space.answer query count filter).Sublist (space.liveHits query (3 * count)) :=
  (List.take_sublist _ _).trans List.filter_sublist

theorem mem_answer (member : hit ∈ space.answer query count filter) :
    hit ∈ space.liveHits query (3 * count) ∧ hit.passes filter = true :=
  List.mem_filter.mp (List.mem_of_mem_take member)

/-- Fewer results than were asked for are all that there are among the candidates. -/
theorem mem_answer_of_lt (few : (space.answer query count filter).length < count)
    (live : hit ∈ space.liveHits query (3 * count)) (passes : hit.passes filter = true) :
    hit ∈ space.answer query count filter := by
  have uncut : space.answer query count filter =
      (space.liveHits query (3 * count)).filter (Hit.passes filter) := by
    apply List.take_of_length_le
    rw [answer, List.length_take] at few
    omega
  rw [uncut]
  exact List.mem_filter.mpr ⟨live, passes⟩

/-- Asking for more adds results at the end: the candidates for fewer results are a prefix
of those for more, and so are the results. -/
theorem answer_prefix (space : SearchSpace) (query : Embedding) (filter : Value)
    {few many : Nat} (le : few ≤ many) :
    space.answer query few filter <+: space.answer query many filter := by
  have candidates := (space.liveHits_prefix query (Nat.mul_le_mul_left 3 le)).filter
    (Hit.passes filter)
  exact (candidates.take few).trans (List.take_prefix_take_left le)

/-- A filter only leaves out results: the live candidates are few enough to be results
themselves when three times as many are asked for. -/
theorem answer_sublist_unfiltered (space : SearchSpace) (query : Embedding) (count : Nat)
    (filter : Value) :
    (space.answer query count filter).Sublist (space.answer query (3 * count) .null) := by
  have all : (space.liveHits query (3 * (3 * count))).filter (Hit.passes .null) =
      space.liveHits query (3 * (3 * count)) :=
    List.filter_eq_self.mpr (fun hit _ => hit.passes_null)
  have first : space.liveHits query (3 * count) <+: space.answer query (3 * count) .null := by
    rw [answer, all]
    apply List.prefix_take_iff.mpr
    constructor
    · exact space.liveHits_prefix query (Nat.le_mul_of_pos_left _ (by omega))
    · exact space.length_liveHits_le query (3 * count)
  exact (space.answer_sublist_liveHits query count filter).trans first.sublist

theorem answer_eq_nil (empty : space.index.vectors = []) :
    space.answer query count filter = [] := by
  simp [answer, liveHits, nearest, VectorIndex.nearest, VectorIndex.ranked, VectorIndex.scored,
    Sorting.byInsertion, empty]

end SearchSpace

namespace IndexState

open ChunkIndex

variable {gpu : GpuSupport} {state : IndexState} {space : SearchSpace} {query : Embedding}
  {count : Nat}

/-- Reading the vectors and then the catalog gives the search space. -/
def Offers (gpu : GpuSupport) (space : SearchSpace) (state : IndexState) : Prop :=
  ∃ loaded read, runFrom state (vectors! gpu) = (.ok space.vectors, loaded) ∧
    runFrom loaded catalog! = (.ok space.catalog, read) ∧ read.chunks.names = space.names ∧
    space.library = gpu.library

/-- How a search for so many chunks ends. -/
def outcome (gpu : GpuSupport) (state : IndexState) (query : Embedding) (count : Nat)
    (filter : Value) : Except Fault (List Hit) :=
  (runFrom state (searchUpTo gpu query (.int count) filter)).1

private theorem vectors_of_read {found : Option VectorIndex} {loaded : IndexState}
    (read : runFrom state (vectors! gpu) = (.ok found, loaded)) :
    loaded.chunks.vectors = found := by
  have last : ∀ between : IndexState, runFrom between (do return (← current).vectors) =
      (.ok found, loaded) → loaded.chunks.vectors = found := by
    intro between returned
    obtain ⟨same, rfl⟩ := Prod.mk.inj returned
    exact Except.ok.inj same
  rw [vectors!, runFrom_then (runFrom_current _)] at read
  split at read
  · obtain ⟨_, between, -, returned⟩ := runFrom_bind_ok read
    exact last between returned
  · exact last state read

/-- The candidates are looked up in the names and in the catalog. -/
private theorem search_eq_collect {index : VectorIndex} {read : IndexState}
    (vectors : state.chunks.vectors = some index) (some : index.size ≠ 0)
    (fits : index.fits query = true)
    (readCatalog : runFrom state catalog! = (.ok space.catalog, read))
    (names : read.chunks.names = space.names) (filter : Value) :
    (runFrom state (search gpu query count filter)).1 =
      space.catalog.collect space.names filter count []
        (index.nearest gpu.library (gpu.library.normalize query) (3 * count)) := by
  have again : runFrom state (vectors! gpu) = (.ok (Option.some index), state) := by
    simp [vectors!, vectors]
  have fits' : index.fits (gpu.library.normalize query) = true := by
    simpa [VectorIndex.fits] using fits
  have looked : index.search gpu.library (gpu.library.normalize query)
      (min ((count : Int) * 3) index.size) =
        .ok (index.nearest gpu.library (gpu.library.normalize query) (3 * count)) := by
    have cast : (count : Int) * 3 = ((3 * count : Nat) : Int) := by omega
    rw [cast]
    exact VectorIndex.search_eq_nearest fits' (3 * count)
  rw [search, runFrom_then again]
  dsimp only
  rw [if_neg some, runFrom_bind, looked, runFrom_orFail, andThen_ok]
  cases found : index.nearest gpu.library (gpu.library.normalize query) (3 * count) with
  | nil => rfl
  | cons candidate rest =>
    rw [List.isEmpty_cons, if_neg Bool.false_ne_true, runFrom_then readCatalog,
      runFrom_then (runFrom_current _), runFrom_orFail, names]

theorem Offers.outcome_cases (offers : state.Offers gpu space) (paired : space.Paired)
    (suits : space.Suits query) (positive : 1 ≤ count) (filter : Value) :
    (∃ fault, space.Raises filter fault ∧
        state.outcome gpu query count filter = .error fault) ∨
      state.outcome gpu query count filter = .ok (space.answer query count filter) := by
  obtain ⟨loaded, read, readVectors, readCatalog, names, library⟩ := offers
  have known := vectors_of_read readVectors
  unfold outcome
  rw [searchUpTo, runFrom_then readVectors]
  cases vectors : space.vectors with
  | none =>
    right
    have empty : space.index.vectors = [] := by rw [SearchSpace.index, vectors]; rfl
    rw [SearchSpace.answer_eq_nil empty]
    rfl
  | some index =>
    have same : space.index = index := by rw [SearchSpace.index, vectors]; rfl
    dsimp only
    by_cases empty : index.size = 0
    · right
      rw [if_pos empty, SearchSpace.answer_eq_nil (List.length_eq_zero_iff.mp (same ▸ empty))]
      rfl
    · have counted : countAmong index.size (.int count) = .ok (count : Int) := rfl
      rw [if_neg empty, counted]
      dsimp only
      rw [search_eq_collect (known.trans vectors) empty (suits index vectors) readCatalog names
        filter, ← same, ← library]
      refine (space.collect_cases filter (fun candidate member =>
        SearchSpace.candidate_lt paired member) positive).imp_left ?_
      rintro ⟨hit, member, fault, raised, failed⟩
      obtain ⟨entry, live, record⟩ := SearchSpace.entry_of_mem_liveHits member
      exact ⟨fault, ⟨hit.identifier, entry, live, record ▸ raised⟩, failed⟩

theorem Offers.outcome_eq (offers : state.Offers gpu space) (paired : space.Paired)
    (suits : space.Suits query) {filter : Value}
    (judged : ∀ identifier entry, space.catalog.get? identifier = some entry →
      ∃ verdict, Filter.accepts entry.record filter = .ok verdict)
    (positive : 1 ≤ count) :
    state.outcome gpu query count filter = .ok (space.answer query count filter) := by
  rcases offers.outcome_cases paired suits positive filter with
    ⟨fault, ⟨identifier, entry, live, raised⟩, -⟩ | done
  · obtain ⟨verdict, accepted⟩ := judged identifier entry live
    rw [raised] at accepted
    cases accepted
  · exact done

/-- What is in memory is what a search looks at. -/
theorem offers_of_memory {index : VectorIndex} {catalog : Catalog}
    (vectors : state.chunks.vectors = some index) (live : state.chunks.catalog = some catalog) :
    state.Offers gpu ⟨some index, state.chunks.names, catalog, gpu.library⟩ := by
  refine ⟨state, state, ?_, ?_, rfl, rfl⟩
  · simp [vectors!, vectors]
  · simp [catalog!, live]

end IndexState

/-- Every search succeeds with at most as many results as were asked for.  They are live, have
their present records, pass the filter and come by falling similarity.  Asking for more adds
results at the end, and the filter only leaves out results of the wider search without it.
If there are fewer results, no candidate that is live and passes was left out. -/
theorem search_sound_ordered_stable {gpu : GpuSupport} {state : IndexState}
    {space : SearchSpace} (offers : state.Offers gpu space) (paired : space.Paired)
    {query : Embedding} (suits : space.Suits query) {filter : Value}
    (judged : ∀ identifier entry, space.catalog.get? identifier = some entry →
      ∃ verdict, Filter.accepts entry.record filter = .ok verdict)
    {few many : Nat} (positive : 1 ≤ few) (le : few ≤ many) :
    ∃ hits more wide,
      state.outcome gpu query few filter = .ok hits ∧
      state.outcome gpu query many filter = .ok more ∧
      state.outcome gpu query (3 * few) .null = .ok wide ∧
      hits.length ≤ few ∧
      hits.Pairwise (fun first second => second.similarity ≤ first.similarity) ∧
      (∀ hit ∈ hits, ∃ entry, space.catalog.get? hit.identifier = some entry ∧
        entry.record = hit.record ∧ Filter.accepts hit.record filter = .ok true) ∧
      hits <+: more ∧ hits.Sublist wide ∧
      (hits.length < few → ∀ hit ∈ space.liveHits query (3 * few),
        Filter.accepts hit.record filter = .ok true → hit ∈ hits) := by
  refine ⟨space.answer query few filter, space.answer query many filter,
    space.answer query (3 * few) .null, ?_, ?_, ?_, ?_, ?_, ?_, ?_, ?_, ?_⟩
  · exact offers.outcome_eq paired suits judged positive
  · exact offers.outcome_eq paired suits judged (positive.trans le)
  · exact offers.outcome_eq paired suits (fun _ _ _ => ⟨true, rfl⟩) (by omega)
  · exact List.length_take_le _ _
  · exact (SearchSpace.hits_fall (space.index.pairwise_nearest _ _ _)).sublist
      (space.answer_sublist_liveHits query few filter)
  · intro hit member
    obtain ⟨live, passes⟩ := SearchSpace.mem_answer member
    obtain ⟨entry, known, record⟩ := SearchSpace.entry_of_mem_liveHits live
    exact ⟨entry, known, record, Hit.passes_iff.mp passes⟩
  · exact space.answer_prefix query filter le
  · exact space.answer_sublist_unfiltered query few filter
  · intro fewer hit live accepted
    exact SearchSpace.mem_answer_of_lt fewer live (Hit.passes_iff.mpr accepted)

/-- Of three vectors one belongs to a chunk that was removed, and the filter refuses
another. -/
theorem search_past_removed_chunk :
    let index : VectorIndex :=
      { VectorIndex.flat 2 with vectors := [[1.0, 0.0], [0.6, 0.8], [0.0, 1.0]] }
    let catalog : Catalog := ⟨[("a", ⟨0, [("chunk_type", .text "function")]⟩),
      ("c", ⟨2, [("chunk_type", .text "class")]⟩)]⟩
    let folder : Path := ⟨.root, ["store"]⟩
    let state : IndexState :=
      ⟨⟨folder, some index, ["a", "b", "c"], some catalog, false⟩, World.bare folder⟩
    let filter : Value := .record [("chunk_type", .text "class")]
    ∃ hits more wide,
      state.outcome .none [3.0, 4.0] 1 filter = .ok hits ∧
      state.outcome .none [3.0, 4.0] 2 filter = .ok more ∧
      state.outcome .none [3.0, 4.0] 3 .null = .ok wide ∧
      hits <+: more ∧ hits.Sublist wide := by
  intro index catalog folder state filter
  have judged : ∀ identifier entry, catalog.get? identifier = some entry →
      ∃ verdict, Filter.accepts entry.record filter = .ok verdict :=
    fun _ entry _ => ⟨_, Filter.accepts_kind entry.record "class"⟩
  have offers : state.Offers .none ⟨some index, ["a", "b", "c"], catalog, .standard⟩ :=
    IndexState.offers_of_memory rfl rfl
  have suits : SearchSpace.Suits ⟨some index, ["a", "b", "c"], catalog, .standard⟩ [3.0, 4.0] := by
    rintro _ ⟨⟩
    rfl
  obtain ⟨hits, more, wide, few, many, all, -, -, -, first, part, -⟩ :=
    @search_sound_ordered_stable .none state _ offers rfl _ suits filter judged 1 2
      (by decide) (by decide)
  exact ⟨hits, more, wide, few, many, all, first, part⟩

end CodeAtlas
