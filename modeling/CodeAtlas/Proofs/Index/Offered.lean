import CodeAtlas.Proofs.Index.Searching
import CodeAtlas.Proofs.Index.Soundness
import Mathlib.Data.List.Perm.Subperm

/-!
# What an index offers to a search after calls

Whatever calls were made, an index offers all chunks that the ledger tells, in the order in
which they were given: their names, their vectors, and the records of those that are live.  A
flat index looks at all of them, so that the live candidates of a search can be told from the
chunks that were given.
-/

namespace CodeAtlas

/-- How similar a query and a vector are in a flat index, once both are normalized. -/
def VectorLibrary.flatSimilarity (library : VectorLibrary) (query vector : Embedding) :
    Similarity :=
  library.similarity .flat (library.normalize query) (library.normalize vector)

namespace SearchSpace

/-- The space is made of the chunks of a ledger. -/
structure Holds (space : SearchSpace) (ledger : Ledger) : Prop where
  names : space.names = ledger.items.map Embedded.identifier
  vectors : space.index.vectors =
    ledger.items.map (fun item => space.library.normalize item.embedding)
  dimension : space.vectors.map VectorIndex.dimension = ledger.dimension.map Int.ofNat
  whole : space.index.reach = none
  flat : ledger.flat = true → space.index.kind = .flat
  places : Ledger.Places ledger.items space.catalog

def hitOf? (space : SearchSpace) (query : Embedding) (item : Embedded) : Option Hit :=
  (space.catalog.get? item.identifier).map (fun entry =>
    ⟨item.identifier, space.library.flatSimilarity query item.embedding, entry.record⟩)

theorem hitOf?_dead {space : SearchSpace} {query : Embedding} {item : Embedded}
    (dead : space.catalog.get? item.identifier = none) : space.hitOf? query item = none := by
  rw [hitOf?, dead, Option.map_none]

theorem hitOf?_live {space : SearchSpace} {query : Embedding} {item : Embedded}
    {entry : Entry} (live : space.catalog.get? item.identifier = some entry) :
    space.hitOf? query item = some ⟨item.identifier,
      space.library.flatSimilarity query item.embedding, entry.record⟩ := by
  rw [hitOf?, live, Option.map_some]

namespace Holds

variable {space : SearchSpace} {ledger : Ledger} {query : Embedding}
variable (holds : space.Holds ledger)

include holds

theorem size_eq : space.index.size = ledger.items.length := by
  rw [VectorIndex.size, holds.vectors, List.length_map]

theorem paired : space.Paired := by
  rw [Paired, holds.names, holds.size_eq, List.length_map]

theorem nearest_eq (query : Embedding) (count : Nat) :
    space.nearest query count = (space.ranked query).take count :=
  VectorIndex.nearest_of_whole _ _ _ holds.whole count

theorem suits (length : ∀ dimension, ledger.dimension = some dimension → query.length = dimension) :
    space.Suits query := by
  intro index known
  have told := holds.dimension
  rw [known, Option.map_some] at told
  obtain ⟨dimension, fixed, same⟩ := Option.map_eq_some_iff.mp told.symm
  rw [VectorIndex.fits, length dimension fixed]
  exact decide_eq_true same

theorem exists_suits : ∃ query, space.Suits query := by
  refine ⟨List.replicate (ledger.dimension.getD 0) 0.0, holds.suits ?_⟩
  intro dimension fixed
  rw [fixed, Option.getD_some, List.length_replicate]

variable (flat : ledger.flat = true)

include flat

theorem scored_eq (query : Embedding) : space.scored query = ledger.items.zipIdx.map
    (fun (item, position) => (space.library.flatSimilarity query item.embedding, position)) := by
  rw [scored, VectorIndex.scored_of_flat _ _ _ (holds.flat flat), holds.vectors, List.zipIdx_map,
    List.map_map]
  rfl

/-- All positions together stand for the chunks that were given and are live. -/
theorem filterMap_scored (query : Embedding) :
    (space.scored query).filterMap space.hit? = ledger.items.filterMap (space.hitOf? query) := by
  have given : ledger.items.filterMap (space.hitOf? query) =
      ledger.items.zipIdx.filterMap (space.hitOf? query ∘ Prod.fst) := by
    rw [← List.filterMap_map, List.zipIdx_map_fst]
  rw [given, holds.scored_eq flat, List.filterMap_map]
  apply List.filterMap_congr
  intro place member
  have found := List.mk_mem_zipIdx_iff_getElem?.mp member
  simp [hit?, hitOf?, holds.names, found]

/-- The live candidates are among the chunks that were given and are live. -/
theorem liveHits_subperm (query : Embedding) (count : Nat) :
    (space.liveHits query count).Subperm (ledger.items.filterMap (space.hitOf? query)) := by
  rw [← holds.filterMap_scored flat]
  have part := (space.nearest_sublist query count).filterMap space.hit?
  have all := (space.ranked_perm query).filterMap space.hit?
  exact part.subperm.trans all.subperm

/-- If there are no more vectors than candidates, the live candidates are all that are
live. -/
theorem liveHits_perm (query : Embedding) {count : Nat} (enough : ledger.items.length ≤ count) :
    (space.liveHits query count).Perm (ledger.items.filterMap (space.hitOf? query)) := by
  have all : space.nearest query count = space.ranked query := by
    rw [holds.nearest_eq]
    exact List.take_of_length_le
      (VectorIndex.length_ranked_le.trans (holds.size_eq.trans_le enough))
  rw [← holds.filterMap_scored flat, liveHits, all]
  exact (space.ranked_perm query).filterMap space.hit?

end Holds

end SearchSpace

namespace IndexState

open ChunkIndex

variable {gpu : GpuSupport}

theorem Sound.offers {ledger : Ledger} {kept : Contents} {state : IndexState}
    (sound : Sound gpu ledger kept state) :
    ∃ space, state.Offers gpu space ∧ space.Holds ledger := by
  obtain ⟨world, read, -⟩ := sound.catalog!
  refine ⟨⟨state.chunks.vectors, state.chunks.names, state.chunks.seenCatalog kept, gpu.library⟩,
    ⟨state, _, sound.runFrom_vectors!, read, rfl, rfl⟩, sound.names, ?_, ?_, ?_, ?_,
    sound.seenCatalog_places⟩
  all_goals
    cases vectors : state.chunks.vectors with
    | none =>
      obtain ⟨rfl, -⟩ := sound.withoutVectors vectors
      first | rfl | exact fun _ => rfl
    | some index => ?_
  · exact (sound.withVectors index vectors).vectors
  · exact (sound.withVectors index vectors).dimension.symm
  · exact (sound.withVectors index vectors).whole
  · exact (sound.withVectors index vectors).flat

/-- After any calls on an index that started with nothing, the state offers all chunks that
were given. -/
theorem offers_after_calls (gpu : GpuSupport) {folder : Path} {world : World}
    (nothing : world.KeepsIndex folder (fun _ => none)) (calls : List IndexCall) :
    ∃ space, (IndexCall.stateAfter gpu calls ⟨ofFolder folder, world⟩).Offers gpu space ∧
      space.Holds (Ledger.ofCalls calls) := by
  obtain ⟨kept, sound⟩ := IsSound.calls ⟨_, Sound.start gpu nothing⟩ calls
  exact sound.offers

/-- A chunk is live if it is found once vectors and catalog are read. -/
theorem Offers.live {state : IndexState} {space : SearchSpace} {identifier : String}
    (offers : state.Offers gpu space)
    (found : ((runFrom (runFrom state (vectors! gpu)).2 catalog!).1.toOption.bind
      (fun catalog => catalog.get? identifier)).isSome = true) :
    ∃ entry, space.catalog.get? identifier = some entry := by
  obtain ⟨loaded, read, readVectors, readCatalog, -⟩ := offers
  rw [readVectors, readCatalog] at found
  exact Option.isSome_iff_exists.mp found

theorem Offers.library {state : IndexState} {space : SearchSpace}
    (offers : state.Offers gpu space) : space.library = gpu.library := by
  obtain ⟨_, _, -, -, -, same⟩ := offers
  exact same

theorem Offers.outcome_null {state : IndexState} {space : SearchSpace} {ledger : Ledger}
    (offers : state.Offers gpu space) (holds : space.Holds ledger) {query : Embedding}
    (suits : space.Suits query) {count : Nat} (positive : 1 ≤ count) :
    state.outcome gpu query count .null = .ok (space.answer query count .null) :=
  offers.outcome_eq holds.paired suits (fun _ _ _ => ⟨true, rfl⟩) positive

end IndexState

end CodeAtlas
