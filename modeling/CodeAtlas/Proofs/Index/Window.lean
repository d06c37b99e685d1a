import CodeAtlas.Proofs.Index.Offered
import Mathlib.Data.Set.Card

/-!
# What a search leaves out

A search of a flat index looks at three times as many vectors as results are asked for.  The
vectors of chunks that were removed, and of those that the filter refuses, take places among
them.  So a live chunk that passes the filter is found only if few enough vectors come before
its own.  What is found is still what is most similar: no such chunk that is left out is more
similar than one that is found.
-/

namespace CodeAtlas

namespace SearchSpace

variable {identifier : String} {candidate : Similarity × Nat} {hit : Hit} {entry : Entry}

/-- The chunk is live and the filter accepts its record. -/
def Passing (space : SearchSpace) (filter : Value) (identifier : String) : Prop :=
  ∃ entry, space.catalog.get? identifier = some entry ∧
    Filter.accepts entry.record filter = .ok true

/-- The similarity and the position of the vector to which the entry of a chunk points, in a flat
index. -/
def own? (space : SearchSpace) (query : Embedding) (identifier : String) :
    Option (Similarity × Nat) :=
  (space.catalog.get? identifier).bind (fun entry =>
    space.index.vectors[entry.position]?.map (fun vector =>
      (space.library.similarity .flat (space.library.normalize query) vector, entry.position)))

/-- Fewer vectors than the width come before that of the chunk. -/
def Reaches (space : SearchSpace) (query : Embedding) (width : Nat) (identifier : String) :
    Prop :=
  ∃ candidate, space.own? query identifier = some candidate ∧
    space.index.rank space.library (space.library.normalize query) candidate < width

def passingHits (space : SearchSpace) (filter : Value)
    (candidates : List (Similarity × Nat)) : List Hit :=
  (candidates.filterMap space.hit?).filter (Hit.passes filter)

variable {space : SearchSpace} {ledger : Ledger} {query : Embedding} {filter : Value}

theorem mem_passingHits {candidates : List (Similarity × Nat)} :
    hit ∈ space.passingHits filter candidates ↔
      (∃ candidate ∈ candidates, space.hit? candidate = some hit) ∧
        Filter.accepts hit.record filter = .ok true := by
  rw [passingHits, List.mem_filter, List.mem_filterMap, Hit.passes_iff]

theorem passingHits_append (space : SearchSpace) (filter : Value)
    (first second : List (Similarity × Nat)) :
    space.passingHits filter (first ++ second) =
      space.passingHits filter first ++ space.passingHits filter second := by
  rw [passingHits, List.filterMap_append, List.filter_append]
  rfl

theorem length_passingHits_le (space : SearchSpace) (filter : Value)
    (candidates : List (Similarity × Nat)) :
    (space.passingHits filter candidates).length ≤ candidates.length :=
  (List.length_filter_le _ _).trans (List.length_filterMap_le _ _)

/-- What is found is a prefix of all live chunks that pass, by rank. -/
theorem answer_prefix_all (space : SearchSpace) (query : Embedding) (count : Nat)
    (filter : Value) :
    space.answer query count filter <+:
      space.passingHits filter (space.ranked query) := by
  refine (List.take_prefix _ _).trans ?_
  apply List.IsPrefix.filter
  apply List.IsPrefix.filterMap
  exact List.take_prefix _ _

private theorem ncard_eq_length {names : List String} (distinct : names.Nodup)
    {property : String → Prop} (members : ∀ name, name ∈ names ↔ property name) :
    Set.ncard {name | property name} = names.length := by
  have same : {name | property name} = (names.toFinset : Set String) := by
    ext name
    simp [members]
  rw [same, Set.ncard_coe_finset, List.toFinset_card_of_nodup distinct]

private theorem identifiers_sublist (space : SearchSpace) (query : Embedding)
    (items : List Embedded) :
    ((items.filterMap (space.hitOf? query)).map Hit.identifier).Sublist
      (items.map Embedded.identifier) := by
  induction items with
  | nil => exact .slnil
  | cons item rest ih =>
    rw [List.map_cons]
    cases live : space.catalog.get? item.identifier with
    | none =>
      rw [List.filterMap_cons_none (hitOf?_dead live)]
      exact ih.cons _
    | some entry =>
      rw [List.filterMap_cons_some (hitOf?_live live)]
      exact ih.cons_cons _

namespace Holds

variable (holds : space.Holds ledger)

include holds

theorem name_at (live : space.catalog.get? identifier = some entry) :
    space.names[entry.position]? = some identifier := by
  obtain ⟨item, lastAt, -⟩ := holds.places identifier entry live
  rw [holds.names, List.getElem?_map, lastAt.found, Option.map_some, lastAt.named]

variable (flat : ledger.flat = true)

include flat

theorem own?_eq_some_iff :
    space.own? query identifier = some candidate ↔
      ∃ entry, space.catalog.get? identifier = some entry ∧
        entry.position = candidate.2 ∧ candidate ∈ space.scored query := by
  have scored := @VectorIndex.mem_scored_of_flat candidate space.index space.library
    (space.library.normalize query) (holds.flat flat)
  rw [own?, Option.bind_eq_some_iff]
  constructor
  · rintro ⟨entry, live, mapped⟩
    obtain ⟨vector, found, rfl⟩ := Option.map_eq_some_iff.mp mapped
    exact ⟨entry, live, rfl, scored.mpr ⟨vector, found, rfl⟩⟩
  · rintro ⟨entry, live, same, member⟩
    obtain ⟨vector, found, similarity⟩ := scored.mp member
    refine ⟨entry, live, ?_⟩
    rw [same, found, Option.map_some, similarity]

omit flat in
theorem exists_own (live : space.catalog.get? identifier = some entry) (query : Embedding) :
    ∃ candidate, space.own? query identifier = some candidate := by
  obtain ⟨item, lastAt, -⟩ := holds.places identifier entry live
  refine ⟨(space.library.flatSimilarity query item.embedding, entry.position), ?_⟩
  rw [own?, live, Option.bind_some, holds.vectors, List.getElem?_map, lastAt.found]
  rfl

theorem hit?_own (live : space.catalog.get? identifier = some entry)
    (own : space.own? query identifier = some candidate) :
    space.hit? candidate = some ⟨identifier, candidate.1, entry.record⟩ := by
  obtain ⟨other, live', same, -⟩ := (holds.own?_eq_some_iff flat).mp own
  obtain rfl : entry = other := Option.some.inj (live.symm.trans live')
  apply hit?_eq_some_iff.mpr
  refine ⟨?_, rfl, entry, live, rfl⟩
  rw [← same]
  exact holds.name_at live

section Distinct

variable (distinct : (ledger.items.map Embedded.identifier).Nodup)

include distinct

/-- Where no chunk was given twice, no other candidate stands for it. -/
theorem own?_of_hit? (member : candidate ∈ space.scored query)
    (found : space.hit? candidate = some hit) :
    space.own? query hit.identifier = some candidate := by
  obtain ⟨named, -, entry, live, -⟩ := hit?_eq_some_iff.mp found
  have here := holds.name_at live
  rw [← holds.names] at distinct
  have inside := (List.getElem?_eq_some_iff.mp here).1
  have same := (List.getElem?_inj inside distinct).mp (here.trans named.symm)
  exact (holds.own?_eq_some_iff flat).mpr ⟨entry, live, same, member⟩

theorem mem_identifiers_iff {candidates : List (Similarity × Nat)}
    (among : ∀ candidate ∈ candidates, candidate ∈ space.scored query)
    {identifier : String} :
    identifier ∈ (space.passingHits filter candidates).map Hit.identifier ↔
      space.Passing filter identifier ∧
        ∃ candidate ∈ candidates, space.own? query identifier = some candidate := by
  rw [List.mem_map]
  constructor
  · rintro ⟨hit, member, rfl⟩
    obtain ⟨⟨candidate, inside, found⟩, accepted⟩ := mem_passingHits.mp member
    obtain ⟨-, -, entry, live, record⟩ := hit?_eq_some_iff.mp found
    refine ⟨⟨entry, live, record ▸ accepted⟩, candidate, inside, ?_⟩
    exact holds.own?_of_hit? flat distinct (among candidate inside) found
  · rintro ⟨⟨entry, live, accepted⟩, candidate, inside, own⟩
    refine ⟨⟨identifier, candidate.1, entry.record⟩, ?_, rfl⟩
    exact mem_passingHits.mpr ⟨⟨candidate, inside, holds.hit?_own flat live own⟩, accepted⟩

theorem nodup_identifiers {candidates : List (Similarity × Nat)}
    (part : candidates.Sublist (space.ranked query)) :
    ((space.passingHits filter candidates).map Hit.identifier).Nodup := by
  have perm := ((space.ranked_perm query).filterMap space.hit?).map Hit.identifier
  rw [holds.filterMap_scored flat] at perm
  have all : (((space.ranked query).filterMap space.hit?).map Hit.identifier).Nodup :=
    perm.nodup_iff.mpr
      (List.Nodup.sublist (space.identifiers_sublist query ledger.items) distinct)
  refine List.Nodup.sublist ?_ all
  exact (List.filter_sublist.trans (part.filterMap space.hit?)).map Hit.identifier

/-- All live chunks that pass, by rank. -/
private theorem ncard_passing :
    Set.ncard {identifier | space.Passing filter identifier} =
      (space.passingHits filter (space.ranked query)).length := by
  rw [← List.length_map Hit.identifier]
  apply ncard_eq_length (holds.nodup_identifiers flat distinct (List.Sublist.refl _))
  intro identifier
  have among : ∀ candidate ∈ space.ranked query, candidate ∈ space.scored query :=
    fun _ => (space.ranked_perm query).mem_iff.mp
  rw [holds.mem_identifiers_iff flat distinct among]
  constructor
  · rintro ⟨passing, -⟩
    exact passing
  · rintro ⟨entry, live, accepted⟩
    obtain ⟨candidate, own⟩ := holds.exists_own live query
    obtain ⟨-, -, -, member⟩ := (holds.own?_eq_some_iff flat).mp own
    have inside := (space.ranked_perm query).mem_iff.mpr member
    exact ⟨⟨entry, live, accepted⟩, candidate, inside, own⟩

/-- The live chunks in reach that pass are those among the candidates. -/
private theorem ncard_reaching (width : Nat) :
    Set.ncard {identifier | space.Passing filter identifier ∧
        space.Reaches query width identifier} =
      (space.passingHits filter (space.nearest query width)).length := by
  rw [← List.length_map Hit.identifier]
  apply ncard_eq_length (holds.nodup_identifiers flat distinct (space.nearest_sublist _ _))
  intro identifier
  have among : ∀ candidate ∈ space.nearest query width, candidate ∈ space.scored query :=
    fun _ => VectorIndex.mem_scored_of_mem_nearest
  rw [holds.mem_identifiers_iff flat distinct among]
  apply and_congr_right
  intro passing
  constructor
  · rintro ⟨candidate, member, own⟩
    exact ⟨candidate, own, ((VectorIndex.mem_nearest_iff holds.whole).mp member).2⟩
  · rintro ⟨candidate, own, few⟩
    obtain ⟨-, -, -, member⟩ := (holds.own?_eq_some_iff flat).mp own
    exact ⟨candidate, (VectorIndex.mem_nearest_iff holds.whole).mpr ⟨member, few⟩, own⟩

/-- If all vectors are looked at, or few enough belong to no live chunk that passes, then as
many results are found as there are such chunks. -/
private theorem length_window (count : Nat) (room : ledger.items.length ≤ 2 * count +
      max count (Set.ncard {identifier | space.Passing filter identifier})) :
    min count (space.passingHits filter (space.nearest query (3 * count))).length =
      min count (Set.ncard {identifier | space.Passing filter identifier}) := by
  have all := @ncard_passing space ledger query filter holds flat distinct
  rw [all] at room ⊢
  have split := List.take_append_drop (3 * count) (space.ranked query)
  have parts := congrArg List.length (space.passingHits_append filter
    ((space.ranked query).take (3 * count)) ((space.ranked query).drop (3 * count)))
  have rest := space.length_passingHits_le filter ((space.ranked query).drop (3 * count))
  have fewer : (space.ranked query).length ≤ space.index.size := VectorIndex.length_ranked_le
  rw [split, List.length_append] at parts
  rw [List.length_drop] at rest
  rw [holds.size_eq] at fewer
  rw [holds.nearest_eq]
  omega

end Distinct

/-- What passes and is left out is not more similar than what is found. -/
theorem similarity_le_of_left_out {count : Nat} (passing : space.Passing filter identifier)
    (own : space.own? query identifier = some candidate)
    (out : identifier ∉ (space.answer query count filter).map Hit.identifier)
    (found : hit ∈ space.answer query count filter) : candidate.1 ≤ hit.similarity := by
  obtain ⟨entry, live, accepted⟩ := passing
  obtain ⟨-, -, -, member⟩ := (holds.own?_eq_some_iff flat).mp own
  have inside := (space.ranked_perm query).mem_iff.mpr member
  have listed : (⟨identifier, candidate.1, entry.record⟩ : Hit) ∈
      space.passingHits filter (space.ranked query) :=
    mem_passingHits.mpr ⟨⟨candidate, inside, holds.hit?_own flat live own⟩, accepted⟩
  have falls : (space.passingHits filter (space.ranked query)).Pairwise
      (fun first second => second.similarity ≤ first.similarity) :=
    (hits_fall (space.index.pairwise_ranked _ _)).sublist List.filter_sublist
  obtain ⟨rest, split⟩ := space.answer_prefix_all query count filter
  rw [← split] at listed falls
  rcases List.mem_append.mp listed with here | later
  · exact absurd (List.mem_map_of_mem here) out
  · exact (List.pairwise_append.mp falls).2.2 hit found _ later

end Holds

end SearchSpace

/-- After any calls in which no chunk is given twice and no index with inverted lists is made, a
search finds as many chunks as were asked for, or all those that are live, pass the filter and
have fewer vectors before their own than the search looks at.  Those are all live chunks that
pass, if the search looks at all vectors or if at most twice as many as were asked for belong to
other chunks.  In any case nothing that passes and is left out is more similar than what is
found. -/
theorem search_complete_within_reach (gpu : GpuSupport) {folder : Path} {world : World}
    (nothing : world.KeepsIndex folder (fun _ => none)) (calls : List IndexCall)
    (flat : (Ledger.ofCalls calls).flat = true)
    (distinct : ((Ledger.ofCalls calls).items.map Embedded.identifier).Nodup) :
    let state := IndexCall.stateAfter gpu calls ⟨ChunkIndex.ofFolder folder, world⟩
    ∃ space, state.Offers gpu space ∧ space.Holds (Ledger.ofCalls calls) ∧
      ∀ query count filter, space.Suits query → 1 ≤ count →
        (∃ fault, space.Raises filter fault ∧
            state.outcome gpu query count filter = .error fault) ∨
          ∃ hits, state.outcome gpu query count filter = .ok hits ∧
            (hits.map Hit.identifier).Nodup ∧
            (∀ hit ∈ hits, space.Passing filter hit.identifier ∧
              ∃ position, space.own? query hit.identifier = some (hit.similarity, position)) ∧
            hits.length = min count (Set.ncard {identifier |
              space.Passing filter identifier ∧
                space.Reaches query (3 * count) identifier}) ∧
            ((Ledger.ofCalls calls).items.length ≤ 2 * count +
                max count (Set.ncard {identifier | space.Passing filter identifier}) →
              hits.length = min count
                (Set.ncard {identifier | space.Passing filter identifier})) ∧
            ∀ identifier candidate, space.Passing filter identifier →
              space.own? query identifier = some candidate →
              identifier ∉ hits.map Hit.identifier →
              ∀ hit ∈ hits, candidate.1 ≤ hit.similarity := by
  intro state
  obtain ⟨space, offers, holds⟩ := IndexState.offers_after_calls gpu nothing calls
  refine ⟨space, offers, holds, ?_⟩
  intro query count filter suits positive
  refine (offers.outcome_cases holds.paired suits positive filter).imp_right ?_
  intro done
  have length : (space.answer query count filter).length =
      min count (space.passingHits filter (space.nearest query (3 * count))).length :=
    List.length_take
  refine ⟨_, done, ?_, ?_, ?_, ?_, ?_⟩
  · have found := (space.answer_prefix_all query count filter).sublist.map Hit.identifier
    exact List.Nodup.sublist found (holds.nodup_identifiers flat distinct (.refl _))
  · intro hit member
    obtain ⟨live, passes⟩ := SearchSpace.mem_answer member
    obtain ⟨candidate, inside, found⟩ := SearchSpace.mem_liveHits.mp live
    obtain ⟨-, similarity, entry, known, record⟩ := SearchSpace.hit?_eq_some_iff.mp found
    have own := holds.own?_of_hit? flat distinct
      (VectorIndex.mem_scored_of_mem_nearest inside) found
    refine ⟨⟨entry, known, record ▸ Hit.passes_iff.mp passes⟩, candidate.2, ?_⟩
    rw [own, ← similarity]
  · rw [length, holds.ncard_reaching flat distinct]
  · intro room
    rw [length, holds.length_window flat distinct count room]
  · intro identifier candidate passing own out hit found
    exact holds.similarity_le_of_left_out flat passing own out found

/-- One of three chunks is removed.  A search for one chunk still looks at all vectors. -/
theorem search_complete_past_removed_chunk :
    let folder : Path := ⟨.root, ["store"]⟩
    let calls : List IndexCall := [
      .add [⟨"a", [1.0, 0.0], [("file_path", .text "a.py")]⟩,
        ⟨"b", [3.0, 4.0], [("file_path", .text "b.py")]⟩],
      .removeFile (.text "a.py") .null,
      .add [⟨"c", [0.0, 1.0], [("file_path", .text "c.py")]⟩]]
    let state := IndexCall.stateAfter .none calls
      ⟨ChunkIndex.ofFolder folder, World.bare folder⟩
    ((Ledger.ofCalls calls).items.map Embedded.identifier).Nodup ∧
      ∃ space hits, state.Offers .none space ∧
        state.outcome .none [1.0, 0.0] 1 .null = .ok hits ∧
        hits.length = min 1 (Set.ncard {identifier | space.Passing .null identifier}) := by
  intro folder calls state
  have distinct : ((Ledger.ofCalls calls).items.map Embedded.identifier).Nodup := by
    decide +kernel
  obtain ⟨space, offers, holds, complete⟩ :=
    search_complete_within_reach .none World.bare_keepsIndex calls (by decide +kernel) distinct
  have suits : space.Suits [1.0, 0.0] := holds.suits (by rintro _ ⟨⟩; rfl)
  rcases complete [1.0, 0.0] 1 .null suits (by decide) with
    ⟨fault, ⟨identifier, entry, -, raised⟩, -⟩ | ⟨hits, done, -, -, -, all, -⟩
  · cases raised
  · refine ⟨distinct, space, hits, offers, done, all ?_⟩
    have three : (Ledger.ofCalls calls).items.length = 3 := by decide +kernel
    omega

/-- Four chunks are equally similar to the query, and only the last one passes.  A search for
one chunk looks at three vectors and finds nothing. -/
theorem window_misses_passing_chunk :
    let folder : Path := ⟨.root, ["store"]⟩
    let kind (name : String) : Record := [("chunk_type", .text name)]
    let calls : List IndexCall := [.add [⟨"a", [1.0], kind "function"⟩,
      ⟨"b", [1.0], kind "function"⟩, ⟨"c", [1.0], kind "function"⟩, ⟨"d", [1.0], kind "class"⟩]]
    let state := IndexCall.stateAfter .none calls
      ⟨ChunkIndex.ofFolder folder, World.bare folder⟩
    let filter : Value := .record (kind "class")
    ((Ledger.ofCalls calls).items.map Embedded.identifier).Nodup ∧
      ∃ space, state.Offers .none space ∧ space.Passing filter "d" ∧
        state.outcome .none [1.0] 1 filter = .ok [] := by
  intro folder kind calls state filter
  obtain ⟨space, offers, holds⟩ :=
    IndexState.offers_after_calls .none World.bare_keepsIndex calls
  obtain ⟨entry, live⟩ : ∃ entry, space.catalog.get? "d" = some entry :=
    offers.live (by decide +kernel)
  have accepted : Filter.accepts entry.record filter = .ok true := by
    obtain ⟨item, lastAt, record⟩ := holds.places "d" entry live
    have known : ∀ item ∈ (Ledger.ofCalls calls).items, item.identifier = "d" →
        item.record = kind "class" := by
      rintro item (_ | ⟨_, _ | ⟨_, _ | ⟨_, _ | ⟨_, ⟨⟩⟩⟩⟩⟩) named
      all_goals first | rfl | exact absurd named (by decide)
    rw [record, known item (List.mem_of_getElem? lastAt.found) lastAt.named]
    rfl
  have told : (state.outcome .none [1.0] 1 filter).toOption.map List.length = some 0 := by
    decide +kernel
  obtain ⟨hits, done, none⟩ := exists_ok_of_toOption told
  obtain rfl := List.eq_nil_of_length_eq_zero none
  exact ⟨by decide +kernel, space, offers, ⟨entry, live, accepted⟩, done⟩

end CodeAtlas
