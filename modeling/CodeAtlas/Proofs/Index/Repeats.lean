import CodeAtlas.Proofs.Index.Offered

/-!
# Chunks that were given more than once

A search passes over the vectors of chunks that are not live, but it tells a live chunk by
its name alone and not by its position.  So a chunk that was given again is found at its
earlier vectors too.  The similarities that a search of a flat index reports for a chunk are
those with the vectors that were ever given for it, and it reports the present one alone
exactly if the chunk was given once.
-/

namespace CodeAtlas

variable {identifier : String} {item : Embedded}

def Hit.reported (hits : List Hit) (identifier : String) : List Similarity :=
  (hits.filter (fun hit => hit.identifier == identifier)).map Hit.similarity

theorem Hit.length_reported (hits : List Hit) (identifier : String) :
    (Hit.reported hits identifier).length = (hits.map Hit.identifier).count identifier := by
  rw [reported, List.length_map, List.count, List.countP_map, List.countP_eq_length_filter]
  rfl

namespace Ledger

def given (ledger : Ledger) (identifier : String) : Nat :=
  ledger.items.countP (fun item => item.identifier == identifier)

/-- The similarities with all vectors that were given for a chunk, the oldest first. -/
def similarities (ledger : Ledger) (library : VectorLibrary) (query : Embedding)
    (identifier : String) : List Similarity :=
  (ledger.items.filter (fun item => item.identifier == identifier)).map
    (fun item => library.flatSimilarity query item.embedding)

variable {library : VectorLibrary}

theorem length_similarities (ledger : Ledger) (query : Embedding) (identifier : String) :
    (ledger.similarities library query identifier).length = ledger.given identifier := by
  rw [similarities, List.length_map, given, List.countP_eq_length_filter]

theorem LastAt.given_pos {ledger : Ledger} {position : Nat}
    (lastAt : LastAt ledger.items identifier position item) :
    1 ≤ ledger.given identifier := by
  apply List.countP_pos_iff.mpr
  exact ⟨item, List.mem_of_getElem? lastAt.found, by simp [lastAt.named]⟩

/-- A chunk that was given once has the similarity with its present vector only. -/
theorem LastAt.similarities_eq {ledger : Ledger} {position : Nat}
    (lastAt : LastAt ledger.items identifier position item)
    (once : ledger.given identifier = 1) (query : Embedding) :
    ledger.similarities library query identifier =
      [library.flatSimilarity query item.embedding] := by
  rw [given, List.countP_eq_length_filter] at once
  obtain ⟨only, single⟩ := List.length_eq_one_iff.mp once
  have member : item ∈ ledger.items.filter (fun item => item.identifier == identifier) := by
    apply List.mem_filter.mpr
    exact ⟨List.mem_of_getElem? lastAt.found, by simp [lastAt.named]⟩
  rw [single, List.mem_singleton] at member
  rw [similarities, single, member, List.map_singleton]

end Ledger

namespace SearchSpace

/-- The hits report a chunk once at most, with the similarity of the vector to which its
entry points. -/
structure ReportsCurrent (space : SearchSpace) (query : Embedding) (hits : List Hit)
    (identifier : String) : Prop where
  once : (hits.map Hit.identifier).count identifier ≤ 1
  current : ∀ hit ∈ hits, hit.identifier = identifier →
    ∃ entry vector, space.catalog.get? identifier = some entry ∧
      space.index.vectors[entry.position]? = some vector ∧
      hit.similarity = space.library.similarity .flat (space.library.normalize query) vector

variable {space : SearchSpace} {ledger : Ledger}

private theorem reported_hitOf? (space : SearchSpace) (query : Embedding)
    (items : List Embedded) (identifier : String) :
    Hit.reported (items.filterMap (space.hitOf? query)) identifier =
      if (space.catalog.get? identifier).isSome then
        (items.filter (fun item => item.identifier == identifier)).map
          (fun item => space.library.flatSimilarity query item.embedding)
      else [] := by
  induction items with
  | nil => simp [Hit.reported]
  | cons item rest ih =>
    unfold Hit.reported at ih ⊢
    cases live : space.catalog.get? item.identifier with
    | none =>
      rw [List.filterMap_cons_none (hitOf?_dead live), ih]
      by_cases same : item.identifier = identifier
      · subst same
        simp [live]
      · simp [same]
    | some entry =>
      rw [List.filterMap_cons_some (hitOf?_live live)]
      by_cases same : item.identifier = identifier
      · subst same
        simpa [live] using ih
      · simpa [same] using ih

namespace Holds

private theorem reported_subperm {some many : List Hit} (part : some.Subperm many)
    (identifier : String) :
    (Hit.reported some identifier).Subperm (Hit.reported many identifier) := by
  obtain ⟨between, perm, sublist⟩ := part.filter (fun hit => hit.identifier == identifier)
  exact ⟨between.map Hit.similarity, perm.map _, sublist.map _⟩

variable (holds : space.Holds ledger) (flat : ledger.flat = true)

include holds flat

/-- What a search reports for a chunk are similarities with vectors that were given for it,
each of them once at most. -/
theorem reported_answer_subperm (query : Embedding) (count : Nat) (filter : Value)
    (identifier : String) :
    (Hit.reported (space.answer query count filter) identifier).Subperm
      (ledger.similarities space.library query identifier) := by
  have part := (space.answer_sublist_liveHits query count filter).subperm.trans
    (holds.liveHits_subperm flat query (3 * count))
  have bounded := reported_subperm part identifier
  rw [reported_hitOf?] at bounded
  split at bounded
  · exact bounded
  · exact bounded.trans List.nil_subperm

/-- A search that asks for as many results as there are vectors, without a filter, reports
every live chunk with all vectors that were given for it. -/
theorem reported_answer_perm (query : Embedding) {count : Nat}
    (enough : ledger.items.length ≤ count) {entry : Entry}
    (live : space.catalog.get? identifier = some entry) :
    (Hit.reported (space.answer query count .null) identifier).Perm
      (ledger.similarities space.library query identifier) := by
  have all := holds.liveHits_perm flat query (by omega : ledger.items.length ≤ 3 * count)
  have short : (space.liveHits query (3 * count)).length ≤ count := by
    rw [all.length_eq]
    exact (List.length_filterMap_le _ _).trans enough
  have unfiltered : (space.liveHits query (3 * count)).filter (Hit.passes .null) =
      space.liveHits query (3 * count) :=
    List.filter_eq_self.mpr (fun hit _ => hit.passes_null)
  have told := reported_hitOf? space query ledger.items identifier
  rw [live, Option.isSome_some, if_pos rfl] at told
  rw [answer, unfiltered, List.take_of_length_le short, Ledger.similarities, ← told]
  exact (all.filter _).map Hit.similarity

/-- A chunk that was given once is reported with its present vector. -/
theorem reportsCurrent {entry : Entry}
    (live : space.catalog.get? identifier = some entry)
    (lastAt : Ledger.LastAt ledger.items identifier entry.position item)
    (once : ledger.given identifier = 1) {query : Embedding} {count : Nat} {filter : Value} :
    space.ReportsCurrent query (space.answer query count filter) identifier := by
  have part := holds.reported_answer_subperm flat query count filter identifier
  constructor
  · have bound := part.length_le
    rwa [Ledger.length_similarities, once, Hit.length_reported] at bound
  · intro hit member named
    have reported : hit.similarity ∈
        Hit.reported (space.answer query count filter) identifier := by
      apply List.mem_map_of_mem
      exact List.mem_filter.mpr ⟨member, by simp [named]⟩
    have told := part.subset reported
    rw [lastAt.similarities_eq once, List.mem_singleton] at told
    refine ⟨entry, _, live, ?_, told⟩
    rw [holds.vectors, List.getElem?_map, lastAt.found, Option.map_some]

end Holds

end SearchSpace

/-- After any calls that make no index with inverted lists, whatever a search reports for a chunk
are similarities with vectors that were given for it, each of them once at most, and a search
without a filter that is wide enough reports all of them.  So a live chunk is always reported
once at most and with its present vector exactly if it was given once. -/
theorem search_current_iff_given_once (gpu : GpuSupport) {folder : Path} {world : World}
    (nothing : world.KeepsIndex folder (fun _ => none)) (calls : List IndexCall)
    (flat : (Ledger.ofCalls calls).flat = true) :
    let state := IndexCall.stateAfter gpu calls ⟨ChunkIndex.ofFolder folder, world⟩
    let ledger := Ledger.ofCalls calls
    ∃ space, state.Offers gpu space ∧ space.Holds ledger ∧
      (∀ query count filter, space.Suits query → 1 ≤ count →
        (∃ fault, space.Raises filter fault ∧
            state.outcome gpu query count filter = .error fault) ∨
          ∃ hits, state.outcome gpu query count filter = .ok hits ∧
            ∀ identifier, (Hit.reported hits identifier).Subperm
              (ledger.similarities gpu.library query identifier)) ∧
      (∀ query count, space.Suits query → 1 ≤ count → ledger.items.length ≤ count →
        ∃ hits, state.outcome gpu query count .null = .ok hits ∧
          ∀ identifier entry, space.catalog.get? identifier = some entry →
            (Hit.reported hits identifier).Perm
              (ledger.similarities gpu.library query identifier)) ∧
      ∀ identifier entry, space.catalog.get? identifier = some entry →
        ((∀ query count filter hits, space.Suits query → 1 ≤ count →
            state.outcome gpu query count filter = .ok hits →
            space.ReportsCurrent query hits identifier) ↔
          ledger.given identifier = 1) := by
  intro state ledger
  obtain ⟨space, offers, holds⟩ := IndexState.offers_after_calls gpu nothing calls
  rw [← offers.library]
  refine ⟨space, offers, holds, ?_, ?_, ?_⟩
  · intro query count filter suits positive
    refine (offers.outcome_cases holds.paired suits positive filter).imp_right ?_
    intro done
    exact ⟨_, done, holds.reported_answer_subperm flat query count filter⟩
  · intro query count suits positive enough
    refine ⟨_, offers.outcome_null holds suits positive, ?_⟩
    intro identifier entry live
    exact holds.reported_answer_perm flat query enough live
  · intro identifier entry live
    obtain ⟨item, lastAt, -⟩ := holds.places identifier entry live
    constructor
    · intro always
      obtain ⟨query, suits⟩ := holds.exists_suits
      have positive : 1 ≤ ledger.items.length + 1 := Nat.le_add_left 1 _
      have done := offers.outcome_null holds suits positive
      have once := (always query _ .null _ suits positive done).once
      rw [← Hit.length_reported,
        (holds.reported_answer_perm flat query (Nat.le_succ _) live).length_eq,
        Ledger.length_similarities] at once
      exact Nat.le_antisymm once lastAt.given_pos
    · intro once query count filter hits suits positive done
      rcases offers.outcome_cases holds.paired suits positive filter with
        ⟨fault, -, failed⟩ | answered
      · rw [failed] at done
        cases done
      · rw [answered] at done
        cases done
        exact holds.reportsCurrent flat live lastAt once

/-- One chunk is removed and given again with another vector; the other one was given once and
is always reported with its own vector. -/
theorem chunk_given_once_reported_current :
    let folder : Path := ⟨.root, ["store"]⟩
    let calls : List IndexCall := [
      .add [⟨"a", [1.0, 0.0], [("file_path", .text "a.py")]⟩,
        ⟨"b", [3.0, 4.0], [("file_path", .text "b.py")]⟩],
      .removeFile (.text "a.py") .null,
      .add [⟨"a", [0.0, 1.0], [("file_path", .text "a.py")]⟩]]
    let state := IndexCall.stateAfter .none calls
      ⟨ChunkIndex.ofFolder folder, World.bare folder⟩
    ∃ space, state.Offers .none space ∧ space.Suits [1.0, 0.0] ∧
      ∀ count filter hits, 1 ≤ count →
        state.outcome .none [1.0, 0.0] count filter = .ok hits →
        space.ReportsCurrent [1.0, 0.0] hits "b" := by
  intro folder calls state
  obtain ⟨space, offers, holds, -, -, current⟩ :=
    search_current_iff_given_once .none World.bare_keepsIndex calls (by decide +kernel)
  obtain ⟨entry, live⟩ : ∃ entry, space.catalog.get? "b" = some entry :=
    offers.live (by decide +kernel)
  have suits : space.Suits [1.0, 0.0] := holds.suits (by rintro _ ⟨⟩; rfl)
  have always := (current "b" entry live).mpr (by decide +kernel)
  refine ⟨space, offers, suits, ?_⟩
  intro count filter hits positive done
  exact always _ count filter hits suits positive done

/-- A chunk that was removed and given again is reported twice: with its earlier vector, which
is the one that the query looks for, and with its present one. -/
theorem readded_chunk_reported_twice :
    let folder : Path := ⟨.root, ["store"]⟩
    let record : Record := [("file_path", .text "a.py"), ("relative_path", .text "a.py")]
    let calls : List IndexCall := [
      .add [⟨"a.py:1-2:module", [1.0, 0.0], record⟩],
      .removeFile (.text "a.py") .null,
      .add [⟨"a.py:1-2:module", [0.0, 1.0], record⟩]]
    let state := IndexCall.stateAfter .none calls
      ⟨ChunkIndex.ofFolder folder, World.bare folder⟩
    ∃ hits, state.outcome .none [1.0, 0.0] 5 .null = .ok hits ∧
      (Hit.reported hits "a.py:1-2:module").Perm [1, 0] ∧
      ¬ (hits.map Hit.identifier).Nodup := by
  intro folder record calls state
  have told : (state.outcome .none [1.0, 0.0] 5 .null).toOption.map (fun hits =>
      (Hit.reported hits "a.py:1-2:module", hits.map Hit.identifier)) =
        some ([1, 0], ["a.py:1-2:module", "a.py:1-2:module"]) := by decide +kernel
  obtain ⟨hits, done, shown⟩ := exists_ok_of_toOption told
  obtain ⟨both, names⟩ := Prod.mk.inj shown
  refine ⟨hits, done, both ▸ .refl _, ?_⟩
  rw [names]
  decide

end CodeAtlas
