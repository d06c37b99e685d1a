import CodeAtlas.Proofs.Index.Searching
import CodeAtlas.Proofs.Indexing.Sample
import CodeAtlas.Proofs.Search.Boosts
import CodeAtlas.Proofs.Search.Ranking
import CodeAtlas.Search.Results

/-!
# Ranked results

With similarities as exact ids, results are ranked by falling score, and equal scores
keep their order.  A higher similarity never moves a result back.  A search returns the
first ones, and leaves out none that has a higher score.
-/

namespace CodeAtlas

open Ranking (Ranks)

namespace SearchResult

variable {read : Similarity → ℚ} {query : String} {intents : List String}
  {result : SearchResult} {results : List SearchResult}

/-- The fields of the result have types from which a rank can be told. -/
def Ratable (query : String) (intents : List String) (result : SearchResult) : Prop :=
  ∃ profile, result.profile query intents = .ok profile

/-- Each field that the rank depends on has its own type; the docstring may be anything. -/
structure Typed (result : SearchResult) : Prop where
  kind : ∃ kind, result.kind = .text kind
  name : ∃ name, result.field "name" .null = .ofText? name
  path : ∃ path, result.field "relative_path" (.text "") = .text path
  tags : ∃ tags : List String, result.tags = .list (tags.map .text)
  preview : ∃ preview, result.preview = .text preview

private theorem tagsOf_texts (hasIntents : Bool) (tags : List String) :
    ∃ found, Profile.tagsOf hasIntents (.list (tags.map .text)) = .ok found := by
  have plain : (tags.map Value.text).find? (fun tag => !tag.isPlain) = none := by
    simp [Value.isPlain]
  have members : Value.memberSet (.list (tags.map .text)) = .ok (tags.map .text) := by
    simp only [Value.memberSet, Value.members, bind, Except.bind, plain]
    rfl
  rw [Profile.tagsOf, members]
  split
  · exact ⟨_, rfl⟩
  · exact ⟨_, rfl⟩

theorem Typed.ratable (typed : result.Typed) : result.Ratable query intents := by
  obtain ⟨⟨kind, isKind⟩, ⟨name, isName⟩, ⟨path, isPath⟩, ⟨tags, isTags⟩, preview, isPreview⟩ :=
    typed
  obtain ⟨found, isFound⟩ := tagsOf_texts (!intents.isEmpty) tags
  have named : Profile.nameOf (.ofText? name) = .ok name := by
    cases name <;> rfl
  rw [Ratable, profile, isKind, isName, isPath, isTags, isPreview, Profile.ofFields, named,
    isFound]
  exact ⟨_, rfl⟩

/-- The rank score as an exact id; zero if the result cannot be ranked. -/
def exactScore (read : Similarity → ℚ) (query : String) (intents : List String)
    (result : SearchResult) : ℚ :=
  (result.rankScore read query intents).toOption.getD 0

def withSimilarity (result : SearchResult) (similarity : Similarity) : SearchResult :=
  { result with hit := { result.hit with similarity } }

theorem profile_withSimilarity (result : SearchResult) (similarity : Similarity) :
    (result.withSimilarity similarity).profile query intents = result.profile query intents :=
  rfl

theorem exactScore_mono {similarity : Similarity}
    (le : read result.hit.similarity ≤ read similarity) :
    result.exactScore read query intents ≤
      (result.withSimilarity similarity).exactScore read query intents := by
  rw [exactScore, exactScore, rankScore, rankScore, profile_withSimilarity]
  cases result.profile query intents with
  | error fault => simp only [Except.map, Except.toOption, Option.getD_none, le_refl]
  | ok profile =>
    simp only [Except.map, Except.toOption, Option.getD_some]
    exact Ranking.score_mono le

theorem rankScore_eq (ratable : result.Ratable query intents) :
    result.rankScore read query intents = .ok (result.exactScore read query intents) := by
  obtain ⟨profile, known⟩ := ratable
  rw [exactScore, rankScore, known]
  simp only [Except.map, Except.toOption, Option.getD_some]

/-- Results that can be ranked are ranked by their scores. -/
theorem ranked_eq (ratable : ∀ result ∈ results, result.Ratable query intents) :
    ranked read query intents results =
      .ok (Ranking.byScore (exactScore read query intents) results) := by
  have paired : (Ranking.byScore Prod.fst
      (results.map fun result => (result.exactScore read query intents, result))).map Prod.snd =
        Ranking.byScore (exactScore read query intents) results := by
    rw [Ranking.byScore_eq, Ranking.byScore_eq, ← List.map_insertionSort
      (fun left right => right.exactScore read query intents ≤ left.exactScore read query intents)
      _ _ _ (fun _ _ _ _ => Iff.rfl), List.map_map]
    exact List.map_id _
  rw [ranked, mapM_eq_ok fun result member => by rw [rankScore_eq (ratable result member)]; rfl,
    ← paired]
  rfl

end SearchResult

/-- A search ranks its candidates and returns the first ones. -/
theorem runFrom_searchBy {read : Similarity → ℚ} {env : Environment} {query : String}
    {count : Int} {depth filter : Value} {state after : IndexState} {found : List SearchResult}
    (search : runFrom state (candidates env query (.int count) depth filter) = (.ok found, after)) :
    runFrom state (searchBy read env (.text query) (.int count) depth filter) =
      ((SearchResult.ranked read query (Query.intents query) found).map
        (SearchResult.firstOf count), after) := by
  have text : queryText (.text query) = .ok query := rfl
  have last : (Value.int count).sliceEnd = .ok count := rfl
  rw [searchBy, runFrom_bind, text, runFrom_orFail, andThen_ok, runFrom_then search,
    runFrom_bind, runFrom_orFail]
  cases SearchResult.ranked read query (Query.intents query) found with
  | error fault => rfl
  | ok ranked =>
    rw [andThen_ok, last, runFrom_bind, runFrom_orFail]
    rfl

/-- Results whose fields have their types can be ranked.  They are ranked by falling score,
equal scores in their order, and a higher similarity does not move a result back.  A search
fails if looking for candidates does; otherwise it returns as many of them as it may, and
none with a lower score than one that is left out. -/
theorem ranking_respects_similarity (read : Similarity → ℚ) (query : String)
    (intents : List String) :
    (∀ result : SearchResult, result.Typed → result.Ratable query intents) ∧
    (∀ results : List SearchResult, (∀ result ∈ results, result.Ratable query intents) →
      ∃ ranked order, SearchResult.ranked read query intents results = .ok ranked ∧
        Ranks (SearchResult.exactScore read query intents) results ranked order ∧
        ∀ number result similarity, results[number]? = some result →
          read result.hit.similarity ≤ read similarity →
          ∃ ranked' order', SearchResult.ranked read query intents
              (results.set number (result.withSimilarity similarity)) = .ok ranked' ∧
            Ranks (SearchResult.exactScore read query intents)
              (results.set number (result.withSimilarity similarity)) ranked' order' ∧
            order'.idxOf number ≤ order.idxOf number) ∧
    (∀ (env : Environment) (count : Int) (depth filter : Value) (state after : IndexState),
      1 ≤ count →
      (∀ fault, runFrom state (candidates env query (.int count) depth filter) =
          (.error fault, after) →
        runFrom state (searchBy read env (.text query) (.int count) depth filter) =
          (.error fault, after)) ∧
      ∀ found, runFrom state (candidates env query (.int count) depth filter) =
          (.ok found, after) →
        (∀ result ∈ found, result.Ratable query (Query.intents query)) →
        ∃ returned leftOut order,
          runFrom state (searchBy read env (.text query) (.int count) depth filter) =
            (.ok returned, after) ∧
          Ranks (SearchResult.exactScore read query (Query.intents query)) found
            (returned ++ leftOut) order ∧
          (returned.length : Int) = min count found.length ∧
          ∀ result ∈ returned, ∀ other ∈ leftOut,
            other.exactScore read query (Query.intents query) ≤
              result.exactScore read query (Query.intents query)) := by
  refine ⟨fun _ typed => typed.ratable, ?_, ?_⟩
  · intro results ratable
    obtain ⟨order, ranks⟩ :=
      Ranking.byScore_ranks (SearchResult.exactScore read query intents) results
    refine ⟨_, order, SearchResult.ranked_eq ratable, ranks, ?_⟩
    intro number result similarity found higher
    have ratable' : ∀ other ∈ results.set number (result.withSimilarity similarity),
        other.Ratable query intents := by
      intro other member
      rcases List.mem_or_eq_of_mem_set member with old | rfl
      · exact ratable other old
      · exact ratable result (List.mem_of_getElem? found)
    obtain ⟨order', ranks'⟩ := Ranking.byScore_ranks (SearchResult.exactScore read query intents)
      (results.set number (result.withSimilarity similarity))
    exact ⟨_, order', SearchResult.ranked_eq ratable', ranks',
      ranks.idxOf_le found (SearchResult.exactScore_mono higher) ranks'⟩
  · intro env count depth filter state after positive
    refine ⟨?_, ?_⟩
    · intro fault failed
      have text : queryText (.text query) = .ok query := rfl
      rw [searchBy, runFrom_bind, text, runFrom_orFail, andThen_ok, runFrom_bind, failed,
        andThen_error]
    · intro found search ratable
      obtain ⟨order, ranks⟩ := Ranking.byScore_ranks
        (SearchResult.exactScore read query (Query.intents query)) found
      generalize byScore : Ranking.byScore
        (SearchResult.exactScore read query (Query.intents query)) found = ranked at ranks
      have bound : Text.sliceBound ranked.length count = count.toNat := by
        rw [Text.sliceBound, if_neg (by omega)]
      refine ⟨ranked.take count.toNat, ranked.drop count.toNat, order, ?_, ?_, ?_, ?_⟩
      · rw [runFrom_searchBy search, SearchResult.ranked_eq ratable, byScore]
        simp only [Except.map, SearchResult.firstOf, bound]
      · rwa [List.take_append_drop]
      · rw [List.length_take, ranks.perm.length_eq]
        omega
      · have falling := ranks.falling
        rw [← List.take_append_drop count.toNat ranked, List.pairwise_append] at falling
        exact falling.2.2

namespace Sample

def results : List SearchResult :=
  [⟨⟨"a", 3, []⟩, none⟩, ⟨⟨"b", 5, []⟩, none⟩]

/-- An index of one chunk that is in memory. -/
def single : IndexState where
  chunks := ⟨folder, some ⟨.flat, 1, true, true, false, none, [[1.0]]⟩, ["a"],
    some ⟨[("a", ⟨0, []⟩)]⟩, false⟩
  world := World.bare folder

private theorem candidates_single : ∃ hit after,
    runFrom single (candidates environment "foo" (.int 1) (.int 0) .null) =
      (.ok [⟨hit, none⟩], after) ∧ hit.record = [] := by
  have told : (runFrom single (candidates environment "foo" (.int 1) (.int 0) .null)).1.toOption.map
      (List.map fun result => (result.hit.record.isEmpty, result.context.isNone)) =
        some [(true, true)] := by decide +kernel
  obtain ⟨found, ran, alone⟩ := exists_result told
  obtain ⟨⟨hit, context⟩, rfl, flags⟩ := List.map_eq_singleton_iff.mp alone
  obtain ⟨empty, bare⟩ := Prod.mk.inj flags
  obtain rfl : context = none := Option.isNone_iff_eq_none.mp bare
  exact ⟨hit, _, ran, List.isEmpty_iff.mp empty⟩

theorem results_respect_similarity :
    (∃ ranked order ranked' order',
      SearchResult.ranked id "foo" [] results = .ok ranked ∧
      Ranks (SearchResult.exactScore id "foo" []) results ranked order ∧
      SearchResult.ranked id "foo" []
        (results.set 0 (SearchResult.withSimilarity ⟨⟨"a", 3, []⟩, none⟩ 7)) = .ok ranked' ∧
      Ranks (SearchResult.exactScore id "foo" [])
        (results.set 0 (SearchResult.withSimilarity ⟨⟨"a", 3, []⟩, none⟩ 7)) ranked' order' ∧
      order'.idxOf 0 ≤ order.idxOf 0) ∧
    ∃ hit returned leftOut order after,
      runFrom single (candidates environment "foo" (.int 1) (.int 0) .null) =
        (.ok [⟨hit, none⟩], after) ∧
      runFrom single (searchBy id environment (.text "foo") (.int 1) (.int 0) .null) =
        (.ok returned, after) ∧
      Ranks (SearchResult.exactScore id "foo" (Query.intents "foo")) [⟨hit, none⟩]
        (returned ++ leftOut) order := by
  have typed : ∀ result : SearchResult, result.hit.record = [] → result.Typed := by
    rintro ⟨⟨identifier, similarity, _⟩, context⟩ rfl
    exact ⟨⟨_, rfl⟩, ⟨none, rfl⟩, ⟨_, rfl⟩, ⟨[], rfl⟩, _, rfl⟩
  obtain ⟨ratable, ranks, -⟩ := ranking_respects_similarity id "foo" []
  obtain ⟨ratable', -, searches⟩ :=
    ranking_respects_similarity id "foo" (Query.intents "foo")
  obtain ⟨ranked, order, isRanked, ranks, raised⟩ := ranks results (by
    intro result member
    obtain rfl | rfl := List.mem_pair.mp member
    · exact ratable _ (typed _ rfl)
    · exact ratable _ (typed _ rfl))
  obtain ⟨ranked', order', isRanked', ranks', le⟩ :=
    raised 0 ⟨⟨"a", 3, []⟩, none⟩ 7 rfl (by norm_num)
  obtain ⟨hit, after, search, empty⟩ := candidates_single
  obtain ⟨returned, leftOut, order'', isReturned, ranks'', -⟩ :=
    (searches environment 1 (.int 0) .null single after (by decide)).2 _ search
      (List.forall_mem_singleton.mpr (ratable' _ (typed _ empty)))
  exact ⟨⟨ranked, order, ranked', order', isRanked, ranks, isRanked', ranks', le⟩,
    hit, returned, leftOut, order'', after, search, isReturned, ranks''⟩

end Sample

end CodeAtlas
