import CodeAtlas.Index.Vectors
import CodeAtlas.Proofs.Sorting.Stable
import Mathlib.Data.List.Infix

/-!
# The vectors nearest to a query

A search sorts the vectors that it looks at by falling similarity and takes the first ones.
The sort is stable, so vectors that are equally similar stay in the order in which they were
added.  A vector is therefore among the first ones exactly if few enough others come before it,
which does not mention the sort.
-/

namespace CodeAtlas

variable {candidate : Similarity × Nat} {count : Nat}

/-- The first candidate is more similar, or as similar and added before. -/
def Comes (first second : Similarity × Nat) : Prop :=
  second.1 < first.1 ∨ first.1 = second.1 ∧ first.2 < second.2

namespace Comes

instance (first second : Similarity × Nat) : Decidable (Comes first second) :=
  inferInstanceAs (Decidable (_ ∨ _))

theorem irrefl (candidate : Similarity × Nat) : ¬ Comes candidate candidate := by
  simp [Comes]

theorem similarity_le {first second : Similarity × Nat} (comes : Comes first second) :
    second.1 ≤ first.1 := by
  rcases comes with more | ⟨same, -⟩
  · exact Rat.le_of_lt more
  · exact same ▸ Rat.le_refl

theorem asymm {first second : Similarity × Nat} (comes : Comes first second) :
    ¬ Comes second first := by
  intro other
  have same := Rat.le_antisymm other.similarity_le comes.similarity_le
  simp only [Comes, same, Rat.lt_irrefl, true_and, false_or] at comes other
  omega

/-- In a list in which the candidates come one after the other, the first ones are those
that few others come before. -/
theorem mem_take_iff {candidates : List (Similarity × Nat)}
    (ordered : candidates.Pairwise Comes) (candidate : Similarity × Nat) (count : Nat) :
    candidate ∈ candidates.take count ↔
      candidate ∈ candidates ∧
        candidates.countP (fun other => Comes other candidate) < count := by
  induction candidates generalizing count with
  | nil => simp
  | cons first rest ih =>
    obtain ⟨before, ordered'⟩ := List.pairwise_cons.mp ordered
    cases count with
    | zero => simp
    | succ count =>
      rw [List.take_succ_cons, List.mem_cons, List.mem_cons, ih ordered' count,
        List.countP_cons]
      by_cases same : candidate = first
      · subst same
        have none : rest.countP (fun other => Comes other candidate) = 0 := by
          rw [List.countP_eq_zero]
          intro other member
          simpa using (before other member).asymm
        simp [none, irrefl]
      · constructor
        · rintro (equal | ⟨member, few⟩)
          · exact absurd equal same
          · refine ⟨.inr member, ?_⟩
            simp [before candidate member, few]
        · rintro ⟨equal | member, few⟩
          · exact absurd equal same
          · refine .inr ⟨member, ?_⟩
            simpa [before candidate member] using few

end Comes

namespace VectorIndex

variable {index : VectorIndex} {library : VectorLibrary} {query : Embedding}

section Search

variable (index : VectorIndex) (library : VectorLibrary) (query : Embedding)

/-- How many of the vectors that are looked at come before a candidate. -/
def rank (candidate : Similarity × Nat) : Nat :=
  (index.scored library query).countP (fun other => Comes other candidate)

/-- The positions that a search for so many vectors finds. -/
def nearest (count : Nat) : List (Similarity × Nat) :=
  (index.ranked library query).take ((index.reach.map (min count)).getD count)

theorem scored_of_flat (flat : index.kind = .flat) :
    index.scored library query = index.vectors.zipIdx.map
      (fun (vector, position) => (library.similarity .flat query vector, position)) := by
  simp [scored, looksAt, flat]

theorem ranked_perm : (index.ranked library query).Perm (index.scored library query) := by
  rw [ranked, Sorting.byInsertion_eq]
  exact List.perm_insertionSort _ _

/-- The sort puts candidates one after the other: by falling similarity, and by position
where they are equally similar. -/
theorem pairwise_ranked : (index.ranked library query).Pairwise Comes := by
  have trans : IsTrans (Similarity × Nat) fun left right => right.1 ≤ left.1 :=
    ⟨fun _ _ _ before after => Rat.le_trans after before⟩
  have total : Std.Total fun left right : Similarity × Nat => right.1 ≤ left.1 :=
    ⟨fun left right => Rat.le_total⟩
  have rising : (index.scored library query).Pairwise (fun left right => left.2 < right.2) := by
    rw [scored, List.pairwise_map]
    refine List.Pairwise.filter _ (List.pairwise_map.mp ?_)
    rw [List.zipIdx_map_snd]
    exact List.pairwise_lt_range'
  rw [ranked, Sorting.byInsertion_eq]
  refine (Sorting.pairwise_insertionSort _ _ rising).imp ?_
  rintro left right ⟨falls, tied⟩
  by_cases same : left.1 ≤ right.1
  · exact .inr ⟨Rat.le_antisymm same falls, tied same⟩
  · exact .inl (Rat.not_le.mp same)

theorem nearest_sublist (count : Nat) :
    (index.nearest library query count).Sublist (index.ranked library query) :=
  List.take_sublist _ _

theorem pairwise_nearest (count : Nat) : (index.nearest library query count).Pairwise Comes :=
  (index.pairwise_ranked library query).sublist (index.nearest_sublist library query count)

theorem length_nearest_le (count : Nat) : (index.nearest library query count).length ≤ count := by
  refine (List.length_take_le _ _).trans ?_
  cases index.reach with
  | none => exact le_rfl
  | some most => exact min_le_left _ _

/-- To look for more finds the same first. -/
theorem nearest_prefix {few many : Nat} (le : few ≤ many) :
    index.nearest library query few <+: index.nearest library query many := by
  apply List.take_prefix_take_left
  cases index.reach with
  | none => exact le
  | some most =>
    change min few most ≤ min many most
    omega

theorem nearest_of_whole (whole : index.reach = none) (count : Nat) :
    index.nearest library query count = (index.ranked library query).take count := by
  rw [nearest, whole, Option.map_none, Option.getD_none]

end Search

theorem mem_scored :
    candidate ∈ index.scored library query ↔
      (∃ vector, index.vectors[candidate.2]? = some vector ∧
        library.similarity index.kind query vector = candidate.1) ∧
      index.looksAt library query candidate.2 = true := by
  obtain ⟨similarity, position⟩ := candidate
  rw [scored, List.mem_map]
  constructor
  · rintro ⟨⟨vector, other⟩, member, same⟩
    obtain ⟨rfl, rfl⟩ := Prod.mk.inj same
    obtain ⟨here, looked⟩ := List.mem_filter.mp member
    exact ⟨⟨vector, List.mk_mem_zipIdx_iff_getElem?.mp here, rfl⟩, looked⟩
  · rintro ⟨⟨vector, found, rfl⟩, looked⟩
    exact ⟨(vector, position),
      List.mem_filter.mpr ⟨List.mk_mem_zipIdx_iff_getElem?.mpr found, looked⟩, rfl⟩

theorem mem_scored_of_flat (flat : index.kind = .flat) :
    candidate ∈ index.scored library query ↔
      ∃ vector, index.vectors[candidate.2]? = some vector ∧
        library.similarity .flat query vector = candidate.1 := by
  simp [mem_scored, looksAt, flat]

theorem mem_nearest_iff (whole : index.reach = none) :
    candidate ∈ index.nearest library query count ↔
      candidate ∈ index.scored library query ∧ index.rank library query candidate < count := by
  have same := (index.ranked_perm library query).countP_eq (fun other => Comes other candidate)
  rw [nearest_of_whole _ _ _ whole, Comes.mem_take_iff (index.pairwise_ranked library query), same,
    (index.ranked_perm library query).mem_iff]
  rfl

theorem mem_scored_of_mem_nearest (member : candidate ∈ index.nearest library query count) :
    candidate ∈ index.scored library query :=
  (index.ranked_perm library query).mem_iff.mp
    ((index.nearest_sublist library query count).mem member)

theorem length_ranked_le : (index.ranked library query).length ≤ index.size := by
  rw [(index.ranked_perm library query).length_eq, scored, List.length_map]
  exact (List.length_filter_le _ _).trans_eq List.length_zipIdx

/-- What a search for so many vectors gives, if there are not fewer. -/
theorem search_eq_nearest (fits : index.fits query = true) (count : Nat) :
    index.search library query (min (count : Int) index.size) =
      .ok (index.nearest library query count) := by
  have bound : Text.sliceBound index.size (min (count : Int) index.size) =
      min count index.size := by
    unfold Text.sliceBound
    split <;> omega
  have cut : (index.ranked library query).take (min count index.size) =
      (index.ranked library query).take count := by
    have fewer := @length_ranked_le index library query
    exact List.take_eq_take_iff.mpr (by omega)
  rw [search, if_pos fits, bound, cut, nearest]
  cases index.reach with
  | none => rfl
  | some most =>
    rw [Option.map_some, Option.getD_some, min_comm, ← List.take_take]

end VectorIndex

end CodeAtlas
