import CodeAtlas.Proofs.Sorting.Stable
import CodeAtlas.Search.Ranking
import Mathlib.Algebra.Order.Ring.Unbundled.Rat

/-!
# Ranking by score

Items are ranked by falling score, and equal scores keep their order.  So the place of an
item is the number of items that have a higher score, or the same one and stand before it.
A higher score never moves an item back.
-/

namespace CodeAtlas.Ranking

variable {α : Type} {score : α → ℚ} {items ranked : List α} {order : List Nat}

/-- The items by falling score.  `order` lists their numbers; items with the same score are
in the order of their numbers. -/
structure Ranks (score : α → ℚ) (items ranked : List α) (order : List Nat) : Prop where
  perm : ranked.Perm items
  falling : ranked.Pairwise fun first second => score second ≤ score first
  numbers : order.Perm (List.range items.length)
  listed : order.map (items[·]?) = ranked.map some
  stable : order.Pairwise fun number other => ∀ item ∈ items[number]?, ∀ item' ∈ items[other]?,
    score item' ≤ score item ∧ (score item = score item' → number < other)

/-- Exact fractions are comparable, so that the scores are sorted. -/
theorem byScore_eq (score : α → ℚ) (items : List α) :
    byScore score items =
      items.insertionSort fun left right => score right ≤ score left := by
  rw [byScore, if_pos (by simp), Sorting.byInsertion_eq, ← List.map_insertionSort
    (fun left right => score right ≤ score left) _ _ _ (fun _ _ _ _ => Iff.rfl), List.map_map]
  exact List.map_id _

theorem byScore_ranks (score : α → ℚ) (items : List α) :
    ∃ order, Ranks score items (byScore score items) order := by
  have trans : IsTrans α fun left right => score right ≤ score left :=
    ⟨fun _ _ _ before after => le_trans after before⟩
  have total : Std.Total fun left right => score right ≤ score left :=
    ⟨fun left right => le_total (score right) (score left)⟩
  have stable := Sorting.pairwise_insertionSort_zipIdx
    (fun left right => score right ≤ score left) items
  obtain ⟨sorted, isSorted⟩ : ∃ sorted, sorted = items.zipIdx.insertionSort
      fun left right => score right.1 ≤ score left.1 := ⟨_, rfl⟩
  rw [← isSorted] at stable
  have perm : sorted.Perm items.zipIdx := isSorted ▸ List.perm_insertionSort _ _
  have found : ∀ entry ∈ sorted, items[entry.2]? = some entry.1 := fun entry member =>
    List.mk_mem_zipIdx_iff_getElem?.mp (perm.mem_iff.mp member)
  have same : byScore score items = sorted.map Prod.fst := by
    rw [byScore_eq, isSorted, List.map_insertionSort _ (fun left right =>
      score right ≤ score left) _ _ (fun _ _ _ _ => Iff.rfl), List.zipIdx_map_fst]
  refine ⟨sorted.map Prod.snd, ?_, ?_, ?_, ?_, ?_⟩
  · rw [byScore_eq]
    exact List.perm_insertionSort _ _
  · rw [same, List.pairwise_map]
    exact stable.imp And.left
  · have numbers := perm.map Prod.snd
    rwa [List.zipIdx_map_snd, ← List.range_eq_range'] at numbers
  · rw [same, List.map_map, List.map_map]
    exact List.map_congr_left found
  · rw [List.pairwise_map]
    refine stable.imp_of_mem ?_
    rintro ⟨item, number⟩ ⟨item', other⟩ member member' ⟨before, tied⟩ _ isItem _ isItem'
    obtain rfl := Option.some.inj ((found _ member).symm.trans isItem)
    obtain rfl := Option.some.inj ((found _ member').symm.trans isItem')
    exact ⟨before, fun equal => tied equal.le⟩

/-! ## The place of an item -/

/-- Whether the item with a number comes before one with the score and the number. -/
def comesBefore (score : α → ℚ) (items : List α) (mark : ℚ) (number other : Nat) : Bool :=
  items[other]?.any fun item => mark < score item || (score item = mark && other < number)

theorem Ranks.idxOf_eq (ranks : Ranks score items ranked order) {number : Nat} {item : α}
    (found : items[number]? = some item) :
    order.idxOf number =
      (List.range items.length).countP (comesBefore score items (score item) number) := by
  have inside : ∀ other ∈ order, ∃ item', items[other]? = some item' := fun other member =>
    ⟨_, List.getElem?_eq_getElem (List.mem_range.mp (ranks.numbers.mem_iff.mp member))⟩
  have listed : number ∈ order := ranks.numbers.mem_iff.mpr
    (List.mem_range.mpr (List.getElem?_eq_some_iff.mp found).1)
  obtain ⟨front, back, split⟩ := List.append_of_mem listed
  obtain ⟨-, behind, ahead⟩ := List.pairwise_append.mp (split ▸ ranks.stable)
  have fresh : number ∉ front := by
    have nodup := split ▸ ranks.numbers.nodup_iff.mpr List.nodup_range
    exact fun member => (List.nodup_append.mp nodup).2.2 _ member _ List.mem_cons_self rfl
  have before : front.countP (comesBefore score items (score item) number) = front.length := by
    refine List.countP_eq_length.mpr fun other member => ?_
    obtain ⟨item', isItem⟩ := inside other (split ▸ List.mem_append_left _ member)
    obtain ⟨falls, tied⟩ := ahead other member number List.mem_cons_self item' isItem item found
    rw [comesBefore, isItem, Option.any_some, Bool.or_eq_true, Bool.and_eq_true]
    rcases falls.lt_or_eq with higher | same
    · exact .inl (decide_eq_true higher)
    · exact .inr ⟨decide_eq_true same.symm, decide_eq_true (tied same.symm)⟩
  have after : back.countP (comesBefore score items (score item) number) = 0 := by
    refine List.countP_eq_zero.mpr fun other member => ?_
    obtain ⟨item', isItem⟩ := inside other
      (split ▸ List.mem_append_right _ (List.mem_cons_of_mem _ member))
    obtain ⟨falls, tied⟩ := (List.pairwise_cons.mp behind).1 other member item found item' isItem
    rw [comesBefore, isItem, Option.any_some, Bool.or_eq_true, Bool.and_eq_true,
      decide_eq_true_eq, decide_eq_true_eq, decide_eq_true_eq]
    rintro (higher | ⟨same, earlier⟩)
    · exact absurd higher (not_lt.mpr falls)
    · exact Nat.lt_asymm earlier (tied same.symm)
  have itself : comesBefore score items (score item) number number = false := by
    simp [comesBefore, found]
  rw [← ranks.numbers.countP_eq, split, List.idxOf_append_of_notMem fresh, List.idxOf_cons_self,
    List.countP_append, List.countP_cons_of_neg (by simp [itself]), before, after]

/-- An item that is replaced by one with a higher score, or the same, is not moved back. -/
theorem Ranks.idxOf_le (ranks : Ranks score items ranked order) {number : Nat} {item item' : α}
    (found : items[number]? = some item) (higher : score item ≤ score item')
    {ranked' : List α} {order' : List Nat}
    (ranks' : Ranks score (items.set number item') ranked' order') :
    order'.idxOf number ≤ order.idxOf number := by
  have inside := (List.getElem?_eq_some_iff.mp found).1
  rw [ranks.idxOf_eq found, ranks'.idxOf_eq (List.getElem?_set_self inside), List.length_set]
  refine List.countP_mono_left fun other _ comes => ?_
  rcases eq_or_ne number other with rfl | different
  · simp [comesBefore, List.getElem?_set_self inside] at comes
  · rw [comesBefore, List.getElem?_set_ne different] at comes
    rw [comesBefore]
    obtain ⟨item'', isItem, before⟩ := (Option.any_eq_true _ _).mp comes
    refine (Option.any_eq_true _ _).mpr ⟨item'', isItem, ?_⟩
    simp only [Bool.or_eq_true, Bool.and_eq_true, decide_eq_true_eq] at before ⊢
    rcases before with above | ⟨same, earlier⟩
    · exact .inl (higher.trans_lt above)
    · rcases higher.lt_or_eq with below | equal
      · exact .inl (same ▸ below)
      · exact .inr ⟨same.trans equal.symm, earlier⟩

end CodeAtlas.Ranking
