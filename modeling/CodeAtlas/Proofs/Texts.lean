import CodeAtlas.Proofs.Sorting.Stable
import CodeAtlas.Text.Order

/-!
# Sorted and joined texts

Sorting texts forgets their order and nothing else.  Texts of one length can be told apart
after they were joined.
-/

namespace CodeAtlas

namespace Text

variable {texts others : List String}

theorem sorted_eq (texts : List String) : sorted texts = texts.insertionSort (· ≤ ·) :=
  Sorting.byInsertion_eq _ texts

theorem sorted_perm (texts : List String) : (sorted texts).Perm texts :=
  sorted_eq texts ▸ List.perm_insertionSort _ texts

@[simp]
theorem mem_sorted {text : String} : text ∈ sorted texts ↔ text ∈ texts :=
  (sorted_perm texts).mem_iff

@[simp]
theorem sorted_eq_nil : sorted texts = [] ↔ texts = [] := by
  constructor
  · intro empty
    exact List.nil_perm.mp (empty ▸ sorted_perm texts)
  · rintro rfl
    rfl

theorem pairwise_sorted (texts : List String) :
    (sorted texts).Pairwise (· ≤ ·) :=
  sorted_eq texts ▸ List.pairwise_insertionSort _ texts

/-- The order in which texts come does not matter. -/
theorem sorted_eq_of_perm (same : texts.Perm others) :
    sorted texts = sorted others := by
  refine List.Perm.eq_of_pairwise (fun _ _ _ _ => String.le_antisymm)
    (pairwise_sorted texts) (pairwise_sorted others) ?_
  exact (sorted_perm texts).trans (same.trans (sorted_perm others).symm)

theorem perm_of_sorted_eq (same : sorted texts = sorted others) : texts.Perm others :=
  (sorted_perm texts).symm.trans (same ▸ sorted_perm others)

theorem sortedByKey_eq {α : Type} (pairs : List (String × α)) :
    sortedByKey pairs = pairs.insertionSort (fun left right => left.1 ≤ right.1) :=
  Sorting.byInsertion_eq _ pairs

theorem sortedByKey_perm {α : Type} (pairs : List (String × α)) :
    (sortedByKey pairs).Perm pairs :=
  sortedByKey_eq pairs ▸ List.perm_insertionSort _ pairs

theorem pairwise_sortedByKey {α : Type} (pairs : List (String × α)) :
    (sortedByKey pairs).Pairwise (fun left right => left.1 ≤ right.1) := by
  have total : Std.Total (fun left right : String × α => left.1 ≤ right.1) :=
    ⟨fun left right => String.le_total left.1 right.1⟩
  have trans : IsTrans (String × α) (fun left right => left.1 ≤ right.1) :=
    ⟨fun _ _ _ => String.le_trans⟩
  exact sortedByKey_eq pairs ▸ List.pairwise_insertionSort _ pairs

theorem pairwise_lt_sortedByKey {α : Type} {pairs : List (String × α)}
    (single : (pairs.map Prod.fst).Nodup) :
    (sortedByKey pairs).Pairwise (fun left right => left.1 < right.1) := by
  have apart : (sortedByKey pairs).Pairwise (fun left right => left.1 ≠ right.1) :=
    List.pairwise_map.mp (((sortedByKey_perm pairs).map Prod.fst).nodup_iff.mpr single)
  apply (pairwise_sortedByKey pairs).imp₂ _ apart
  intro left right below other
  exact Std.lt_of_le_of_ne below other

theorem sortedByKey_map {α β : Type} (change : String × α → β) (pairs : List (String × α)) :
    sortedByKey (pairs.map (fun pair => (pair.1, change pair))) =
      (sortedByKey pairs).map (fun pair => (pair.1, change pair)) := by
  rw [sortedByKey_eq, sortedByKey_eq]
  exact (List.map_insertionSort (fun left right : String × α => left.1 ≤ right.1)
    (fun left right : String × β => left.1 ≤ right.1) _ pairs (fun _ _ _ _ => Iff.rfl)).symm

theorem append_inj {left right rest others : String}
    (same : left ++ rest = right ++ others) (lengths : left.length = right.length) :
    left = right ∧ rest = others := by
  have lists := congrArg String.toList same
  rw [String.toList_append, String.toList_append] at lists
  obtain ⟨first, second⟩ := List.append_inj lists
    (by rw [String.length_toList, String.length_toList, lengths])
  exact ⟨String.toList_inj.mp first, String.toList_inj.mp second⟩

/-- Texts of one length are told apart after they were joined. -/
theorem join_inj {width : Nat} (positive : 0 < width) (even : ∀ text ∈ texts, text.length = width)
    (even' : ∀ text ∈ others, text.length = width)
    (same : String.join texts = String.join others) : texts = others := by
  have notEmpty : ∀ (text : String) (rest : List String), text.length = width →
      String.join (text :: rest) ≠ "" := by
    intro text rest long empty
    have length := congrArg String.length empty
    rw [String.join_cons, String.length_append, long] at length
    have none : String.length "" = 0 := rfl
    omega
  induction texts generalizing others with
  | nil =>
    cases others with
    | nil => rfl
    | cons other rest => exact (notEmpty other rest (even' _ (by simp)) same.symm).elim
  | cons text texts ih =>
    cases others with
    | nil => exact (notEmpty text texts (even _ (by simp)) same).elim
    | cons other rest =>
      rw [String.join_cons, String.join_cons] at same
      obtain ⟨rfl, tails⟩ := append_inj same
        ((even _ (by simp)).trans (even' _ (by simp)).symm)
      rw [ih (fun _ member => even _ (by simp [member]))
        (fun _ member => even' _ (by simp [member])) tails]

end Text

end CodeAtlas
