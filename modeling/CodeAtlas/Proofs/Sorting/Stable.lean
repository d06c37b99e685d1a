import CodeAtlas.Sorting.Insertion
import Mathlib.Data.List.Enum
import Mathlib.Data.List.Sort

/-!
# Stable sorting

Items that may stand either way after sorting stand in the order in which they stood before.
Sorting numbered items tells where each of them goes.
-/

namespace CodeAtlas.Sorting

variable {α : Type} (before earlier : α → α → Prop) [DecidableRel before]

theorem byInsertion_eq (items : List α) :
    byInsertion (fun left right => decide (before left right)) items =
      items.insertionSort before := by
  have step : insertItem (fun left right => decide (before left right)) =
      List.orderedInsert before := by
    funext item rest
    induction rest with
    | nil => rfl
    | cons other rest ih => simp [insertItem, ih]
  rw [byInsertion, step]
  rfl

/-- Of two items that may stand either way, the first one has the smaller number. -/
def Stands (left right : α × Nat) : Prop :=
  before left.1 right.1 ∧ (before right.1 left.1 → left.2 < right.2)

variable [IsTrans α before] [Std.Total before]

private theorem pairwise_orderedInsert {item : α} {sorted : List α}
    (first : ∀ other ∈ sorted, earlier item other) (stable : sorted.Pairwise fun left right =>
      before left right ∧ (before right left → earlier left right)) :
    (sorted.orderedInsert before item).Pairwise fun left right =>
      before left right ∧ (before right left → earlier left right) := by
  induction sorted with
  | nil => exact List.pairwise_singleton _ _
  | cons other rest ih =>
    obtain ⟨here, later⟩ := List.pairwise_cons.mp stable
    rw [List.orderedInsert_cons]
    split
    · rename_i ordered
      refine List.pairwise_cons.mpr ⟨fun next member => ⟨?_, fun _ => first next member⟩, stable⟩
      rcases List.mem_cons.mp member with rfl | inside
      · exact ordered
      · exact IsTrans.trans _ _ _ ordered (here next inside).1
    · rename_i unordered
      refine List.pairwise_cons.mpr ⟨fun next member => ?_,
        ih (fun next member => first next (List.mem_cons_of_mem _ member)) later⟩
      rcases (List.mem_orderedInsert _).mp member with rfl | inside
      · exact ⟨(Std.Total.total _ _).resolve_left unordered, fun either => (unordered either).elim⟩
      · exact here next inside

theorem pairwise_insertionSort {items : List α} (rising : items.Pairwise earlier) :
    (items.insertionSort before).Pairwise fun left right =>
      before left right ∧ (before right left → earlier left right) := by
  induction items with
  | nil => exact .nil
  | cons item rest ih =>
    obtain ⟨here, later⟩ := List.pairwise_cons.mp rising
    refine pairwise_orderedInsert before earlier (fun other member => here other ?_) (ih later)
    exact (List.mem_insertionSort _).mp member

theorem pairwise_insertionSort_zipIdx (items : List α) :
    (items.zipIdx.insertionSort fun left right => before left.1 right.1).Pairwise
      (Stands before) := by
  have trans : IsTrans (α × Nat) fun left right => before left.1 right.1 :=
    ⟨fun _ _ _ => IsTrans.trans _ _ _⟩
  have total : Std.Total fun left right : α × Nat => before left.1 right.1 :=
    ⟨fun _ _ => Std.Total.total _ _⟩
  refine pairwise_insertionSort _ (fun left right : α × Nat => left.2 < right.2)
    (List.pairwise_map.mp ?_)
  rw [List.zipIdx_map_snd]
  exact List.pairwise_lt_range'

end CodeAtlas.Sorting
