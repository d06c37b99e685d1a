import CodeAtlas.Proofs.Sorting.Stable
import CodeAtlas.Proofs.Tables
import Mathlib.Algebra.BigOperators.Group.List.Lemmas
import Mathlib.Algebra.GroupWithZero.Nat
import Mathlib.Data.Finset.Card

/-!
# Counting keys

A tally has each key once, with the number of its occurrences and in the order of the first ones.
By falling count the keys are sorted stably, so those with the same count stay in this order.
-/

namespace CodeAtlas.Table

variable {κ : Type} [DecidableEq κ]

theorem eraseDups_concat (keys : List κ) (key : κ) :
    (keys ++ [key]).eraseDups =
      if keys.elem key then keys.eraseDups else keys.eraseDups ++ [key] := by
  rw [List.eraseDups_append]
  cases known : keys.elem key with
  | true => simp_all [List.removeAll]
  | false => simp_all [List.removeAll, List.eraseDups_cons]

theorem pairwise_eraseDups (keys : List κ) :
    keys.eraseDups.Pairwise fun key other => keys.idxOf key < keys.idxOf other := by
  induction keys using List.reverseRecOn with
  | nil => exact .nil
  | append_singleton keys key ih =>
    have kept : keys.eraseDups.Pairwise fun first second =>
        (keys ++ [key]).idxOf first < (keys ++ [key]).idxOf second := by
      refine ih.imp_of_mem fun {first second} inside inside' met => ?_
      rwa [List.idxOf_append_of_mem (List.mem_eraseDups.mp inside),
        List.idxOf_append_of_mem (List.mem_eraseDups.mp inside')]
    rw [eraseDups_concat]
    split
    · exact kept
    · rename_i fresh
      refine List.pairwise_append.mpr ⟨kept, List.pairwise_singleton _ _, ?_⟩
      intro first inside second last
      obtain rfl := List.mem_singleton.mp last
      have known := List.mem_eraseDups.mp inside
      rw [List.idxOf_append_of_mem known, List.idxOf_append_of_notMem (by simpa using fresh)]
      exact Nat.lt_add_right _ (List.idxOf_lt_length_iff.mpr known)

theorem nodup_eraseDups (keys : List κ) : keys.eraseDups.Nodup :=
  (pairwise_eraseDups keys).imp fun met same => by simp [same] at met

theorem insertEntries_map (count : κ → Nat) (key : κ) (more : Nat) {others : List κ}
    (single : others.Nodup) :
    insertEntries key more (others.map fun other => (other, count other)) =
      (if others.elem key then others else others ++ [key]).map fun other =>
        (other, if other == key then more else count other) := by
  induction others with
  | nil => simp [insertEntries]
  | cons first rest ih =>
    obtain ⟨fresh, single'⟩ := List.nodup_cons.mp single
    rw [List.map_cons, insertEntries]
    by_cases here : key = first
    · subst here
      have unchanged : ∀ other ∈ rest, other ≠ key := fun _ member same => fresh (same ▸ member)
      simp +contextual [unchanged]
    · have apart : first ≠ key := Ne.symm here
      rw [if_neg (by simpa using here), ih single']
      cases known : rest.elem key with
      | true => simp_all
      | false => simp_all

theorem lookup_map_self (count : κ → Nat) (key : κ) (others : List κ) :
    (others.map fun other => (other, count other)).lookup key =
      if others.elem key then some (count key) else none := by
  induction others with
  | nil => rfl
  | cons first rest ih =>
    rw [List.map_cons, lookup_cons_ite, ih, List.elem_cons]
    by_cases here : key = first
    · simp [here]
    · simp [beq_eq_false_iff_ne.mpr here]

/-- The keys in the order of their first occurrences, each with the number of all of them. -/
theorem tally_entries (keys : List κ) :
    (tally keys).entries = keys.eraseDups.map fun key => (key, keys.count key) := by
  induction keys using List.reverseRecOn with
  | nil => rfl
  | append_singleton keys key ih =>
    have step : tally (keys ++ [key]) = (tally keys).bump key := List.foldl_append
    have same : keys.eraseDups.elem key = keys.elem key := by simp
    have counted : ((tally keys).get? key).getD 0 = keys.count key := by
      rw [get?, ih, lookup_map_self, same]
      split
      · rfl
      · rename_i fresh
        exact (List.count_eq_zero_of_not_mem (by simpa using fresh)).symm
    rw [step, bump, counted, insert, ih, insertEntries_map _ _ _ (nodup_eraseDups keys),
      eraseDups_concat, same]
    refine List.map_congr_left fun other _ => ?_
    rw [List.count_append, List.count_singleton]
    by_cases last : other = key
    · simp [last]
    · simp [last, Ne.symm last]

theorem eraseDups_perm (keys : List κ) : keys.eraseDups.Perm keys.dedup := by
  refine (List.perm_ext_iff_of_nodup (nodup_eraseDups keys) keys.nodup_dedup).mpr ?_
  simp

theorem length_tally (keys : List κ) : (tally keys).entries.length = keys.toFinset.card := by
  rw [tally_entries, List.length_map, List.card_toFinset]
  exact (eraseDups_perm keys).length_eq

/-- Each key that occurs, with the number of its occurrences. -/
structure Counts (keys : List κ) (counts : List (κ × Nat)) : Prop where
  exact : ∀ key count, (key, count) ∈ counts ↔ count = keys.count key ∧ count ≠ 0
  sum : (counts.map Prod.snd).sum = keys.length

theorem counts_tally (keys : List κ) : Counts keys (tally keys).entries where
  exact key count := by
    rw [tally_entries, List.mem_map]
    constructor
    · rintro ⟨_, inside, ⟨⟩⟩
      exact ⟨rfl, (List.count_pos_iff.mpr (List.mem_eraseDups.mp inside)).ne'⟩
    · rintro ⟨rfl, some⟩
      have inside := List.count_pos_iff.mp (Nat.pos_of_ne_zero some)
      exact ⟨key, List.mem_eraseDups.mpr inside, rfl⟩
  sum := by
    rw [tally_entries, List.map_map, ((eraseDups_perm keys).map _).sum_eq]
    exact List.sum_map_count_dedup_eq_length keys

/-- The first key occurs more often, or as often and was met before. -/
def Leads (keys : List κ) (first second : κ × Nat) : Prop :=
  second.2 < first.2 ∨ first.2 = second.2 ∧ keys.idxOf first.1 < keys.idxOf second.1

/-- All the keys, the most frequent ones first. -/
structure Ranks (keys : List κ) (counts : List (κ × Nat)) : Prop extends Counts keys counts where
  ordered : counts.Pairwise (Leads keys)

theorem ranks_byCount (keys : List κ) : Ranks keys (tally keys).byCount := by
  have trans : IsTrans (κ × Nat) fun left right => right.2 ≤ left.2 :=
    ⟨fun _ _ _ first second => Nat.le_trans second first⟩
  have total : Std.Total fun left right : κ × Nat => right.2 ≤ left.2 :=
    ⟨fun left right => Nat.le_total right.2 left.2⟩
  have met : (tally keys).entries.Pairwise fun left right =>
      keys.idxOf left.1 < keys.idxOf right.1 := by
    rw [tally_entries, List.pairwise_map]
    exact pairwise_eraseDups keys
  obtain ⟨exact, sum⟩ := counts_tally keys
  have perm := List.perm_insertionSort (fun left right : κ × Nat => right.2 ≤ left.2)
    (tally keys).entries
  rw [byCount, Sorting.byInsertion_eq]
  refine ⟨⟨fun key count => perm.mem_iff.trans (exact key count),
    (perm.map Prod.snd).sum_eq.trans sum⟩, ?_⟩
  refine (Sorting.pairwise_insertionSort _ _ met).imp fun {left right} stands => ?_
  rcases Nat.lt_or_eq_of_le stands.1 with more | same
  · exact .inl more
  · exact .inr ⟨same.symm, stands.2 same.ge⟩

/-- The most frequent keys, at most so many: one that is left out is not more frequent than any
of them. -/
structure Tops (limit : Nat) (keys : List κ) (counts : List (κ × Nat)) : Prop where
  atMost : counts.length ≤ limit
  exact : ∀ entry ∈ counts, entry.2 = keys.count entry.1 ∧ entry.2 ≠ 0
  ordered : counts.Pairwise (Leads keys)
  leftOut : ∀ key ∈ keys, key ∉ counts.map Prod.fst →
    counts.length = limit ∧ ∀ entry ∈ counts, keys.count key ≤ entry.2

theorem Ranks.tops {keys : List κ} {counts : List (κ × Nat)} (ranks : Ranks keys counts)
    (limit : Nat) : Tops limit keys (counts.take limit) where
  atMost := List.length_take_le limit _
  exact entry member := (ranks.exact entry.1 entry.2).mp (List.mem_of_mem_take member)
  ordered := ranks.ordered.sublist (List.take_sublist limit _)
  leftOut key known missing := by
    have counted : (key, keys.count key) ∈ counts :=
      (ranks.exact _ _).mpr ⟨rfl, (List.count_pos_iff.mpr known).ne'⟩
    have ordered := ranks.ordered
    rw [← List.take_append_drop limit counts] at counted ordered
    rcases List.mem_append.mp counted with front | back
    · exact absurd (List.mem_map_of_mem front) missing
    · refine ⟨List.length_take_of_le ?_, fun entry member => ?_⟩
      · have some := List.length_pos_of_mem back
        rw [List.length_drop] at some
        omega
      · rcases (List.pairwise_append.mp ordered).2.2 entry member _ back with more | ⟨same, -⟩
        · exact more.le
        · exact same.ge

theorem nodup_of_leads {keys : List κ} {counts : List (κ × Nat)}
    (ordered : counts.Pairwise (Leads keys))
    (exact : ∀ entry ∈ counts, entry.2 = keys.count entry.1) : (counts.map Prod.fst).Nodup := by
  refine List.pairwise_map.mpr (ordered.imp_of_mem fun {left right} inside inside' leads same => ?_)
  have counts := exact left inside
  rw [same, ← exact right inside'] at counts
  rcases leads with more | ⟨-, met⟩
  · omega
  · simp [same] at met

section Image

variable {μ : Type} [BEq μ] {image : κ → μ}
  (faithful : ∀ key other, (image key == image other) = (key == other))
include faithful

theorem tally_map (keys : List κ) :
    (tally (keys.map image)).entries = (tally keys).entries.map (Prod.map image id) := by
  have looked : ∀ (key : κ) (entries : List (κ × Nat)),
      (entries.map (Prod.map image id)).lookup (image key) = entries.lookup key := by
    intro key entries
    induction entries with
    | nil => rfl
    | cons entry rest ih => simp [lookup_cons_ite, faithful, ih]
  have put : ∀ (key : κ) (count : Nat) (entries : List (κ × Nat)),
      insertEntries (image key) count (entries.map (Prod.map image id)) =
        (insertEntries key count entries).map (Prod.map image id) := by
    intro key count entries
    induction entries with
    | nil => rfl
    | cons entry rest ih =>
      simp only [List.map_cons, insertEntries, Prod.map_fst, faithful, ih]
      split <;> rfl
  induction keys using List.reverseRecOn with
  | nil => rfl
  | append_singleton keys key ih =>
    rw [List.map_append, tally, List.foldl_append, tally, List.foldl_append]
    change ((tally (keys.map image)).bump (image key)).entries =
      ((tally keys).bump key).entries.map _
    rw [bump, get?, insert, ih, looked, put]
    rfl

theorem byCount_map (keys : List κ) :
    (tally (keys.map image)).byCount = (tally keys).byCount.map (Prod.map image id) := by
  rw [byCount, byCount, tally_map faithful, Sorting.byInsertion_eq, Sorting.byInsertion_eq]
  exact (List.map_insertionSort (fun left right : κ × Nat => right.2 ≤ left.2)
    (fun left right : μ × Nat => right.2 ≤ left.2) _ _ fun _ _ _ _ => Iff.rfl).symm

end Image

end CodeAtlas.Table
