import CodeAtlas.Embedding.Basic
import Mathlib.Data.List.Basic

/-!
# Embedding in batches and one by one

Where an encoder gives each text its own vector, whatever texts come with it, a batch is embedded
as its chunks are one by one.  One bad text makes the encoder fail, and then all chunks of the batch
are missing.  So what is embedded are the chunks in batches without bad texts, in their order.
-/

namespace CodeAtlas

section Batches

variable {α : Type}

def batchAt (size : Nat) (items : List α) (position : Nat) : List α :=
  (items.drop (position / size * size)).take size

theorem batchAt_of_lt {size : Nat} {items : List α} {position : Nat} (first : position < size) :
    batchAt size items position = items.take size := by
  rw [batchAt, Nat.div_eq_of_lt first, Nat.zero_mul, List.drop_zero]

theorem batchAt_add {size : Nat} (positive : 0 < size) (items : List α) (position : Nat) :
    batchAt size items (size + position) = batchAt size (items.drop size) position := by
  rw [batchAt, batchAt, Nat.add_div_left position positive, Nat.succ_mul, Nat.add_comm,
    ← List.drop_drop]

theorem batches_cons {size : Nat} (positive : 0 < size) {items : List α} (filled : items ≠ []) :
    batches size items = items.take size :: batches size (items.drop size) := by
  obtain ⟨less, rfl⟩ := Nat.exists_eq_succ_of_ne_zero (Nat.ne_of_gt positive)
  cases items with
  | nil => exact (filled rfl).elim
  | cons item rest => simp [batches]

theorem flatten_batches (size : Nat) (items : List α) :
    (batches size items).flatten = items := by
  fun_induction batches size items with
  | case1 => rfl
  | case2 item rest ih =>
    rw [List.flatten_cons, ih, List.cons_append, List.take_append_drop]

theorem flatMap_zipIdx_batches (size : Nat) (items : List α) :
    (batches size items).zipIdx.flatMap Prod.fst = items := by
  rw [List.flatMap_def, List.zipIdx_map_fst, flatten_batches]

/-- Of the items with their positions, those of the first batch come first. -/
theorem zipIdx_eq_batch_append (size : Nat) (items : List α) :
    items.zipIdx = (items.take size).zipIdx ++
      (items.drop size).zipIdx.map (fun item => (item.1, size + item.2)) := by
  rw [← List.zipIdx_eq_map_add]
  by_cases more : size ≤ items.length
  · have whole := @List.zipIdx_append _ (items.take size) (items.drop size) 0
    rwa [List.take_append_drop, List.length_take_of_le more, Nat.zero_add] at whole
  · have all := Nat.le_of_not_le more
    rw [List.take_of_length_le all, List.drop_eq_nil_of_le all, List.zipIdx_nil, List.append_nil]

/-- The items of the batches that are accepted are those whose positions fall into such a batch. -/
theorem flatMap_batches {size : Nat} (positive : 0 < size) (accepts : List α → Bool)
    (items : List α) :
    (batches size items).flatMap (fun batch => if accepts batch then batch else []) =
      (items.zipIdx.filter (fun item => accepts (batchAt size items item.2))).map Prod.fst := by
  induction length : items.length using Nat.strongRecOn generalizing items with
  | ind count ih =>
    by_cases filled : items = []
    · simp [filled, batches]
    · have shorter : (items.drop size).length < count := by
        have some := List.length_pos_iff.mpr filled
        rw [List.length_drop]
        omega
      have here : ((items.take size).zipIdx.filter
          (fun item => accepts (batchAt size items item.2))).map Prod.fst =
          if accepts (items.take size) then items.take size else [] := by
        have same : ∀ item ∈ (items.take size).zipIdx,
            accepts (batchAt size items item.2) = accepts (items.take size) := by
          intro item member
          have bound := List.snd_lt_of_mem_zipIdx member
          rw [List.length_take] at bound
          rw [batchAt_of_lt (by omega)]
        rw [List.filter_congr same]
        cases accepts (items.take size) with
        | true => rw [List.filter_eq_self.mpr (by simp), List.zipIdx_map_fst, if_pos rfl]
        | false => simp
      rw [batches_cons positive filled, List.flatMap_cons, ih _ shorter (items.drop size) rfl,
        zipIdx_eq_batch_append size items, List.filter_append, List.map_append, here,
        List.filter_map, List.map_map]
      simp only [Function.comp_def, batchAt_add positive]

end Batches

namespace Encoder

/-- The encoder gives each text its own vector, whatever texts come with it, but fails for all of
them if one is bad. -/
structure IsTextwise (encoder : Encoder) (vector : String → Embedding)
    (isBad : String → Bool) : Prop where
  gives : ∀ before texts, texts.any isBad = false →
    encoder.encode before texts = .ok (texts.map vector)
  fails : ∀ before texts, texts.any isBad = true →
    ∃ fault, encoder.encode before texts = .error fault

def isClean (isBad : String → Bool) (batch : List Chunk) : Bool :=
  batch.all (fun chunk => !isBad chunk.excerpt)

/-- The chunks in whose batch no text is bad, in their order. -/
def inCleanBatches (isBad : String → Bool) (size : Nat) (chunks : List Chunk) : List Chunk :=
  (chunks.zipIdx.filter (fun item => isClean isBad (batchAt size chunks item.2))).map Prod.fst

section Clean

variable {isBad : String → Bool} {size : Nat} {chunks : List Chunk}

theorem inCleanBatches_eq (positive : 0 < size) : inCleanBatches isBad size chunks =
    (batches size chunks).flatMap (fun batch => if isClean isBad batch then batch else []) :=
  (flatMap_batches positive (isClean isBad) chunks).symm

theorem good_of_mem_inCleanBatches (positive : 0 < size) {chunk : Chunk}
    (member : chunk ∈ inCleanBatches isBad size chunks) : isBad chunk.excerpt = false := by
  rw [inCleanBatches_eq positive, List.mem_flatMap] at member
  obtain ⟨batch, -, inside⟩ := member
  split at inside
  · rename_i clean
    simpa using List.all_eq_true.mp clean chunk inside
  · cases inside

theorem inCleanBatches_of_good (good : ∀ chunk ∈ chunks, isBad chunk.excerpt = false) :
    inCleanBatches isBad size chunks = chunks := by
  rw [inCleanBatches, List.filter_eq_self.mpr, List.zipIdx_map_fst]
  intro item _
  refine List.all_eq_true.mpr (fun chunk member => ?_)
  simp [good chunk (List.mem_of_mem_drop (List.mem_of_mem_take member))]

end Clean

namespace IsTextwise

variable {encoder : Encoder} {vector : String → Embedding} {isBad : String → Bool}

theorem embedChunk (textwise : encoder.IsTextwise vector isBad) {chunk : Chunk}
    (good : isBad chunk.excerpt = false) :
    encoder.embedChunk chunk = .ok (chunk.embeddedAs (vector chunk.excerpt)) := by
  rw [Encoder.embedChunk, textwise.gives 0 [chunk.excerpt] (by simpa using good)]
  rfl

theorem embedBatch (textwise : encoder.IsTextwise vector isBad) (batch : List Chunk)
    (before : Nat) :
    encoder.embedBatch (batch, before) = (if isClean isBad batch then batch else []).map
      (fun chunk => chunk.embeddedAs (vector chunk.excerpt)) := by
  have texts : (batch.map Chunk.excerpt).any isBad = !isClean isBad batch := by
    rw [List.any_map, isClean, List.not_all_eq_any_not]
    simp [Function.comp_def]
  rw [Encoder.embedBatch, answer]
  cases clean : isClean isBad batch with
  | false =>
    obtain ⟨fault, failed⟩ := textwise.fails before _ (texts.trans (by rw [clean]; rfl))
    rw [failed]
    rfl
  | true =>
    rw [textwise.gives before _ (texts.trans (by rw [clean]; rfl)), List.map_map, if_pos rfl]
    have pairs := @List.zip_map' _ _ _ id (vector ∘ Chunk.excerpt) batch
    rw [List.map_id] at pairs
    dsimp only
    rw [pairs, List.map_map]
    rfl

theorem embedChunks (textwise : encoder.IsTextwise vector isBad) {size : Int}
    (positive : 1 ≤ size) (chunks : List Chunk) :
    encoder.embedChunks size chunks = .ok ((inCleanBatches isBad size.toNat chunks).map
      (fun chunk => chunk.embeddedAs (vector chunk.excerpt))) := by
  rw [Encoder.embedChunks, if_neg (by omega), if_neg (by omega), inCleanBatches_eq (by omega),
    List.map_flatMap]
  conv => rhs; rw [← List.zipIdx_map_fst 0 (batches size.toNat chunks), List.flatMap_map]
  exact congrArg Except.ok (List.flatMap_congr (fun batch _ => textwise.embedBatch _ _))

end IsTextwise

end Encoder

open Encoder in
/-- Chunks that are embedded in batches come out as one by one, but for those that share their batch
with a bad text.  Without bad texts all of them come out, whatever the size of the batches. -/
theorem batched_embedding_agrees_with_single {encoder : Encoder} {vector : String → Embedding}
    {isBad : String → Bool} (textwise : encoder.IsTextwise vector isBad) {size : Int}
    (positive : 1 ≤ size) (chunks : List Chunk) :
    ∃ results, encoder.embedChunks size chunks = .ok results ∧
      results.map .ok = (inCleanBatches isBad size.toNat chunks).map encoder.embedChunk ∧
      ((∀ chunk ∈ chunks, isBad chunk.excerpt = false) →
        results.map .ok = chunks.map encoder.embedChunk) := by
  have agree : ((inCleanBatches isBad size.toNat chunks).map
      (fun chunk => chunk.embeddedAs (vector chunk.excerpt))).map .ok =
      (inCleanBatches isBad size.toNat chunks).map encoder.embedChunk := by
    rw [List.map_map]
    refine List.map_congr_left (fun chunk member => ?_)
    exact (textwise.embedChunk (good_of_mem_inCleanBatches (by omega) member)).symm
  refine ⟨_, textwise.embedChunks positive chunks, agree, fun good => ?_⟩
  rw [agree, inCleanBatches_of_good good]

/-- The encoder by counts looks at each text alone, and refuses those with the refused word. -/
theorem Encoder.isTextwise_counting (vocabulary : List String) {refused : String}
    (given : refused.isEmpty = false) :
    (counting vocabulary refused).IsTextwise
      (fun text => vocabulary.map (fun word => (Text.count text word).toFloat) ++ [1.0])
      (Text.contains · refused) := by
  constructor
  · intro _ texts none
    simp only [counting, given, none]
    rfl
  · intro _ texts some
    exact ⟨.modelFailed "model failure", by simp only [counting, given, some]; rfl⟩

namespace Sample

/-- Five functions of one line, of which the fourth holds a refused word. -/
def fiveChunks : List Chunk :=
  ["x", "x x", "y", "bad", "x y"].zipIdx.map (fun (content, line) =>
    { content, kind := "function", startLine := line + 1, endLine := line + 1
      filePath := "/a.py", relativePath := "a.py", folders := [] })

end Sample

/-- In batches of two, the third and the fourth chunk are missing. -/
theorem third_and_fourth_chunk_are_missing : ∃ results,
    (Encoder.counting ["x"] "bad").embedChunks 2 Sample.fiveChunks = .ok results ∧
      results.map .ok = [0, 1, 4].map (fun position =>
        (Encoder.counting ["x"] "bad").embedChunk (Sample.fiveChunks.getD position default)) := by
  obtain ⟨results, embedded, agree, -⟩ := batched_embedding_agrees_with_single
    (Encoder.isTextwise_counting ["x"] (by decide : "bad".isEmpty = false))
    (by decide : (1 : Int) ≤ 2) Sample.fiveChunks
  refine ⟨results, embedded, agree.trans ?_⟩
  have kept : Encoder.inCleanBatches (Text.contains · "bad") 2 Sample.fiveChunks =
      [0, 1, 4].map (fun position => Sample.fiveChunks.getD position default) := by
    decide +kernel
  exact (congrArg (List.map _) kept).trans (List.map_map ..)

end CodeAtlas
