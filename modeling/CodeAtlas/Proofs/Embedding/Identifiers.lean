import CodeAtlas.Proofs.Actions
import CodeAtlas.Proofs.Embedding.Batching

/-!
# What an identifier tells

An identifier joins path, lines, kind and name by colons and a dash.  The path and the kind end at
a colon, lines have digits and a sign only, and the name is what is left.  So where paths and kinds
have no colon, all five can be read off the identifier, whatever stands in the name.
-/

namespace CodeAtlas

/-- What stands before a mark that it does not hold, and what stands behind it, can be told. -/
theorem eq_and_eq_of_append_cons {mark : α} {front front' rest rest' : List α}
    (clear : mark ∉ front) (clear' : mark ∉ front')
    (same : front ++ mark :: rest = front' ++ mark :: rest') : front = front' ∧ rest = rest' := by
  rcases List.append_eq_append_iff.mp same with ⟨more, rfl, ends⟩ | ⟨more, rfl, ends⟩
  · cases more with
    | nil => simpa using ends
    | cons item more =>
      obtain ⟨rfl, -⟩ := List.cons.inj ends
      exact absurd (List.mem_append_right _ List.mem_cons_self) clear'
  · cases more with
    | nil => simpa [eq_comm] using ends
    | cons item more =>
      obtain ⟨rfl, -⟩ := List.cons.inj ends
      exact absurd (List.mem_append_right _ List.mem_cons_self) clear

section Lines

theorem notMem_repr {number : Nat} {character : Char} (other : character.isDigit = false) :
    character ∉ number.repr.toList := by
  intro member
  rw [Nat.toList_repr] at member
  rw [Nat.isDigit_of_mem_toDigits (by decide) (by decide) member] at other
  cases other

theorem number_eq_of_repr {number number' : Nat}
    (same : number.repr.toList = number'.repr.toList) : number = number' := by
  rw [Nat.toList_repr, Nat.toList_repr] at same
  rw [← @Nat.ofDigitChars_toDigits 10 number (by decide) (by decide), same,
    Nat.ofDigitChars_toDigits (by decide) (by decide)]

theorem notMem_toString {line : Int} {character : Char} (other : character.isDigit = false)
    (notSign : character ≠ '-') : character ∉ (toString line).toList := by
  cases line with
  | ofNat number => exact notMem_repr other
  | negSucc number =>
    have text : (toString (Int.negSucc number)).toList = '-' :: (number + 1).repr.toList :=
      String.toList_append
    rw [text, List.mem_cons, not_or]
    exact ⟨notSign, notMem_repr other⟩

/-- A line number before a dash can be told, also if it is below zero. -/
theorem line_eq_of_append {line line' : Int} {rest rest' : List Char}
    (same : (toString line).toList ++ '-' :: rest = (toString line').toList ++ '-' :: rest') :
    line = line' ∧ rest = rest' := by
  have plain : ∀ number : Nat, '-' ∉ number.repr.toList := fun number => notMem_repr (by decide)
  have above : ∀ number : Nat, (toString (Int.ofNat number)).toList = number.repr.toList :=
    fun _ => rfl
  have below : ∀ number : Nat,
      (toString (Int.negSucc number)).toList = '-' :: (number + 1).repr.toList :=
    fun _ => String.toList_append
  -- A number that is not below zero starts with a digit.
  have apart : ∀ (number number' : Nat) (rest rest' : List Char),
      number.repr.toList ++ rest ≠ '-' :: (number' + 1).repr.toList ++ rest' := by
    intro number number' rest rest' same
    cases digits : number.repr.toList with
    | nil =>
      rw [Nat.toList_repr] at digits
      exact Nat.toDigits_ne_nil digits
    | cons digit digits' =>
      rw [digits, List.cons_append, List.cons_append] at same
      obtain ⟨rfl, -⟩ := List.cons.inj same
      exact plain number (digits ▸ List.mem_cons_self)
  cases line with
  | ofNat number =>
    cases line' with
    | ofNat number' =>
      obtain ⟨digits, rfl⟩ := eq_and_eq_of_append_cons (plain number) (plain number') same
      rw [number_eq_of_repr digits]
      exact ⟨rfl, rfl⟩
    | negSucc number' =>
      rw [above, below] at same
      exact (apart _ _ _ _ same).elim
  | negSucc number =>
    cases line' with
    | ofNat number' =>
      rw [above, below] at same
      exact (apart _ _ _ _ same.symm).elim
    | negSucc number' =>
      rw [below, below] at same
      obtain ⟨digits, rfl⟩ := eq_and_eq_of_append_cons (plain (number + 1))
        (plain (number' + 1)) (List.cons.inj same).2
      obtain rfl := Nat.succ.inj (number_eq_of_repr digits)
      exact ⟨rfl, rfl⟩

end Lines

namespace Chunk

variable {chunk : Chunk}

/-- What an identifier is made of; an empty name counts as none. -/
def key (chunk : Chunk) : String × Int × Int × String × String :=
  (chunk.relativePath, chunk.startLine, chunk.endLine, chunk.kind, chunk.name.getD "")

def nameMark (name : String) : List Char :=
  if name = "" then [] else ':' :: name.toList

theorem toList_identifier (chunk : Chunk) : chunk.identifier.toList =
    chunk.relativePath.toList ++ ':' :: ((toString chunk.startLine).toList ++
      '-' :: ((toString chunk.endLine).toList ++ ':' :: (chunk.kind.toList ++
        nameMark (chunk.name.getD "")))) := by
  have colon : ":".toList = [':'] := rfl
  have dash : "-".toList = ['-'] := rfl
  unfold identifier
  cases chunk.name with
  | none => simp [position, nameMark, colon, dash]
  | some name =>
    dsimp only [Option.getD_some]
    by_cases empty : name = ""
    · simp [empty, position, nameMark, colon, dash]
    · simp [empty, position, nameMark, colon, dash]

theorem kind_eq_of_append {kind kind' name name' : String} (plain : ':' ∉ kind.toList)
    (plain' : ':' ∉ kind'.toList)
    (same : kind.toList ++ nameMark name = kind'.toList ++ nameMark name') :
    kind = kind' ∧ name = name' := by
  unfold nameMark at same
  by_cases empty : name = ""
  · rw [if_pos empty, List.append_nil] at same
    by_cases empty' : name' = ""
    · rw [if_pos empty', List.append_nil] at same
      exact ⟨String.toList_inj.mp same, empty.trans empty'.symm⟩
    · rw [if_neg empty'] at same
      exact absurd (same ▸ List.mem_append_right _ List.mem_cons_self) plain
  · rw [if_neg empty] at same
    by_cases empty' : name' = ""
    · rw [if_pos empty', List.append_nil] at same
      exact absurd (same ▸ List.mem_append_right _ List.mem_cons_self) plain'
    · rw [if_neg empty'] at same
      obtain ⟨kinds, names⟩ := eq_and_eq_of_append_cons plain plain' same
      exact ⟨String.toList_inj.mp kinds, String.toList_inj.mp names⟩

/-- Chunks whose paths and kinds have no colon have the same identifier exactly if they agree in
what it is made of. -/
theorem identifier_eq_iff {other : Chunk} (plain : ':' ∉ chunk.relativePath.toList)
    (plain' : ':' ∉ other.relativePath.toList) (kind : ':' ∉ chunk.kind.toList)
    (kind' : ':' ∉ other.kind.toList) :
    chunk.identifier = other.identifier ↔ chunk.key = other.key := by
  have noColon : ∀ line : Int, ':' ∉ (toString line).toList :=
    fun line => notMem_toString (by decide) (by decide)
  rw [← String.toList_inj, toList_identifier, toList_identifier]
  constructor
  · intro same
    obtain ⟨paths, same⟩ := eq_and_eq_of_append_cons plain plain' same
    obtain ⟨starts, same⟩ := line_eq_of_append same
    obtain ⟨ends, same⟩ := eq_and_eq_of_append_cons (noColon _) (noColon _) same
    have ends' : chunk.endLine = other.endLine := by
      have dashed := congrArg (fun text => text ++ ['-']) ends
      exact (line_eq_of_append dashed).1
    obtain ⟨kinds, names⟩ := kind_eq_of_append kind kind' same
    simp only [key, String.toList_inj.mp paths, starts, ends', kinds, names]
  · intro same
    simp only [key, Prod.mk.injEq] at same
    obtain ⟨paths, starts, ends, kinds, names⟩ := same
    rw [paths, starts, ends, kinds, names]

/-- Of two chunks with one identifier whose paths have no colon, the paths are the same. -/
theorem relativePath_eq_of_identifier {other : Chunk} (plain : ':' ∉ chunk.relativePath.toList)
    (plain' : ':' ∉ other.relativePath.toList) (same : chunk.identifier = other.identifier) :
    chunk.relativePath = other.relativePath := by
  rw [← String.toList_inj, toList_identifier, toList_identifier] at same
  exact String.toList_inj.mp (eq_and_eq_of_append_cons plain plain' same).1

end Chunk

namespace Encoder

/-- An item that an encoder builds for a chunk, in a call for the chunk alone or for a batch. -/
inductive Builds (encoder : Encoder) (chunk : Chunk) : Embedded → Prop where
  | alone {item : Embedded} (embedded : encoder.embedChunk chunk = .ok item) :
      encoder.Builds chunk item
  | inBatch {batch : List Chunk × Nat} {vectors : List Embedding} {vector : Embedding}
      (encoded : encoder.answer batch = .ok vectors)
      (paired : (chunk, vector) ∈ batch.1.zip vectors) :
      encoder.Builds chunk (chunk.embeddedAs vector)

variable {encoder : Encoder} {chunk : Chunk}

theorem Builds.identifier_eq {item : Embedded} (builds : encoder.Builds chunk item) :
    item.identifier = chunk.identifier := by
  cases builds with
  | alone embedded =>
    obtain ⟨vectors, -, embedded⟩ := bind_eq_ok_iff.mp embedded
    obtain ⟨vector, -, embedded⟩ := bind_eq_ok_iff.mp embedded
    obtain rfl := Except.ok.inj embedded
    rfl
  | inBatch _ _ => rfl

theorem exists_builds_of_mem {size : Int} {chunks : List Chunk} {items : List Embedded}
    (embedded : encoder.embedChunks size chunks = .ok items) {item : Embedded}
    (member : item ∈ items) : ∃ chunk ∈ chunks, encoder.Builds chunk item := by
  unfold embedChunks at embedded
  split_ifs at embedded
  · obtain rfl := Except.ok.inj embedded
    cases member
  · obtain rfl := Except.ok.inj embedded
    obtain ⟨batch, inside, member⟩ := List.mem_flatMap.mp member
    unfold embedBatch at member
    split at member
    · rename_i encoded
      obtain ⟨⟨chunk, vector⟩, paired, rfl⟩ := List.mem_map.mp member
      refine ⟨chunk, ?_, .inBatch encoded paired⟩
      rw [← flatMap_zipIdx_batches size.toNat chunks]
      exact List.mem_flatMap_of_mem inside (List.of_mem_zip paired).1
    · cases member

end Encoder

/-- All that is embedded is built for its chunks.  The identifiers built for two chunks whose paths
and kinds have no colon are the same exactly if the chunks agree in path, lines, kind and name, an
empty name counting as none. -/
theorem identifiers_tell_chunks {chunk other : Chunk}
    (plain : ':' ∉ chunk.relativePath.toList ∧ ':' ∉ chunk.kind.toList)
    (plain' : ':' ∉ other.relativePath.toList ∧ ':' ∉ other.kind.toList)
    (encoder encoder' : Encoder) :
    (∀ item item', encoder.Builds chunk item → encoder'.Builds other item' →
      (item.identifier = item'.identifier ↔
        chunk.relativePath = other.relativePath ∧ chunk.startLine = other.startLine ∧
        chunk.endLine = other.endLine ∧ chunk.kind = other.kind ∧
        chunk.name.getD "" = other.name.getD "")) ∧
    ∀ size chunks items, encoder.embedChunks size chunks = .ok items → ∀ item ∈ items,
      ∃ chunk ∈ chunks, encoder.Builds chunk item := by
  refine ⟨fun item item' built built' => ?_, fun _ _ _ embedded _ => ?_⟩
  · rw [built.identifier_eq, built'.identifier_eq,
      Chunk.identifier_eq_iff plain.1 plain'.1 plain.2 plain'.2]
    simp only [Chunk.key, Prod.mk.injEq]
  · exact Encoder.exists_builds_of_mem embedded

/-- Names with colons, of which one starts like the other. -/
theorem identifiers_tell_colons :
    let chunk : Chunk := { (default : Chunk) with
      relativePath := "a.cpp", kind := "method", name := some "B::f:1-2" }
    let other : Chunk := { chunk with name := some "B:" }
    (':' ∉ chunk.relativePath.toList ∧ ':' ∉ chunk.kind.toList) ∧
      ∃ encoder : Encoder, ∃ item item', encoder.Builds chunk item ∧ encoder.Builds other item' ∧
        item.identifier ≠ item'.identifier := by
  intro chunk other
  have plain : ':' ∉ chunk.relativePath.toList ∧ ':' ∉ chunk.kind.toList := by decide +kernel
  refine ⟨plain, .counting [] "", _, _, .alone rfl, .alone rfl, fun same => ?_⟩
  have told := (@identifiers_tell_chunks chunk other plain plain (.counting [] "")
    (.counting [] "")).1 _ _ (.alone rfl) (.alone rfl)
  exact absurd (told.mp same).2.2.2.2 (by decide)

end CodeAtlas
