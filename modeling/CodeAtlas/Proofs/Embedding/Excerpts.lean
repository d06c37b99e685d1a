import CodeAtlas.Embedding.Basic
import CodeAtlas.Proofs.Paths
import Mathlib.Algebra.Group.Nat.Defs
import Mathlib.Data.List.Infix

/-!
# Excerpts

An excerpt is never longer than its limit.  Where the code does not fit, the excerpt holds
its first lines, a mark and its last lines, with at least one line left out between them.
-/

namespace CodeAtlas

/-! ## Rounding -/

namespace Number

private theorem roundDiv_le (numerator denominator : Nat) :
    roundDiv numerator denominator ≤ numerator / denominator + 1 := by
  unfold roundDiv
  dsimp only
  split_ifs <;> omega

/-- Rounding adds no more than one unit in the last place. -/
theorem roundToBits_le (digits number : Nat) :
    roundToBits (digits + 1) number * 2 ^ digits ≤ number * (2 ^ digits + 1) := by
  unfold roundToBits
  dsimp only
  rcases Nat.lt_or_ge digits (bitLength number) with long | short
  · obtain ⟨further, length⟩ := Nat.exists_eq_add_of_lt long
    have some : number ≠ 0 := by
      rintro rfl
      simp [bitLength] at long
    have unit : bitLength number - (digits + 1) = further := by omega
    have leading : 2 ^ further * 2 ^ digits ≤ number := by
      have log : number.log2 = further + digits := by
        rw [bitLength, if_neg some] at length
        omega
      rw [← Nat.pow_add, ← log]
      exact Nat.log2_self_le some
    have rounded : roundDiv number (2 ^ further) * 2 ^ further ≤ number + 2 ^ further := by
      calc roundDiv number (2 ^ further) * 2 ^ further
          ≤ (number / 2 ^ further + 1) * 2 ^ further :=
            Nat.mul_le_mul_right _ (roundDiv_le _ _)
        _ ≤ number + 2 ^ further := by
            rw [Nat.add_mul, Nat.one_mul]
            exact Nat.add_le_add_right (Nat.div_mul_le_self _ _) _
    rw [unit, Nat.pow_eq]
    calc roundDiv number (2 ^ further) * 2 ^ further * 2 ^ digits
        ≤ (number + 2 ^ further) * 2 ^ digits := Nat.mul_le_mul_right _ rounded
      _ = number * 2 ^ digits + 2 ^ further * 2 ^ digits := Nat.add_mul _ _ _
      _ ≤ number * (2 ^ digits + 1) := by
          rw [Nat.mul_add, Nat.mul_one]
          exact Nat.add_le_add_left leading _
  · -- A short number is its own rounding.
    have unit : bitLength number - (digits + 1) = 0 := by omega
    have exact : roundDiv number 1 = number := by simp [roundDiv, Nat.mod_one]
    rw [unit, Nat.pow_eq, Nat.pow_zero, exact, Nat.mul_one]
    exact Nat.mul_le_mul_left _ (Nat.le_succ _)

end Number

namespace Excerpt

variable {budget : Int} {used : Nat} {lines : List String}

theorem length_le_of_within_share {length : Nat} (positive : 0 ≤ budget)
    (within : exceedsShare length budget = false) : 100 * (length : Int) ≤ 71 * budget := by
  obtain ⟨size, rfl⟩ := Int.eq_ofNat_of_zero_le positive
  have rounded := Number.roundToBits_le 52 (size * sevenTenths)
  rw [exceedsShare, decide_eq_false_iff_not, Int.not_lt, headShare, if_neg (by omega),
    Int.natAbs_natCast] at within
  simp only [sevenTenths, Nat.pow_eq, Nat.reducePow, Nat.reduceAdd] at within rounded
  omega

/-! ## Lengths of lines -/

private theorem foldl_lengths (start : Nat) (lines : List String) :
    lines.foldl (fun length line => length + line.length + 1) start =
      start + brokenLength lines := by
  induction lines generalizing start with
  | nil => rfl
  | cons line rest ih =>
    rw [brokenLength, List.foldl_cons, List.foldl_cons, ih, ih (0 + line.length + 1)]
    omega

theorem brokenLength_cons (line : String) (rest : List String) :
    brokenLength (line :: rest) = line.length + 1 + brokenLength rest := by
  rw [brokenLength, List.foldl_cons, foldl_lengths]
  omega

theorem length_join_lines (lines : List String) :
    (Text.join "\n" lines).length = joinedLength lines := by
  induction lines with
  | nil => rfl
  | cons line rest ih =>
    rw [joinedLength, brokenLength_cons]
    cases rest with
    | nil => simp [brokenLength]
    | cons next rest =>
      rw [joinedLength, brokenLength_cons] at ih
      rw [Text.join_cons_cons, String.length_append, String.length_append, ih,
        brokenLength_cons, show String.length "\n" = 1 from rfl]
      omega

/-! ## The lines that are kept -/

/-- The head is an initial part of the lines, and ends only where the next line is too much. -/
theorem headLines_spec (isTooMuch : Nat → Bool) (used : Nat) (lines : List String) :
    ∃ rest, lines = headLines isTooMuch used lines ++ rest ∧
      (headLines isTooMuch used lines ≠ [] →
        isTooMuch (used + brokenLength (headLines isTooMuch used lines)) = false) ∧
      ∀ next ∈ rest.head?, isTooMuch
        (used + brokenLength (headLines isTooMuch used lines) + next.length + 1) = true := by
  induction lines generalizing used with
  | nil => exact ⟨[], rfl, by simp [headLines], by simp⟩
  | cons line lines ih =>
    rw [headLines]
    split
    · rename_i tooMuch
      refine ⟨line :: lines, rfl, by simp, ?_⟩
      simpa [brokenLength] using tooMuch
    · rename_i fits
      obtain ⟨rest, whole, within, ends⟩ := ih (used + line.length + 1)
      have sum :
          used + brokenLength (line :: headLines isTooMuch (used + line.length + 1) lines) =
            used + line.length + 1 +
              brokenLength (headLines isTooMuch (used + line.length + 1) lines) := by
        rw [brokenLength_cons]
        omega
      refine ⟨rest, by rw [List.cons_append, ← whole], fun _ => ?_, ?_⟩
      · rw [sum]
        rcases eq_or_ne (headLines isTooMuch (used + line.length + 1) lines) [] with none | some
        · rw [none]
          exact Bool.eq_false_iff.mpr fits
        · exact within some
      · rw [sum]
        exact ends

/-- The tail is a last part of the lines, and starts only where the line before is too much. -/
theorem tailLines_spec (isTooMuch : Nat → Bool) (taken lines : List String)
    (within : taken ≠ [] → ∃ length, joinedLength taken ≤ length ∧ isTooMuch length = false) :
    ∃ rest, lines.reverse ++ taken = rest ++ tailLines isTooMuch taken lines ∧
      (tailLines isTooMuch taken lines ≠ [] → ∃ length,
        joinedLength (tailLines isTooMuch taken lines) ≤ length ∧ isTooMuch length = false) ∧
      ∀ previous ∈ rest.getLast?, isTooMuch
        (joinedLength (tailLines isTooMuch taken lines) + previous.length + 1) = true := by
  induction lines generalizing taken with
  | nil => exact ⟨[], rfl, within, by simp⟩
  | cons line lines ih =>
    rw [tailLines]
    split
    · rename_i tooMuch
      exact ⟨_, rfl, within, by simpa using tooMuch⟩
    · rename_i fits
      obtain ⟨rest, whole, inside, ends⟩ := ih (line :: taken) (fun _ => by
        refine ⟨_, ?_, Bool.eq_false_iff.mpr fits⟩
        rw [joinedLength, joinedLength, brokenLength_cons]
        omega)
      exact ⟨rest, by rw [← whole, List.reverse_cons, List.append_assoc]; rfl, inside, ends⟩

/-- The lines are those of the head, at least one that is left out, and those of the tail.
Head and tail are not too long, and have fewer lines than they may have only where one more
line would be too much. -/
structure Truncates (isPastHead : Nat → Bool) (isPastTail : Nat → Nat → Bool) (used : Nat)
    (lines head dropped tail : List String) : Prop where
  whole : lines = head ++ dropped ++ tail
  some : dropped ≠ []
  headCount : head.length ≤ min (lines.length / 2) 20
  tailCount : tail.length ≤ min (lines.length / 3) 10
  headFits : head ≠ [] → isPastHead (used + brokenLength head) = false
  tailFits : tail ≠ [] → ∃ length, joinedLength tail ≤ length ∧
    isPastTail (used + brokenLength head) length = false
  headEnds : head.length < min (lines.length / 2) 20 → ∀ next ∈ dropped.head?,
    isPastHead (used + brokenLength head + next.length + 1) = true
  tailEnds : tail.length < min (lines.length / 3) 10 → ∀ previous ∈ dropped.getLast?,
    isPastTail (used + brokenLength head) (joinedLength tail + previous.length + 1) = true

def around (head tail : List String) : String :=
  Text.join "\n" head ++ truncationMark ++ if tail = [] then "" else "\n" ++ Text.join "\n" tail

private theorem exists_middle {first last : Nat} (apart : first + last ≤ lines.length) :
    ∃ middle, lines = lines.take first ++ (middle ++ lines.drop (lines.length - last)) ∧
      middle.length = lines.length - last - first := by
  refine ⟨(lines.drop first).take (lines.length - last - first), ?_, ?_⟩
  · have place : lines.length - last = first + (lines.length - last - first) := by omega
    nth_rewrite 2 [place]
    rw [← List.drop_drop, List.take_append_drop, List.take_append_drop]
  · rw [List.length_take, List.length_drop]
    omega

theorem headAndTail_spec (isPastHead : Nat → Bool) (isPastTail : Nat → Nat → Bool) (used : Nat)
    (some : lines ≠ []) :
    ∃ head dropped tail, headAndTail isPastHead isPastTail used lines = around head tail ∧
      Truncates isPastHead isPastTail used lines head dropped tail := by
  have count := List.length_pos_of_ne_nil some
  obtain ⟨first, firstCount⟩ : ∃ first, first = min (lines.length / 2) 20 := ⟨_, rfl⟩
  obtain ⟨last, lastCount⟩ : ∃ last, last = min (lines.length / 3) 10 := ⟨_, rfl⟩
  obtain ⟨after, whole, headFits, headEnds⟩ := headLines_spec isPastHead used (lines.take first)
  obtain ⟨before, whole', tailFits, tailEnds⟩ := tailLines_spec
    (isPastTail (used + brokenLength (headLines isPastHead used (lines.take first)))) []
    (lines.drop (lines.length - last)).reverse (fun absurd => (absurd rfl).elim)
  generalize shown : headLines isPastHead used (lines.take first) = head at *
  generalize shown' : tailLines (isPastTail (used + brokenLength head)) []
    (lines.drop (lines.length - last)).reverse = tail at *
  rw [List.reverse_reverse, List.append_nil] at whole'
  have headLength := congrArg List.length whole
  have tailLength := congrArg List.length whole'
  rw [List.length_take, List.length_append] at headLength
  rw [List.length_drop, List.length_append] at tailLength
  -- The lines between those that the head and the tail are taken from.
  obtain ⟨middle, parts, middleLength⟩ := exists_middle (by omega : first + last ≤ lines.length)
  refine ⟨head, after ++ middle ++ before, tail, ?_, ?_, ?_, ?_, ?_, headFits, tailFits, ?_, ?_⟩
  · rw [headAndTail, ← firstCount, ← lastCount, shown, shown', around]
    cases tail <;> simp [String.append_assoc]
  · rw [whole, whole'] at parts
    simpa using parts
  · intro none
    rw [List.append_eq_nil_iff, List.append_eq_nil_iff] at none
    rw [none.1.2, List.length_nil] at middleLength
    omega
  · omega
  · omega
  · intro fewer next isNext
    apply headEnds next
    have more : after ≠ [] := by
      rintro rfl
      rw [List.length_nil] at headLength
      omega
    rwa [List.append_assoc, List.head?_append_of_ne_nil _ more] at isNext
  · intro fewer previous isPrevious
    apply tailEnds previous
    have more : before ≠ [] := by
      rintro rfl
      rw [List.length_nil] at tailLength
      omega
    rwa [List.getLast?_append_of_ne_nil _ more] at isPrevious

/-! ## Excerpts within their limit -/

theorem length_codePart_le (used : Nat) (content : String) (enough : 81 ≤ budget) :
    ((codePart budget used content).length : Int) ≤ budget + 9 := by
  rw [codePart]
  split
  · omega
  dsimp only
  split
  · rename_i many
    obtain ⟨head, dropped, tail, same, truncates⟩ := headAndTail_spec
      (fun length => exceedsShare length budget) (exceedsRest budget) used
      (List.ne_nil_of_length_pos (by omega : 0 < (Text.lines content).length))
    have headLength : joinedLength head ≤ brokenLength head := Nat.sub_le _ _
    rw [same, around, String.length_append, String.length_append, length_join_lines,
      show truncationMark.length = 26 from rfl]
    split
    · rw [show String.length "" = 0 from rfl]
      rcases eq_or_ne head [] with rfl | some
      · rw [show joinedLength [] = 0 from rfl]
        omega
      · have within := length_le_of_within_share (by omega) (truncates.headFits some)
        omega
    · rename_i some
      obtain ⟨length, fits, within⟩ := truncates.tailFits some
      rw [exceedsRest, decide_eq_false_iff_not] at within
      rw [String.length_append, length_join_lines, show String.length "\n" = 1 from rfl]
      omega
  · have cut : (Text.slice content 0 budget).length ≤ budget.toNat := by
      rw [Text.slice, Text.sliceChars, String.length_ofList, List.length_drop, List.length_take,
        Text.sliceBound, if_neg (by omega)]
      omega
    rw [String.length_append, show String.length "..." = 3 from rfl]
    omega

theorem length_docstringPart_le {docstring : Option String} {part : String}
    (isPart : docstringPart docstring = some part) : part.length ≤ 309 := by
  unfold docstringPart at isPart
  split at isPart
  · rename_i text
    split at isPart
    · cases isPart
    · obtain rfl := Option.some.inj isPart
      have short : (Text.abbreviate text 300).length ≤ 303 := by
        rw [Text.abbreviate]
        split
        · rw [String.length_append, Text.take, String.length_ofList, List.length_take,
            show String.length "..." = 3 from rfl]
          omega
        · omega
      rw [String.length_append, String.length_append, show String.length "\"\"\"" = 3 from rfl]
      omega
  · cases isPart

theorem ofChunk_eq (limit : Int) (chunk : Chunk) :
    let docstring := docstringPart chunk.docstring
    let used := (docstring.map String.length).getD 0
    ofChunk limit chunk =
      Text.join "\n" (docstring.toList ++ [codePart (limit - used - 10) used chunk.content]) := by
  dsimp only
  rw [ofChunk]
  cases docstringPart chunk.docstring <;> simp [ofParts]

end Excerpt

/-- No excerpt is longer than its limit, unless that is below four hundred. -/
theorem excerpt_within_limit (chunk : Chunk) :
    (∀ limit : Int, 400 ≤ limit → ((Excerpt.ofChunk limit chunk).length : Int) ≤ limit) ∧
      chunk.excerpt.length ≤ 6000 := by
  have within : ∀ limit : Int, 400 ≤ limit →
      ((Excerpt.ofChunk limit chunk).length : Int) ≤ limit := by
    intro limit enough
    rw [Excerpt.ofChunk_eq]
    cases isPart : Excerpt.docstringPart chunk.docstring with
    | none =>
      have code := Excerpt.length_codePart_le 0 chunk.content (by omega : 81 ≤ limit - 0 - 10)
      simp only [Option.toList_none, List.nil_append, Text.join_singleton, Option.map_none,
        Option.getD_none, Int.natCast_zero]
      omega
    | some part =>
      have short := Excerpt.length_docstringPart_le isPart
      have code := Excerpt.length_codePart_le part.length chunk.content
        (by omega : 81 ≤ limit - part.length - 10)
      simp only [Option.toList_some, List.singleton_append, Text.join_cons_cons,
        Text.join_singleton, Option.map_some, Option.getD_some, String.length_append,
        show String.length "\n" = 1 from rfl]
      omega
  refine ⟨within, ?_⟩
  have standard := within Excerpt.standardLimit (by decide)
  exact Int.ofNat_le.mp standard

def longChunk : Chunk where
  content := Text.join "\n" (List.replicate 100 "    pass")
  kind := "function"
  startLine := 1
  endLine := 100
  filePath := "/p/a.py"
  relativePath := "a.py"
  folders := []
  docstring := some "Nothing."

private theorem length_longChunk : longChunk.content.length = 899 := by
  rw [longChunk, Excerpt.length_join_lines]
  decide +kernel

theorem long_chunk_within_limit :
    400 < longChunk.content.length ∧ ((Excerpt.ofChunk 400 longChunk).length : Int) ≤ 400 :=
  ⟨by rw [length_longChunk]; decide, (excerpt_within_limit longChunk).1 400 (by decide)⟩

/-- The code of an excerpt is the whole content if that fits the budget.  If it does not, a
content of more than three lines is truncated between two of its lines, and any other after
a character. -/
theorem excerpt_keeps_head_and_tail (limit : Int) (chunk : Chunk) :
    let docstring := Excerpt.docstringPart chunk.docstring
    let used := (docstring.map String.length).getD 0
    let budget := limit - used - 10
    let lines := Text.lines chunk.content
    ∃ code, Excerpt.ofChunk limit chunk = Text.join "\n" (docstring.toList ++ [code]) ∧
      ((chunk.content.length : Int) ≤ budget → code = chunk.content) ∧
      (budget < chunk.content.length → lines.length ≤ 3 →
        code = Text.slice chunk.content 0 budget ++ "...") ∧
      (budget < chunk.content.length → 4 ≤ lines.length → ∃ head dropped tail,
        code = Excerpt.around head tail ∧
        Excerpt.Truncates (fun length => Excerpt.exceedsShare length budget)
          (Excerpt.exceedsRest budget) used lines head dropped tail) := by
  intro docstring used budget lines
  refine ⟨_, Excerpt.ofChunk_eq limit chunk, ?_, ?_, ?_⟩
  · intro fits
    rw [Excerpt.codePart, if_pos fits]
  · intro tooLong few
    rw [Excerpt.codePart, if_neg (Int.not_le.mpr tooLong)]
    exact if_neg (Nat.not_lt.mpr few)
  · intro tooLong many
    obtain ⟨head, dropped, tail, same, truncates⟩ := Excerpt.headAndTail_spec
      (fun length => Excerpt.exceedsShare length budget) (Excerpt.exceedsRest budget) used
      (List.ne_nil_of_length_pos (by omega : 0 < lines.length))
    refine ⟨head, dropped, tail, ?_, truncates⟩
    rw [Excerpt.codePart, if_neg (Int.not_le.mpr tooLong)]
    exact (if_pos many).trans same

theorem long_chunk_keeps_head_and_tail :
    (376 : Int) < longChunk.content.length ∧ (Text.lines longChunk.content).length = 100 ∧
      ∃ head dropped tail, Excerpt.ofChunk 400 longChunk = Text.join "\n"
          ((Excerpt.docstringPart longChunk.docstring).toList ++ [Excerpt.around head tail]) ∧
        Excerpt.Truncates (fun length => Excerpt.exceedsShare length 376)
          (Excerpt.exceedsRest 376) 14 (Text.lines longChunk.content) head dropped tail := by
  have tooLong : (376 : Int) < longChunk.content.length := by
    rw [length_longChunk]
    decide
  have many : (Text.lines longChunk.content).length = 100 := by
    rw [longChunk, Text.lines, Text.split, List.length_map, Text.join, String.toList_ofList]
    decide +kernel
  have used : ((Excerpt.docstringPart longChunk.docstring).map String.length).getD 0 = 14 := by
    decide +kernel
  obtain ⟨code, whole, -, -, truncated⟩ := excerpt_keeps_head_and_tail 400 longChunk
  rw [used] at truncated
  obtain ⟨head, dropped, tail, rfl, truncates⟩ := truncated tooLong (by omega)
  exact ⟨tooLong, many, head, dropped, tail, whole, truncates⟩

end CodeAtlas
