import CodeAtlas.Proofs.Search.Tokens
import Mathlib.Data.List.Chain

/-!
# Tokens of tokens

Lowering is done once and for all: a small letter is no capital of another one, in any alphabet.
So a token has nothing left that could be lowered or divided, and the tokens of a text, joined
again, have themselves as tokens.
-/

namespace CodeAtlas

namespace Text

section Tables

variable {runs : List CaseRun} {ranges : CodePoints} {point : Nat}

theorem offsetOf_eq_none (apart : ∀ run ∈ runs, point < run.first ∨ run.last < point) :
    offsetOf runs point = none := by
  induction runs with
  | nil => rfl
  | cons run rest ih =>
    obtain ⟨here, later⟩ := List.forall_mem_cons.mp apart
    rw [offsetOf, ih later]
    split_ifs
    · rfl
    · omega
    · rfl

theorem isTurn_eq_false
    (apart : ∀ range ∈ ranges, point < range.1 ∨ range.2 < point ∨ (point - range.1) % 2 = 1) :
    isTurn ranges point = false := by
  induction ranges with
  | nil => rfl
  | cons range rest ih =>
    obtain ⟨here, later⟩ := List.forall_mem_cons.mp apart
    rw [isTurn, ih later]
    split_ifs
    · rfl
    · exact decide_eq_false (by omega)
    · rfl

theorem exists_run_of_offsetOf {offset : Int} (known : offsetOf runs point = some offset) :
    ∃ run ∈ runs, run.first ≤ point ∧ point ≤ run.last ∧ run.offset = offset := by
  induction runs with
  | nil => cases known
  | cons run rest ih =>
    rw [offsetOf] at known
    split_ifs at known with below inside
    · exact ⟨run, List.mem_cons_self, by omega, inside, Option.some.inj known⟩
    · obtain ⟨other, member, found⟩ := ih known
      exact ⟨other, List.mem_cons_of_mem _ member, found⟩

theorem exists_range_of_isTurn (turn : isTurn ranges point = true) :
    ∃ range ∈ ranges, range.1 ≤ point ∧ point ≤ range.2 ∧ (point - range.1) % 2 = 0 := by
  induction ranges with
  | nil => cases turn
  | cons range rest ih =>
    rw [isTurn] at turn
    split_ifs at turn with below inside
    · exact ⟨range, List.mem_cons_self, by omega, inside, of_decide_eq_true turn⟩
    · obtain ⟨other, member, found⟩ := ih turn
      exact ⟨other, List.mem_cons_of_mem _ member, found⟩

end Tables

/-- Points that no letter is lowered to: the underscore, the capital I with a dot, and all
capitals that do not take turns with their small letters. -/
def avoided : List CaseRun :=
  ⟨95, 95, 0⟩ :: ⟨304, 304, 0⟩ :: caseRuns

theorem lowerPoint_cases (point : Nat) : lowerPoint point = point ∨
    (∃ run ∈ caseRuns, run.first ≤ point ∧ point ≤ run.last ∧
      lowerPoint point = (point + run.offset).toNat) ∨
    ∃ range ∈ caseTurns, range.1 ≤ point ∧ point ≤ range.2 ∧ (point - range.1) % 2 = 0 ∧
      lowerPoint point = point + 1 := by
  unfold lowerPoint
  cases known : offsetOf caseRuns point with
  | some offset =>
    obtain ⟨run, member, low, high, rfl⟩ := exists_run_of_offsetOf known
    exact .inr (.inl ⟨run, member, low, high, rfl⟩)
  | none =>
    cases turn : isTurn caseTurns point with
    | false => exact .inl rfl
    | true =>
      obtain ⟨range, member, low, high, even⟩ := exists_range_of_isTurn turn
      exact .inr (.inr ⟨range, member, low, high, even, rfl⟩)

/-- A point that is changed by lowering is changed to one that is not. -/
theorem lowerPoint_eq_or_apart (point : Nat) : lowerPoint point = point ∨
    (∀ run ∈ avoided, lowerPoint point < run.first ∨ run.last < lowerPoint point) ∧
      isTurn caseTurns (lowerPoint point) = false := by
  -- The small letters of a run, and those of a range of turns, are apart from all capitals.
  have runsApart : ∀ run ∈ caseRuns, ∀ other ∈ avoided,
      (run.last + run.offset).toNat < other.first ∨
        other.last < (run.first + run.offset).toNat := by
    decide +kernel
  have runsTurns : ∀ run ∈ caseRuns, ∀ range ∈ caseTurns,
      (run.last + run.offset).toNat < range.1 ∨ range.2 < (run.first + run.offset).toNat ∨
        run.first = run.last ∧ ((run.first + run.offset).toNat - range.1) % 2 = 1 := by
    decide +kernel
  have turnsApart : ∀ range ∈ caseTurns, ∀ run ∈ avoided,
      range.2 + 1 < run.first ∨ run.last < range.1 + 1 := by
    decide +kernel
  have turnsTurns : ∀ range ∈ caseTurns, ∀ other ∈ caseTurns,
      other = range ∨ range.2 + 1 < other.1 ∨ other.2 < range.1 + 1 := by
    decide +kernel
  rcases lowerPoint_cases point with same | ⟨run, member, low, high, lowered⟩ |
    ⟨range, member, low, high, even, lowered⟩
  · exact .inl same
  · rw [lowered]
    refine .inr ⟨fun other inside => ?_, isTurn_eq_false fun range inside => ?_⟩
    · have apart := runsApart run member other inside
      omega
    · have apart := runsTurns run member range inside
      omega
  · rw [lowered]
    refine .inr ⟨fun run inside => ?_, isTurn_eq_false fun other inside => ?_⟩
    · have apart := turnsApart range member run inside
      omega
    · rcases turnsTurns range member other inside with rfl | apart
      · omega
      · omega

/-- A character that lowering leaves as it is, wherever it stands. -/
structure Settled (character : Char) : Prop where
  kept : lowerChar character = character
  notDotted : character ≠ 'İ'

namespace Settled

variable {character : Char}

theorem notSigma (settled : Settled character) : character ≠ 'Σ' := by
  rintro rfl
  exact absurd settled.kept (by decide +kernel)

theorem notCapital (settled : Settled character) : Token.isCapital character = false := by
  have each : ∀ point ≤ 90, 65 ≤ point → lowerChar (Char.ofNat point) ≠ Char.ofNat point := by
    decide +kernel
  rw [Bool.eq_false_iff]
  intro capital
  have bounds : 65 ≤ character.toNat ∧ character.toNat ≤ 90 := by
    simpa [Token.isCapital, Char.le_def, UInt32.le_iff_toNat_le] using capital
  refine each character.toNat bounds.2 bounds.1 ?_
  rw [Char.ofNat_toNat, settled.kept]

end Settled

/-- Lowering settles every character, and makes no underscore. -/
theorem settled_lowerChar {character : Char} (notDotted : character ≠ 'İ') :
    Settled (lowerChar character) ∧ (lowerChar character = '_' → character = '_') := by
  rcases lowerPoint_eq_or_apart character.toNat with same | ⟨apart, noTurn⟩
  · have kept : lowerChar character = character := by
      rw [lowerChar, same, Char.ofNat_toNat]
    rw [kept]
    exact ⟨⟨kept, notDotted⟩, id⟩
  · generalize lowered : lowerPoint character.toNat = point at apart noTurn
    have fixed : lowerPoint point = point := by
      have noRun : offsetOf caseRuns point = none := offsetOf_eq_none fun run member =>
        apart run (List.mem_cons_of_mem _ (List.mem_cons_of_mem _ member))
      simp only [lowerPoint, noRun, noTurn, Bool.false_eq_true, if_false]
    -- What is no code point stands for the null character.
    have read : (Char.ofNat point).toNat = point ∨ (Char.ofNat point).toNat = 0 := by
      by_cases valid : point.isValidChar
      · exact .inl (congrArg Char.toNat (dif_pos valid))
      · exact .inr (congrArg Char.toNat (dif_neg valid))
    have other : (Char.ofNat point).toNat ≠ 95 ∧ (Char.ofNat point).toNat ≠ 304 := by
      have line := apart _ List.mem_cons_self
      have dotted := apart _ (List.mem_cons_of_mem _ List.mem_cons_self)
      dsimp only at line dotted
      omega
    rw [show lowerChar character = Char.ofNat point from congrArg Char.ofNat lowered]
    refine ⟨⟨?_, fun same => other.2 (same ▸ rfl)⟩, fun same => (other.1 (same ▸ rfl)).elim⟩
    rcases read with same | null
    · rw [lowerChar, same, fixed]
    · rw [← Char.ofNat_toNat (Char.ofNat point), null]
      decide +kernel

theorem settled_lowerChars (before characters : List Char) :
    ∀ character ∈ lowerChars before characters,
      Settled character ∧ (character = '_' → '_' ∈ characters) := by
  induction characters generalizing before with
  | nil => simp [lowerChars]
  | cons first rest ih =>
    intro character member
    rw [lowerChars, List.mem_append] at member
    rcases member with here | later
    · split_ifs at here with sigma final dotted
      · rw [List.mem_singleton.mp here]
        exact ⟨⟨by decide +kernel, by decide⟩, fun same => absurd same (by decide)⟩
      · rw [List.mem_singleton.mp here]
        exact ⟨⟨by decide +kernel, by decide⟩, fun same => absurd same (by decide)⟩
      · rcases List.mem_pair.mp here with rfl | rfl
        · exact ⟨⟨by decide +kernel, by decide⟩, fun same => absurd same (by decide)⟩
        · exact ⟨⟨by decide +kernel, by decide⟩, fun same => absurd same (by decide)⟩
      · rw [List.mem_singleton.mp here]
        obtain ⟨settled, made⟩ := settled_lowerChar dotted
        exact ⟨settled, fun same => made same ▸ List.mem_cons_self⟩
    · obtain ⟨settled, made⟩ := ih _ character later
      exact ⟨settled, fun same => List.mem_cons_of_mem _ (made same)⟩

theorem lowerChars_of_settled (before : List Char) {characters : List Char}
    (settled : ∀ character ∈ characters, Settled character) :
    lowerChars before characters = characters := by
  induction characters generalizing before with
  | nil => rfl
  | cons first rest ih =>
    obtain ⟨here, later⟩ := List.forall_mem_cons.mp settled
    rw [lowerChars, if_neg here.notSigma, if_neg here.notDotted, here.kept, ih _ later]
    rfl

theorem runsOutside_of_words {characters : List Char} (some : characters ≠ [])
    (words : ∀ character ∈ characters, isWordChar character = true) :
    runsOutside (fun character => !isWordChar character) characters = [characters] := by
  rw [runsOutside, pieces_of_none (fun character member => by simp [words character member]),
    List.filter_cons_of_pos (by simpa using some)]
  rfl

/-- No blank is a word character. -/
theorem isBlank_eq_false {character : Char} (isWord : isWordChar character = true) :
    isBlank character = false := by
  have each : ∀ point ∈ blankPoints.flatMap fun range =>
      List.range' range.1 (range.2 + 1 - range.1), isWordChar (Char.ofNat point) = false := by
    decide +kernel
  rw [Bool.eq_false_iff]
  intro blank
  have other := each _ (CodePoints.mem_of_has blank)
  rw [Char.ofNat_toNat, isWord] at other
  cases other

end Text

namespace Token

theorem splitHumps_of_isChain {characters : List Char}
    (level : characters.IsChain fun character next =>
      ¬(isSmall character = true ∧ isCapital next = true)) :
    splitHumps characters = characters := by
  induction level with
  | nil => rfl
  | singleton character => rfl
  | cons_cons apart _ ih => rw [splitHumps, ih, if_neg (by simpa using apart)]

/-- A character of which tokens are made. -/
structure IsClean (character : Char) : Prop where
  settled : Text.Settled character
  isWord : Text.isWordChar character = true
  notLine : character ≠ '_'

theorem IsClean.notDash {character : Char} (clean : IsClean character) : character ≠ '-' := by
  rintro rfl
  exact absurd clean.isWord (by decide +kernel)

theorem clean_of_mem_ofText {text token : String} (member : token ∈ ofText text) :
    token ≠ "" ∧ ∀ character ∈ token.toList, IsClean character := by
  obtain ⟨run, inside, rfl⟩ := List.mem_map.mp member
  obtain ⟨isPiece, filled⟩ := List.mem_filter.mp inside
  refine ⟨by simpa using filled, fun character here => ?_⟩
  rw [String.toList_ofList] at here
  obtain ⟨lowered, isWord⟩ := Text.of_mem_pieces isPiece character here
  obtain ⟨settled, made⟩ := Text.settled_lowerChars [] _ character lowered
  refine ⟨settled, by simpa using isWord, fun same => ?_⟩
  -- Underscores are gone before anything is lowered.
  obtain ⟨joint, -, line⟩ := List.mem_map.mp (made same)
  split_ifs at line with isJoint
  · exact absurd line (by decide)
  · simp [line] at isJoint

/-- What is made of such characters is a single token. -/
theorem ofText_of_clean {token : String} (some : token ≠ "")
    (clean : ∀ character ∈ token.toList, IsClean character) : ofText token = [token] := by
  have level : splitHumps token.toList = token.toList :=
    splitHumps_of_isChain (List.pairwise_of_forall_mem_list fun _ _ next member => by
      simp [(clean next member).settled.notCapital]).isChain
  have whole : splitJoints token.toList = token.toList := by
    refine (List.map_congr_left fun character member => ?_).trans (List.map_id _)
    simp [(clean character member).notLine, (clean character member).notDash]
  rw [ofText, level, whole, Text.lowerChars_of_settled _ fun c member => (clean c member).settled,
    Text.runsOutside_of_words (by simpa using some) fun c member => (clean c member).isWord]
  simp

end Token

/-- The tokens of a text are not empty and made of word characters without underscores, hyphens,
blanks and capitals.  Joined by spaces, they have themselves as tokens. -/
theorem tokens_are_clean_and_settled (text : String) :
    (∀ token ∈ Token.ofText text, token ≠ "" ∧ ∀ character ∈ token.toList,
      Text.isWordChar character = true ∧ character ≠ '_' ∧ character ≠ '-' ∧
        Text.isBlank character = false ∧ Token.isCapital character = false) ∧
    Token.ofText (Text.join " " (Token.ofText text)) = Token.ofText text := by
  constructor
  · intro token member
    obtain ⟨some, clean⟩ := Token.clean_of_mem_ofText member
    refine ⟨some, fun character here => ?_⟩
    obtain ⟨settled, isWord, notLine⟩ := clean character here
    exact ⟨isWord, notLine, (clean character here).notDash, Text.isBlank_eq_false isWord,
      settled.notCapital⟩
  · have each : ∀ token ∈ Token.ofText text, Token.ofText token = [token] ∧ ' ' ∉ token.toList := by
      intro token member
      obtain ⟨some, clean⟩ := Token.clean_of_mem_ofText member
      refine ⟨Token.ofText_of_clean some clean, fun space => ?_⟩
      exact absurd (clean ' ' space).isWord (by decide +kernel)
    generalize Token.ofText text = tokens at each
    by_cases none : tokens = []
    · rw [none]
      decide +kernel
    · have told := @Text.split_join " " ' ' rfl tokens none fun token member =>
        (each token member).2
      rw [Text.eq_flatMap_split ' ' (Token.ofText_divide rfl), told,
        List.flatMap_congr fun token member => (each token member).1, List.flatMap_singleton']

end CodeAtlas
