import CodeAtlas.Proofs.Paths
import CodeAtlas.Search.Intent
import CodeAtlas.Text.Blank

/-!
# Tokens of words

Blanks and underscores divide a text for every step on the way to its tokens: lowering does
not look across them for the end of a word, and neither humps nor runs of word characters
reach across them.  So the tokens of a text are the tokens of its words, one after the other,
and those of an identifier are the tokens of its parts.
-/

namespace CodeAtlas

namespace Text

variable {divider : Char}

/-- What is made part by part, is made from the pieces between the separators. -/
theorem eq_flatMap_pieces {β : Type} (separates : Char → Bool) (made : List Char → List β)
    (divides : ∀ front separator back, separates separator = true →
      made (front ++ separator :: back) = made front ++ made back) (characters : List Char) :
    made characters = (pieces separates characters).flatMap made := by
  by_cases divided : ∃ separator ∈ characters, separates separator = true
  · obtain ⟨separator, member, here⟩ := divided
    obtain ⟨front, back, rfl⟩ := List.append_of_mem member
    have first := eq_flatMap_pieces separates made divides front
    have second := eq_flatMap_pieces separates made divides back
    rw [pieces_eq] at first second ⊢
    rw [List.splitOnP_append_cons front back here, List.flatMap_append,
      divides front separator back here, first, second]
  · have none : ∀ character ∈ characters, separates character = false := by simpa using divided
    rw [pieces_of_none none, List.flatMap_singleton]
termination_by characters.length

theorem eq_flatMap_split {β : Type} (separator : Char) {made : String → List β}
    (divides : ∀ front back, made (String.ofList (front ++ separator :: back)) =
      made (String.ofList front) ++ made (String.ofList back)) (text : String) :
    made text = (split text separator).flatMap made := by
  have divided := eq_flatMap_pieces (· = separator) (fun part => made (String.ofList part))
    (fun front other back here => by rw [of_decide_eq_true here, divides]) text.toList
  rwa [String.ofList_toList, ← List.flatMap_map] at divided

/-- The code points of a class, one by one. -/
theorem CodePoints.mem_of_has {ranges : CodePoints} {point : Nat} (has : ranges.has point = true) :
    point ∈ ranges.flatMap fun range => List.range' range.1 (range.2 + 1 - range.1) := by
  induction ranges with
  | nil => cases has
  | cons range rest ih =>
    rw [List.flatMap_cons, List.mem_append, List.mem_range'_1]
    simp only [CodePoints.has] at has
    split at has
    · cases has
    · split at has
      · left
        omega
      · exact .inr (ih has)

/-- A character that lowering keeps, and that ends a word for the letters around it. -/
structure Divides (divider : Char) : Prop where
  notSkipped : caseIgnorablePoints.hasChar divider = false
  notCased : casedPoints.hasChar divider = false
  kept : lowerChar divider = divider

namespace Divides

variable (divides : Divides divider)

include divides

theorem meetsCased (front back : List Char) :
    Text.meetsCased (front ++ divider :: back) = Text.meetsCased front := by
  unfold Text.meetsCased
  rw [List.dropWhile_append]
  cases front.dropWhile caseIgnorablePoints.hasChar with
  | nil => simp [divides.notSkipped, divides.notCased]
  | cons character rest => simp

theorem lowerChars_before (front before characters : List Char) :
    lowerChars (front ++ divider :: before) characters = lowerChars front characters := by
  induction characters generalizing front with
  | nil => rfl
  | cons character rest ih =>
    rw [lowerChars, lowerChars, divides.meetsCased, ← List.cons_append, ih]

theorem lowerChars (before front back : List Char) :
    Text.lowerChars before (front ++ divider :: back) =
      Text.lowerChars before front ++ divider :: Text.lowerChars [] back := by
  induction front generalizing before with
  | nil =>
    have noSigma : divider ≠ 'Σ' := by
      rintro rfl
      exact absurd divides.notCased (by decide +kernel)
    have noDotted : divider ≠ 'İ' := by
      rintro rfl
      exact absurd divides.notCased (by decide +kernel)
    have step : Text.lowerChars before (divider :: back) =
        [divider] ++ Text.lowerChars ([] ++ divider :: before) back := by
      rw [Text.lowerChars, if_neg noSigma, if_neg noDotted, divides.kept, List.nil_append]
    rw [List.nil_append, step, divides.lowerChars_before]
    rfl
  | cons character front ih =>
    rw [List.cons_append, Text.lowerChars, Text.lowerChars, divides.meetsCased, ih,
      List.append_assoc]

end Divides

end Text

namespace Token

variable {divider : Char}

theorem splitHumps_divide (notSmall : isSmall divider = false)
    (notCapital : isCapital divider = false) (front back : List Char) :
    splitHumps (front ++ divider :: back) = splitHumps front ++ divider :: splitHumps back := by
  have first : splitHumps (divider :: back) = divider :: splitHumps back := by
    cases back <;> simp [splitHumps, notSmall]
  induction front with
  | nil => exact first
  | cons character front ih =>
    cases front with
    | nil => simp [splitHumps, notCapital, first]
    | cons next front =>
      rw [List.cons_append, List.cons_append, splitHumps, splitHumps, ← List.cons_append, ih]
      split <;> rfl

/-- A character between the words of a text or the parts of an identifier. -/
def isDivider (character : Char) : Bool :=
  Text.isBlank character || character = '_'

/-- What happens to a divider on the way to the tokens: in the end it is no word character. -/
structure Separates (divider : Char) : Prop where
  divides : Text.Divides divider
  notSmall : isSmall divider = false
  notCapital : isCapital divider = false
  spaced : ∃ space, splitJoints [divider] = [space] ∧ Text.Divides space ∧
    Text.isWordChar space = false

theorem separates_of_isDivider (here : isDivider divider = true) : Separates divider := by
  have each : ('_' :: (Text.blankPoints.flatMap fun range =>
      List.range' range.1 (range.2 + 1 - range.1)).map Char.ofNat).all (fun divider =>
      (Text.caseIgnorablePoints.hasChar divider = false ∧
        Text.casedPoints.hasChar divider = false ∧ Text.lowerChar divider = divider) ∧
      isSmall divider = false ∧ isCapital divider = false ∧
      (splitJoints [divider] = [' '] ∨ splitJoints [divider] = [divider] ∧
        Text.isWordChar divider = false)) = true := by
    decide +kernel
  obtain ⟨⟨notSkipped, notCased, kept⟩, notSmall, notCapital, spaced⟩ :=
    of_decide_eq_true (List.all_eq_true.mp each divider (by
      rcases Bool.or_eq_true _ _ ▸ here with blank | joint
      · have known := List.mem_map_of_mem (f := Char.ofNat) (Text.CodePoints.mem_of_has blank)
        rw [Char.ofNat_toNat] at known
        exact List.mem_cons_of_mem _ known
      · simp [of_decide_eq_true joint]))
  refine ⟨⟨notSkipped, notCased, kept⟩, notSmall, notCapital, ?_⟩
  rcases spaced with isSpace | ⟨isSame, notWord⟩
  · exact ⟨' ', isSpace, ⟨by decide +kernel, by decide +kernel, by decide +kernel⟩,
      by decide +kernel⟩
  · exact ⟨divider, isSame, ⟨notSkipped, notCased, kept⟩, notWord⟩

theorem ofText_divide (here : isDivider divider = true) (front back : List Char) :
    ofText (String.ofList (front ++ divider :: back)) =
      ofText (String.ofList front) ++ ofText (String.ofList back) := by
  obtain ⟨-, notSmall, notCapital, space, isSpace, divides, notWord⟩ :=
    separates_of_isDivider here
  have spaced (left right : List Char) :
      splitJoints (left ++ divider :: right) = splitJoints left ++ space :: splitJoints right := by
    rw [List.append_cons]
    simp only [splitJoints, List.map_append] at isSpace ⊢
    rw [isSpace, List.append_assoc, List.singleton_append]
  simp only [ofText, String.toList_ofList, Text.runsOutside, Text.pieces_eq]
  rw [splitHumps_divide notSmall notCapital, spaced, divides.lowerChars,
    List.splitOnP_append_cons _ _ (by simp [notWord]), List.filter_append, List.map_append]

end Token

namespace Query

variable {divider : Char} {token : String}

theorem tokens_divide (here : Token.isDivider divider = true) (front back : List Char) :
    tokens (String.ofList (front ++ divider :: back)) =
      tokens (String.ofList front) ++ tokens (String.ofList back) := by
  simp only [tokens, Text.lower, String.toList_ofList]
  rw [(Token.separates_of_isDivider here).divides.lowerChars, Token.ofText_divide here]

/-- The tokens of a query are those of its words. -/
theorem mem_tokens (query : String) :
    token ∈ tokens query ↔ ∃ word ∈ Text.words query, token ∈ tokens word := by
  have divided := Text.eq_flatMap_pieces Text.isBlank (fun part => tokens (String.ofList part))
    (fun _ _ _ blank => tokens_divide (by simp [Token.isDivider, blank]) _ _) query.toList
  rw [String.ofList_toList] at divided
  rw [divided, List.mem_flatMap]
  simp only [Text.words, Text.runsOutside, List.mem_map, List.mem_filter]
  constructor
  · rintro ⟨piece, member, inside⟩
    refine ⟨_, ⟨piece, ⟨member, ?_⟩, rfl⟩, inside⟩
    cases piece with
    | nil => cases inside
    | cons character rest => rfl
  · rintro ⟨_, ⟨piece, ⟨member, -⟩, rfl⟩, inside⟩
    exact ⟨piece, member, inside⟩

end Query

end CodeAtlas
