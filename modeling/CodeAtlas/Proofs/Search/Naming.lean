import CodeAtlas.Proofs.Search.Settled
import CodeAtlas.Search.Ranking

/-!
# Names written in a query

A query is lowered before it is divided into tokens, and a name after.  So a part of a name
in which a small letter meets a capital is one token of the query and several of the name.
A name that stands in the query is boosted if one of its parts has no such place; otherwise
it is boosted only if the query is the name, or by what happens to be shared.
-/

namespace CodeAtlas

/-- Letters and digits of ASCII, with single underscores inside. -/
def IsIdentifier (name : String) : Prop :=
  ∀ part ∈ Text.split name '_', part ≠ "" ∧ ∀ character ∈ part.toList, character.isAlphanum = true

instance (name : String) : Decidable (IsIdentifier name) :=
  decidable_of_iff ((Text.split name '_').all fun part =>
    part != "" && part.toList.all Char.isAlphanum) (by simp [IsIdentifier])

/-- A small letter is nowhere followed by a capital. -/
def HasNoHump (part : String) : Prop :=
  part.toList.IsChain fun character next =>
    ¬(Token.isSmall character = true ∧ Token.isCapital next = true)

namespace Text

/-- What the steps to a token do with a letter or a digit. -/
structure Plain (character : Char) : Prop where
  notSpecial : character ≠ 'Σ' ∧ character ≠ 'İ'
  notJoint : character ≠ '_' ∧ character ≠ '-'
  isWord : isWordChar character = true
  lowered : (lowerChar character).isAlphanum = true

/-- The letters and digits are among the 128 characters of ASCII. -/
theorem plain_of_isAlphanum {character : Char} (alphanum : character.isAlphanum = true) :
    Plain character := by
  have each : ((List.range 128).map Char.ofNat).all (fun character => character.isAlphanum = true →
      (character ≠ 'Σ' ∧ character ≠ 'İ') ∧ (character ≠ '_' ∧ character ≠ '-') ∧
      isWordChar character = true ∧ (lowerChar character).isAlphanum = true) = true := by
    decide +kernel
  have small : character.toNat < 128 := by
    change (decide ('A'.val ≤ character.val ∧ character.val ≤ 'Z'.val) ||
      decide ('a'.val ≤ character.val) && decide (character.val ≤ 'z'.val) ||
      decide ('0'.val ≤ character.val) && decide (character.val ≤ '9'.val)) = true at alphanum
    simp [UInt32.le_iff_toNat_le] at alphanum
    omega
  have ascii : character ∈ (List.range 128).map Char.ofNat :=
    List.mem_map.mpr ⟨character.toNat, List.mem_range.mpr (by omega), Char.ofNat_toNat _⟩
  obtain ⟨special, joint, isWord, lowered⟩ :=
    of_decide_eq_true (List.all_eq_true.mp each character ascii) alphanum
  exact ⟨special, joint, isWord, lowered⟩

variable {characters : List Char}
  (plain : ∀ character ∈ characters, character.isAlphanum = true)

include plain

theorem lowerChars_of_alphanum (before : List Char) :
    lowerChars before characters = characters.map lowerChar := by
  induction characters generalizing before with
  | nil => rfl
  | cons character rest ih =>
    obtain ⟨here, later⟩ := List.forall_mem_cons.mp plain
    have ordinary := (plain_of_isAlphanum here).notSpecial
    rw [lowerChars, if_neg ordinary.1, if_neg ordinary.2, ih later]
    rfl

theorem alphanum_map_lowerChar :
    ∀ character ∈ characters.map lowerChar, character.isAlphanum = true :=
  List.forall_mem_map.mpr fun character member =>
    (plain_of_isAlphanum (plain character member)).lowered

theorem splitJoints_of_alphanum : Token.splitJoints characters = characters := by
  refine (List.map_congr_left fun character member => ?_).trans (List.map_id characters)
  have ordinary := (plain_of_isAlphanum (plain character member)).notJoint
  simp [ordinary]

end Text

namespace Token

/-- A part without humps is a single token of a name. -/
theorem ofText_of_hasNoHump {part : String} (some : part ≠ "")
    (plain : ∀ character ∈ part.toList, character.isAlphanum = true) (level : HasNoHump part) :
    ofText part = [Text.lower part] := by
  rw [ofText, splitHumps_of_isChain level, Text.splitJoints_of_alphanum plain, Text.lower,
    Text.lowerChars_of_alphanum plain, Text.runsOutside_of_words (by simpa using some)
      (fun character member => (Text.plain_of_isAlphanum
        (Text.alphanum_map_lowerChar plain character member)).isWord)]
  rfl

end Token

/-- Every part is a single token of a query. -/
theorem Query.tokens_of_alphanum {part : String} (some : part ≠ "")
    (plain : ∀ character ∈ part.toList, character.isAlphanum = true) :
    Query.tokens part = [Text.lower part] := by
  have lowered : (Text.lower part).toList = part.toList.map Text.lowerChar := by
    rw [Text.lower, Text.lowerChars_of_alphanum plain, String.toList_ofList]
  refine Token.ofText_of_clean (fun empty => some ?_) (fun character member => ?_)
  · rw [empty, eq_comm, String.toList_empty, List.map_eq_nil_iff] at lowered
    exact String.toList_eq_nil_iff.mp lowered
  · rw [lowered] at member
    have known := Text.plain_of_isAlphanum (Text.alphanum_map_lowerChar plain character member)
    obtain ⟨capital, inside, rfl⟩ := List.mem_map.mp member
    have notDotted := (Text.plain_of_isAlphanum (plain capital inside)).notSpecial.2
    exact ⟨(Text.settled_lowerChar notDotted).1, known.isWord, known.notJoint.1⟩

/-- Of a name, a query has the lowered parts as tokens. -/
theorem Query.mem_tokens_of_isIdentifier {name token : String} (identifier : IsIdentifier name) :
    token ∈ Query.tokens name ↔ ∃ part ∈ Text.split name '_', token = Text.lower part := by
  rw [Text.eq_flatMap_split '_' (Query.tokens_divide rfl) name, List.mem_flatMap]
  refine exists_congr fun part => and_congr_right fun member => ?_
  rw [Query.tokens_of_alphanum (identifier part member).1 (identifier part member).2,
    List.mem_singleton]

namespace Ranking

theorem one_lt_overlapBoost_iff (overlap total : Nat) :
    (1.0 : Float) < overlapBoost overlap total ↔ overlap ≠ 0 := by
  unfold overlapBoost
  by_cases none : overlap = 0
  · rw [if_pos none]
    exact iff_of_false (by decide +kernel) (not_not.mpr none)
  · rw [if_neg none]
    refine iff_of_true ?_ none
    split_ifs <;> decide +kernel

theorem one_lt_nameBoost_iff {query name : String} (tokens : List String) (some : name ≠ "") :
    (1.0 : Float) < nameBoost query tokens (.some name) ↔
      Text.lower query = Text.lower name ∨ ∃ token ∈ tokens, token ∈ Token.ofText name := by
  have shared : Token.shared tokens (Token.ofText name) ≠ 0 ↔
      ∃ token ∈ tokens, token ∈ Token.ofText name := by
    simp [Token.shared, List.filter_eq_nil_iff]
  rw [nameBoost, if_neg (by simpa using some)]
  split_ifs with same
  · exact iff_of_true (by decide +kernel) (.inl (eq_of_beq same))
  · rw [one_lt_overlapBoost_iff, shared, or_iff_right (by simpa using same)]

/-- A name that is a word of the query is boosted if one of its parts has no hump.  In general
it is boosted if the query is the name, a part is a token of the name, or another word shares a
token with it. -/
theorem written_name_boosted_unless_humped {query name : String} (identifier : IsIdentifier name)
    (written : name ∈ Text.words query) :
    ((∃ part ∈ Text.split name '_', HasNoHump part) →
      (1.0 : Float) < nameBoost query (Query.tokens query) (some name)) ∧
    ((1.0 : Float) < nameBoost query (Query.tokens query) (some name) ↔
      Text.lower query = Text.lower name ∨
      (∃ part ∈ Text.split name '_', Text.lower part ∈ Token.ofText name) ∨
      ∃ word ∈ Text.words query, word ≠ name ∧
        ∃ token ∈ Query.tokens word, token ∈ Token.ofText name) := by
  have named : name ≠ "" := by
    rintro rfl
    exact (identifier "" (by decide)).1 rfl
  have shared : (∃ token ∈ Query.tokens query, token ∈ Token.ofText name) ↔
      (∃ part ∈ Text.split name '_', Text.lower part ∈ Token.ofText name) ∨
      ∃ word ∈ Text.words query, word ≠ name ∧
        ∃ token ∈ Query.tokens word, token ∈ Token.ofText name := by
    constructor
    · rintro ⟨token, known, shared⟩
      obtain ⟨word, member, inside⟩ := (Query.mem_tokens query).mp known
      rcases eq_or_ne word name with rfl | other
      · obtain ⟨part, isPart, rfl⟩ := (Query.mem_tokens_of_isIdentifier identifier).mp inside
        exact .inl ⟨part, isPart, shared⟩
      · exact .inr ⟨word, member, other, token, inside, shared⟩
    · rintro (⟨part, isPart, shared⟩ | ⟨word, member, -, token, inside, shared⟩)
      · exact ⟨_, (Query.mem_tokens query).mpr ⟨name, written,
          (Query.mem_tokens_of_isIdentifier identifier).mpr ⟨part, isPart, rfl⟩⟩, shared⟩
      · exact ⟨token, (Query.mem_tokens query).mpr ⟨word, member, inside⟩, shared⟩
  rw [one_lt_nameBoost_iff _ named, shared]
  refine ⟨?_, Iff.rfl⟩
  rintro ⟨part, isPart, level⟩
  refine .inr (.inl ⟨part, isPart, ?_⟩)
  rw [Text.eq_flatMap_split '_' (Token.ofText_divide rfl) name, List.mem_flatMap]
  refine ⟨part, isPart, ?_⟩
  rw [Token.ofText_of_hasNoHump (identifier part isPart).1 (identifier part isPart).2 level]
  exact List.mem_singleton_self _

/-- A name whose first part has no hump. -/
theorem parted_name_is_boosted :
    IsIdentifier "parse_FooBar" ∧ "parse_FooBar" ∈ Text.words "where is parse_FooBar used" ∧
      (1.0 : Float) < nameBoost "where is parse_FooBar used"
        (Query.tokens "where is parse_FooBar used") (some "parse_FooBar") := by
  have identifier : IsIdentifier "parse_FooBar" := by decide +kernel
  have written : "parse_FooBar" ∈ Text.words "where is parse_FooBar used" := by decide +kernel
  have level : HasNoHump "parse" := by
    unfold HasNoHump
    decide +kernel
  have boosted := written_name_boosted_unless_humped identifier written
  exact ⟨identifier, written, boosted.1 ⟨"parse", by decide +kernel, level⟩⟩

/-- A name with a hump is not recognised in a query. -/
theorem humped_name_is_not_boosted :
    IsIdentifier "FooBar" ∧ "FooBar" ∈ Text.words "find FooBar" ∧
      ¬(1.0 : Float) < nameBoost "find FooBar" (Query.tokens "find FooBar") (some "FooBar") := by
  decide +kernel

end Ranking

end CodeAtlas
