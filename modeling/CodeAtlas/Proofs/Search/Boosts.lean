import CodeAtlas.Search.Ranking
import Mathlib.Tactic.FieldSimp
import Mathlib.Tactic.Linarith
import Mathlib.Tactic.Positivity
import Mathlib.Tactic.Ring

/-!
# What boosts do to a score

A rank score is the similarity times a positive number.  So a higher similarity never lowers
the score, and a boost raises it exactly if the similarity is above zero: the score of a
result with a negative similarity falls when its name, its tags or its docstring fit the
query better.
-/

namespace CodeAtlas

namespace Text

theorem lower_eq_empty {text : String} : lower text = "" ↔ text = "" := by
  constructor
  · intro empty
    have none : lowerChars [] text.toList = [] := by
      simpa [lower] using congrArg String.toList empty
    cases characters : text.toList with
    | nil => exact String.toList_inj.mp characters
    | cons character rest =>
      rw [characters, lowerChars, List.append_eq_nil_iff] at none
      split_ifs at none <;> simp at none
  · rintro rfl
    rfl

end Text

namespace Ranking

variable {query : String} {intents : List String} {profile other : Profile} {similarity : ℚ}

/-! ## Factors -/

theorem ofCount_eq (count : Nat) : (ofCount count : ℚ) = count := by
  change Rat.ofScientific count true 0 = count
  rw [Rat.ofScientific_true_def, Nat.pow_zero, Rat.mkRat_one]
  rfl

theorem kindBoost_pos (namesClass isEntity : Bool) (kind : String) :
    (0 : ℚ) < kindBoost namesClass isEntity kind := by
  unfold kindBoost
  split_ifs <;> norm_num

theorem overlapBoost_bounds (overlap total : Nat) :
    (1 : ℚ) ≤ overlapBoost overlap total ∧ (overlapBoost overlap total : ℚ) < 1.4 := by
  unfold overlapBoost
  split_ifs <;> norm_num

theorem one_le_nameBoost (query : String) (tokens : List String) (name : Option String) :
    (1 : ℚ) ≤ nameBoost query tokens name := by
  unfold nameBoost
  split
  · norm_num
  · split_ifs
    · norm_num
    · norm_num
    · exact (overlapBoost_bounds _ _).1

theorem one_le_pathBoost (tokens : List String) (path : String) :
    (1 : ℚ) ≤ pathBoost tokens path := by
  simp only [pathBoost, ofCount_eq]
  split_ifs
  · norm_num
  · norm_num
  · norm_num

theorem tagBoost_eq (intents tags : List String) :
    (tagBoost intents tags : ℚ) = 1 + Token.shared intents tags / 10 := by
  rw [tagBoost, ofCount_eq]
  norm_num
  ring

def docstringFactor (isEntity : Bool) (kind : String) (docstring : Option String) : ℚ :=
  if (docstring.getD "").isEmpty then 1 else docstringBoost isEntity kind

def sizeFactor (preview : String) : ℚ :=
  if 1000 < preview.length then 0.98 else 1

def boost (query : String) (intents : List String) (profile : Profile) : ℚ :=
  let tokens := Query.tokens query
  let isEntity := Query.isEntityLike query tokens
  kindBoost (Text.contains (Text.lower query) "class") isEntity profile.kind *
    nameBoost query tokens profile.name * pathBoost tokens profile.relativePath *
    tagBoost intents profile.tags * docstringFactor isEntity profile.kind profile.docstring *
    sizeFactor profile.preview

theorem score_eq (query : String) (intents : List String) (similarity : ℚ) (profile : Profile) :
    score query intents similarity profile = similarity * boost query intents profile := by
  -- Without intents or tags nothing is shared, and the boost for tags is one.
  have tagged (base : ℚ) :
      (if intents.isEmpty || profile.tags.isEmpty then base
        else base * tagBoost intents profile.tags) = base * tagBoost intents profile.tags := by
    split
    · rename_i none
      have unshared : Token.shared intents profile.tags = 0 := by
        rw [Token.shared, List.length_eq_zero_iff]
        rcases Bool.or_eq_true _ _ ▸ none with empty | empty
        · rw [List.isEmpty_iff.mp empty]
          rfl
        · simp [List.isEmpty_iff.mp empty]
      rw [tagBoost_eq, unshared]
      norm_num
    · rfl
  simp only [score, boost, docstringFactor, sizeFactor, tagged]
  split_ifs <;> ring

theorem docstringFactor_pos (isEntity : Bool) (kind : String) (docstring : Option String) :
    0 < docstringFactor isEntity kind docstring := by
  unfold docstringFactor docstringBoost
  split_ifs <;> norm_num

theorem sizeFactor_pos (preview : String) : 0 < sizeFactor preview := by
  unfold sizeFactor
  split_ifs <;> norm_num

theorem tagBoost_pos (intents tags : List String) : (0 : ℚ) < tagBoost intents tags := by
  rw [tagBoost_eq]
  positivity

theorem nameBoost_pos (query : String) (tokens : List String) (name : Option String) :
    (0 : ℚ) < nameBoost query tokens name :=
  one_pos.trans_le (one_le_nameBoost _ _ _)

theorem pathBoost_pos (tokens : List String) (path : String) : (0 : ℚ) < pathBoost tokens path :=
  one_pos.trans_le (one_le_pathBoost _ _)

theorem boost_pos (query : String) (intents : List String) (profile : Profile) :
    0 < boost query intents profile :=
  mul_pos (mul_pos (mul_pos (mul_pos (mul_pos (kindBoost_pos _ _ _) (nameBoost_pos _ _ _))
    (pathBoost_pos _ _)) (tagBoost_pos _ _)) (docstringFactor_pos _ _ _)) (sizeFactor_pos _)

theorem score_mono {low high : ℚ} (le : low ≤ high) :
    score query intents low profile ≤ score query intents high profile := by
  rw [score_eq, score_eq]
  exact mul_le_mul_of_nonneg_right le (boost_pos _ _ _).le

/-- Where one factor gets larger, the score gets no lower, unless the similarity is negative. -/
theorem score_le_iff {factor factor' : ℚ} (positive : 0 < factor) (le : factor ≤ factor')
    (changed : boost query intents other * factor = boost query intents profile * factor') :
    score query intents similarity profile ≤ score query intents similarity other ↔
      0 ≤ similarity ∨ factor = factor' := by
  have larger : boost query intents profile ≤ boost query intents other := by
    refine le_of_mul_le_mul_right ?_ positive
    rw [changed]
    exact mul_le_mul_of_nonneg_left le (boost_pos _ _ _).le
  have equal : boost query intents profile = boost query intents other ↔ factor = factor' := by
    constructor
    · intro same
      rw [← same] at changed
      exact mul_left_cancel₀ (boost_pos _ _ _).ne' changed
    · rintro rfl
      exact (mul_right_cancel₀ positive.ne' changed).symm
  rw [score_eq, score_eq, ← equal]
  constructor
  · intro raised
    by_contra! negative
    exact absurd raised
      (not_le.mpr (mul_lt_mul_of_neg_left (lt_of_le_of_ne larger negative.2) negative.1))
  · rintro (notNegative | same)
    · exact mul_le_mul_of_nonneg_left larger notNegative
    · rw [same]

/-! ## Names and tags that fit -/

theorem nameBoost_le (query : String) (tokens : List String) (name : Option String) :
    (nameBoost query tokens name : ℚ) ≤ 1.4 := by
  unfold nameBoost
  split
  · norm_num
  · split_ifs
    · norm_num
    · norm_num
    · exact (overlapBoost_bounds _ _).2.le

theorem nameBoost_of_empty (name : Option String) :
    (nameBoost "" (Query.tokens "") name : ℚ) = 1 := by
  unfold nameBoost
  split
  · norm_num
  · rename_i name
    split_ifs with none same
    · norm_num
    · have empty := Text.lower_eq_empty.mp (eq_of_beq same).symm
      simp [empty] at none
    · have tokens : Query.tokens "" = [] := rfl
      rw [tokens]
      norm_num [overlapBoost, Token.shared]

/-- Only the query itself, up to case, is boosted most. -/
theorem nameBoost_eq_iff (some : query ≠ "") (tokens : List String) (name : Option String) :
    (nameBoost query tokens name : ℚ) = 1.4 ↔ Text.lower (name.getD "") = Text.lower query := by
  have different : Text.lower "" ≠ Text.lower query := fun same =>
    some (Text.lower_eq_empty.mp same.symm)
  unfold nameBoost
  split
  · simpa using iff_of_false (by norm_num) different
  · rename_i name
    split_ifs with none same
    · rw [String.isEmpty_iff.mp none]
      exact iff_of_false (by norm_num) different
    · exact iff_of_true rfl (eq_of_beq same).symm
    · refine iff_of_false (overlapBoost_bounds _ _).2.ne fun equal => same ?_
      exact beq_iff_eq.mpr equal.symm

/-- No name is boosted more than one that is the query up to case. -/
theorem nameBoost_le_of_same {name : String} (same : Text.lower name = Text.lower query)
    (old : Option String) :
    (nameBoost query (Query.tokens query) old : ℚ) ≤
        nameBoost query (Query.tokens query) (some name) ∧
      ((nameBoost query (Query.tokens query) old : ℚ) =
          nameBoost query (Query.tokens query) (some name) ↔
        query = "" ∨ Text.lower (old.getD "") = Text.lower query) := by
  rcases eq_or_ne query "" with rfl | some
  · rw [nameBoost_of_empty, nameBoost_of_empty]
    simp
  · rw [(nameBoost_eq_iff some (Query.tokens query) (Option.some name)).mpr same,
      nameBoost_eq_iff some]
    exact ⟨nameBoost_le _ _ _, (or_iff_right some).symm⟩

theorem shared_insert {tag : String} (intended : tag ∈ intents) (front back : List String) :
    Token.shared intents (front ++ back) ≤ Token.shared intents (front ++ tag :: back) ∧
      (Token.shared intents (front ++ back) = Token.shared intents (front ++ tag :: back) ↔
        tag ∈ front ++ back) := by
  have part : (intents.eraseDups.filter (front ++ back).contains).Sublist
      (intents.eraseDups.filter (front ++ tag :: back).contains) := by
    apply List.monotone_filter_right
    intro other member
    simp only [List.contains_iff_mem, List.mem_append, List.mem_cons] at member ⊢
    tauto
  refine ⟨part.length_le, fun same => ?_, fun known => ?_⟩
  · have equal := part.eq_of_length same
    have inside : tag ∈ intents.eraseDups.filter (front ++ tag :: back).contains := by
      simp [intended]
    rw [← equal, List.mem_filter] at inside
    exact List.contains_iff_mem.mp inside.2
  · have alike : (front ++ back).contains = (front ++ tag :: back).contains := by
      funext other
      rw [Bool.eq_iff_iff]
      simp only [List.contains_iff_mem, List.mem_append, List.mem_cons] at known ⊢
      constructor
      · tauto
      · rintro (before | rfl | after)
        · exact .inl before
        · exact known
        · exact .inr after
    rw [Token.shared, Token.shared, alike]

/-- A name that is the query up to case, a first docstring and a tag among the intents leave
the score of a result as high as it was, or raise it, exactly if the similarity is not
negative or nothing fits better than before. -/
theorem boosts_promote_iff_not_negative (query : String) (intents : List String)
    (similarity : ℚ) (profile : Profile) :
    (∀ name, Text.lower name = Text.lower query →
      (score query intents similarity profile ≤
          score query intents similarity { profile with name := some name } ↔
        0 ≤ similarity ∨ query = "" ∨ Text.lower (profile.name.getD "") = Text.lower query)) ∧
    (∀ docstring, docstring ≠ "" → profile.docstring.getD "" = "" →
      (score query intents similarity profile ≤
          score query intents similarity { profile with docstring := some docstring } ↔
        0 ≤ similarity)) ∧
    (∀ tag ∈ intents, ∀ front back, profile.tags = front ++ back →
      (score query intents similarity profile ≤
          score query intents similarity { profile with tags := front ++ tag :: back } ↔
        0 ≤ similarity ∨ tag ∈ profile.tags)) := by
  refine ⟨?_, ?_, ?_⟩
  · intro name same
    obtain ⟨le, equal⟩ := nameBoost_le_of_same same profile.name
    rw [score_le_iff (nameBoost_pos _ _ _) le (by simp only [boost]; ring), equal]
  · intro docstring some none
    have before : docstringFactor (Query.isEntityLike query (Query.tokens query)) profile.kind
        profile.docstring = 1 := by
      rw [docstringFactor, none]
      rfl
    have after : 1 < docstringFactor (Query.isEntityLike query (Query.tokens query)) profile.kind
        (Option.some docstring) := by
      rw [docstringFactor, Option.getD_some, if_neg (by simpa using some), docstringBoost]
      split_ifs <;> norm_num
    rw [score_le_iff one_pos after.le (by simp only [boost, before]; ring)]
    exact or_iff_left after.ne
  · intro tag intended front back split
    obtain ⟨fewer, same⟩ := shared_insert intended front back
    have le : (tagBoost intents profile.tags : ℚ) ≤ tagBoost intents (front ++ tag :: back) := by
      rw [tagBoost_eq, tagBoost_eq, split]
      gcongr
    rw [score_le_iff (tagBoost_pos _ _) le (by simp only [boost]; ring), tagBoost_eq, tagBoost_eq,
      split, ← same]
    simp

/-- A function in a file of its own. -/
def plainProfile : Profile :=
  ⟨"function", some "bar", "a.py", none, [], ""⟩

theorem positive_result_is_promoted :
    Text.lower "Foo" = Text.lower "foo" ∧
      score "foo" ["api"] (1 / 2 : ℚ) plainProfile ≤
        score "foo" ["api"] (1 / 2) { plainProfile with name := some "Foo" } ∧
      score "foo" ["api"] (1 / 2 : ℚ) plainProfile ≤
        score "foo" ["api"] (1 / 2) { plainProfile with docstring := some "Foo." } ∧
      score "foo" ["api"] (1 / 2 : ℚ) plainProfile ≤
        score "foo" ["api"] (1 / 2) { plainProfile with tags := ["api"] } := by
  have same : Text.lower "Foo" = Text.lower "foo" := by decide +kernel
  have positive : (0 : ℚ) ≤ 1 / 2 := by norm_num
  obtain ⟨named, documented, tagged⟩ :=
    boosts_promote_iff_not_negative "foo" ["api"] (1 / 2) plainProfile
  exact ⟨same, (named "Foo" same).mpr (.inl positive),
    (documented "Foo." (by decide) rfl).mpr positive,
    (tagged "api" (by decide) [] [] rfl).mpr (.inl positive)⟩

/-- What fits the query best is demoted if its similarity is negative. -/
theorem negative_result_is_demoted :
    score "foo" [] (-1 / 2 : ℚ) { plainProfile with name := some "foo" } <
      score "foo" [] (-1 / 2) plainProfile := by
  decide +kernel

end Ranking

end CodeAtlas
