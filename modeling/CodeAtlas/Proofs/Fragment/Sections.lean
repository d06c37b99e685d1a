import CodeAtlas.Proofs.Fragment.Decoding
import CodeAtlas.Proofs.Paths
import Mathlib.Data.List.DropRight

/-!
# Sections of a document

The headings of a Markdown document cut it into sections.  Where the headings start on rising
rows inside of the document, the sections follow one another without a gap up to the last
line, and their contents give back the lines from the first heading on.
-/

namespace CodeAtlas

theorem Text.isEmpty_trim (text : String) : (trim text).isEmpty = isBlankText text := by
  have all : trimChars text.toList = [] ↔
      ∀ character ∈ text.toList, isBlank character = true := by
    refine List.rdropWhile_eq_nil_iff.trans ⟨?_, ?_⟩
    · intro back character member
      rw [← @List.takeWhile_append_dropWhile _ isBlank text.toList] at member
      exact (List.mem_append.mp member).elim List.mem_takeWhile_imp (back character)
    · intro each character member
      exact each character ((List.dropWhile_sublist _).subset member)
  rw [Bool.eq_iff_iff, isBlankText, List.all_eq_true, ← all, trim]
  simp

namespace Grammar.Markdown

open Syntax (Node)

variable {lines : List String} {parts : List Fragment} {row : Int}

/-- The fragments take up the lines from a row to the last one.  Each has a line at least,
holds its lines, and starts on the line after the fragment before it. -/
def Fills (lines : List String) : Int → List Fragment → Prop
  | row, [] => row = lines.length
  | row, part :: rest =>
    part.startLine = row + 1 ∧ row < part.endLine ∧
      part.content = Text.join "\n" ((lines.take part.endLine.toNat).drop row.toNat) ∧
      Fills lines part.endLine rest

theorem Fills.le (fills : Fills lines row parts) : row ≤ lines.length := by
  induction parts generalizing row with
  | nil => exact Int.le_of_eq fills
  | cons part rest ih =>
    obtain ⟨-, later, -, after⟩ := fills
    exact Int.le_trans (Int.le_of_lt later) (ih after)

theorem Fills.join_contents (fills : Fills lines row parts) (start : 0 ≤ row) :
    Text.join "\n" (parts.map Fragment.content) = Text.join "\n" (lines.drop row.toNat) := by
  induction parts generalizing row with
  | nil =>
    rw [show row = lines.length from fills, Int.toNat_natCast, List.drop_length]
    rfl
  | cons part rest ih =>
    obtain ⟨-, later, content, after⟩ := fills
    have below := ih after (by omega)
    have bound := after.le
    have split : (lines.take part.endLine.toNat).drop row.toNat ++
        lines.drop part.endLine.toNat = lines.drop row.toNat := by
      rw [← List.drop_append_of_le_length (by rw [List.length_take]; omega),
        List.take_append_drop]
    rw [List.map_cons, content, ← split]
    cases rest with
    | nil =>
      rw [show part.endLine = lines.length from after, Int.toNat_natCast, List.drop_length,
        List.append_nil]
      exact Text.join_singleton ..
    | cons next rest =>
      have room : part.endLine < lines.length := Int.lt_of_lt_of_le after.2.1 after.2.2.2.le
      rw [Text.join_append, ← below]
      · exact Text.join_cons_cons ..
      · apply List.ne_nil_of_length_pos
        rw [List.length_drop, List.length_take]
        omega
      · apply List.ne_nil_of_length_pos
        rw [List.length_drop]
        omega

/-- The section of a heading goes before fragments that start where it ends. -/
theorem exists_section (label : String) {source : Source} {heading : Node} {last : Int}
    (read : Succeeds (heading.text source)) (start : 0 ≤ heading.span.startRow)
    (later : heading.span.startRow < last) :
    ∃ part, sectionOf label source lines heading last = .ok part ∧ part.kind = "section" ∧
      part.startLine = heading.startLine ∧
      ∀ rest, Fills lines last rest → Fills lines heading.span.startRow (part :: rest) := by
  obtain ⟨title, read⟩ := read
  refine ⟨_, by rw [sectionOf, read]; rfl, rfl, rfl, ?_⟩
  intro rest fills
  refine ⟨rfl, later, ?_, fills⟩
  have first : heading.startLine - 1 = heading.span.startRow := Int.add_sub_cancel ..
  rw [lineRange, first, Text.sliceBound, if_neg (by omega), Text.sliceBound, if_neg (by omega)]

theorem exists_sections (label : String) {source : Source} {first : Node} {rest : List Node}
    (rising : ((first :: rest).map (·.span.startRow)).Pairwise (· < ·))
    (inside : ∀ heading ∈ first :: rest,
      0 ≤ heading.span.startRow ∧ heading.span.startRow < lines.length)
    (decodes : ∀ heading ∈ first :: rest, Succeeds (heading.text source)) :
    ∃ parts, sections label source lines (first :: rest) = .ok parts ∧
      parts.map Fragment.startLine = (first :: rest).map Node.startLine ∧
      (∀ part ∈ parts, part.kind = "section") ∧ Fills lines first.span.startRow parts := by
  obtain ⟨start, bound⟩ := inside first List.mem_cons_self
  have read := decodes first List.mem_cons_self
  induction rest generalizing first with
  | nil =>
    obtain ⟨part, found, kind, opens, fills⟩ := exists_section label read start bound
    refine ⟨[part], ?_, ?_, ?_, fills [] rfl⟩
    · rw [sections, found]
      rfl
    · rw [List.map_singleton, opens, List.map_singleton]
    · simpa using kind
  | cons next rest ih =>
    obtain ⟨before, rising⟩ := List.pairwise_cons.mp rising
    have inside : ∀ heading ∈ next :: rest, _ := (List.forall_mem_cons.mp inside).2
    have decodes : ∀ heading ∈ next :: rest, _ := (List.forall_mem_cons.mp decodes).2
    obtain ⟨nextStart, nextBound⟩ := inside next List.mem_cons_self
    obtain ⟨parts, divided, starts, kinds, fills⟩ :=
      ih rising inside decodes nextStart nextBound (decodes next List.mem_cons_self)
    obtain ⟨part, found, kind, opens, joins⟩ :=
      exists_section label read start (before _ List.mem_cons_self)
    refine ⟨part :: parts, ?_, ?_, ?_, joins parts fills⟩
    · rw [sections, found]
      change (sections label source lines (next :: rest)).bind _ = _
      rw [divided]
      rfl
    · rw [List.map_cons, opens, starts]
      rfl
    · exact List.forall_mem_cons.mpr ⟨kind, kinds⟩

end Grammar.Markdown

open Grammar.Markdown
open Syntax (Node)

/-- Headings on rising rows divide the document into what stands before the first of them and
sections that follow one another to the last line, without losing a line. -/
theorem sections_divide_document {text : String} {tree : Node}
    (rising : ((headings tree).map (·.span.startRow)).Pairwise (· < ·))
    (inside : ∀ heading ∈ headings tree, 0 ≤ heading.span.startRow ∧
      heading.span.startRow < (Text.lines text).length)
    (decodes : ∀ heading ∈ headings tree, Succeeds (heading.text (.ofText text))) :
    let lines := Text.lines text
    ∃ opening sections,
      Language.fragments .markdown (.ofText text) tree = .ok (opening ++ sections) ∧
      (∀ part ∈ sections, part.kind = "section") ∧
      sections.map Fragment.startLine = (headings tree).map Node.startLine ∧
      (∀ first ∈ (headings tree).head?,
        let row := first.span.startRow
        let before := Text.join "\n" (lines.take row.toNat)
        Fills lines row sections ∧
        Text.join "\n" (sections.map Fragment.content) =
          Text.join "\n" (lines.drop row.toNat) ∧
        opening = if Text.isBlankText before then [] else [{
          content := Text.trim before
          startLine := 1
          endLine := row
          kind := "preamble"
          language := "markdown"
          facts := { name := some "Preamble", role := some "preamble" } }]) ∧
      (headings tree = [] → opening = if Text.isBlankText text then [] else [{
        content := text
        startLine := 1
        endLine := lines.length
        kind := "document"
        language := "markdown"
        facts := { name := some "Document", role := some "document" } }]) := by
  intro lines
  rw [Language.fragments, if_pos rfl, fragments]
  cases found : headings tree with
  | nil =>
    refine ⟨_, [], congrArg Except.ok (List.append_nil _).symm, by simp, rfl, by simp, ?_⟩
    intro _
    rfl
  | cons first rest =>
    rw [found] at rising inside decodes
    obtain ⟨parts, divided, starts, kinds, fills⟩ :=
      exists_sections (Language.grammar .markdown).label rising inside decodes
    have start := (inside first List.mem_cons_self).1
    refine ⟨preamble "markdown" lines first, parts, ?_, kinds, starts, ?_, by simp⟩
    · change (Grammar.Markdown.sections _ _ lines _).bind _ = _
      rw [show Grammar.Markdown.sections _ _ lines _ = .ok parts from divided]
      rfl
    · rintro _ ⟨⟩
      refine ⟨fills, fills.join_contents start, ?_⟩
      rw [preamble, Text.isEmpty_trim]
      by_cases top : first.span.startRow ≤ 0
      · rw [Int.toNat_of_nonpos top, if_pos (by simp [top])]
        rfl
      · simp only [top, decide_false, Bool.false_or]

/-- A section in a section is a fragment of its own, and the one around it ends before. -/
theorem nested_sections_divide_document :
    let text := "intro\n\n# A\nx\n## B"
    let inner : Node := .mk "section" ⟨13, 17, 4, 4⟩ [.mk "atx_heading" ⟨13, 17, 4, 4⟩ []]
    let tree : Node := .mk "document" ⟨0, 17, 0, 4⟩ [.mk "paragraph" ⟨0, 6, 0, 1⟩ [],
      .mk "section" ⟨7, 17, 2, 4⟩ [.mk "atx_heading" ⟨7, 11, 2, 3⟩ [], inner]]
    tree.Decodes (.ofText text) ∧
      ∃ opening sections,
        Language.fragments .markdown (.ofText text) tree = .ok (opening ++ sections) ∧
        opening.map Fragment.content = ["intro"] ∧ sections.map Fragment.startLine = [3, 5] ∧
        Text.join "\n" (sections.map Fragment.content) = "# A\nx\n## B" := by
  intro text inner tree
  have decodes : tree.Decodes (.ofText text) := Node.decodes_of_all (by decide +kernel)
  obtain ⟨opening, sections, cut, -, starts, divides, -⟩ :=
    @sections_divide_document text tree (by decide +kernel) (by decide +kernel)
      (fun heading member => decodes heading (List.mem_of_mem_filter member))
  obtain ⟨-, contents, opens⟩ := divides _ rfl
  refine ⟨decodes, opening, sections, cut, ?_, starts.trans (by decide +kernel), ?_⟩
  · rw [opens]
    decide +kernel
  · exact contents.trans (by decide +kernel)

end CodeAtlas
