import CodeAtlas.Proofs.Fragment.Decoding
import CodeAtlas.Proofs.Fragment.Visits
import Mathlib.Data.List.Forall2

/-!
# Which nodes become fragments

Cutting a source follows the tree from the root and hands down what encloses a node.  Told
without the walk: the fragments are the selected nodes in pre-order, each with its text, its
lines and the name of the nearest accepted node above it.
-/

namespace CodeAtlas

namespace Facts

variable {key name : String}

theorem lookup_single (different : key ≠ name) (value : Value) :
    List.lookup key [(name, value)] = none := by
  apply List.lookup_eq_none_iff.mpr
  intro field member
  rw [List.mem_singleton.mp member]
  exact bne_iff_ne.mpr different

theorem lookup_textField (different : key ≠ name) (value : Option String) :
    (textField name value).lookup key = none := by
  cases value with
  | none => rfl
  | some text => exact lookup_single different _

theorem lookup_countField (different : key ≠ name) (value : Option Nat) :
    (countField name value).lookup key = none := by
  cases value with
  | none => rfl
  | some count => exact lookup_single different _

theorem lookup_flagField (different : key ≠ name) (value : Bool) :
    (flagField name value).lookup key = none := by
  cases value with
  | false => rfl
  | true => exact lookup_single different _

/-- The record tells the name of the container if there is one, also if it has no name. -/
theorem lookup_parent (facts : Facts) :
    facts.toRecord.lookup "parent_name" =
      facts.container.map (fun container => .ofText? container.name) := by
  have modifiers : (if facts.modifiers.isEmpty then [] else
      [("modifiers", Value.ofTexts facts.modifiers)]).lookup "parent_name" = none := by
    split
    · rfl
    · exact lookup_single (by decide) _
  have container : (containerFields facts.container).lookup "parent_name" =
      facts.container.map (fun container => .ofText? container.name) := by
    cases facts.container <;> rfl
  unfold toRecord
  cases facts.decorators <;>
    simp (disch := decide) only [List.lookup_append, List.lookup_nil, lookup_single,
      lookup_textField, lookup_countField, lookup_flagField, modifiers, container,
      Option.none_or]

end Facts

namespace Grammar

open Syntax (Node Visit)

def accepted (grammar : Grammar) (source : Source) (node : Node) : Bool :=
  (grammar.accepts source node).toOption.getD false

def nameOf (grammar : Grammar) (source : Source) (node : Node) : Option String :=
  (grammar.facts source node).toOption.bind Facts.name

/-- The nearest accepted one of the nodes above. -/
def enclosing? (grammar : Grammar) (source : Source) (above : List Node) : Option Node :=
  above.find? (grammar.accepted source)

/-- What fragments below the nodes carry. -/
def containerOf (grammar : Grammar) (source : Source) (above : List Node) :
    Option Container :=
  (grammar.enclosing? source above).map (fun node =>
    ⟨grammar.nameOf source node, if node.kind = "call" then .module else .type⟩)

/-- The fragment has the text, the lines, the kind and the facts of the node, and its record
tells the name of the nearest accepted node above. -/
structure Presents (grammar : Grammar) (source : Source) (visit : Visit)
    (fragment : Fragment) : Prop where
  content : visit.node.text source = .ok fragment.content
  startLine : fragment.startLine = visit.node.span.startRow + 1
  endLine : fragment.endLine = visit.node.span.stopRow + 1
  kind : fragment.kind = visit.node.kind
  language : fragment.language = grammar.label
  facts : ∃ facts, grammar.facts source visit.node = .ok facts ∧
    fragment.facts = { facts with container := grammar.containerOf source visit.above }
  parent : fragment.facts.toRecord.lookup "parent_name" =
    (grammar.enclosing? source visit.above).map
      (fun node => .ofText? (grammar.nameOf source node))

theorem containerKind?_eq (kind : String) :
    containerKind? kind =
      if Syntax.holdsDefinitions kind then
        some (if kind = "call" then .module else .type)
      else none := by
  unfold containerKind?
  by_cases isDefinition : kind = "class_definition"
  · subst isDefinition
    rfl
  by_cases isDeclaration : kind = "class_declaration"
  · subst isDeclaration
    rfl
  by_cases isCall : kind = "call"
  · subst isCall
    rfl
  · simp [Syntax.holdsDefinitions, isDefinition, isDeclaration, isCall]

variable {grammar : Grammar} {source : Source}

theorem exists_presents (reads : grammar.Reads) {node : Node}
    (decodes : node.Decodes source) (above : List Node) :
    ∃ fragment, grammar.fragmentOf source (grammar.containerOf source above) node =
        .ok fragment ∧
      grammar.Presents source ⟨above, node⟩ fragment ∧
      fragment.facts.name = grammar.nameOf source node := by
  obtain ⟨content, text⟩ := decodes.text
  obtain ⟨facts, found⟩ := reads.facts source node decodes
  have name : facts.name = grammar.nameOf source node := by rw [nameOf, found]; rfl
  refine ⟨_, by rw [fragmentOf, text, found]; rfl, ⟨text, rfl, rfl, rfl, rfl, ⟨facts, found, rfl⟩,
    ?_⟩, name⟩
  rw [Facts.lookup_parent, containerOf, Option.map_map]
  rfl

/-- What becomes of the nodes below an accepted or refused node. -/
theorem containerOf_cons (node : Node) (above : List Node) :
    grammar.containerOf source (node :: above) =
      if grammar.accepted source node then
        some ⟨grammar.nameOf source node, if node.kind = "call" then .module else .type⟩
      else grammar.containerOf source above := by
  unfold containerOf enclosing?
  rw [List.find?_cons]
  cases grammar.accepted source node <;> rfl

mutual

/-- The walk gives the selected nodes at and below a node, in pre-order. -/
theorem collect_presents (reads : grammar.Reads) :
    ∀ (node : Node) (above : List Node), node.Decodes source →
      Syntax.clear (grammar.accepted source) above = true →
      ∃ found, grammar.collect source (grammar.containerOf source above) node = .ok found ∧
        List.Forall₂ (grammar.Presents source)
          ((node.visits above).filter (Visit.selected (grammar.accepted source))) found
  | .mk kind span children, above, decodes, opened => by
    obtain ⟨verdict, judged⟩ := reads.accepts source _ decodes
    have same : grammar.accepted source (.mk kind span children) = verdict := by
      rw [accepted, judged]
      rfl
    have below : ∀ child ∈ children, child.Decodes source :=
      fun child member => decodes.child member
    rw [collect, judged, Node.visits]
    cases verdict with
    | false =>
      have inner : Syntax.clear (grammar.accepted source)
          (.mk kind span children :: above) = true := by
        rw [Syntax.clear_cons, same, opened]
        rfl
      have refused : ¬ Visit.selected (grammar.accepted source)
          ⟨above, .mk kind span children⟩ = true := by
        simp [Visit.selected, same]
      have walked := collectList_presents reads children _ below inner
      rw [containerOf_cons, same, if_neg Bool.false_ne_true] at walked
      rw [List.filter_cons_of_neg refused]
      exact walked
    | true =>
      obtain ⟨fragment, made, presents, name⟩ := exists_presents reads decodes above
      have chosen : Visit.selected (grammar.accepted source)
          ⟨above, .mk kind span children⟩ = true := by
        simp [Visit.selected, same, opened]
      rw [List.filter_cons_of_pos chosen]
      cases holds : Syntax.holdsDefinitions kind with
      | false =>
        have closed : Syntax.clear (grammar.accepted source)
            (.mk kind span children :: above) = false := by
          rw [Syntax.clear_cons, same]
          simp [Node.kind, holds]
        rw [Syntax.filter_selected_of_closed closed]
        refine ⟨[fragment], ?_, .cons presents .nil⟩
        rw [made, containerKind?_eq, holds]
        rfl
      | true =>
        have inner : Syntax.clear (grammar.accepted source)
            (.mk kind span children :: above) = true := by
          rw [Syntax.clear_cons, same, opened]
          simp [Node.kind, holds]
        obtain ⟨found, walked, rest⟩ := collectList_presents reads children _ below inner
        rw [containerOf_cons, same, if_pos rfl, ← name, Node.kind] at walked
        refine ⟨fragment :: found, ?_, .cons presents rest⟩
        rw [made, containerKind?_eq, holds, if_pos rfl]
        change (grammar.collectList source _ children).bind _ = _
        rw [walked]
        rfl

theorem collectList_presents (reads : grammar.Reads) :
    ∀ (nodes : List Node) (above : List Node), (∀ node ∈ nodes, node.Decodes source) →
      Syntax.clear (grammar.accepted source) above = true →
      ∃ found,
        grammar.collectList source (grammar.containerOf source above) nodes = .ok found ∧
        List.Forall₂ (grammar.Presents source)
          ((Node.visitsList above nodes).filter (Visit.selected (grammar.accepted source)))
          found
  | [], above, decodes, opened => ⟨[], rfl, .nil⟩
  | node :: rest, above, decodes, opened => by
    obtain ⟨here, later⟩ := List.forall_mem_cons.mp decodes
    obtain ⟨first, walked, presents⟩ := collect_presents reads node above here opened
    obtain ⟨others, walked', presents'⟩ := collectList_presents reads rest above later opened
    refine ⟨first ++ others, ?_, ?_⟩
    · rw [collectList, walked]
      change (grammar.collectList source _ rest).bind _ = _
      rw [walked']
      rfl
    · rw [Node.visitsList, List.filter_append]
      exact List.rel_append presents presents'

end

end Grammar

open Syntax (Node Visit) in
/-- The walk over the tree finds the selected nodes.  Where it finds none, the whole source is one
module. -/
theorem Language.fragments_eq {language : Language} (cut : language ≠ .markdown)
    {source : Source} {tree : Node} (decodes : tree.Decodes source) :
    ∃ found, language.fragments source tree =
        .ok (if found.isEmpty then language.grammar.wholeModule source else found) ∧
      List.Forall₂ (language.grammar.Presents source)
        ((tree.visits []).filter (Visit.selected (language.grammar.accepted source))) found := by
  obtain ⟨found, walked, presents⟩ :=
    Grammar.collect_presents (Language.grammar_reads cut) tree [] decodes rfl
  refine ⟨found, ?_, presents⟩
  rw [Language.fragments, if_neg cut, Grammar.fragments]
  change (language.grammar.collect source none tree).bind _ = _
  rw [show language.grammar.collect source none tree = .ok found from walked]
  rfl

open Syntax (Node Visit) in
/-- In every language but Markdown, a source whose nodes all have texts can be cut.  If a node
is accepted, the fragments present the selected nodes in pre-order, one each.  Every accepted
node is selected or lies under a selected one.  If no node is accepted, the whole source is one
module, unless it is blank. -/
theorem fragments_present_selected {language : Language} (cut : language ≠ .markdown)
    {source : Source} {tree : Node} (decodes : tree.Decodes source) :
    let accepted := language.grammar.accepted source
    ∃ fragments, language.fragments source tree = .ok fragments ∧
      (∀ node ∈ tree.preorder, language.grammar.accepts source node = .ok (accepted node)) ∧
      (tree.visits []).map Visit.node = tree.preorder ∧
      ((∃ node ∈ tree.preorder, accepted node = true) →
        List.Forall₂ (language.grammar.Presents source)
          ((tree.visits []).filter (Visit.selected accepted)) fragments) ∧
      (∀ visit ∈ tree.visits [], accepted visit.node = true →
        visit.selected accepted = true ∨
          ∃ other ∈ tree.visits [], other.selected accepted = true ∧
            visit.LiesUnder other) ∧
      ((∀ node ∈ tree.preorder, accepted node = false) →
        fragments = if Text.isBlankText source.text then [] else [{
          content := source.text
          startLine := 1
          endLine := source.lineCount
          kind := "module"
          language := language.grammar.label
          facts := { role := some "module" } }]) := by
  intro accepted
  have reads := Language.grammar_reads cut
  obtain ⟨found, done, presents⟩ := Language.fragments_eq cut decodes
  refine ⟨_, done, ?_, Node.map_node_visits [] tree, ?_, ?_, ?_⟩
  · intro node member
    obtain ⟨verdict, judged⟩ := reads.accepts source node (decodes.of_mem member)
    simp only [accepted, Grammar.accepted, judged]
    rfl
  · rintro ⟨node, member, here⟩
    have some := Syntax.exists_selected member here
    cases found with
    | nil =>
      rw [List.forall₂_nil_right_iff] at presents
      exact absurd presents some
    | cons first rest => exact presents
  · intro visit met here
    exact Syntax.covered_of_mem_visits here tree [] rfl met
  · intro refused
    rw [Syntax.filter_selected_of_refused refused, List.forall₂_nil_left_iff] at presents
    rw [presents]
    rfl

open Syntax (Node) in
/-- A function inside a class is a fragment, and the function inside it is not. -/
theorem nested_definitions_selected :
    let source := Source.ofText "class A:\n def f():\n  def g(): 0"
    let inner : Node := .mk "function_definition" ⟨21, 31, 2, 2⟩
      [.mk "identifier" ⟨25, 26, 2, 2⟩ []]
    let outer : Node := .mk "function_definition" ⟨10, 31, 1, 2⟩
      [.mk "identifier" ⟨14, 15, 1, 1⟩ [], .mk "block" ⟨21, 31, 2, 2⟩ [inner]]
    let tree : Node := .mk "module" ⟨0, 31, 0, 2⟩ [.mk "class_definition" ⟨0, 31, 0, 2⟩
      [.mk "identifier" ⟨6, 7, 0, 0⟩ [], .mk "block" ⟨10, 31, 1, 2⟩ [outer]]]
    tree.Decodes source ∧
      ∃ fragments, Language.fragments .python source tree = .ok fragments ∧
        fragments.length = 2 := by
  intro source inner outer tree
  have decodes : tree.Decodes source := Node.decodes_of_all (by decide +kernel)
  obtain ⟨fragments, done, -, -, presents, -⟩ :=
    @fragments_present_selected .python (by decide) source tree decodes
  refine ⟨decodes, fragments, done, ?_⟩
  have some : ∃ node ∈ tree.preorder, Grammar.python.accepted source node = true :=
    List.any_eq_true.mp (by decide +kernel)
  rw [← (presents some).length_eq]
  decide +kernel

end CodeAtlas
