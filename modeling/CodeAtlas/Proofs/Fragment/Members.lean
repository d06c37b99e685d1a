import CodeAtlas.Proofs.Fragment.Selecting

/-!
# The members of Python classes

A class that stands in no function has its functions cut out as fragments of their own, each with
the name of the class, unless a decorated definition is above: the walk ends there, also if what is
decorated is the class itself.
-/

namespace CodeAtlas

open Syntax (Node Visit)

namespace Grammar.Python

variable {source : Source} {node : Node}

theorem accepted_eq : python.accepted source node = splittable.contains node.kind := rfl

theorem nameOf_class (decodes : node.Decodes source) (isClass : node.kind = "class_definition")
    {name : Option String} (read : node.childText? source ["identifier"] = .ok name) :
    python.nameOf source node = name := by
  obtain ⟨docstring, documented⟩ := docstring?_succeeds decodes
  have known : python.facts source node = .ok {
      nodeKind := some node.kind
      name
      docstring
      parameterCount := parameterCount? node } := by
    simp only [python, facts, named, read, documented, isClass]
    rfl
  rw [nameOf, known]
  rfl

/-- Above a class in no function the walk goes on unless something is decorated. -/
theorem clear_iff {above : List Node}
    (outside : ∀ node ∈ above, node.kind ≠ "function_definition") :
    Syntax.clear (python.accepted source) above = true ↔
      ∀ node ∈ above, node.kind ≠ "decorated_definition" := by
  rw [Syntax.clear, List.all_eq_true]
  refine forall₂_congr (fun node member => ?_)
  have other := outside node member
  rw [accepted_eq]
  by_cases isDecorated : node.kind = "decorated_definition"
  · simp [isDecorated, splittable, Syntax.holdsDefinitions]
  · by_cases isClass : node.kind = "class_definition"
    · simp [isClass, Syntax.holdsDefinitions]
    · simp [splittable, other, isClass, isDecorated]

end Grammar.Python

/-- A class in no function: the function definitions and decorated definitions of its block are cut
out exactly if nothing above the class is decorated.  Then each of them is a fragment with the text
and the lines of the definition and with the name of the class as that of its parent. -/
theorem members_are_cut_out_unless_decorated {source : Source} {tree : Node}
    (decodes : tree.Decodes source) {visit : Visit} (met : visit ∈ tree.visits [])
    (isClass : visit.node.kind = "class_definition")
    (outside : ∀ node ∈ visit.above, node.kind ≠ "function_definition") :
    ∃ name fragments shown, visit.node.childText? source ["identifier"] = .ok name ∧
      Language.fragments .python source tree = .ok fragments ∧
      shown.Sublist (tree.visits []) ∧
      List.Forall₂ (Grammar.python.Presents source) shown fragments ∧
      ∀ block ∈ visit.node.children, block.kind = "block" → ∀ member ∈ block.children,
        member.kind = "function_definition" ∨ member.kind = "decorated_definition" →
        ((⟨block :: visit.node :: visit.above, member⟩ : Visit) ∈ shown ↔
          ∀ node ∈ visit.above, node.kind ≠ "decorated_definition") ∧
        ((∀ node ∈ visit.above, node.kind ≠ "decorated_definition") →
          ∃ fragment ∈ fragments, member.text source = .ok fragment.content ∧
            fragment.startLine = member.startLine ∧ fragment.endLine = member.endLine ∧
            fragment.kind = member.kind ∧
            fragment.facts.toRecord.lookup "parent_name" = some (.ofText? name)) := by
  have here : visit.node ∈ tree.preorder := by
    rw [← Node.map_node_visits []]
    exact List.mem_map_of_mem met
  have reads := decodes.of_mem here
  have accepted : Grammar.python.accepted source visit.node = true := by
    rw [Grammar.Python.accepted_eq, isClass]
    rfl
  obtain ⟨name, read⟩ := reads.childText? ["identifier"]
  obtain ⟨fragments, done, presents⟩ :=
    @Language.fragments_eq .python (by decide) source tree decodes
  have some : fragments.isEmpty = false := by
    cases fragments with
    | nil =>
      exact absurd (List.forall₂_nil_right_iff.mp presents)
        (Syntax.exists_selected here accepted)
    | cons first rest => rfl
  rw [some, if_neg Bool.false_ne_true] at done
  refine ⟨name, fragments, _, read, done, List.filter_sublist, presents, ?_⟩
  intro block inside isBlock member below isMember
  have passes : Grammar.python.accepted source block = false := by
    rw [Grammar.Python.accepted_eq, isBlock]
    rfl
  have judged : Grammar.python.accepted source member = true := by
    rw [Grammar.Python.accepted_eq]
    rcases isMember with same | same <;> rw [same] <;> rfl
  have shown : (⟨block :: visit.node :: visit.above, member⟩ : Visit) ∈
      (tree.visits []).filter (Visit.selected (Grammar.python.accepted source)) ↔
        ∀ node ∈ visit.above, node.kind ≠ "decorated_definition" := by
    have walked := Node.child_mem_visits below tree [] (Node.child_mem_visits inside tree [] met)
    rw [List.mem_filter, Visit.selected, judged, Syntax.clear_cons, Syntax.clear_cons, passes,
      isClass, ← @Grammar.Python.clear_iff source _ outside]
    simp [walked, Syntax.holdsDefinitions]
  refine ⟨shown, fun plain => ?_⟩
  obtain ⟨place, same⟩ := List.get_of_mem (shown.mpr plain)
  have presented := presents.get place.isLt (presents.length_eq ▸ place.isLt)
  change Grammar.python.Presents source (List.get _ place) _ at presented
  rw [same] at presented
  refine ⟨_, List.get_mem _ _, presented.content, presented.startLine, presented.endLine,
    presented.kind, ?_⟩
  rw [presented.parent, Grammar.enclosing?, List.find?_cons, passes, List.find?_cons, accepted,
    Option.map_some, Grammar.Python.nameOf_class reads isClass read]

namespace Sample

def member (start : Int) : Node :=
  .mk "function_definition" ⟨start, start + 10, 1, 1⟩
    [.mk "identifier" ⟨start + 4, start + 5, 1, 1⟩ []]

def block (start : Int) : Node :=
  .mk "block" ⟨start, start + 10, 1, 1⟩ [member start]

def classNode (start : Int) : Node :=
  .mk "class_definition" ⟨start, start + 20, 0, 1⟩
    [.mk "identifier" ⟨start + 6, start + 7, 0, 0⟩ [], block (start + 10)]

end Sample

open Sample in
theorem member_of_plain_class_is_cut_out :
    let source := Source.ofText "class A:\n def f(): 0"
    let tree : Node := .mk "module" ⟨0, 20, 0, 1⟩ [classNode 0]
    tree.Decodes source ∧ (⟨[tree], classNode 0⟩ : Visit) ∈ tree.visits [] ∧
      (∀ node ∈ [tree], node.kind ≠ "function_definition") ∧
      ∃ name fragments, (classNode 0).childText? source ["identifier"] = .ok name ∧
        Language.fragments .python source tree = .ok fragments ∧
        ∃ fragment ∈ fragments, (member 10).text source = .ok fragment.content ∧
          fragment.facts.toRecord.lookup "parent_name" = some (.ofText? name) := by
  intro source tree
  have decodes : tree.Decodes source := Node.decodes_of_all (by decide +kernel)
  have met : (⟨[tree], classNode 0⟩ : Visit) ∈ tree.visits [] :=
    List.mem_cons_of_mem _ (Node.mem_visitsList _ (by simp))
  have outside : ∀ node ∈ [tree], node.kind ≠ "function_definition" := by simp [tree, Node.kind]
  obtain ⟨name, fragments, _, read, done, -, -, cut⟩ :=
    members_are_cut_out_unless_decorated decodes met rfl outside
  have inside : block 10 ∈ (classNode 0).children := by simp [classNode, Node.children]
  have below : member 10 ∈ (block 10).children := by simp [block, Node.children]
  obtain ⟨fragment, found, content, -, -, -, parent⟩ :=
    (cut (block 10) inside rfl (member 10) below (.inl rfl)).2 (by simp [tree, Node.kind])
  exact ⟨decodes, met, outside, name, fragments, read, done, fragment, found, content, parent⟩

open Sample in
/-- The function of a decorated class is no fragment. -/
theorem member_of_decorated_class_is_not_cut_out :
    let source := Source.ofText "@d\nclass A:\n def f(): 0"
    let decorated : Node := .mk "decorated_definition" ⟨0, 23, 0, 2⟩
      [.mk "decorator" ⟨0, 2, 0, 0⟩ [], classNode 3]
    let tree : Node := .mk "module" ⟨0, 23, 0, 2⟩ [decorated]
    tree.Decodes source ∧ (⟨[decorated, tree], classNode 3⟩ : Visit) ∈ tree.visits [] ∧
      (∀ node ∈ [decorated, tree], node.kind ≠ "function_definition") ∧
      ((classNode 3).childText? source ["identifier"]).toOption = some (some "A") ∧
      ∃ fragments, Language.fragments .python source tree = .ok fragments ∧
        ∀ fragment ∈ fragments,
          fragment.facts.toRecord.lookup "parent_name" ≠ some (.text "A") := by
  intro source decorated tree
  refine ⟨Node.decodes_of_all (by decide +kernel), ?_, ?_, by decide +kernel, ?_⟩
  · have inside : classNode 3 ∈ decorated.children := by simp [decorated, Node.children]
    have met : (⟨[tree], decorated⟩ : Visit) ∈ tree.visits [] :=
      List.mem_cons_of_mem _ (Node.mem_visitsList [tree] List.mem_cons_self)
    exact Node.child_mem_visits inside tree [] met
  · simp [tree, decorated, Node.kind]
  · have parents : (Language.fragments .python source tree).toOption.map
        (List.map (fun fragment => fragment.facts.container)) = some [none] := by
      decide +kernel
    cases done : Language.fragments .python source tree with
    | error fault =>
      rw [done] at parents
      cases parents
    | ok fragments =>
      refine ⟨fragments, rfl, fun fragment found => ?_⟩
      rw [done] at parents
      have none : fragment.facts.container = none := by
        have member := List.mem_map_of_mem (f := fun fragment => fragment.facts.container) found
        rw [Option.some.inj parents] at member
        exact List.mem_singleton.mp member
      simp [Facts.lookup_parent, none]

end CodeAtlas
