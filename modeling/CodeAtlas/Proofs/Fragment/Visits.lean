import CodeAtlas.Syntax.Node

/-!
# Nodes with the nodes above them

A walk over a tree in pre-order meets every node once, below the nodes that lead to it.
Given which nodes are accepted, a node is selected if it is accepted itself and definitions
are looked for below every accepted node above it.
-/

namespace CodeAtlas.Syntax

structure Visit where
  above : List Node
  node : Node

namespace Node

mutual

/-- The visits of a node and of everything below it, parents before children. -/
def visits (above : List Node) : Node → List Visit
  | mk kind span children =>
    ⟨above, mk kind span children⟩ :: visitsList (mk kind span children :: above) children

def visitsList (above : List Node) : List Node → List Visit
  | [] => []
  | node :: rest => node.visits above ++ visitsList above rest

end

mutual

theorem map_node_visits (above : List Node) :
    ∀ node : Node, (node.visits above).map Visit.node = node.preorder
  | mk kind span children => by
    rw [visits, preorder, List.map_cons, map_node_visitsList _ children]

theorem map_node_visitsList (above : List Node) :
    ∀ nodes : List Node, (visitsList above nodes).map Visit.node = preorderList nodes
  | [] => rfl
  | node :: rest => by
    rw [visitsList, preorderList, List.map_append, map_node_visits above node,
      map_node_visitsList above rest]

end

mutual

theorem above_of_mem_visits {visit : Visit} :
    ∀ (node : Node) (above : List Node), visit ∈ node.visits above → above <:+ visit.above
  | mk kind span children, above, member => by
    rw [visits] at member
    rcases List.mem_cons.mp member with rfl | below
    · exact List.suffix_refl above
    · exact (List.suffix_cons _ above).trans (above_of_mem_visitsList children _ below)

theorem above_of_mem_visitsList {visit : Visit} :
    ∀ (nodes : List Node) (above : List Node), visit ∈ visitsList above nodes →
      above <:+ visit.above
  | [], above, member => by
    rw [visitsList] at member
    cases member
  | node :: rest, above, member => by
    rw [visitsList] at member
    rcases List.mem_append.mp member with first | later
    · exact above_of_mem_visits node above first
    · exact above_of_mem_visitsList rest above later

end

theorem mem_visitsList {nodes : List Node} {node : Node} (above : List Node)
    (member : node ∈ nodes) : ⟨above, node⟩ ∈ visitsList above nodes := by
  induction nodes with
  | nil => cases member
  | cons first rest ih =>
    rw [visitsList, List.mem_append]
    rcases List.mem_cons.mp member with rfl | later
    · left
      cases node
      rw [visits]
      exact List.mem_cons_self
    · exact .inr (ih later)

mutual

/-- Below every node that a walk meets it meets the children. -/
theorem child_mem_visits {visit : Visit} {child : Node} (inside : child ∈ visit.node.children) :
    ∀ (node : Node) (above : List Node), visit ∈ node.visits above →
      ⟨visit.node :: visit.above, child⟩ ∈ node.visits above
  | mk kind span children, above, member => by
    rw [visits] at member ⊢
    apply List.mem_cons_of_mem
    rcases List.mem_cons.mp member with rfl | below
    · exact mem_visitsList _ inside
    · exact child_mem_visitsList inside children _ below

theorem child_mem_visitsList {visit : Visit} {child : Node} (inside : child ∈ visit.node.children) :
    ∀ (nodes : List Node) (above : List Node), visit ∈ visitsList above nodes →
      ⟨visit.node :: visit.above, child⟩ ∈ visitsList above nodes
  | [], above, member => by
    rw [visitsList] at member
    cases member
  | node :: rest, above, member => by
    rw [visitsList, List.mem_append] at member ⊢
    exact member.imp (child_mem_visits inside node above) (child_mem_visitsList inside rest above)

end

end Node

/-- Definitions are looked for below accepted nodes of this kind. -/
def holdsDefinitions (kind : String) : Bool :=
  ["class_definition", "class_declaration", "call"].contains kind

/-- Definitions are looked for below every accepted node of the list. -/
def clear (accepted : Node → Bool) (above : List Node) : Bool :=
  above.all (fun ancestor => !accepted ancestor || holdsDefinitions ancestor.kind)

namespace Visit

/-- The node is accepted, and definitions are looked for below all accepted nodes above it. -/
def selected (accepted : Node → Bool) (visit : Visit) : Bool :=
  accepted visit.node && clear accepted visit.above

def LiesUnder (visit other : Visit) : Prop :=
  other.node :: other.above <:+ visit.above

end Visit

variable {accepted : Node → Bool}

theorem clear_cons {node : Node} {above : List Node} :
    clear accepted (node :: above) =
      ((!accepted node || holdsDefinitions node.kind) && clear accepted above) :=
  List.all_cons

theorem clear_of_suffix {above longer : List Node} (suffix : above <:+ longer)
    (holds : clear accepted longer = true) : clear accepted above = true := by
  apply List.all_eq_true.mpr
  intro ancestor member
  exact List.all_eq_true.mp holds ancestor (suffix.subset member)

/-- Below an accepted node without definitions nothing is selected. -/
theorem filter_selected_of_closed {above : List Node} {nodes : List Node}
    (closed : clear accepted above = false) :
    (Node.visitsList above nodes).filter (Visit.selected accepted) = [] := by
  apply List.filter_eq_nil_iff.mpr
  intro visit member selected
  have suffix := Node.above_of_mem_visitsList nodes above member
  have opened := clear_of_suffix suffix (Bool.and_eq_true_iff.mp selected).2
  rw [closed] at opened
  cases opened

mutual

/-- An accepted node is selected or lies under a selected one.  The first accepted node on
the way to it below which nothing is looked for is selected. -/
theorem covered_of_mem_visits {visit : Visit} (here : accepted visit.node = true) :
    ∀ (node : Node) (above : List Node), clear accepted above = true →
      visit ∈ node.visits above →
      visit.selected accepted = true ∨
        ∃ other ∈ node.visits above, other.selected accepted = true ∧ visit.LiesUnder other
  | .mk kind span children, above, opened, member => by
    rw [Node.visits] at member ⊢
    rcases List.mem_cons.mp member with rfl | below
    · left
      exact Bool.and_eq_true_iff.mpr ⟨here, opened⟩
    · cases inner : clear accepted (.mk kind span children :: above) with
      | true =>
        rcases covered_of_mem_visitsList here children _ inner below with
          selected | ⟨other, found, rest⟩
        · exact .inl selected
        · exact .inr ⟨other, List.mem_cons_of_mem _ found, rest⟩
      | false =>
        right
        refine ⟨_, List.mem_cons_self, ?_,
          Node.above_of_mem_visitsList children _ below⟩
        rw [clear_cons, opened, Bool.and_true, Bool.or_eq_false_iff] at inner
        exact Bool.and_eq_true_iff.mpr ⟨by simpa using inner.1, opened⟩

theorem covered_of_mem_visitsList {visit : Visit} (here : accepted visit.node = true) :
    ∀ (nodes : List Node) (above : List Node), clear accepted above = true →
      visit ∈ Node.visitsList above nodes →
      visit.selected accepted = true ∨
        ∃ other ∈ Node.visitsList above nodes, other.selected accepted = true ∧
          visit.LiesUnder other
  | [], above, opened, member => by
    rw [Node.visitsList] at member
    cases member
  | node :: rest, above, opened, member => by
    rw [Node.visitsList] at member ⊢
    rcases List.mem_append.mp member with first | later
    · refine (covered_of_mem_visits here node above opened first).imp_right ?_
      rintro ⟨other, found, under⟩
      exact ⟨other, List.mem_append_left _ found, under⟩
    · refine (covered_of_mem_visitsList here rest above opened later).imp_right ?_
      rintro ⟨other, found, under⟩
      exact ⟨other, List.mem_append_right _ found, under⟩

end

theorem exists_selected {tree node : Node}
    (member : node ∈ tree.preorder) (here : accepted node = true) :
    (tree.visits []).filter (Visit.selected accepted) ≠ [] := by
  rw [← Node.map_node_visits []] at member
  obtain ⟨visit, met, rfl⟩ := List.mem_map.mp member
  rcases covered_of_mem_visits here tree [] rfl met with
    selected | ⟨other, found, selected, -⟩
  · exact List.ne_nil_of_mem (List.mem_filter.mpr ⟨met, selected⟩)
  · exact List.ne_nil_of_mem (List.mem_filter.mpr ⟨found, selected⟩)

theorem filter_selected_of_refused {tree : Node}
    (refused : ∀ node ∈ tree.preorder, accepted node = false) :
    (tree.visits []).filter (Visit.selected accepted) = [] := by
  apply List.filter_eq_nil_iff.mpr
  intro visit met selected
  have member : visit.node ∈ tree.preorder := by
    rw [← Node.map_node_visits []]
    exact List.mem_map_of_mem met
  rw [Visit.selected, refused visit.node member] at selected
  cases selected

end CodeAtlas.Syntax
