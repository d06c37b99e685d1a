import CodeAtlas.Fragment.Selection
import CodeAtlas.Proofs.Actions

/-!
# Trees whose nodes have texts

The rules of a language look at a node, its children and their children.  They fail only
where a node that they look at has no text.  In a tree in which every node has one, every
node is judged and the facts of every node are found.
-/

namespace CodeAtlas

def Succeeds {α : Type} (outcome : Except Fault α) : Prop :=
  ∃ value, outcome = .ok value

namespace Succeeds

variable {α β : Type}

theorem pure (value : α) : Succeeds (Pure.pure value : Except Fault α) :=
  ⟨value, rfl⟩

theorem bind {outcome : Except Fault α} {next : α → Except Fault β}
    (first : Succeeds outcome) (rest : ∀ value, Succeeds (next value)) :
    Succeeds (outcome >>= next) := by
  obtain ⟨value, rfl⟩ := first
  exact rest value

theorem map {outcome : Except Fault α} (first : Succeeds outcome) (change : α → β) :
    Succeeds (change <$> outcome) := by
  obtain ⟨value, rfl⟩ := first
  exact ⟨change value, rfl⟩

theorem ite {condition : Prop} [Decidable condition] {yes no : Except Fault α}
    (first : Succeeds yes) (second : Succeeds no) :
    Succeeds (if condition then yes else no) := by
  split
  · exact first
  · exact second

theorem join {condition : Prop} [Decidable condition] {yes no : Except Fault α}
    {next : α → Except Fault β} (first : Succeeds yes) (second : Succeeds no)
    (rest : ∀ value, Succeeds (next value)) :
    Succeeds (if condition then yes >>= next else no >>= next) :=
  .ite (first.bind rest) (second.bind rest)

theorem mapM {step : α → Except Fault β} {inputs : List α}
    (each : ∀ input ∈ inputs, Succeeds (step input)) : Succeeds (inputs.mapM step) :=
  exists_mapM_ok each

end Succeeds

namespace Syntax.Node

variable {source : Source} {node : Node}

/-- The node and all nodes below it have texts. -/
def Decodes (source : Source) (tree : Node) : Prop :=
  ∀ node ∈ tree.preorder, Succeeds (node.text source)

theorem decodes_of_all {tree : Node}
    (all : tree.preorder.all (fun node => (node.text source).isOk) = true) :
    tree.Decodes source := by
  intro node member
  have read := List.all_eq_true.mp all node member
  cases text : node.text source with
  | ok value => exact ⟨value, rfl⟩
  | error fault =>
    rw [text] at read
    cases read

theorem mem_preorder_self (node : Node) : node ∈ node.preorder := by
  cases node
  rw [preorder]
  exact List.mem_cons_self

theorem mem_preorderList {nodes : List Node} (member : node ∈ nodes) :
    node ∈ preorderList nodes := by
  induction nodes with
  | nil => cases member
  | cons first rest ih =>
    rw [preorderList, List.mem_append]
    rcases List.mem_cons.mp member with rfl | later
    · exact .inl (mem_preorder_self _)
    · exact .inr (ih later)

theorem mem_preorder_of_child {child : Node} (member : child ∈ node.children) :
    child ∈ node.preorder := by
  cases node
  rw [preorder]
  exact List.mem_cons_of_mem _ (mem_preorderList member)

mutual

theorem mem_preorder_trans {inner : Node} (below : inner ∈ node.preorder) :
    ∀ tree : Node, node ∈ tree.preorder → inner ∈ tree.preorder
  | mk kind span children, member => by
    rw [preorder] at member
    rcases List.mem_cons.mp member with rfl | later
    · exact below
    · rw [preorder]
      exact List.mem_cons_of_mem _ (mem_preorderList_trans below children later)

theorem mem_preorderList_trans {inner : Node} (below : inner ∈ node.preorder) :
    ∀ nodes : List Node, node ∈ preorderList nodes → inner ∈ preorderList nodes
  | [], member => by
    rw [preorderList] at member
    cases member
  | first :: rest, member => by
    rw [preorderList] at member ⊢
    rcases List.mem_append.mp member with here | later
    · exact List.mem_append_left _ (mem_preorder_trans below first here)
    · exact List.mem_append_right _ (mem_preorderList_trans below rest later)

end

namespace Decodes

variable (decodes : node.Decodes source)

include decodes

theorem text : Succeeds (node.text source) :=
  decodes node node.mem_preorder_self

theorem of_mem {inner : Node} (member : inner ∈ node.preorder) : inner.Decodes source :=
  fun other below => decodes other (mem_preorder_trans below node member)

theorem child {child : Node} (member : child ∈ node.children) : child.Decodes source :=
  decodes.of_mem (mem_preorder_of_child member)

theorem child? {child : Node} {kinds : List String} (found : node.child? kinds = some child) :
    child.Decodes source :=
  decodes.child (List.mem_of_find?_eq_some found)

theorem childText? (kinds : List String) : Succeeds (node.childText? source kinds) := by
  unfold Node.childText?
  cases found : node.child? kinds with
  | none => exact .pure none
  | some child => exact (decodes.child? found).text.bind (fun text => .pure (some text))

theorem childTexts (kinds : List String) :
    Succeeds (Grammar.childTexts source node kinds) := by
  apply Succeeds.mapM
  intro child member
  exact (decodes.child (List.mem_filter.mp member).1).text

theorem named (kinds : List String) : Succeeds (Grammar.named kinds source node) :=
  (decodes.childText? kinds).bind (fun _ => .pure _)

theorem opensWith (word : String) : Succeeds (Grammar.opensWith source node word) := by
  unfold Grammar.opensWith
  cases children : node.children with
  | nil => exact .pure false
  | cons first rest =>
    have member : first ∈ node.children := by rw [children]; exact List.mem_cons_self
    exact (decodes.child member).text.bind (fun _ => .pure _)

end Decodes

end Syntax.Node

namespace Grammar

open Syntax (Node)

/-- The rules judge every node of a tree in which every node has a text, and find its
facts. -/
structure Reads (grammar : Grammar) : Prop where
  accepts : ∀ source node, Node.Decodes source node → Succeeds (grammar.accepts source node)
  facts : ∀ source node, Node.Decodes source node → Succeeds (grammar.facts source node)

section

variable {source : Source} {node : Node} (decodes : node.Decodes source)

include decodes

namespace Python

theorem body?_decodes {body : Node} (found : body? node = some body) :
    body.Decodes source := by
  unfold body? at found
  cases block : node.child? ["block"] with
  | some direct =>
    rw [block] at found
    obtain rfl := Option.some.inj found
    exact decodes.child? block
  | none =>
    rw [block] at found
    obtain ⟨child, member, inner⟩ := List.mem_filterMap.mp (List.mem_of_getLast? found)
    split at inner
    · exact (decodes.child member).child? inner
    · cases inner

theorem docstring?_succeeds : Succeeds (docstring? source node) := by
  unfold docstring?
  cases opening : (body? node).bind (fun body => body.children.head?) with
  | none => exact .pure none
  | some statement =>
    obtain ⟨body, found, first⟩ := Option.bind_eq_some_iff.mp opening
    have inner := (body?_decodes decodes found).child (List.mem_of_head? first)
    apply Succeeds.ite
    · apply (inner.childText? ["string"]).bind
      intro literal
      cases literal with
      | none => exact .pure none
      | some text => exact .pure _
    · exact .pure none

theorem definedNames_succeeds : Succeeds (definedNames source node) := by
  have each : Succeeds ((node.children.filter (fun child =>
      definitionKinds.contains child.kind)).mapM
        (fun child => child.childText? source ["identifier"])) := by
    apply Succeeds.mapM
    intro child member
    exact (decodes.child (List.mem_filter.mp member).1).childText? _
  exact each.bind (fun _ => .pure _)

theorem facts_succeeds : Succeeds (facts source node) := by
  apply (decodes.named _).bind
  intro base
  apply Succeeds.join ((decodes.childTexts _).map _) (.pure none)
  intro decorators
  apply Succeeds.join (definedNames_succeeds decodes) (.pure [])
  intro defined
  apply (docstring?_succeeds decodes).bind
  intro docstring
  exact .pure _

end Python

namespace Web

theorem scriptFacts_succeeds : Succeeds (scriptFacts source node) :=
  (decodes.named _).bind (fun _ => (decodes.opensWith _).bind (fun _ => .pure _))

theorem markupFacts_succeeds : Succeeds (markupFacts source node) := by
  apply (scriptFacts_succeeds decodes).bind
  intro base
  exact .ite (decodes.text.bind (fun _ => .pure _)) (.pure base)

theorem typedFacts_succeeds : Succeeds (typedFacts source node) := by
  apply (decodes.named _).bind
  intro base
  apply (decodes.opensWith _).bind
  intro isAsync
  exact (decodes.opensWith _).bind (fun _ => .pure _)

theorem tagWord?_succeeds (mark present absent : String) :
    Succeeds (tagWord? source node mark present absent) := by
  apply (decodes.childText? _).bind
  intro tag
  cases tag with
  | none => exact .pure none
  | some text => exact .pure _

theorem componentFacts_succeeds : Succeeds (componentFacts source node) := by
  apply Succeeds.join (tagWord?_succeeds decodes _ _ _) (.pure none)
  intro scriptContext
  apply Succeeds.join (tagWord?_succeeds decodes _ _ _) (.pure none)
  intro styleScope
  exact (decodes.named _).bind (fun _ => .pure _)

end Web

namespace Systems

theorem declaratorName?_succeeds (kinds : List String) :
    Succeeds (declaratorName? source node kinds) := by
  unfold declaratorName?
  cases found : node.child? ["function_declarator"] with
  | none => exact .pure none
  | some declarator => exact (decodes.child? found).childText? kinds

theorem cName?_succeeds : Succeeds (cName? source node) := by
  apply Succeeds.ite (declaratorName?_succeeds decodes _)
  apply Succeeds.ite (decodes.childText? _)
  exact .ite ((decodes.childTexts _).bind (fun _ => .pure _)) (.pure none)

theorem cFacts_succeeds : Succeeds (cFacts source node) :=
  (cName?_succeeds decodes).bind (fun _ => .pure _)

theorem cppName?_succeeds : Succeeds (cppName? source node) := by
  apply Succeeds.ite (declaratorName?_succeeds decodes _)
  exact .ite (decodes.childText? _) (.pure none)

theorem cppFacts_succeeds : Succeeds (cppFacts source node) := by
  apply Succeeds.ite
  · cases found : node.child? ["function_definition", "class_specifier"] with
    | none => exact .bind (.pure none) (fun _ => .pure _)
    | some declared =>
      exact (cppName?_succeeds (decodes.child? found)).bind (fun _ => .pure _)
  · exact (cppName?_succeeds decodes).bind (fun _ => .pure _)

theorem receiver?_succeeds : Succeeds (receiver? source node) := by
  unfold receiver?
  cases first : (node.child? ["parameter_list"]).bind
      (·.child? ["parameter_declaration"]) with
  | none => exact .pure none
  | some parameter =>
    obtain ⟨parameters, found, inner⟩ := Option.bind_eq_some_iff.mp first
    exact ((decodes.child? found).child? inner).childText? _

theorem goFacts_succeeds : Succeeds (goFacts source node) := by
  apply (decodes.named _).bind
  intro base
  exact .join (receiver?_succeeds decodes) (.pure none) (fun _ => .pure _)

omit decodes in
theorem marksAsync_succeeds {nodes : List Node}
    (each : ∀ node ∈ nodes, Succeeds (node.text source)) :
    Succeeds (marksAsync source nodes) := by
  induction nodes with
  | nil => exact .pure false
  | cons first rest ih =>
    obtain ⟨here, later⟩ := List.forall_mem_cons.mp each
    apply Succeeds.ite (.pure true)
    exact here.bind (fun _ => .ite (.pure true) (ih later))

theorem rustFacts_succeeds : Succeeds (rustFacts source node) := by
  have texts : ∀ child ∈ node.children, Succeeds (child.text source) :=
    fun child member => (decodes.child member).text
  apply (decodes.named _).bind
  intro base
  apply Succeeds.join (marksAsync_succeeds texts) (.pure false)
  intro isAsync
  exact .join (decodes.childText? _) (.pure none) (fun _ => .pure _)

end Systems

namespace Managed

theorem javaFacts_succeeds : Succeeds (javaFacts source node) := by
  apply (decodes.named _).bind
  intro base
  refine Succeeds.bind (.mapM ?_) (fun _ => .pure _)
  intro child member
  exact (decodes.child (List.mem_filter.mp member).1).childTexts _

theorem csharpFacts_succeeds : Succeeds (csharpFacts source node) :=
  (decodes.named _).bind (fun _ => (decodes.childTexts _).bind (fun _ => .pure _))

theorem elixirAccepts_succeeds : Succeeds (elixirAccepts source node) := by
  refine Succeeds.ite ((decodes.childText? _).bind ?_) (.pure false)
  intro word
  cases word with
  | none => exact .pure false
  | some word => exact .pure _

theorem elixirName?_succeeds : Succeeds (elixirName? source node) := by
  unfold elixirName?
  cases first : (node.child? ["arguments"]).bind
      (·.child? ["alias", "identifier", "call", "dot"]) with
  | none => exact .pure none
  | some argument =>
    obtain ⟨arguments, found, inner⟩ := Option.bind_eq_some_iff.mp first
    have reads := (decodes.child? found).child? inner
    exact .ite (reads.childText? _) (reads.text.bind (fun _ => .pure _))

theorem elixirFacts_succeeds : Succeeds (elixirFacts source node) :=
  (decodes.childText? _).bind (fun _ => (elixirName?_succeeds decodes).bind (fun _ => .pure _))

end Managed

end

end Grammar

/-- The rules of every language but Markdown read trees in which every node has a text. -/
theorem Language.grammar_reads {language : Language} (tree : language ≠ .markdown) :
    language.grammar.Reads := by
  cases language with
  | python => exact ⟨fun _ _ _ => .pure _, fun _ _ => Grammar.Python.facts_succeeds⟩
  | javascript => exact ⟨fun _ _ _ => .pure _, fun _ _ => Grammar.Web.scriptFacts_succeeds⟩
  | jsx => exact ⟨fun _ _ _ => .pure _, fun _ _ => Grammar.Web.markupFacts_succeeds⟩
  | typescript => exact ⟨fun _ _ _ => .pure _, fun _ _ => Grammar.Web.typedFacts_succeeds⟩
  | tsx => exact ⟨fun _ _ _ => .pure _, fun _ _ => Grammar.Web.typedFacts_succeeds⟩
  | svelte => exact ⟨fun _ _ _ => .pure _, fun _ _ => Grammar.Web.componentFacts_succeeds⟩
  | go => exact ⟨fun _ _ _ => .pure _, fun _ _ => Grammar.Systems.goFacts_succeeds⟩
  | rust => exact ⟨fun _ _ _ => .pure _, fun _ _ => Grammar.Systems.rustFacts_succeeds⟩
  | java => exact ⟨fun _ _ _ => .pure _, fun _ _ => Grammar.Managed.javaFacts_succeeds⟩
  | c => exact ⟨fun _ _ _ => .pure _, fun _ _ => Grammar.Systems.cFacts_succeeds⟩
  | cpp => exact ⟨fun _ _ _ => .pure _, fun _ _ => Grammar.Systems.cppFacts_succeeds⟩
  | csharp => exact ⟨fun _ _ _ => .pure _, fun _ _ => Grammar.Managed.csharpFacts_succeeds⟩
  | markdown => exact absurd rfl tree
  | elixir =>
    exact ⟨fun _ _ => Grammar.Managed.elixirAccepts_succeeds,
      fun _ _ => Grammar.Managed.elixirFacts_succeeds⟩

end CodeAtlas
