import CodeAtlas.Grammar.Python
import CodeAtlas.Grammar.Web
import CodeAtlas.Grammar.Systems
import CodeAtlas.Grammar.Managed
import CodeAtlas.Grammar.Markdown

/-!
# Cutting a source into fragments

The tree is walked from the root.  An accepted node becomes a fragment, and the
walk goes on below it only if it is a container of definitions; what is found
there carries the container.  A source without any fragment is one module.
-/

namespace CodeAtlas

namespace Language

def grammar : Language → Grammar
  | .python => .python
  | .javascript => .javascript
  | .jsx => .jsx
  | .typescript => .typescript
  | .tsx => .tsx
  | .svelte => .svelte
  | .go => .go
  | .rust => .rust
  | .java => .java
  | .c => .c
  | .cpp => .cpp
  | .csharp => .csharp
  | .markdown => .markdown
  | .elixir => .elixir

end Language

namespace Grammar

open Syntax (Node)

/-- The kind of container that a node of this kind is, if definitions are looked
for below it. -/
def containerKind? (kind : String) : Option ContainerKind :=
  if kind == "class_definition" || kind == "class_declaration" then some .type
  else if kind == "call" then some .module
  else none

def fragmentOf (grammar : Grammar) (source : Source) (container : Option Container)
    (node : Node) : Except Fault Fragment := do
  let content ← node.text source
  let facts ← grammar.facts source node
  return {
    content
    startLine := node.startLine
    endLine := node.endLine
    kind := node.kind
    language := grammar.label
    facts := { facts with container } }

mutual

/-- The fragments at and below a node, in pre-order. -/
def collect (grammar : Grammar) (source : Source) (container : Option Container) :
    Node → Except Fault (List Fragment)
  | .mk kind span children => do
    if ← grammar.accepts source (.mk kind span children) then
      let fragment ← grammar.fragmentOf source container (.mk kind span children)
      match containerKind? kind with
      | some containerKind =>
        let inner := some { name := fragment.facts.name, kind := containerKind }
        return fragment :: (← collectList grammar source inner children)
      | none => return [fragment]
    else collectList grammar source container children

def collectList (grammar : Grammar) (source : Source) (container : Option Container) :
    List Node → Except Fault (List Fragment)
  | [] => .ok []
  | node :: rest => do
    let first ← collect grammar source container node
    return first ++ (← collectList grammar source container rest)

end

/-- A source without fragments as one module, unless it is blank. -/
def wholeModule (grammar : Grammar) (source : Source) : List Fragment :=
  if Text.isBlankText source.text then []
  else [{
    content := source.text
    startLine := 1
    endLine := source.lineCount
    kind := "module"
    language := grammar.label
    facts := { role := some "module" } }]

/-- The fragments that the tree gives, or the whole module. -/
def fragments (grammar : Grammar) (source : Source) (tree : Node) :
    Except Fault (List Fragment) := do
  let found ← grammar.collect source none tree
  return if found.isEmpty then grammar.wholeModule source else found

end Grammar

def Language.fragments (language : Language) (source : Source) (tree : Syntax.Node) :
    Except Fault (List Fragment) :=
  if language = .markdown then Grammar.Markdown.fragments language.grammar.label source tree
  else language.grammar.fragments source tree

end CodeAtlas
