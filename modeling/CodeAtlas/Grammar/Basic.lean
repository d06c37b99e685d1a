import CodeAtlas.Fragment.Basic
import CodeAtlas.Syntax.Language

/-!
# Grammars

A grammar says which nodes of a syntax tree become fragments and what is read
off such a node.  Texts of nodes are decoded only where a rule asks for them, so
a node that is no text spoils a source only if a rule looks at it.
-/

namespace CodeAtlas

structure Grammar where
  label : String
  splittable : List String
  accepts : Source → Syntax.Node → Except Fault Bool
  facts : Source → Syntax.Node → Except Fault Facts

namespace Grammar

open Syntax (Node)

def byKind (kinds : List String) (_ : Source) (node : Node) : Except Fault Bool :=
  .ok (kinds.contains node.kind)

/-- Facts with the kind of the node and the text of its first child of a listed kind
as its name. -/
def named (kinds : List String) (source : Source) (node : Node) : Except Fault Facts := do
  let name ← node.childText? source kinds
  return { nodeKind := some node.kind, name }

def opensWith (source : Source) (node : Node) (word : String) : Except Fault Bool :=
  match node.children with
  | [] => .ok false
  | first :: _ => do return (← first.text source) == word

def childTexts (source : Source) (node : Node) (kinds : List String) :
    Except Fault (List String) :=
  (node.children.filter (fun child => kinds.contains child.kind)).mapM (·.text source)

end Grammar

end CodeAtlas
