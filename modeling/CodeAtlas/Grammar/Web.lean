import CodeAtlas.Grammar.Basic

/-!
# Scripts and components of the web

JavaScript, JavaScript with markup, TypeScript with and without markup, and
Svelte components.
-/

namespace CodeAtlas.Grammar

open Syntax (Node)

namespace Web

def scriptKinds : List String :=
  ["function_declaration", "function", "arrow_function", "class_declaration",
    "method_definition", "generator_function", "generator_function_declaration"]

def scriptFacts (source : Source) (node : Node) : Except Fault Facts := do
  let base ← named ["identifier"] source node
  let isAsync ← opensWith source node "async"
  return { base with isAsync, isGenerator := Text.contains node.kind "generator" }

def looksLikeComponent (text : String) : Bool :=
  Text.contains text "<" && (Text.contains (Text.lower text) "jsx" || Text.contains text "return")

def markupFacts (source : Source) (node : Node) : Except Fault Facts := do
  let base ← scriptFacts source node
  if ["function_declaration", "arrow_function", "function"].contains node.kind then
    let text ← node.text source
    return { base with isComponent := looksLikeComponent text }
  else
    return base

def typedKinds : List String :=
  scriptKinds ++ ["interface_declaration", "type_alias_declaration", "enum_declaration"]

def typedFacts (source : Source) (node : Node) : Except Fault Facts := do
  let base ← named ["identifier", "type_identifier"] source node
  let isAsync ← opensWith source node "async"
  let isExport ← opensWith source node "export"
  return { base with isAsync, isExport, hasGenerics := node.hasChild ["type_parameters"] }

def componentKinds : List String :=
  ["script_element", "style_element", "function_declaration", "function", "arrow_function",
    "class_declaration", "method_definition"]

/-- One of two words, by whether the start tag holds a mark; none without a tag. -/
def tagWord? (source : Source) (node : Node) (mark present absent : String) :
    Except Fault (Option String) := do
  match ← node.childText? source ["start_tag"] with
  | some tag => return some (if Text.contains tag mark then present else absent)
  | none => return none

def componentFacts (source : Source) (node : Node) : Except Fault Facts := do
  let scriptContext ←
    if node.kind == "script_element" then
      tagWord? source node "context=\"module\"" "module" "instance"
    else pure none
  let styleScope ←
    if node.kind == "style_element" then tagWord? source node "global" "global" "component"
    else pure none
  let base ← named ["identifier"] source node
  return { base with scriptContext, styleScope }

end Web

def javascript : Grammar where
  label := "javascript"
  splittable := Web.scriptKinds
  accepts := byKind Web.scriptKinds
  facts := Web.scriptFacts

/-- The rules for JavaScript with markup; its fragments are filed as JavaScript. -/
def jsx : Grammar where
  label := "javascript"
  splittable := Web.scriptKinds ++ ["jsx_element", "jsx_self_closing_element"]
  accepts := byKind (Web.scriptKinds ++ ["jsx_element", "jsx_self_closing_element"])
  facts := Web.markupFacts

def typescript : Grammar where
  label := "typescript"
  splittable := Web.typedKinds
  accepts := byKind Web.typedKinds
  facts := Web.typedFacts

def tsx : Grammar :=
  { typescript with label := "tsx" }

def svelte : Grammar where
  label := "svelte"
  splittable := Web.componentKinds
  accepts := byKind Web.componentKinds
  facts := Web.componentFacts

end CodeAtlas.Grammar
