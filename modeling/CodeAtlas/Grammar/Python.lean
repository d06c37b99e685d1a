import CodeAtlas.Grammar.Basic

/-!
# Python sources

Functions, classes and decorated definitions become fragments.  The docstring is
the string that stands first in the body.
-/

namespace CodeAtlas.Grammar.Python

open Syntax (Node)

def definitionKinds : List String :=
  ["function_definition", "class_definition"]

/-- The first block directly below, or else the first block of the last definition
below that has one. -/
def body? (node : Node) : Option Node :=
  match node.child? ["block"] with
  | some block => some block
  | none =>
    (node.children.filterMap (fun child =>
      if definitionKinds.contains child.kind then child.child? ["block"] else none)).getLast?

def unquote (literal : String) : String :=
  let inner :=
    if Text.startsWith literal "\"\"\"" || Text.startsWith literal "'''" then
      Text.slice literal 3 (-3)
    else if Text.startsWith literal "\"" || Text.startsWith literal "'" then
      Text.slice literal 1 (-1)
    else literal
  Text.trim inner

/-- The string that opens the body of a definition, unless it is empty. -/
def docstring? (source : Source) (node : Node) : Except Fault (Option String) :=
  match (body? node).bind (fun body => body.children.head?) with
  | some statement =>
    if statement.kind == "expression_statement" then do
      match ← statement.childText? source ["string"] with
      | some literal =>
        let text := unquote literal
        return if text.isEmpty then none else some text
      | none => return none
    else .ok none
  | none => .ok none

def definedNames (source : Source) (node : Node) : Except Fault (List String) := do
  let names ← (node.children.filter (fun child => definitionKinds.contains child.kind)).mapM
    (fun child => child.childText? source ["identifier"])
  return names.filterMap id

def parameterKinds : List String :=
  ["identifier", "typed_parameter", "default_parameter"]

def parameterCount? (node : Node) : Option Nat :=
  let isFunction := node.kind == "function_definition" ||
    (node.kind == "decorated_definition" && node.hasChild ["function_definition"])
  if isFunction then
    (node.child? ["parameters"]).map (fun parameters =>
      (parameters.children.filter (fun child => parameterKinds.contains child.kind)).length)
  else none

def facts (source : Source) (node : Node) : Except Fault Facts := do
  let base ← named ["identifier"] source node
  let isDecorated := node.kind == "decorated_definition"
  let decorators ←
    if isDecorated then some <$> childTexts source node ["decorator"] else pure none
  let defined ← if isDecorated then definedNames source node else pure []
  let docstring ← docstring? source node
  return { base with
    name := defined.getLast?.or base.name
    decorators
    docstring
    parameterCount := parameterCount? node }

def splittable : List String :=
  ["function_definition", "class_definition", "decorated_definition"]

end CodeAtlas.Grammar.Python

namespace CodeAtlas.Grammar

def python : Grammar where
  label := "python"
  splittable := Python.splittable
  accepts := byKind Python.splittable
  facts := Python.facts

end CodeAtlas.Grammar
