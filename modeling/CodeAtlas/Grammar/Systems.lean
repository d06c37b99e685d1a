import CodeAtlas.Grammar.Basic

/-!
# Systems languages

C, C++, Go and Rust sources.
-/

namespace CodeAtlas.Grammar

open Syntax (Node)

namespace Systems

def declaratorName? (source : Source) (node : Node) (kinds : List String) :
    Except Fault (Option String) :=
  match node.child? ["function_declarator"] with
  | some declarator => declarator.childText? source kinds
  | none => .ok none

def cKinds : List String :=
  ["function_definition", "struct_specifier", "union_specifier", "enum_specifier",
    "type_definition"]

def cName? (source : Source) (node : Node) : Except Fault (Option String) :=
  if node.kind == "function_definition" then declaratorName? source node ["identifier"]
  else if ["struct_specifier", "union_specifier", "enum_specifier"].contains node.kind then
    node.childText? source ["type_identifier", "identifier"]
  else if node.kind == "type_definition" then do
    return (← childTexts source node ["identifier"]).getLast?
  else .ok none

def cFacts (source : Source) (node : Node) : Except Fault Facts := do
  return { nodeKind := some node.kind, name := ← cName? source node }

def cppKinds : List String :=
  ["function_definition", "class_specifier", "struct_specifier", "union_specifier",
    "enum_specifier", "namespace_definition", "template_declaration", "concept_definition"]

def cppName? (source : Source) (node : Node) : Except Fault (Option String) :=
  if node.kind == "function_definition" then
    declaratorName? source node ["identifier", "qualified_identifier"]
  else if ["class_specifier", "struct_specifier", "namespace_definition"].contains node.kind then
    node.childText? source ["type_identifier", "identifier"]
  else .ok none

/-- A template is named by the function or class that it declares. -/
def cppFacts (source : Source) (node : Node) : Except Fault Facts := do
  if node.kind == "template_declaration" then
    let name ←
      match node.child? ["function_definition", "class_specifier"] with
      | some declared => cppName? source declared
      | none => pure none
    return { nodeKind := some node.kind, name, isTemplate := true }
  else
    return { nodeKind := some node.kind, name := ← cppName? source node }

def goKinds : List String :=
  ["function_declaration", "method_declaration", "type_declaration", "interface_declaration",
    "struct_declaration"]

def receiver? (source : Source) (node : Node) : Except Fault (Option String) :=
  match (node.child? ["parameter_list"]).bind (·.child? ["parameter_declaration"]) with
  | some parameter => parameter.childText? source ["identifier", "pointer_type", "type_identifier"]
  | none => .ok none

def goFacts (source : Source) (node : Node) : Except Fault Facts := do
  let base ← named ["identifier"] source node
  let receiverType ←
    if node.kind == "method_declaration" then receiver? source node else pure none
  return { base with receiverType }

def rustKinds : List String :=
  ["function_item", "impl_item", "struct_item", "enum_item", "trait_item", "mod_item",
    "macro_definition"]

def marksAsync (source : Source) : List Node → Except Fault Bool
  | [] => .ok false
  | node :: rest =>
    if node.kind == "async" then .ok true
    else do
      if (← node.text source) == "async" then return true else marksAsync source rest

def rustFacts (source : Source) (node : Node) : Except Fault Facts := do
  let base ← named ["identifier", "type_identifier"] source node
  let isAsync ←
    if node.kind == "function_item" then marksAsync source node.children else pure false
  let implementedType ←
    if node.kind == "impl_item" then node.childText? source ["type_identifier", "generic_type"]
    else pure none
  return { base with isAsync, implementedType }

end Systems

def c : Grammar where
  label := "c"
  splittable := Systems.cKinds
  accepts := byKind Systems.cKinds
  facts := Systems.cFacts

def cpp : Grammar where
  label := "cpp"
  splittable := Systems.cppKinds
  accepts := byKind Systems.cppKinds
  facts := Systems.cppFacts

def go : Grammar where
  label := "go"
  splittable := Systems.goKinds
  accepts := byKind Systems.goKinds
  facts := Systems.goFacts

def rust : Grammar where
  label := "rust"
  splittable := Systems.rustKinds
  accepts := byKind Systems.rustKinds
  facts := Systems.rustFacts

end CodeAtlas.Grammar
