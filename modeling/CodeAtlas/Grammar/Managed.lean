import CodeAtlas.Grammar.Basic

/-!
# Managed and functional languages

Java, C# and Elixir sources.
-/

namespace CodeAtlas.Grammar

open Syntax (Node)

namespace Managed

def javaKinds : List String :=
  ["method_declaration", "constructor_declaration", "class_declaration", "interface_declaration",
    "enum_declaration", "annotation_type_declaration"]

def javaModifiers : List String :=
  ["public", "private", "protected", "static", "final", "abstract", "synchronized"]

def javaFacts (source : Source) (node : Node) : Except Fault Facts := do
  let base ← named ["identifier"] source node
  let modifiers ← (node.children.filter (·.kind == "modifiers")).mapM
    (fun child => childTexts source child javaModifiers)
  return { base with
    modifiers := modifiers.flatten
    hasGenerics := node.hasChild ["type_parameters"] }

def csharpKinds : List String :=
  ["method_declaration", "constructor_declaration", "destructor_declaration",
    "class_declaration", "struct_declaration", "interface_declaration", "enum_declaration",
    "namespace_declaration", "property_declaration", "event_declaration"]

def csharpModifiers : List String :=
  ["public", "private", "protected", "internal", "static", "virtual", "abstract", "override",
    "async"]

def csharpFacts (source : Source) (node : Node) : Except Fault Facts := do
  let base ← named ["identifier"] source node
  let texts ← childTexts source node ["modifier"]
  let modifiers := texts.filter csharpModifiers.contains
  return { base with
    modifiers
    isAsync := modifiers.contains "async"
    hasGenerics := node.hasChild ["type_parameter_list"] }

def definingWords : List String :=
  ["defmodule", "def", "defp", "defmacro", "defmacrop", "defimpl", "defprotocol", "defstruct",
    "defguard", "defguardp", "defdelegate", "defoverridable"]

/-- Calls of the words that define something become fragments. -/
def elixirAccepts (source : Source) (node : Node) : Except Fault Bool := do
  if node.kind == "call" then
    match ← node.childText? source ["identifier"] with
    | some word => return definingWords.contains word
    | none => return false
  else
    return false

def elixirName? (source : Source) (node : Node) : Except Fault (Option String) :=
  match (node.child? ["arguments"]).bind (·.child? ["alias", "identifier", "call", "dot"]) with
  | some argument =>
    if argument.kind == "call" then argument.childText? source ["identifier"]
    else do return some (← argument.text source)
  | none => .ok none

def elixirFacts (source : Source) (node : Node) : Except Fault Facts := do
  let keyword ← node.childText? source ["identifier"]
  let name ← elixirName? source node
  return { nodeKind := some node.kind, keyword, name }

end Managed

def java : Grammar where
  label := "java"
  splittable := Managed.javaKinds
  accepts := byKind Managed.javaKinds
  facts := Managed.javaFacts

def csharp : Grammar where
  label := "csharp"
  splittable := Managed.csharpKinds
  accepts := byKind Managed.csharpKinds
  facts := Managed.csharpFacts

def elixir : Grammar where
  label := "elixir"
  splittable := ["call"]
  accepts := Managed.elixirAccepts
  facts := Managed.elixirFacts

end CodeAtlas.Grammar
