import CodeAtlas.Syntax.Node

/-!
# Fragments

A fragment is a piece of a source text that stands for one definition, section
or whole document.  Its facts say what the syntax around it tells about it.
-/

namespace CodeAtlas

inductive ContainerKind where
  | type
  | module
deriving DecidableEq

def ContainerKind.name : ContainerKind → String
  | .type => "class"
  | .module => "module"

structure Container where
  name : Option String
  kind : ContainerKind
deriving DecidableEq

structure Facts where
  nodeKind : Option String := none
  role : Option String := none
  name : Option String := none
  docstring : Option String := none
  decorators : Option (List String) := none
  parameterCount : Option Nat := none
  headingLevel : Option Nat := none
  keyword : Option String := none
  receiverType : Option String := none
  implementedType : Option String := none
  scriptContext : Option String := none
  styleScope : Option String := none
  modifiers : List String := []
  isAsync : Bool := false
  isGenerator : Bool := false
  isExport : Bool := false
  isComponent : Bool := false
  isTemplate : Bool := false
  hasGenerics : Bool := false
  container : Option Container := none
deriving DecidableEq, Inhabited

namespace Facts

def textField (name : String) (value : Option String) : Record :=
  match value with
  | some text => [(name, .text text)]
  | none => []

def countField (name : String) (value : Option Nat) : Record :=
  match value with
  | some count => [(name, .int count)]
  | none => []

def flagField (name : String) (value : Bool) : Record :=
  if value then [(name, .bool true)] else []

def containerFields (container : Option Container) : Record :=
  match container with
  | some container =>
    [("parent_name", .ofText? container.name), ("parent_type", .text container.kind.name)]
  | none => []

/-- The facts as a record that holds only what is known. -/
def toRecord (facts : Facts) : Record :=
  textField "node_type" facts.nodeKind ++ textField "type" facts.role ++
    textField "name" facts.name ++ textField "docstring" facts.docstring ++
    (match facts.decorators with
      | some decorators => [("decorators", .ofTexts decorators)]
      | none => []) ++
    countField "param_count" facts.parameterCount ++
    countField "heading_level" facts.headingLevel ++
    textField "keyword" facts.keyword ++ textField "receiver_type" facts.receiverType ++
    textField "impl_type" facts.implementedType ++
    textField "script_type" facts.scriptContext ++ textField "style_scope" facts.styleScope ++
    (if facts.modifiers.isEmpty then [] else [("modifiers", .ofTexts facts.modifiers)]) ++
    flagField "is_async" facts.isAsync ++ flagField "is_generator" facts.isGenerator ++
    flagField "is_export" facts.isExport ++ flagField "is_component" facts.isComponent ++
    flagField "is_template" facts.isTemplate ++ flagField "has_generics" facts.hasGenerics ++
    containerFields facts.container

end Facts

structure Fragment where
  content : String
  startLine : Int
  endLine : Int
  kind : String
  language : String
  facts : Facts
deriving DecidableEq, Inhabited

def Fragment.toRecord (fragment : Fragment) : Record :=
  [("content", .text fragment.content), ("start_line", .int fragment.startLine),
    ("end_line", .int fragment.endLine), ("type", .text fragment.kind),
    ("language", .text fragment.language), ("metadata", .record fragment.facts.toRecord)]

end CodeAtlas
