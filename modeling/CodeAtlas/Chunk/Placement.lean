import CodeAtlas.Chunk.Basic
import CodeAtlas.Fragment.Basic

/-!
# Placing fragments in a project

Each fragment of a file becomes one chunk, in order.  The kind of the chunk is a
common word for the kind of its node, and its tags end with its language.
-/

namespace CodeAtlas

def commonKinds : List (String × String) :=
  [("function_declaration", "function"), ("function_definition", "function"),
    ("arrow_function", "function"), ("function", "function"), ("function_item", "function"),
    ("method_declaration", "method"), ("method_definition", "method"),
    ("class_declaration", "class"), ("class_definition", "class"), ("class_specifier", "class"),
    ("interface_declaration", "interface"), ("type_alias_declaration", "type"),
    ("type_declaration", "type"), ("enum_declaration", "enum"), ("enum_specifier", "enum"),
    ("enum_item", "enum"), ("struct_declaration", "struct"), ("struct_specifier", "struct"),
    ("struct_item", "struct"), ("union_specifier", "union"),
    ("namespace_definition", "namespace"), ("namespace_declaration", "namespace"),
    ("impl_item", "impl"), ("trait_item", "trait"), ("mod_item", "module"),
    ("macro_definition", "macro"), ("constructor_declaration", "constructor"),
    ("destructor_declaration", "destructor"), ("property_declaration", "property"),
    ("event_declaration", "event"), ("template_declaration", "template"),
    ("concept_definition", "concept"), ("annotation_type_declaration", "annotation"),
    ("script_element", "script"), ("style_element", "style"), ("section", "section"),
    ("preamble", "preamble"), ("document", "document")]

namespace Fragment

def containerName? (fragment : Fragment) : Option String :=
  fragment.facts.container.bind Container.name

/-- The kind of the chunk: a function inside a named container is a method. -/
def chunkKind (fragment : Fragment) : String :=
  let common := (commonKinds.lookup fragment.kind).getD fragment.kind
  let isInside := !(fragment.containerName?.getD "").isEmpty
  if isInside && common == "function" then "method" else common

/-- The tags of the chunk, the language last. -/
def chunkTags (fragment : Fragment) : List String :=
  let facts := fragment.facts
  let marks := [(facts.isAsync, "async"), (facts.isGenerator, "generator"),
    (facts.isExport, "export"), (facts.hasGenerics, "generic"), (facts.isComponent, "component")]
  (marks.filter Prod.fst).map Prod.snd ++ [fragment.language]

end Fragment

namespace Path

def relativeTo (path root : Path) : Except Fault Path :=
  match path.relativeTo? root with
  | some relative => .ok relative
  | none => .error (.outsideRoot path.toString root.bareText)

end Path

/-- The folder that holds a file, as a list of at most one name. -/
def holdingFolder (path : Path) : List String :=
  let name := path.parent.name
  if name.isEmpty then [] else [name]

def Fragment.toChunk (root : Option Path) (path : Path) (fragment : Fragment) :
    Except Fault Chunk := do
  let relative ←
    match root with
    | some root => path.relativeTo root
    | none => .ok path
  let folders :=
    match root with
    | some _ => relative.parent.parts
    | none => holdingFolder path
  return Chunk.place {
    content := fragment.content
    kind := fragment.chunkKind
    startLine := fragment.startLine
    endLine := fragment.endLine
    filePath := path.toString
    relativePath := relative.toString
    folders
    name := fragment.facts.name
    parentName := fragment.containerName?
    docstring := fragment.facts.docstring
    decorators := fragment.facts.decorators.getD []
    tags := fragment.chunkTags }

/-- The chunks of the fragments of a file; an empty root counts as none. -/
def chunksOfFragments (root : String) (file : String) (fragments : List Fragment) :
    Except Fault (List Chunk) :=
  let base := if root.isEmpty then none else some (Path.ofString root)
  fragments.mapM (Fragment.toChunk base (Path.ofString file))

end CodeAtlas
