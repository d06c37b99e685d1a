import CodeAtlas.Fault

/-!
# Syntax trees

A node of a syntax tree has a kind, the bytes of the source that it covers, the
rows on which it starts and ends, and its children.  The parser is not part of
the library: trees come from outside.
-/

namespace CodeAtlas

/-- A source text together with its bytes. -/
structure Source where
  text : String
  bytes : ByteArray

namespace Source

def ofText (text : String) : Source :=
  ⟨text, text.toUTF8⟩

/-- The number of lines, one more than the line feeds. -/
def lineCount (source : Source) : Nat :=
  (Text.lines source.text).length

end Source

namespace Syntax

/-- The bytes and rows that a node covers; rows count from zero.  A byte position below
zero counts from the end of the source. -/
structure Span where
  startByte : Int
  stopByte : Int
  startRow : Int
  stopRow : Int
deriving Inhabited, DecidableEq

inductive Node where
  | mk (kind : String) (span : Span) (children : List Node)
deriving Inhabited

namespace Node

def kind : Node → String
  | mk kind _ _ => kind

def span : Node → Span
  | mk _ span _ => span

def children : Node → List Node
  | mk _ _ children => children

/-- The line on which the node starts, counted from one. -/
def startLine (node : Node) : Int :=
  node.span.startRow + 1

def endLine (node : Node) : Int :=
  node.span.stopRow + 1

def bytes (source : Source) (node : Node) : ByteArray :=
  source.bytes.extract (Text.sliceBound source.bytes.size node.span.startByte)
    (Text.sliceBound source.bytes.size node.span.stopByte)

def text (source : Source) (node : Node) : Except Fault String :=
  match Text.Utf8.read (node.bytes source) with
  | .ok text => .ok text
  | .error problem => .error (.undecodable problem)

def child? (node : Node) (kinds : List String) : Option Node :=
  node.children.find? (fun child => kinds.contains child.kind)

def childText? (source : Source) (node : Node) (kinds : List String) :
    Except Fault (Option String) :=
  match node.child? kinds with
  | some child => do return some (← child.text source)
  | none => .ok none

def hasChild (node : Node) (kinds : List String) : Bool :=
  (node.child? kinds).isSome

mutual

/-- The node and everything below it, parents before children. -/
def preorder : Node → List Node
  | mk kind span children => mk kind span children :: preorderList children

def preorderList : List Node → List Node
  | [] => []
  | node :: rest => node.preorder ++ preorderList rest

end

end Node

end Syntax

end CodeAtlas
