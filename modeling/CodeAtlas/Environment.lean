import CodeAtlas.Index.Gpu
import CodeAtlas.Syntax.Language
import CodeAtlas.Syntax.Node
import CodeAtlas.Tracking.Build

/-!
# What the program finds around it

Everything that is given from outside and stays the same while the program runs:
digest functions, parsers, the embedding model, places on the disk.
-/

namespace CodeAtlas

/-- The tree of a source by the parser of a language. -/
structure Parser where
  tree : Language → Source → Syntax.Node

/-- One tree for all languages. -/
instance : Coe (Source → Syntax.Node) Parser where
  coe tree := ⟨fun _ => tree⟩

structure Environment where
  digest : DigestFunction
  pathDigest : DigestFunction
  languages : List Language
  parse : Parser
  encoder : Encoder
  gpu : GpuSupport
  home : Path
  storage : Path
  /-- A small project to try things out. -/
  sample : Path

end CodeAtlas
