import CodeAtlas.Chunk.Loose
import CodeAtlas.Embedding.Basic
import CodeAtlas.Embedding.Budget

/-!
# Embedding loose chunks

The text that is embedded for a chunk comes from its docstring and its content.  A
docstring may be any value that has a length; the content has to be a text.
-/

namespace CodeAtlas

namespace LooseChunk

/-- The docstring between its quotes, unless it counts as none.  Only a text can be cut. -/
def docstringPart (docstring : Value) : Except Fault (Option String) := do
  match docstring with
  | .text text => return Excerpt.docstringPart (some text)
  | other =>
    if !other.isTruthy then return none
    else if 300 < (← other.length) then throw (.wrongType other.notHashable)
    else return some ("\"\"\"" ++ other.display ++ "\"\"\"")

/-- The content, which has to be a text; within the budget another value fails to be joined,
above it to be cut. -/
def contentText (budget : Budget) (content : Value) : Except Fault String :=
  match content with
  | .text text => .ok text
  | other => do
    if budget.holds (← other.length) then throw (.wrongType "not a text")
    else throw (.unsuitable (other.lacks "split"))

def excerpt (limit : Value) (chunk : LooseChunk) : Except Fault String := do
  let docstring ← docstringPart chunk.docstring
  let used := (docstring.map String.length).getD 0
  let budget ← Budget.ofLimit limit used
  let code ← budget.code used (← contentText budget chunk.content)
  return match docstring with
    | some part => Text.join "\n" [part, code]
    | none => code

def indexRecord (chunk : LooseChunk) : Record :=
  chunk.placeFields ++ [("content_preview", match chunk.content with
    | .text content => .text (Text.abbreviate content 200)
    | other => other)]

def embeddedAs (chunk : LooseChunk) (embedding : Embedding) : Embedded :=
  ⟨chunk.identifier, embedding, chunk.indexRecord⟩

end LooseChunk

namespace Encoder

def embedLooseChunk (encoder : Encoder) (chunk : LooseChunk) : Except Fault Embedded := do
  let vector ← encoder.embedQuery (← chunk.excerpt (.int Excerpt.standardLimit))
  return chunk.embeddedAs vector

def embedLooseBatch (encoder : Encoder) (batch : List LooseChunk × Nat) :
    Except Fault (List Embedded) := do
  let texts ← batch.1.mapM (LooseChunk.excerpt (.int Excerpt.standardLimit))
  match encoder.encode batch.2 texts with
  | .ok vectors =>
    return (batch.1.zip vectors).map (fun (chunk, vector) => chunk.embeddedAs vector)
  | .error _ => return []

/-- Embed loose chunks one by one; those of the right types are chunks. -/
def embedLooselySingle (encoder : Encoder) (chunks : List LooseChunk) :
    Except Fault (List Embedded) :=
  match chunks.mapM LooseChunk.regular? with
  | some chunks => chunks.mapM encoder.embedChunk
  | none => chunks.mapM encoder.embedLooseChunk

/-- Embed loose chunks in batches; those of the right types are chunks. -/
def embedLoosely (encoder : Encoder) (size : Int) (chunks : List LooseChunk) :
    Except Fault (List Embedded) :=
  match chunks.mapM LooseChunk.regular? with
  | some chunks => encoder.embedChunks size chunks
  | none =>
    if size = 0 then .error .emptyBatch
    else if size < 0 then .ok []
    else do
      return (← (batches size.toNat chunks).zipIdx.mapM encoder.embedLooseBatch).flatten

end Encoder

end CodeAtlas
