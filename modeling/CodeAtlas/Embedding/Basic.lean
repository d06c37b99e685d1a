import CodeAtlas.Embedding.Excerpt
import CodeAtlas.Fault

/-!
# Embedding chunks

An encoder turns texts into vectors, all at once or not at all.  Chunks are
embedded in consecutive batches; a batch for which the encoder fails is left out.
-/

namespace CodeAtlas

abbrev Embedding := List Float

/-- Turns texts into vectors, one for each text and in the same order.  What comes of it may
depend on how many batches went before. -/
structure Encoder where
  encode : Nat → List String → Except Fault (List Embedding)

structure Embedded where
  identifier : String
  embedding : Embedding
  record : Record

namespace Chunk

/-- The characters of the content that are shown with a search result. -/
def preview (chunk : Chunk) : String :=
  Text.abbreviate chunk.content 200

def indexRecord (chunk : Chunk) : Record :=
  chunk.placeFields ++ [("content_preview", .text chunk.preview)]

def embeddedAs (chunk : Chunk) (embedding : Embedding) : Embedded :=
  ⟨chunk.identifier, embedding, chunk.indexRecord⟩

def excerpt (chunk : Chunk) : String :=
  Excerpt.ofChunk Excerpt.standardLimit chunk

end Chunk

def batches (size : Nat) : List α → List (List α)
  | [] => []
  | item :: rest => (item :: rest.take (size - 1)) :: batches size (rest.drop (size - 1))
termination_by items => items.length
decreasing_by
  simp only [List.length_drop, List.length_cons]
  omega

namespace Encoder

private def firstOf (vectors : List Embedding) : Except Fault Embedding :=
  match vectors with
  | vector :: _ => .ok vector
  | [] => .error .outOfRange

def embedChunk (encoder : Encoder) (chunk : Chunk) : Except Fault Embedded := do
  let vector ← firstOf (← encoder.encode 0 [chunk.excerpt])
  return chunk.embeddedAs vector

/-- The vectors for a batch that has so many batches before it. -/
def answer (encoder : Encoder) (batch : List Chunk × Nat) : Except Fault (List Embedding) :=
  encoder.encode batch.2 (batch.1.map Chunk.excerpt)

/-- Embed one batch; nothing if the encoder fails. -/
def embedBatch (encoder : Encoder) (batch : List Chunk × Nat) : List Embedded :=
  match encoder.answer batch with
  | .ok vectors => (batch.1.zip vectors).map (fun (chunk, vector) => chunk.embeddedAs vector)
  | .error _ => []

/-- Embed chunks in batches of the given size.  A size below zero gives no batch. -/
def embedChunks (encoder : Encoder) (size : Int) (chunks : List Chunk) :
    Except Fault (List Embedded) :=
  if size = 0 then .error .emptyBatch
  else if size < 0 then .ok []
  else .ok ((batches size.toNat chunks).zipIdx.flatMap encoder.embedBatch)

def standardBatch : Int :=
  32

def embedQuery (encoder : Encoder) (query : String) : Except Fault Embedding := do
  firstOf (← encoder.encode 0 [query])

/-- Encode a text by how often each word of a vocabulary occurs in it, with a final
one.  A text that holds the refused word makes the whole call fail. -/
def counting (vocabulary : List String) (refused : String) : Encoder where
  encode _ texts :=
    if !refused.isEmpty && texts.any (Text.contains · refused) then
      .error (.modelFailed "model failure")
    else
      .ok (texts.map (fun text =>
        vocabulary.map (fun word => (Text.count text word).toFloat) ++ [1.0]))

end Encoder

end CodeAtlas
