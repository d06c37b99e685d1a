import CodeAtlas.Search.Results

/-!
# Replies of the server

A reply is a document and the way in which its text is set out.
-/

namespace CodeAtlas

structure ToolReply where
  value : Value
  layout : Json.Layout

namespace ToolReply

def text (reply : ToolReply) : String :=
  Json.write reply.layout reply.value

def error (message : String) : ToolReply :=
  ⟨.record [("error", .text message)], .spaced⟩

def isError (reply : ToolReply) : Bool :=
  (reply.value.field? "error").isSome

/-- The first line of a preview that is not blank, with single spaces and cut to 160
characters. -/
def snippet (preview : Value) : Except Fault String :=
  if !preview.isTruthy then .ok ""
  else match preview with
    | .text text =>
      match (Text.lines text).find? (fun line => !Text.isBlankText line) with
      | none => .ok ""
      | some line =>
        let short := Text.join " " (Text.words line)
        .ok (if 160 < short.length then Text.take short 157 ++ "..." else short)
    | other => .error (.unsuitable (other.lacks "split"))

def roundedScore (places : Nat) (similarity : Similarity) : Value :=
  .real (Number.roundPlaces places similarity.toFloat)

/-- A result in the reply to a search.  A name or snippet that is empty is left out. -/
def searchItem (result : SearchResult) : Except Fault Value := do
  let name := result.field "name" .null
  let shown ← snippet result.preview
  return .record ([("file", result.field "relative_path" (.text "")),
    ("lines", .text result.lines), ("kind", result.kind),
    ("score", roundedScore 2 result.hit.similarity),
    ("chunk_id", .text result.hit.identifier)] ++
    (if name.isTruthy then [("name", name)] else []) ++
    (if shown.isEmpty then [] else [("snippet", .text shown)]))

def ofSearch (query : Value) (results : List SearchResult) : Except Fault ToolReply := do
  let items ← results.mapM searchItem
  return ⟨.record [("query", query), ("results", .list items)], .compact⟩

def similarItem (result : SearchResult) : Value :=
  .record [("file_path", result.field "relative_path" (.text "")),
    ("lines", .text result.lines), ("chunk_type", result.kind),
    ("name", result.field "name" .null),
    ("similarity_score", roundedScore 3 result.hit.similarity),
    ("content_preview", result.preview), ("tags", result.tags)]

def ofSimilar (identifier : Value) (results : List SearchResult) : ToolReply :=
  ⟨.record [("reference_chunk", identifier),
    ("similar_chunks", .list (results.map similarItem))], .indented⟩

end ToolReply

end CodeAtlas
