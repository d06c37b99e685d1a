import CodeAtlas.Data.Needed
import CodeAtlas.Environment
import CodeAtlas.Index.Manager
import CodeAtlas.Search.Profile

/-!
# Search results

A query is embedded, the most similar chunks are looked up and ranked.  A result
may carry context: chunks similar to it and facts about its file.
-/

namespace CodeAtlas

structure ResultContext where
  similar : List Hit
  filesIndexed : Value
  folderPath : Option String

structure SearchResult where
  hit : Hit
  context : Option ResultContext

def Hit.field (hit : Hit) (name : String) (other : Value) : Value :=
  (hit.record.lookup name).getD other

namespace SearchResult

def field (result : SearchResult) (name : String) (other : Value) : Value :=
  result.hit.field name other

/-- The short form of a chunk that is similar to a result.  `write` is the form of
similarities. -/
def similarValue (write : Similarity → Value) (hit : Hit) : Value :=
  .record [("chunk_id", .text hit.identifier), ("similarity", write hit.similarity),
    ("name", hit.field "name" .null), ("chunk_type", hit.field "chunk_type" .null)]

def contextRecord (write : Similarity → Value) (result : SearchResult) : Record :=
  match result.context with
  | none => []
  | some context =>
    [("similar_chunks", .list (context.similar.map (similarValue write))),
      ("file_context", .record [("total_chunks_in_file", context.filesIndexed),
        ("folder_path", .ofText? context.folderPath)])]

def kind (result : SearchResult) : Value :=
  result.field "chunk_type" (.text "unknown")

def preview (result : SearchResult) : Value :=
  result.field "content_preview" (.text "")

def tags (result : SearchResult) : Value :=
  result.field "tags" (.list [])

def toRecord (write : Similarity → Value) (result : SearchResult) : Record :=
  [("chunk_id", .text result.hit.identifier),
    ("similarity_score", write result.hit.similarity),
    ("content_preview", result.preview),
    ("file_path", result.field "file_path" (.text "")),
    ("relative_path", result.field "relative_path" (.text "")),
    ("folder_structure", result.field "folder_structure" (.list [])),
    ("chunk_type", result.kind),
    ("name", result.field "name" .null),
    ("parent_name", result.field "parent_name" .null),
    ("start_line", result.field "start_line" (.int 0)),
    ("end_line", result.field "end_line" (.int 0)),
    ("docstring", result.field "docstring" .null),
    ("tags", result.tags),
    ("context_info", .record (result.contextRecord write))]

def lines (result : SearchResult) : String :=
  (result.field "start_line" (.int 0)).display ++ "-" ++
    (result.field "end_line" (.int 0)).display

def profile (query : String) (intents : List String) (result : SearchResult) :
    Except Fault Profile :=
  Profile.ofFields query intents {
    kind := result.kind
    name := result.field "name" .null
    path := result.field "relative_path" (.text "")
    docstring := result.field "docstring" .null
    tags := result.tags
    preview := result.preview }

def folderPath (folders : Value) : Except Fault (Option String) := do
  if folders.isTruthy then
    let parts ← (← folders.members).mapM Value.needText
    return some (Text.join "/" parts)
  else return none

def filesIndexed (statistics : Value) : Except Fault Value :=
  match statistics with
  | .record fields => .ok ((fields.lookup "files_indexed").getD (.int 0))
  | other => .error (.unsuitable (other.lacks "get"))

/-- The context of a hit: two similar chunks, the number of files and the folder. -/
def findContext (gpu : GpuSupport) (hit : Hit) : IndexAct ResultContext := do
  let similar ← ChunkIndex.similar gpu hit.identifier 3
  let files ← orFail (filesIndexed (← ChunkIndex.statistics))
  let folder ← orFail (folderPath (hit.field "folder_structure" (.list [])))
  return ⟨similar.take 2, files, folder⟩

def ofHit (gpu : GpuSupport) (depth : Value) (hit : Hit) : IndexAct SearchResult := do
  if ← orFail depth.isPositive then return ⟨hit, some (← findContext gpu hit)⟩
  else return ⟨hit, none⟩

section Ranked

variable {R : Type} [Add R] [Mul R] [LE R] [DecidableLE R] [OfScientific R]

def rankScore (read : Similarity → R) (query : String) (intents : List String)
    (result : SearchResult) : Except Fault R :=
  (result.profile query intents).map (Ranking.score query intents (read result.hit.similarity))

def ranked (read : Similarity → R) (query : String) (intents : List String)
    (results : List SearchResult) : Except Fault (List SearchResult) := do
  let scored ← results.mapM (fun result =>
    return (← result.rankScore read query intents, result))
  return (Ranking.byScore Prod.fst scored).map Prod.snd

end Ranked

/-- The first results; a count below zero leaves out so many at the end. -/
def firstOf (count : Int) (results : List SearchResult) : List SearchResult :=
  results.take (Text.sliceBound results.length count)

end SearchResult

/-- How many hits are ranked to give so many results: ten times as many, but no more
than 200. -/
def candidateCount (count : Value) : Except Fault Value := do
  (← count.times 10).atMost 200

def queryText : Value → Except Fault String
  | .text text => .ok text
  | other => .error (.unsuitable (other.lacks "strip"))

def candidates (env : Environment) (text : String) (count depth filter : Value) :
    IndexAct (List SearchResult) := do
  let embedding ← orFail (env.encoder.embedQuery (Text.trim text))
  let hits ← ChunkIndex.searchUpTo env.gpu embedding (← orFail (candidateCount count)) filter
  hits.mapM (SearchResult.ofHit env.gpu depth)

/-- The results of a query, at most `count` of them.  `read` gives similarities as scores. -/
def searchBy [Add R] [Mul R] [LE R] [DecidableLE R] [OfScientific R] (read : Similarity → R)
    (env : Environment) (query count depth filter : Value) : IndexAct (List SearchResult) := do
  let text ← orFail (queryText query)
  let results ← candidates env text count depth filter
  let ranked ← orFail (SearchResult.ranked read text (Query.intents text) results)
  return SearchResult.firstOf (← orFail count.sliceEnd) ranked

def searchFor (env : Environment) (query count depth filter : Value) :
    IndexAct (List SearchResult) :=
  searchBy Similarity.toFloat env query count depth filter

def searchSimilar (env : Environment) (identifier count : Value) :
    IndexAct (List SearchResult) := do
  (← ChunkIndex.similarUpTo env.gpu identifier count).mapM (SearchResult.ofHit env.gpu (.int 1))

/-- Whether a name contains a text, case aside.  Both have to be texts. -/
def nameContains (part name : Value) : Except Fault Bool :=
  match part, name with
  | .text part, .text name => .ok (Text.contains (Text.lower name) (Text.lower part))
  | .text _, other => .error (.unsuitable (other.lacks "lower"))
  | other, _ => .error (.unsuitable (other.lacks "lower"))

def namesContaining (statistics : Value) (field : String) (part : Value) :
    Except Fault (List String) :=
  match statistics with
  | .record fields => do
    let names ← ((fields.lookup field).getD (.record [])).members
    let marked ← names.mapM (fun name => return (← nameContains part name, name.display))
    return (marked.filter Prod.fst).map Prod.snd
  | other => .error (.unsuitable (other.lacks "get"))

def suggestions (part : Value) : IndexAct (List String) := do
  let statistics ← ChunkIndex.statistics
  let tags ← orFail (namesContaining statistics "top_tags" part)
  let kinds ← orFail (namesContaining statistics "chunk_types" part)
  return (tags.map (fun tag => "Find " ++ tag ++ " related code") ++
    kinds.map (fun kind => "Show all " ++ kind ++ "s")).take 5

end CodeAtlas
