import CodeAtlas.Server.Tools

/-!
# What the server offers

The names and descriptions under which the tools are offered, the resource that
holds the statistics, and the help text.
-/

namespace CodeAtlas.Server

def name : String :=
  "Code Search"

def toolDescriptions : List (String × String) :=
  [("search_code",
      "Search code by natural language query using semantic similarity. Returns ranked " ++
      "results with file paths, line numbers, similarity scores, and code snippets. " ++
      "Use for understanding functionality, finding patterns, or discovering related code.\n" ++
      "Minimal usage: search_code(\"authentication\")\n" ++
      "Full usage: search_code(\"authentication\", k=10, file_pattern=\"*.py\")\n"),
    ("index_directory",
      "Index a codebase using semantic embeddings.\n" ++
      "Minimal usage: index_directory(\"/path/to/project\")\n" ++
      "Full usage: index_directory(\"/path/to/project\", project_name=\"project\", " ++
      "file_pattern=\"*.py\", incremental=False)\n"),
    ("find_similar_code",
      "Find code chunks functionally similar to a reference chunk. Useful for finding " ++
      "alternative implementations, code duplication, or refactoring related code.\n" ++
      "Usage: find_similar_code(chunk_id from search_code, k=5)\n"),
    ("get_index_status", "Get current index statistics and model status."),
    ("list_projects", "List all indexed projects with their metadata."),
    ("switch_project",
      "Switch to a different indexed project for searching.\n" ++
      "Usage: switch_project(\"/path/to/project\")\n"),
    ("index_test_project", "Index test project"),
    ("clear_index", "Clear the search index and metadata for the current project.")]

def statisticsAddress : String :=
  "search://stats"

def helpName : String :=
  "search_help"

def helpText : String :=
  "# Find similar code\n" ++
  "\n" ++
  "1. Index a codebase: `index_directory(\"/path/to/project\")`\n" ++
  "2. Search: `search_code(\"description of code you want\")`\n" ++
  "3. Find similar: `find_similar_code(chunk_id from search_code)`\n" ++
  "\n" ++
  "See tool descriptions for details and available options.\n"

def statisticsResource (env : Environment) : ServerAct ToolReply :=
  telling "Failed to get statistics: " do
    openCurrent env
    return ⟨← ServerAct.onIndex ChunkIndex.statistics, .indented⟩

def transportFor (wish : Value) : Value :=
  match wish with
  | .text "http" => .text "sse"
  | other => other

def listens (transport : Value) : Bool :=
  match transport with
  | .text "sse" => true
  | .text "streamable-http" => true
  | _ => false

end CodeAtlas.Server
