import CodeAtlas.Server.Tools

/-!
# Calls by name

A call names a tool and gives its arguments by name.  An argument that is left out
has its standard value.  A call that lacks an argument without a standard value, or
gives one that the tool does not have, is refused.
-/

namespace CodeAtlas.Tool

private def given (arguments : Record) (name : String) (standard : Value) : Value :=
  (arguments.lookup name).getD standard

def requestOf (query : Value) (arguments : Record) : SearchRequest where
  query := query
  count := given arguments "k" (.int 5)
  filePattern := given arguments "file_pattern" .null
  kind := given arguments "chunk_type" .null
  withContext := (given arguments "include_context" (.bool true)).isTruthy
  autoReindex := (given arguments "auto_reindex" (.bool true)).isTruthy
  maxAge := given arguments "max_age_minutes" (.int 5)

def onlyTakes (names : List String) (arguments : Record) : Except Fault Unit :=
  match arguments.find? (fun entry => !names.contains entry.1) with
  | some entry => .error (.wrongType ("got an unexpected keyword argument " ++ Text.quoted entry.1))
  | none => .ok ()

def required (arguments : Record) (name : String) : Except Fault Value :=
  match arguments.lookup name with
  | some value => .ok value
  | none => .error (.wrongType ("missing 1 required positional argument: " ++ Text.quoted name))

/-- The tool that a call stands for; there are no others. -/
def ofCall (name : String) (arguments : Record) : Except Fault Tool := do
  match name with
  | "search_code" =>
    onlyTakes ["query", "k", "search_mode", "file_pattern", "chunk_type", "include_context",
      "auto_reindex", "max_age_minutes"] arguments
    return .searchCode (requestOf (← required arguments "query") arguments)
  | "index_directory" =>
    onlyTakes ["directory_path", "project_name", "file_patterns", "incremental"] arguments
    let path ← (← required arguments "directory_path").needText
    return .indexDirectory path (given arguments "project_name" .null)
      (given arguments "incremental" (.bool true))
  | "find_similar_code" =>
    onlyTakes ["chunk_id", "k"] arguments
    return .findSimilarCode (← required arguments "chunk_id") (given arguments "k" (.int 5))
  | "switch_project" =>
    onlyTakes ["project_path"] arguments
    return .switchProject (← (← required arguments "project_path").needText)
  | other =>
    match other with
    | "get_index_status" => onlyTakes [] arguments *> .ok .indexStatus
    | "list_projects" => onlyTakes [] arguments *> .ok .listProjects
    | "index_test_project" => onlyTakes [] arguments *> .ok .indexSample
    | "clear_index" => onlyTakes [] arguments *> .ok .clearIndex
    | _ => throw (.unsuitable ("no tool is called " ++ other))

end CodeAtlas.Tool
