import CodeAtlas.Command.Report
import CodeAtlas.Environment
import CodeAtlas.Embedding.Service
import CodeAtlas.Index.Manager

/-!
# The command that prepares an index

The command checks the folder, makes the folders of the store and clears the index
if that is asked for.  It does not get to cutting files: that step asks for a
folder that the command does not pass on, and the command ends with this error.
-/

namespace CodeAtlas.Command.Index

def command : CommandSpec where
  program := "index_codebase.py"
  description := "Index a Python codebase for semantic search"
  operands := [("directory", "Directory containing Python files to index")]
  options := [.helpOption,
    ⟨["--storage-dir"], .value .text,
      "Directory to store index and embeddings (default: ~/.claude_code_search)"⟩,
    ⟨["--batch-size"], .value .whole, "Batch size for embedding generation (default: 8)"⟩,
    ⟨["--verbose", "-v"], .flag, "Enable verbose logging"⟩,
    ⟨["--clear"], .flag, "Clear existing index before indexing"⟩]

def entry (level : Level) (message : String) : LogEntry :=
  ⟨"__main__", level, message⟩

def missingFolder : String :=
  "MultiLanguageChunker.chunk_directory() missing 1 required positional argument: " ++
    "'directory_path'"

def clearIndex (folder : Path) : Act Unit :=
  ExceptT.mk (fun world =>
    let (result, state) := ChunkIndex.clear.run.run ⟨ChunkIndex.ofFolder folder, world⟩
    (result, state.world))

def modelEntry : LogEntry :=
  ⟨"embeddings.ollama", .info, "OllamaEmbeddingModel initialized: model=" ++
    ServedModel.standardName ++ ", url=" ++ ServedModel.standardAddress⟩

structure Step where
  announced : List LogEntry
  action : Act Unit

def steps (storage : Path) (clear : Bool) : List Step :=
  let folder := storage.child "index"
  let clearing : List Step :=
    [⟨[entry .info "Clearing existing index..."], clearIndex folder⟩,
      ⟨[⟨"search.indexer", .info, "Index cleared"⟩], pure ()⟩]
  [⟨[entry .info "Initializing components..."], World.makeSubfolder (storage.child "models")⟩,
    ⟨[modelEntry], World.makeFolder folder⟩] ++
    (if clear then clearing else []) ++
    [⟨[entry .info "Parsing and chunking Python files..."], throw (.wrongType missingFolder)⟩]

/-- Take steps up to the first that fails.  Gives the log with the reason of the failure at
its end. -/
def takeSteps : List Step → Act (List LogEntry)
  | [] => return []
  | step :: rest => do
    let failure ← tryCatch (do step.action; return none) (fun fault => return some fault)
    match failure with
    | some fault =>
      return step.announced ++ [entry .error ("Indexing failed: " ++ fault.message)]
    | none => return step.announced ++ (← takeSteps rest)

def body (env : Environment) (given : Given) : Act Report := do
  let place ← World.resolve (given.operand "directory")
  if !(← World.exists? place) then
    return .logged 1 [entry .error ("Directory does not exist: " ++ place.toString)]
  if !(← World.isFolder place) then
    return .logged 1 [entry .error ("Path is not a directory: " ++ place.toString)]
  let storage ← orFail (given.folderOr "--storage-dir" (env.home.child ".claude_code_search"))
  World.makeFolder storage
  let log ← takeSteps (steps storage (given.has "--clear"))
  return .logged 1 (entry .info ("Indexing directory: " ++ place.toString) ::
    entry .info ("Storage directory: " ++ storage.toString) :: log)

def run (env : Environment) (words : List String) : Act Report :=
  runWith command words (body env)

end CodeAtlas.Command.Index
