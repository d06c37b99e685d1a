import CodeAtlas.Command.Report
import CodeAtlas.Embedding.Pretrained
import CodeAtlas.Embedding.Registry
import CodeAtlas.Environment

/-!
# The command that fetches a model

The command loads a model into a store and tries it on a text.
-/

namespace CodeAtlas.Command.Download

def command : CommandSpec where
  program := "download_model_standalone.py"
  description := "Download embedding model for testing"
  operands := []
  options := [.helpOption,
    ⟨["--model"], .value .text, "Model name to download"⟩,
    ⟨["--storage-dir"], .value .text, "Storage directory (default: ~/.claude_code_search)"⟩,
    ⟨["--verbose", "-v"], .flag, "Verbose logging"⟩]

def sampleText : String :=
  "def hello_world():\n    return 'Hello, World!'"

def dimensionOf (vectors : List (List Float)) : Nat :=
  (vectors.headD []).length

def body (env : Environment) (loader : Loader) (given : Given) : Act Report := do
  let name := ((given.value? "--model").getD (.text pretrainedModel)).display
  let storage ← orFail (given.folderOr "--storage-dir" (env.home.child ".claude_code_search"))
  let models := storage.child "models"
  World.makeFolder models
  let started := ["Downloading model: " ++ name, "Storage directory: " ++ models.toString]
  match loader.load name with
  | .error fault =>
    return .wrote 1 (started ++ ["Error downloading model: " ++ fault.message])
  | .ok model =>
    return .wrote 0 (started ++ ["Testing model...", "Model downloaded successfully!",
      "Embedding dimension: " ++ toString (dimensionOf (model.encode [sampleText])),
      "Model cached in: " ++ models.toString])

def run (env : Environment) (loader : Option Loader) (words : List String) : Act Report :=
  match loader with
  | none =>
    return .wrote 1
      ["sentence-transformers not installed. Install with: uv add sentence-transformers"]
  | some loader => runWith command words (body env loader)

end CodeAtlas.Command.Download
