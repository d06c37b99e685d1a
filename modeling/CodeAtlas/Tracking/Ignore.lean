import CodeAtlas.Text.Search

/-!
# What is not tracked

Entries are left out by name.  A pattern that starts with a star fits every name
that ends with the rest of it; any other pattern fits the equal name only.
-/

namespace CodeAtlas

structure IgnoreRules where
  patterns : List String
deriving Inhabited

namespace IgnoreRules

def fits (pattern name : String) : Bool :=
  match pattern.toList with
  | '*' :: ending => ending.isSuffixOf name.toList
  | _ => name == pattern

def ignores (rules : IgnoreRules) (name : String) : Bool :=
  rules.patterns.any (fun pattern => fits pattern name)

def add (rules : IgnoreRules) (pattern : String) : IgnoreRules :=
  ⟨rules.patterns ++ [pattern]⟩

/-- The names of folders that hold no sources: caches, build results, tool folders. -/
def toolFolders : List String :=
  ["__pycache__", ".git", ".hg", ".svn",
    ".venv", "venv", "env", ".env", ".direnv",
    "node_modules", ".pnpm-store", ".yarn",
    ".pytest_cache", ".mypy_cache", ".ruff_cache", ".pytype", ".ipynb_checkpoints",
    "build", "dist", "out", "public",
    ".next", ".nuxt", ".svelte-kit", ".angular", ".astro", ".vite",
    ".cache", ".parcel-cache", ".turbo",
    "coverage", ".coverage", ".nyc_output",
    ".gradle", ".idea", ".vscode", ".docusaurus", ".vercel", ".serverless", ".terraform",
    ".mvn", ".tox",
    "target", "bin", "obj"]

def standard : IgnoreRules :=
  ⟨toolFolders ++ ["*.pyc", "*.pyo", ".DS_Store", "Thumbs.db"]⟩

end IgnoreRules

end CodeAtlas
