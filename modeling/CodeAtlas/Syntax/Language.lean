import CodeAtlas.Path
import CodeAtlas.Text.Case
import CodeAtlas.Fault

/-!
# Languages

The languages whose sources are cut into fragments, the file endings that belong
to them, and the parser packages that provide them.
-/

namespace CodeAtlas

inductive Language where
  | python
  | javascript
  | jsx
  | typescript
  | tsx
  | svelte
  | go
  | rust
  | java
  | c
  | cpp
  | csharp
  | markdown
  | elixir
deriving DecidableEq, Inhabited

namespace Language

def all : List Language :=
  [.python, .javascript, .jsx, .typescript, .tsx, .svelte, .go, .rust, .java, .c, .cpp,
    .csharp, .markdown, .elixir]

def name : Language → String
  | .python => "python"
  | .javascript => "javascript"
  | .jsx => "jsx"
  | .typescript => "typescript"
  | .tsx => "tsx"
  | .svelte => "svelte"
  | .go => "go"
  | .rust => "rust"
  | .java => "java"
  | .c => "c"
  | .cpp => "cpp"
  | .csharp => "csharp"
  | .markdown => "markdown"
  | .elixir => "elixir"

def ofName? (name : String) : Option Language :=
  all.find? (fun language => language.name == name)

def endings : List (String × Language) :=
  [(".py", .python), (".js", .javascript), (".jsx", .jsx), (".ts", .typescript), (".tsx", .tsx),
    (".svelte", .svelte), (".go", .go), (".rs", .rust), (".java", .java), (".md", .markdown),
    (".c", .c), (".cpp", .cpp), (".cc", .cpp), (".cxx", .cpp), (".c++", .cpp), (".cs", .csharp),
    (".ex", .elixir), (".exs", .elixir)]

def endingOf (path : String) : String :=
  Text.lower (Path.ofString path).suffix

def ofPath? (path : String) : Option Language :=
  endings.lookup (endingOf path)

def isSourcePath (path : String) : Bool :=
  (ofPath? path).isSome

/-- The language whose parser reads the sources.  Sources with markup in scripts
are read by the parser for scripts. -/
def parsedAs : Language → Language
  | .jsx => .javascript
  | language => language

def provider : Language → String × String
  | .javascript => ("javascript", "language")
  | .jsx => ("javascript", "language")
  | .typescript => ("typescript", "language_typescript")
  | .tsx => ("typescript", "language_tsx")
  | .csharp => ("c_sharp", "language")
  | language => (language.name, "language")

def providedBy (packages : List String) : List Language :=
  all.filter (fun language => packages.contains language.provider.1)

/-- The language by whose rules a file is cut: none if its ending is unknown or
the language is not available, and a fault if only its parser is missing. -/
def forFile (available : List Language) (path : String) : Except Fault (Option Language) :=
  match ofPath? path with
  | none => .ok none
  | some language =>
    if !available.contains language then .ok none
    else if !available.contains language.parsedAs then
      .error (.languageUnavailable language.parsedAs.name)
    else .ok (some language)

end Language

end CodeAtlas
