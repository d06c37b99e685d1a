import CodeAtlas.Search.Token

/-!
# What a query is about

Cues in a query tell its intents, and its shape tells whether it looks like the
name of an entity.
-/

namespace CodeAtlas

inductive Cue where
  /-- The text as a whole word. -/
  | word (text : String)
  /-- The text anywhere. -/
  | part (text : String)
  /-- The first text and, later on the same line, the second. -/
  | pair (first second : String)

namespace Cue

/-- Whether the word stands in the characters with no word character on either
side; `inside` says whether the character before is one. -/
def hasWord (word : List Char) : Bool → List Char → Bool
  | _, [] => false
  | inside, character :: rest =>
    (!inside && word.isPrefixOf (character :: rest) &&
      !(((character :: rest).drop word.length).take 1).any Text.isWordChar) ||
    hasWord word (Text.isWordChar character) rest

def hasPair (first second : List Char) : List Char → Bool
  | [] => false
  | character :: rest =>
    (first.isPrefixOf (character :: rest) &&
      Text.occursIn second ((character :: rest).drop first.length)) ||
    hasPair first second rest

def isIn (query : List Char) : Cue → Bool
  | word text => hasWord text.toList false query
  | part text => Text.occursIn text.toList query
  | pair first second =>
    (Text.pieces (· = '\n') query).any (hasPair first.toList second.toList)

end Cue

namespace Query

def intentCues : List (String × List Cue) :=
  [("function_search",
      [.word "function", .word "def", .word "method", .word "class", .pair "how" "work",
        .part "implement", .part "algorithm"]),
    ("error_handling",
      [.word "error", .word "exception", .word "try", .word "catch", .pair "handle" "error",
        .pair "exception" "handling"]),
    ("database",
      [.word "database", .word "db", .word "query", .word "sql", .word "model", .word "table",
        .part "connection"]),
    ("api",
      [.word "api", .word "endpoint", .word "route", .word "request", .word "response",
        .word "http", .pair "rest" "api"]),
    ("authentication",
      [.word "auth", .word "login", .word "token", .word "password", .word "session",
        .part "authenticate", .part "permission"]),
    ("testing",
      [.word "test", .word "mock", .word "assert", .word "fixture", .pair "unit" "test",
        .pair "integration" "test"])]

def intents (query : String) : List String :=
  let lowered := Text.lowerChars [] query.toList
  (intentCues.filter (fun intent => intent.2.any (·.isIn lowered))).map Prod.fst

def tokens (query : String) : List String :=
  Token.ofText (Text.lower query)

def actionWords : List String :=
  ["find", "search", "get", "show", "list", "how", "what", "where", "when", "create", "build",
    "make", "handle", "process", "manage", "implement"]

def reachesCapital : List Char → Bool
  | [] => false
  | character :: rest =>
    Token.isCapital character || (Token.isSmall character && reachesCapital rest)

def hasHumps : List Char → Bool
  | [] => false
  | [_] => false
  | character :: next :: rest =>
    (Token.isCapital character && Token.isSmall next && reachesCapital rest) ||
      hasHumps (next :: rest)

/-- Whether the query looks like the name of an entity: at most three tokens, none
of them an action, and either a name in humps or at most two tokens. -/
def isEntityLike (query : String) (tokens : List String) : Bool :=
  tokens.length ≤ 3 && !tokens.any actionWords.contains &&
    (hasHumps query.toList || tokens.length ≤ 2)

end Query

end CodeAtlas
