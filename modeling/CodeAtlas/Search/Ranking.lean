import CodeAtlas.Search.Intent
import CodeAtlas.Sorting.Insertion
import CodeAtlas.Sorting.Runs

/-!
# Ranking

The rank of a search result is its similarity times boosts for its kind, its
name, its path, its tags and its docstring.  Scores are numbers of any type with
addition, multiplication, order and decimal literals: binary64 numbers where
results are ranked, exact fractions where the ranking is studied.
-/

namespace CodeAtlas

structure Profile where
  kind : String
  name : Option String
  relativePath : String
  docstring : Option String
  tags : List String
  preview : String

namespace Ranking

variable {R : Type} [Add R] [Mul R] [LE R] [DecidableLE R] [OfScientific R]

def ofCount (count : Nat) : R :=
  OfScientific.ofScientific count true 0

/-- The boost for the kind of a result.  Queries that name classes and queries that
look like names prefer classes. -/
def kindBoost (namesClass isEntity : Bool) (kind : String) : R :=
  if namesClass then
    if kind == "class" then 1.3
    else if kind == "function" || kind == "method" then 1.05
    else if kind == "module" then 0.9
    else 1.0
  else if isEntity then
    if kind == "class" then 1.15
    else if kind == "function" || kind == "method" then 1.1
    else if kind == "module" then 0.92
    else 1.0
  else
    if kind == "function" || kind == "method" then 1.1
    else if kind == "class" then 1.05
    else if kind == "module" then 0.95
    else 1.0

/-- The boost for sharing some of the different query tokens: the larger their part,
the larger the boost. -/
def overlapBoost (overlap total : Nat) : R :=
  if overlap = 0 then 1.0
  else if 8 * total ≤ 10 * overlap then 1.3
  else if 5 * total ≤ 10 * overlap then 1.2
  else if 3 * total ≤ 10 * overlap then 1.1
  else 1.05

/-- The boost for the name of a result: most for the query itself, less for shared
tokens. -/
def nameBoost (query : String) (tokens : List String) (name : Option String) : R :=
  match name with
  | none => 1.0
  | some name =>
    if name.isEmpty then 1.0
    else if Text.lower query == Text.lower name then 1.4
    else overlapBoost (Token.shared tokens (Token.ofText name)) tokens.eraseDups.length

def pathTokens (path : String) : List String :=
  Token.ofText (Text.replace (Text.replace (Text.lower path) "/" " ") "\\" " ")

/-- The boost for the path of a result: a twentieth for each shared token. -/
def pathBoost (tokens : List String) (path : String) : R :=
  if path.isEmpty || tokens.isEmpty then 1.0
  else
    let overlap := Token.shared tokens (pathTokens path)
    if overlap = 0 then 1.0 else 1.0 + ofCount overlap * 0.05

/-- The boost for tags among the intents: a tenth for each. -/
def tagBoost (intents tags : List String) : R :=
  1.0 + ofCount (Token.shared intents tags) * 0.1

def docstringBoost (isEntity : Bool) (kind : String) : R :=
  if isEntity && kind == "module" then 1.02 else 1.05

def score (query : String) (intents : List String) (similarity : R) (profile : Profile) : R :=
  let tokens := Query.tokens query
  let isEntity := Query.isEntityLike query tokens
  let namesClass := Text.contains (Text.lower query) "class"
  let base := similarity * kindBoost namesClass isEntity profile.kind *
    nameBoost query tokens profile.name * pathBoost tokens profile.relativePath
  let tagged :=
    if intents.isEmpty || profile.tags.isEmpty then base
    else base * tagBoost intents profile.tags
  let documented :=
    if (profile.docstring.getD "").isEmpty then tagged
    else tagged * docstringBoost isEntity profile.kind
  if 1000 < profile.preview.length then documented * 0.98 else documented

def isLower (left right : R) : Bool :=
  decide (left ≤ right) && !decide (right ≤ left)

/-- The items by falling score; equal scores keep their order.  Scores that are not even
equal to themselves are left to the steps of sorting by runs. -/
def byScore (score : α → R) (items : List α) : List α :=
  let scored := items.map (fun item => (score item, item))
  let sorted :=
    if scored.all (fun entry => decide (entry.1 ≤ entry.1)) then
      Sorting.byInsertion (fun left right => decide (right.1 ≤ left.1)) scored
    else Sorting.falling (fun left right => isLower left.1 right.1) scored
  sorted.map Prod.snd

end Ranking

end CodeAtlas
