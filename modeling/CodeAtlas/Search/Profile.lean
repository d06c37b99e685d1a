import CodeAtlas.Data.Arithmetic
import CodeAtlas.Data.Members
import CodeAtlas.Search.Ranking

/-!
# Profiles of results

The rank of a result depends on fields that may hold values of any type.  What has to
be looked into must be of the right type; what does not matter may be anything.
-/

namespace CodeAtlas

structure RankFields where
  kind : Value
  name : Value
  path : Value
  docstring : Value
  tags : Value
  preview : Value

namespace Profile

/-- The kind by which a result is boosted; a list or a record cannot be looked up. -/
def kindOf (kind : Value) : Except Fault String :=
  if kind.isPlain then .ok (kind.asText?.getD "") else .error (.wrongType kind.notHashable)

def nameOf (name : Value) : Except Fault (Option String) :=
  match name with
  | .text text => .ok (some text)
  | other =>
    if other.isTruthy then
      .error (.wrongType ("expected string or bytes-like object, got '" ++ other.typeName ++ "'"))
    else .ok none

/-- A path, which only a query with tokens looks into. -/
def pathOf (hasTokens : Bool) (path : Value) : Except Fault String :=
  match path with
  | .text text => .ok text
  | other =>
    if hasTokens && other.isTruthy then .error (.unsuitable (other.lacks "lower")) else .ok ""

/-- The texts among tags, which only intents look into. -/
def tagsOf (hasIntents : Bool) (tags : Value) : Except Fault (List String) := do
  if hasIntents && tags.isTruthy then
    return (← tags.memberSet).filterMap Value.asText?
  else return []

def ofFields (query : String) (intents : List String) (fields : RankFields) :
    Except Fault Profile := do
  let kind ← kindOf fields.kind
  let name ← nameOf fields.name
  let relativePath ← pathOf (!(Query.tokens query).isEmpty) fields.path
  let tags ← tagsOf (!intents.isEmpty) fields.tags
  let size ← fields.preview.length
  return {
    kind
    name
    relativePath
    docstring := if fields.docstring.isTruthy then some "present" else none
    tags
    preview := String.ofList (List.replicate size ' ') }

end Profile

end CodeAtlas
