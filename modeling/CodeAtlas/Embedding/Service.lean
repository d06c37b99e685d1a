import CodeAtlas.Data.Real

/-!
# Embeddings from a service

A model behind an address is asked by posts and answers with documents.  The
dimension of its vectors is learned from the first answer.  Numbers are kept in
single precision.
-/

namespace CodeAtlas

inductive Grid where
  | number (value : Float)
  | rows (items : List Grid)

namespace Grid

def single (value : Float) : Float :=
  value.toFloat32.toFloat

def sharedShape : List Nat → List Nat → List Nat
  | left :: lefts, right :: rights => if left = right then left :: sharedShape lefts rights else []
  | _, _ => []

mutual

/-- The counts of rows at each level on which all rows agree, and whether they agree on
every level.  All but lists are single numbers. -/
def outline : Value → List Nat × Bool
  | .list items =>
    match outlines items with
    | none => ([0], true)
    | some (shape, even) => (items.length :: shape, even)
  | _ => ([], true)

def outlines : List Value → Option (List Nat × Bool)
  | [] => none
  | item :: rest =>
    let (shape, even) := outline item
    match outlines rest with
    | none => some (shape, even)
    | some (others, othersEven) =>
      some (sharedShape shape others, even && othersEven && shape = others)

end

def shapeText (shape : List Nat) : String :=
  match shape with
  | [count] => "(" ++ toString count ++ ",)"
  | _ => "(" ++ Text.join ", " (shape.map toString) ++ ")"

def mostLevels : Nat :=
  64

/-- The shape of rows that agree on every level.  Rows that agree on the most levels and are
nested deeper still have none. -/
def shapeOf (value : Value) : Except Fault (List Nat) :=
  let (counts, even) := outline value
  if mostLevels < counts.length || (counts.length = mostLevels && !even) then
    .error (.nested mostLevels)
  else if even then .ok counts
  else .error (.uneven counts.length (shapeText counts))

mutual

def numbersOf : Value → Except Fault Grid
  | .null => .ok (.number (0.0 / 0.0))
  | .list items => do return .rows (← numbersOfAll items)
  | other => do return .number (single (← other.toReal))

def numbersOfAll : List Value → Except Fault (List Grid)
  | [] => .ok []
  | item :: rest => do
    let first ← numbersOf item
    return first :: (← numbersOfAll rest)

end

/-- The numbers of a document with their shape.  Rows that disagree are told before
anything that is no number. -/
def ofValue (value : Value) : Except Fault (Grid × List Nat) := do
  let shape ← shapeOf value
  return (← numbersOf value, shape)

end Grid

structure Post where
  url : String
  model : String
  texts : List String
  timeout : Nat

structure Reply where
  status : Int
  body : Value

/-- The replies still to come and the posts sent so far, the last one first. -/
structure Exchange where
  replies : List Reply
  sent : List Post

structure ServedModel where
  name : String
  address : String
  dimension : Option Nat := none

namespace ServedModel

def standardName : String :=
  "nomic-embed-text:latest"

def standardAddress : String :=
  "http://localhost:41434"

def standard : ServedModel :=
  ⟨standardName, standardAddress, none⟩

def textLimit : Nat :=
  20000

def post (model : ServedModel) (texts : List String) : Post :=
  ⟨model.address ++ "/api/embed", model.name, texts.map (Text.take · textLimit), 120⟩

def gridOf (reply : Reply) : Except Fault (Grid × List Nat) := do
  if 400 ≤ reply.status then throw (.serviceRefused reply.status)
  match reply.body with
  | .record fields =>
    match fields.lookup "embeddings" with
    | some value => Grid.ofValue value
    | none => throw (.missingKey (.text "embeddings"))
  | .list _ => throw (.wrongType "list indices must be integers or slices, not str")
  | _ => throw (.wrongType "object is not subscriptable")

/-- Learn the dimension from a shape, unless it is known. -/
def learn (model : ServedModel) (shape : List Nat) : Except Fault ServedModel :=
  match model.dimension, shape with
  | some _, _ => .ok model
  | none, _ :: dimension :: _ => .ok { model with dimension := some dimension }
  | none, _ => .error .outOfRange

def encode (model : ServedModel) (exchange : Exchange) (texts : List String) :
    Except Fault (Grid × List Nat) × ServedModel × Exchange :=
  if texts.isEmpty then (.ok (.rows [], [0]), model, exchange)
  else
    let sent := model.post texts :: exchange.sent
    match exchange.replies with
    | [] => (.error .outOfRange, model, ⟨[], sent⟩)
    | reply :: replies =>
      match gridOf reply with
      | .error fault => (.error fault, model, ⟨replies, sent⟩)
      | .ok (grid, shape) =>
        match model.learn shape with
        | .error fault => (.error fault, model, ⟨replies, sent⟩)
        | .ok learned => (.ok (grid, shape), learned, ⟨replies, sent⟩)

def findDimension (model : ServedModel) (exchange : Exchange) :
    Except Fault (Option Nat) × ServedModel × Exchange :=
  match model.dimension with
  | some dimension => (.ok (some dimension), model, exchange)
  | none =>
    let (result, learned, after) := model.encode exchange ["hello"]
    (result.map (fun _ => learned.dimension), learned, after)

def info (model : ServedModel) : Record :=
  let dimension : Value :=
    match model.dimension with
    | some (count + 1) => .int (count + 1 : Nat)
    | _ => .text "unknown (call encode first)"
  [("model_name", .text model.name), ("backend", .text "ollama"),
    ("base_url", .text model.address), ("embedding_dimension", dimension),
    ("status", .text "loaded")]

end ServedModel

end CodeAtlas
