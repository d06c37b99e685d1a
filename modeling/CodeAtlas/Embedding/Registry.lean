import CodeAtlas.Embedding.Device
import CodeAtlas.Embedding.Service

/-!
# Known models

A model is either behind a service or loaded from a cache; models of the second
kind are known only where the package that loads them is installed.
-/

namespace CodeAtlas

inductive ModelKind where
  | served
  | pretrained
deriving DecidableEq

def standardModel : String :=
  "ollama/nomic-embed-text"

def pretrainedModel : String :=
  "google/embeddinggemma-300m"

def knownModels (hasLoader : Bool) : List (String × ModelKind) :=
  (standardModel, .served) :: (if hasLoader then [(pretrainedModel, .pretrained)] else [])

/-- The kind of a known model.  A list or a record cannot be looked up. -/
def findModel (hasLoader : Bool) (name : Value) : Except Fault ModelKind :=
  match name.asText?.bind (fun text => (knownModels hasLoader).lookup text) with
  | some kind => .ok kind
  | none => if name.isPlain then .error (.missingKey name) else .error (.wrongType name.notHashable)

/-- Accept a request for a device: a text, or anything that counts as no request.
A served model takes any. -/
def checkDevice (kind : ModelKind) (requested : Value) : Except Fault Unit :=
  match kind, requested with
  | .served, _ => .ok ()
  | .pretrained, .text _ => .ok ()
  | .pretrained, other =>
    if other.isTruthy then .error (.unsuitable (other.lacks "lower")) else .ok ()

def freshInfo (kind : ModelKind) : Record :=
  match kind with
  | .served => ServedModel.standard.info
  | .pretrained => [("status", .text "not_loaded")]

end CodeAtlas
