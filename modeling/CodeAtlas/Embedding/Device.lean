import CodeAtlas.Text.Case
import CodeAtlas.Text.Search

/-!
# Compute devices

Which device a model runs on, given what was asked for and what the machine has.
-/

namespace CodeAtlas

inductive Accelerator where
  | absent
  | unreliable
  | reported (ready : Bool)
deriving DecidableEq

def Accelerator.isReady : Accelerator → Bool
  | .reported ready => ready
  | _ => false

structure Hardware where
  cuda : Bool
  mps : Accelerator
deriving DecidableEq

namespace Hardware

def best (hardware : Hardware) : String :=
  if hardware.cuda then "cuda"
  else if hardware.mps.isReady then "mps"
  else "cpu"

/-- The device for a request; no request and an empty one ask for the best. -/
def resolve (hardware : Hardware) (requested : Option String) : String :=
  let request := Text.lower (requested.getD "")
  if request == "auto" || request == "none" || request.isEmpty then hardware.best
  else if Text.startsWith request "cuda" then if hardware.cuda then "cuda" else "cpu"
  else if request == "mps" then if hardware.mps.isReady then "mps" else "cpu"
  else "cpu"

end Hardware

end CodeAtlas
