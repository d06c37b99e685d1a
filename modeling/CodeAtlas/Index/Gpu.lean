import CodeAtlas.Files.World
import CodeAtlas.Index.Vectors

/-!
# Libraries and graphics processors

What the machine offers to search an index and to run it on graphics processors, and
moving an index there and back.
-/

namespace CodeAtlas

inductive GpuCount where
  | unknown
  | unreliable
  | known (count : Int)
deriving DecidableEq

inductive GpuReturn where
  | works
  | missing
  | fails
  /-- Only the first attempt fails. -/
  | failsOnce
deriving DecidableEq

structure GpuSupport where
  resources : Bool
  count : GpuCount
  moves : Bool
  back : GpuReturn
  library : VectorLibrary := .standard

namespace GpuSupport

def none : GpuSupport :=
  ⟨false, .unknown, false, .missing, .standard⟩

def isAvailable (support : GpuSupport) : Bool :=
  support.resources &&
    match support.count with
    | .known count => 0 < count
    | _ => false

def move (support : GpuSupport) (index : VectorIndex) : Option VectorIndex :=
  if support.moves then some { index with onGpu := true } else Option.none

def bringBack (support : GpuSupport) (index : VectorIndex) : Act VectorIndex := do
  let world ← get
  let home := { index with onGpu := false }
  match support.back with
  | .works => return home
  | .missing => throw (.unsuitable "an index cannot be brought back")
  | .fails => throw (.modelFailed "transfer failed")
  | .failsOnce =>
    set { world with transfers := world.transfers + 1 }
    if world.transfers = 0 then throw (.modelFailed "transfer failed") else return home

end GpuSupport

end CodeAtlas
