import CodeAtlas.Proofs.Index.Storage

/-!
# Calls of a chunk index

The calls that are made on a chunk index, one after the other.  A call that fails is
answered by its fault, and the next one finds the state that it left.
-/

namespace CodeAtlas

inductive IndexCall where
  | add (items : List Embedded)
  | removeFile (path project : Value)
  | search (query : Embedding) (count filter : Value)
  | similar (identifier count : Value)
  | recordOf (identifier : Value)
  | save
  | clear

inductive IndexAnswer where
  | done
  | removed (count : Nat)
  | hits (found : List Hit)
  | record (found : Option Record)

namespace IndexCall

def action (gpu : GpuSupport) : IndexCall → IndexAct IndexAnswer
  | .add items => do
    ChunkIndex.add gpu items
    return .done
  | .removeFile path project => return .removed (← ChunkIndex.removeFile path project)
  | .search query count filter =>
    return .hits (← ChunkIndex.searchUpTo gpu query count filter)
  | .similar identifier count =>
    return .hits (← ChunkIndex.similarUpTo gpu identifier count)
  | .recordOf identifier => return .record (← ChunkIndex.recordOf identifier)
  | .save => do
    ChunkIndex.save gpu
    return .done
  | .clear => do
    ChunkIndex.clear
    return .done

def after (gpu : GpuSupport) (state : IndexState) (call : IndexCall) : IndexState :=
  (runFrom state (call.action gpu)).2

def stateAfter (gpu : GpuSupport) (calls : List IndexCall) (state : IndexState) :
    IndexState :=
  calls.foldl (after gpu) state

def answers (gpu : GpuSupport) : List IndexCall → IndexState →
    List (Except Fault IndexAnswer)
  | [], _ => []
  | call :: calls, state =>
    (runFrom state (call.action gpu)).1 :: answers gpu calls (after gpu state call)

end IndexCall

end CodeAtlas
