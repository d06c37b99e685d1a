import CodeAtlas.Data.Arithmetic
import CodeAtlas.Index.Gpu
import CodeAtlas.Index.Kept
import CodeAtlas.Index.Statistics

/-!
# Chunk indexes on disk

A chunk index joins a vector index, the names of the chunks at its positions and
the catalog of live chunks.  All three are kept in a folder.  The vectors are read
when a search needs them, the catalog when anything asks for an entry.  Changes of
the catalog count at once and are kept when they are committed.
-/

namespace CodeAtlas

structure ChunkIndex where
  folder : Path
  vectors : Option VectorIndex
  /-- The identifiers of the chunks by position. -/
  names : List String
  catalog : Option Catalog
  onGpu : Bool

structure IndexState where
  chunks : ChunkIndex
  world : World

abbrev IndexAct (α : Type) := ExceptT Fault (StateM IndexState) α

def IndexAct.onWorld (action : Act α) : IndexAct α :=
  ExceptT.mk (fun state =>
    let (result, world) := action.run.run state.world
    (result, { state with world }))

instance : MonadLift Act IndexAct :=
  ⟨IndexAct.onWorld⟩

namespace ChunkIndex

def vectorFile (chunks : ChunkIndex) : Path :=
  chunks.folder.child "code.index"

def catalogFile (chunks : ChunkIndex) : Path :=
  chunks.folder.child "metadata.db"

def nameFile (chunks : ChunkIndex) : Path :=
  chunks.folder.child "chunk_ids.pkl"

def statisticsFile (chunks : ChunkIndex) : Path :=
  chunks.folder.child "stats.json"

def keptFiles (chunks : ChunkIndex) : List Path :=
  [chunks.vectorFile, chunks.catalogFile, chunks.nameFile, chunks.statisticsFile]

def ofFolder (folder : Path) : ChunkIndex :=
  ⟨folder, none, [], none, false⟩

def open? (folder : Path) : Act ChunkIndex := do
  World.makeFolder folder
  return ofFolder folder

def current : IndexAct ChunkIndex :=
  return (← getThe IndexState).chunks

def change (update : ChunkIndex → ChunkIndex) : IndexAct Unit :=
  modifyThe IndexState (fun state => { state with chunks := update state.chunks })

/-- Write the live chunks to their file.  A disk that refuses does no harm. -/
def keep (catalog : Catalog) : IndexAct Unit := do
  let file := (← current).catalogFile
  tryCatch (World.writeFile file (.document catalog.toValue)) (fun _ => pure ())

/-- The live chunks, read at first use.  Where there is no file, an empty one is made. -/
def catalog! : IndexAct Catalog := do
  let chunks ← current
  match chunks.catalog with
  | some catalog => return catalog
  | none =>
    let found ← World.exists? chunks.catalogFile
    let catalog ←
      if found then pure (Catalog.ofValue (← World.documentAt chunks.catalogFile))
      else pure Table.empty
    if !found then keep catalog
    change (fun chunks => { chunks with catalog := some catalog })
    return catalog

def setCatalog (catalog : Catalog) : IndexAct Unit :=
  change (fun chunks => { chunks with catalog := some catalog })

def commit : IndexAct Unit := do
  keep (← catalog!)

/-- Move the vectors to graphics processors where that is possible and was not done
before. -/
def moveToGpu (gpu : GpuSupport) : IndexAct Unit :=
  change (fun chunks =>
    match chunks.vectors with
    | none => chunks
    | some vectors =>
      if chunks.onGpu || !gpu.isAvailable then chunks
      else match gpu.move vectors with
        | some moved => { chunks with vectors := some moved, onGpu := true }
        | none => chunks)

/-- Read vectors and names from the disk; without a file of vectors there are none. -/
def load (gpu : GpuSupport) : IndexAct Unit := do
  let chunks ← current
  if ← World.exists? chunks.vectorFile then
    match VectorIndex.ofValue? (← World.documentAt chunks.vectorFile) with
    | none => throw (.modelFailed "the file holds no index")
    | some vectors =>
      change (fun chunks => { chunks with vectors := some vectors })
      moveToGpu gpu
      if ← World.exists? chunks.nameFile then
        let names ← World.namesAt chunks.nameFile
        change (fun chunks => { chunks with names })
  else change (fun chunks => { chunks with vectors := none, names := [] })

def vectors! (gpu : GpuSupport) : IndexAct (Option VectorIndex) := do
  if (← current).vectors.isNone then load gpu
  return (← current).vectors

def create (gpu : GpuSupport) (dimension : Int) (kind : Value) : IndexAct Unit := do
  let vectors ← match kind with
    | .text "flat" => pure (VectorIndex.flat dimension)
    | .text "ivf" => pure (VectorIndex.inverted dimension)
    | other => throw (.unknownIndexKind other)
  change (fun chunks => { chunks with vectors := some vectors })
  moveToGpu gpu

def writeStatistics : IndexAct Unit := do
  let chunks ← current
  let catalog : Catalog ← if chunks.names.isEmpty then pure Table.empty else catalog!
  let statistics ← orFail (Statistics.gather chunks.vectors catalog chunks.names)
  World.writeFile chunks.statisticsFile (.document (.record statistics.toRecord))

/-- Vectors of one length; otherwise their number is all that is known of their shape. -/
def evenRows (vectors : List Embedding) : Except Fault (List Embedding) :=
  match vectors with
  | [] => .ok []
  | first :: _ =>
    if vectors.all (fun vector => vector.length = first.length) then .ok vectors
    else .error (.uneven 1 ("(" ++ toString vectors.length ++ ",)"))

/-- Add embedded chunks.  The first ones decide the dimension; more than 10000 of
them at once make an index with inverted lists. -/
def add (gpu : GpuSupport) (items : List Embedded) : IndexAct Unit := do
  match items with
  | [] => return
  | first :: _ =>
    if (← current).vectors.isNone then
      create gpu first.embedding.length (.text (if 10000 < items.length then "ivf" else "flat"))
    let rows ← orFail (evenRows (items.map Embedded.embedding))
    let normal := rows.map gpu.library.normalize
    change (fun chunks => { chunks with vectors := chunks.vectors.map VectorIndex.train })
    match (← current).vectors with
    | none => return
    | some vectors =>
      let extended ← orFail (vectors.add normal)
      let start := (← current).names.length
      let catalog ← catalog!
      change (fun chunks => { chunks with
        vectors := some extended
        names := chunks.names ++ items.map Embedded.identifier
        catalog := some (catalog.enter start items) })
      commit
      writeStatistics

/-- The chunks whose vectors are most similar to a query, at most `count` of them.
Three times as many are looked at, to make up for those that the filter refuses. -/
def search (gpu : GpuSupport) (query : Embedding) (count : Int) (filter : Value) :
    IndexAct (List Hit) := do
  match ← vectors! gpu with
  | none => return []
  | some vectors =>
    if vectors.size = 0 then return []
    let found ← orFail (vectors.search gpu.library (gpu.library.normalize query)
      (min (count * 3) vectors.size))
    if found.isEmpty then return []
    let catalog ← catalog!
    orFail (catalog.collect (← current).names filter count [] found)

/-- The whole number of results that a count of any type stands for, in an index of so
many vectors.  A real number does if three times as many would be too many. -/
def countAmong (size : Nat) (count : Value) : Except Fault Int :=
  match count with
  | .real number =>
    if Float.ofNat size < number * 3.0 then
      .ok (if number.isInf then size else -Embedding.floorOf (-number))
    else count.sliceEnd
  | other => do (← (← other.times 3).atMost size).sliceEnd *> other.sliceEnd

def searchUpTo (gpu : GpuSupport) (query : Embedding) (count : Value) (filter : Value) :
    IndexAct (List Hit) := do
  match ← vectors! gpu with
  | none => return []
  | some vectors =>
    if vectors.size = 0 then return []
    match countAmong vectors.size count with
    | .ok count => search gpu query count filter
    | .error fault =>
      match count with
      | .real _ => if vectors.fits query then throw fault else throw .dimensionMismatch
      | _ => throw fault

/-- The entry of a live chunk.  Only a text can name one, and only a plain value can be
looked up. -/
def entryOf (identifier : Value) : IndexAct (Option Entry) := do
  let catalog ← catalog!
  match identifier with
  | .text name => return catalog.get? name
  | other => if other.isPlain then return none else throw (.wrongType other.notHashable)

def recordOf (identifier : Value) : IndexAct (Option Record) := do
  return (← entryOf identifier).map Entry.record

/-- The first items, at most so many; a count below zero leaves out so many at the end. -/
def firstOf (count : Int) (hits : List Hit) : List Hit :=
  hits.take (Text.sliceBound hits.length count)

def vectorOf (identifier : Value) : IndexAct (Option Embedding) := do
  match ← entryOf identifier with
  | none => return none
  | some entry => return (← current).vectors.bind (fun vectors => vectors.reconstruct entry.position)

def similar (gpu : GpuSupport) (identifier : String) (count : Int) : IndexAct (List Hit) := do
  match ← vectorOf (.text identifier) with
  | none => return []
  | some vector =>
    let hits ← search gpu vector (count + 1) .null
    return firstOf count (hits.filter (fun hit => hit.identifier ≠ identifier))

def similarUpTo (gpu : GpuSupport) (identifier count : Value) : IndexAct (List Hit) := do
  match ← vectorOf identifier with
  | none => return []
  | some vector =>
    let hits ← searchUpTo gpu vector (← orFail count.successor) .null
    let others := hits.filter (fun hit => !(Value.text hit.identifier).agrees identifier)
    return firstOf (← orFail count.sliceEnd) others

/-- Remove the live chunks of a file and tell how many there were. -/
def removeFile (path project : Value) : IndexAct Nat := do
  let names := (← current).names
  let catalog : Catalog ← if names.isEmpty then pure Table.empty else catalog!
  let found ← orFail (catalog.belonging path project names)
  let catalog ← catalog!
  let (rest, outcome) := catalog.removeAll found
  setCatalog rest
  orFail outcome
  commit
  return found.length

/-- Write the vectors; those on graphics processors are brought back before. -/
def writeVectors (gpu : GpuSupport) (onGpu : Bool) (vectors : VectorIndex) (path : Path) :
    Act Unit := do
  let vectors ←
    if onGpu && gpu.back ≠ .missing then gpu.bringBack vectors else pure vectors
  if vectors.onGpu then throw (.modelFailed "index is on the GPU")
  World.writeFile path (.document vectors.toValue)

/-- Keep the vectors, the names and the statistics.  Where the vectors cannot be
written, a second attempt brings them back first, and then they are left out. -/
def save (gpu : GpuSupport) : IndexAct Unit := do
  let chunks ← current
  match chunks.vectors with
  | none => pure ()
  | some vectors =>
    let second : Act Unit := do
      World.writeFile chunks.vectorFile (.document (← gpu.bringBack vectors).toValue)
    let write : Act Unit :=
      tryCatch (writeVectors gpu chunks.onGpu vectors chunks.vectorFile) (fun _ =>
        tryCatch second (fun _ => pure ()))
    write
  World.writeFile chunks.nameFile (.document (.ofTexts chunks.names))
  writeStatistics

def toRecord (chunks : ChunkIndex) : Record :=
  [("chunk_ids", .ofTexts chunks.names), ("on_gpu", .bool chunks.onGpu),
    ("index", match chunks.vectors with
      | none => .null
      | some index => .record index.description)]

def statistics : IndexAct Value := do
  let file := (← current).statisticsFile
  if ← World.exists? file then World.documentAt file
  else return .record Statistics.emptyRecord

def clear : IndexAct Unit := do
  change (fun chunks => { chunks with catalog := none })
  (← current).keptFiles.forM (fun file => World.discard file)
  change (fun chunks => { chunks with vectors := none, names := [] })

end ChunkIndex

end CodeAtlas
