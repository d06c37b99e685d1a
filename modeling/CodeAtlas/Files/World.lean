import CodeAtlas.Fault
import CodeAtlas.Files.Clock
import CodeAtlas.Files.Tree
import CodeAtlas.Path

/-!
# The world that the program acts on

The world is a disk, a working directory, a clock and the lines that were printed.
A file on the disk holds bytes or a document; the bytes of a document are its
indented text.  An action may fail and keeps what it did before.  Names and paths have
a limit on their length, and none of them holds the null character.
-/

namespace CodeAtlas

inductive Body where
  | bytes (content : ByteArray)
  | document (value : Value)

namespace Body

def toBytes : Body → ByteArray
  | .bytes content => content
  | .document value => (Json.write .indented value).toUTF8

end Body

/-- A file on the disk: its body and the time of its last change in milliseconds. -/
structure Stored where
  body : Body
  modified : Int

/-- One line feed for each line end, be it written as one, as a carriage return
or as both. -/
def Text.plainLineEnds : List Char → List Char
  | '\r' :: '\n' :: rest => '\n' :: plainLineEnds rest
  | '\r' :: rest => '\n' :: plainLineEnds rest
  | character :: rest => character :: plainLineEnds rest
  | [] => []

namespace Stored

def bytes (stored : Stored) : ByteArray :=
  stored.body.toBytes

def text (stored : Stored) : Except Fault String :=
  match Text.Utf8.read stored.bytes with
  | .ok text => .ok (String.ofList (Text.plainLineEnds text.toList))
  | .error problem => .error (.undecodable problem)

/-- The document that a file holds; bytes are read as JSON. -/
def document (stored : Stored) : Except Fault Value :=
  match stored.body with
  | .document value => .ok value
  | .bytes _ => do
    match Json.parse (← stored.text) with
    | .ok value => .ok value
    | .error problem => .error (.unreadable problem)

end Stored

abbrev Disk := FileTree Stored

structure World where
  disk : Disk
  workingDirectory : Path
  /-- Milliseconds since the start. -/
  now : Int
  /-- The moment that the next look at the clock shows, in seconds. -/
  clock : Nat
  /-- The printed lines, newest first. -/
  printed : List String
  /-- How often an index was brought back from graphics processors. -/
  transfers : Nat

abbrev Act (α : Type) := ExceptT Fault (StateM World) α

def nameLimit : Nat :=
  255

def pathLimit : Nat :=
  4095

namespace Disk

/-- Follow components from the root.  All that is passed on the way has to be a
folder; the last component need not exist.  `shown` is the path that a refusal
names. -/
def follow (disk : Disk) (shown : String) : List String → List String →
    Except DiskFault (List String)
  | passed, [] => .ok passed.reverse
  | passed, part :: parts =>
    match disk.find? passed.reverse with
    | some (.folder _) =>
      if nameLimit < part.utf8ByteSize then .error (.nameTooLong shown)
      else follow disk shown (if part == ".." then passed.tail else part :: passed) parts
    | some (.file _) => .error (.notDirectory shown)
    | none => .error (.missing shown)

/-- Follow components from the root and make the folders that are missing.  Those that
were made before a refusal stay. -/
def makeWay (disk : Disk) (shown : String) : List String → List String →
    Disk × Except DiskFault Unit
  | _, [] => (disk, .ok ())
  | passed, part :: parts =>
    if part == ".." then makeWay disk shown passed.tail parts
    else if nameLimit < part.utf8ByteSize then (disk, .error (.nameTooLong shown))
    else
      match disk.find? (part :: passed).reverse with
      | some (.folder _) => makeWay disk shown (part :: passed) parts
      | some (.file _) =>
        (disk, .error (if parts.isEmpty then .exists shown else .notDirectory shown))
      | none =>
        makeWay (disk.insert (part :: passed).reverse (.folder [])) shown (part :: passed) parts

end Disk

namespace World

def checkPath (path : Path) : Except Fault Unit :=
  if path.hasNull then .error .nullInPath
  else if pathLimit < path.toString.utf8ByteSize then .error (.disk (.nameTooLong path.toString))
  else .ok ()

def locate (world : World) (path : Path) : Except Fault (List String) := do
  checkPath path
  (world.disk.follow path.toString [] (world.workingDirectory ++ path).parts).mapError .disk

/-- What stands at a path, if anything does.  Only a name that is too long is a fault. -/
def lookUp (world : World) (path : Path) : Except Fault (Option (FileTree Stored)) :=
  match world.locate path with
  | .ok names => .ok (world.disk.find? names)
  | .error (.disk (.nameTooLong shown)) => .error (.disk (.nameTooLong shown))
  | .error _ => .ok none

def entryAt? (world : World) (path : Path) : Option (FileTree Stored) :=
  match world.lookUp path with
  | .ok entry => entry
  | .error _ => none

def holds (world : World) (path : Path) : Bool :=
  (world.entryAt? path).isSome

def holdsFolder (world : World) (path : Path) : Bool :=
  match world.entryAt? path with
  | some tree => tree.isFolder
  | none => false

def file (world : World) (path : Path) : Except Fault Stored := do
  let names ← world.locate path
  match world.disk.find? names with
  | some (.file stored) => return stored
  | some (.folder _) => throw (.disk (.isDirectory path.toString))
  | none => throw (.disk (.missing path.toString))

def placeFor (world : World) (path : Path) : Except Fault (List String) := do
  let names ← world.locate path
  match world.disk.find? names with
  | some (.folder _) => throw (.disk (.isDirectory path.toString))
  | _ => return names

def print (line : String) : Act Unit :=
  modify (fun world => { world with printed := line :: world.printed })

/-- The text of the present moment; each look at the clock is one second later. -/
def readClock : Act String := do
  let world ← get
  set { world with clock := world.clock + 1 }
  return Clock.text world.clock

def resolve (path : String) : Act Path := do
  let path := Path.ofString path
  if path.hasNull then throw .nullInPath
  return path.resolve (← get).workingDirectory

def find (path : Path) : Act (Option (FileTree Stored)) := do
  orFail ((← get).lookUp path)

def exists? (path : Path) : Act Bool := do
  return (← find path).isSome

def isFolder (path : Path) : Act Bool := do
  match ← find path with
  | some tree => return tree.isFolder
  | none => return false

def fileAt (path : Path) : Act Stored := do
  orFail ((← get).file path)

def documentAt (path : Path) : Act Value := do
  match (← fileAt path).document with
  | .ok value => return value
  | .error fault => throw fault

/-- The names kept in the file at a path.  A file with anything else is not understood. -/
def namesAt (path : Path) : Act (List String) := do
  match (← fileAt path).body with
  | .document (.list items) => return items.filterMap Value.asText?
  | .document _ => return []
  | .bytes bytes => throw (.foreignNames bytes.toList.head?)

def writeFile (path : Path) (body : Body) : Act Unit := do
  let world ← get
  let names ← orFail (world.placeFor path)
  set { world with
    disk := world.disk.insert names (.file ⟨body, world.now⟩)
    now := world.now + 1 }

/-- Make a folder and those on the way to it; one that exists stays. -/
def makeFolder (path : Path) : Act Unit := do
  let world ← get
  orFail (checkPath path)
  let (disk, outcome) :=
    world.disk.makeWay path.toString [] (world.workingDirectory ++ path).parts
  set { world with disk }
  orFail (outcome.mapError .disk)

/-- Make a folder in one that exists; a folder that exists stays. -/
def makeSubfolder (path : Path) : Act Unit := do
  let world ← get
  let names ← orFail (world.locate path)
  match world.disk.find? names with
  | some (.folder _) => return
  | some (.file _) => throw (.disk (.exists path.toString))
  | none => set { world with disk := world.disk.insert names (.folder []) }

def remove (path : Path) : Act Unit := do
  let world ← get
  let names ← orFail (world.locate path)
  if (world.disk.find? names).isSome then
    set { world with disk := world.disk.erase names }
  else throw (.disk (.missing path.toString))

def deleteFile (path : Path) : Act Unit := do
  let world ← get
  let names ← orFail (world.locate path)
  match world.disk.find? names with
  | some (.file _) => set { world with disk := world.disk.erase names }
  | some (.folder _) => throw (.disk (.isDirectory path.toString))
  | none => throw (.disk (.missing path.toString))

def discard (path : Path) : Act Unit := do
  if ← exists? path then deleteFile path

/-- Why a tree cannot take the place of another one, if it cannot: a file takes the place of
a file, and a folder that of an empty folder. -/
def replacing (path : String) (tree : FileTree Stored) : Option (FileTree Stored) →
    Option DiskFault
  | none => none
  | some (.file _) => if tree.isFolder then some (.notDirectory path) else none
  | some (.folder entries) =>
    if tree.isFile then some (.isDirectory path)
    else if entries.isEmpty then none
    else some (.notEmpty path)

/-- Move what stands at a path to another one, which is not below it. -/
def move (source target : Path) : Act Unit := do
  let world ← get
  let names ← orFail (world.locate source)
  match world.disk.find? names with
  | none => throw (.disk (.missing source.toString))
  | some tree =>
    let place ← orFail (world.locate target)
    if names == place then return
    else if names.isPrefixOf place then throw (.disk (.invalid source.toString))
    else
      match replacing source.toString tree (world.disk.find? place) with
      | some fault => throw (.disk fault)
      | none => set { world with disk := (world.disk.erase names).insert place tree }

/-- Set the age of a file in milliseconds.  As with writing, a millisecond passes. -/
def setAge (path : Path) (age : Int) : Act Unit := do
  let stored ← fileAt path
  let world ← get
  let names ← orFail (world.locate path)
  set { world with
    disk := world.disk.insert names (.file { stored with modified := world.now - age })
    now := world.now + 1 }

end World

end CodeAtlas
