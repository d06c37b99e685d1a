import CodeAtlas.Text.Quoted

/-!
# Paths

A path is a list of components under an optional root.  Empty components and
single dots are dropped when a path is read, double dots are kept.  `resolve`
applies the double dots, as there are no links.
-/

namespace CodeAtlas

inductive Anchor where
  | relative
  | root
  | doubleRoot
deriving DecidableEq, Inhabited

structure Path where
  anchor : Anchor
  parts : List String
deriving DecidableEq, Inhabited

namespace Path

def Anchor.text : Anchor → String
  | .relative => ""
  | .root => "/"
  | .doubleRoot => "//"

def anchorOf : List Char → Anchor
  | '/' :: '/' :: '/' :: _ => .root
  | '/' :: '/' :: _ => .doubleRoot
  | '/' :: _ => .root
  | _ => .relative

/-- The components between slashes that name something. -/
def components (text : String) : List String :=
  (Text.split text '/').filter (fun part => !(part.isEmpty || part == "."))

def ofString (text : String) : Path :=
  ⟨anchorOf text.toList, components text⟩

/-- The text without the single dot that stands for an empty path. -/
def bareText (path : Path) : String :=
  Anchor.text path.anchor ++ Text.join "/" path.parts

/-- The text of the path; a path without components is a single dot. -/
def toString (path : Path) : String :=
  let text := path.bareText
  if text.isEmpty then "." else text

instance : ToString Path :=
  ⟨toString⟩

def isAbsolute (path : Path) : Bool :=
  path.anchor ≠ .relative

def hasNull (path : Path) : Bool :=
  path.parts.any (fun part => part.toList.contains (Char.ofNat 0))

/-- The last component, empty if there is none. -/
def name (path : Path) : String :=
  path.parts.getLast?.getD ""

def parent (path : Path) : Path :=
  ⟨path.anchor, path.parts.dropLast⟩

/-- The root, if any, and the components. -/
def allParts (path : Path) : List String :=
  if path.anchor = .relative then path.parts else Anchor.text path.anchor :: path.parts

/-- Split a name at its last dot, if the dot is neither first nor last. -/
def splitName (name : String) : String × String :=
  let backwards := name.toList.reverse
  let tail := backwards.takeWhile (· ≠ '.')
  let head := backwards.drop (tail.length + 1)
  if tail.isEmpty || head.isEmpty || tail.length = backwards.length then (name, "")
  else (String.ofList head.reverse, String.ofList ('.' :: tail.reverse))

def suffix (path : Path) : String :=
  (splitName path.name).2

def stem (path : Path) : String :=
  (splitName path.name).1

/-- One path below another; an absolute path stands for itself. -/
def append (base path : Path) : Path :=
  if path.isAbsolute then path else ⟨base.anchor, base.parts ++ path.parts⟩

instance : Append Path :=
  ⟨append⟩

def child (base : Path) (name : String) : Path :=
  ⟨base.anchor, base.parts ++ [name]⟩

def stripParts : List String → List String → Option (List String)
  | [], parts => some parts
  | _ :: _, [] => none
  | lead :: leads, part :: parts =>
    if lead == part then stripParts leads parts else none

def relativeTo? (path base : Path) : Option Path :=
  if base.anchor = .relative && base.parts.isEmpty then
    if path.anchor = .relative then some path else none
  else if path.anchor = base.anchor then
    (stripParts base.parts path.parts).map (fun parts => ⟨.relative, parts⟩)
  else none

/-- Apply one component to a list of components kept backwards. -/
def climb (parts : List String) (part : String) : List String :=
  if part == ".." then parts.tail else part :: parts

/-- The components with every double dot applied; above the root there is nothing. -/
def normalParts (parts : List String) : List String :=
  (parts.foldl climb []).reverse

/-- The absolute path without double dots, seen from a working directory. -/
def resolve (path workingDirectory : Path) : Path :=
  ⟨.root, normalParts (workingDirectory ++ path).parts⟩

end Path

end CodeAtlas
