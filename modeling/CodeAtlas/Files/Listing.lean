import CodeAtlas.Files.World

/-!
# Worlds from listings

A listing is a record of paths and texts.  It makes a world with these files and
the folders on the way to them.
-/

namespace CodeAtlas.World

def bare (workingDirectory : Path) : World :=
  let start : World := ⟨.folder [], workingDirectory, 0, 0, [], 0⟩
  ((makeFolder workingDirectory).run.run start).2

/-- Write the files of a listing; the last one of a path counts. -/
def writeListing : Record → Act Unit
  | [] => return
  | (name, value) :: rest => do
    let path := Path.ofString name
    makeFolder path.parent
    writeFile path (.bytes (value.asText?.getD "").toUTF8)
    writeListing rest

/-- The world that a listing describes; a file that has no place is left out together
with those after it. -/
def ofListing (workingDirectory : Path) (listing : Record) : World :=
  ((writeListing listing).run.run (bare workingDirectory)).2

end CodeAtlas.World
