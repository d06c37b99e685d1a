import CodeAtlas.Command.Download
import CodeAtlas.Command.Index
import CodeAtlas.Command.Serve
import CodeAtlas.Digest.Md5
import CodeAtlas.Digest.Sha256
import CodeAtlas.Files.Listing

/-!
# The command line

The first word chooses the command and the other words are its command line.  The
files that a command acts on are read from standard input as a record of paths and
texts.  The log goes to standard error.
-/

namespace CodeAtlas.Main

def workingDirectory : Path :=
  Path.ofString "/"

/-- What a command finds around it: no parsers, no model and no graphics processors. -/
def environment : Environment where
  digest := Digest.sha256
  pathDigest := Digest.md5
  languages := []
  parse := ⟨fun _ source => .mk "root" ⟨0, source.bytes.size, 0, 0⟩ []⟩
  encoder := .counting [] ""
  gpu := .none
  home := Path.ofString "/home"
  storage := Path.ofString "/home/.claude_code_search"
  sample := Path.ofString "/sample"

def command? (name : String) : Option (List String → Act Command.Report) :=
  match name with
  | "index" => some (Command.Index.run environment)
  | "download" => some (Command.Download.run environment none)
  | "serve" => some Command.Serve.run
  | _ => none

/-- The files in a document; one that is no record has none. -/
def listingOf (text : String) : Record :=
  match Json.parse? text with
  | some (.record fields) => fields
  | _ => []

def tell (report : Command.Report) : IO UInt32 := do
  for entry in report.log do
    IO.eprintln (entry.author ++ " " ++ entry.level.label ++ " " ++ entry.message)
  if let some refusal := report.refusal then IO.eprintln refusal
  IO.print report.output
  return UInt32.ofNat report.exit

end CodeAtlas.Main

def main (words : List String) : IO UInt32 := do
  match words with
  | [] =>
    IO.eprintln "commands: index, download, serve"
    return 2
  | name :: rest =>
    match CodeAtlas.Main.command? name with
    | none =>
      IO.eprintln ("unknown command: " ++ name)
      return 2
    | some command =>
      let text ← (← IO.getStdin).readToEnd
      let world := CodeAtlas.World.ofListing CodeAtlas.Main.workingDirectory
        (CodeAtlas.Main.listingOf text)
      match ((command rest).run.run world).1 with
      | .ok report => CodeAtlas.Main.tell report
      | .error fault =>
        IO.eprintln fault.message
        return 1
