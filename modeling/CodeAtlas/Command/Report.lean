import CodeAtlas.Command.Help
import CodeAtlas.Files.World
import CodeAtlas.Text.Lines

/-!
# What a command did

The outcome of a command: its exit code, its log, what it wrote and which
transports it served.
-/

namespace CodeAtlas.Command

inductive Level where
  | info
  | error
deriving DecidableEq

def Level.label : Level → String
  | .info => "INFO"
  | .error => "ERROR"

structure LogEntry where
  author : String
  level : Level
  message : String

structure Report where
  exit : Nat
  log : List LogEntry
  output : String
  refusal : Option String
  served : List Value

namespace Report

def logged (exit : Nat) (log : List LogEntry) : Report :=
  ⟨exit, log, "", none, []⟩

def wrote (exit : Nat) (lines : List String) : Report :=
  ⟨exit, [], String.join (lines.map (· ++ "\n")), none, []⟩

/-- The report as a record; messages are given by their first lines. -/
def toRecord (report : Report) : Record :=
  [("exit", .int report.exit), ("stdout", .text report.output),
    ("log", .list (report.log.map (fun entry =>
      .ofTexts [entry.author, entry.level.label, Text.firstLine entry.message]))),
    ("usage_error", .ofText? (report.refusal.map Text.firstLine)), ("ran", .list report.served)]

def help (command : CommandSpec) : Report :=
  ⟨0, [], helpText command, none, []⟩

def refused (command : CommandSpec) (reason : String) : Report :=
  ⟨2, [], "", some (command.program ++ ": error: " ++ reason), []⟩

end Report

def Given.folderOr (given : Given) (name : String) (other : Path) : Except Fault Path :=
  match given.value? name with
  | none => .ok other
  | some (.text text) => .ok (Path.ofString text)
  | some value => .error (.wrongType value.notPath)

def runWith (command : CommandSpec) (words : List String) (body : Given → Act Report) :
    Act Report :=
  match parse command words with
  | .help => return .help command
  | .refused reason => return .refused command reason
  | .run given => body given

end CodeAtlas.Command
