import CodeAtlas.Command.Options
import CodeAtlas.Text.Case

/-!
# Help texts

The help text of a command: how it is called, what it does, and its operands and
options in two columns.  Lines are no longer than 78 characters where words allow.
-/

namespace CodeAtlas.Command

def lineWidth : Nat :=
  78

def spaces (count : Nat) : String :=
  String.ofList (List.replicate count ' ')

/-- Fill lines with parts, one space between neighbours.  The line under way has the
given text; new lines start with `indent` spaces. -/
def fillLines (width indent : Nat) : String → List String → List String
  | line, [] => [line]
  | line, part :: parts =>
    if line.length + 1 + part.length ≤ width then
      fillLines width indent (line ++ " " ++ part) parts
    else line :: fillLines width indent (spaces indent ++ part) parts

def wrap (width : Nat) (text : String) : List String :=
  match Text.words text with
  | [] => []
  | word :: words => fillLines width 0 word words

def OptionSpec.placeholder (option : OptionSpec) : String :=
  match option.kind with
  | .value (.oneOf choices) => "\x7b" ++ Text.join "," choices ++ "\x7d"
  | _ =>
    let name := Text.dropLeading (option.names.headD "") '-'
    String.ofList (name.toList.map (fun character =>
      if character = '-' then '_' else character.toUpper))

def OptionSpec.written (option : OptionSpec) (name : String) : String :=
  if option.takesValue then name ++ " " ++ option.placeholder else name

def usageLines (command : CommandSpec) : List String :=
  let start := "usage: " ++ command.program
  let options := command.options.map (fun option =>
    "[" ++ option.written (option.names.headD "") ++ "]")
  let operands := command.operands.map Prod.fst
  let line := Text.join " " (start :: options ++ operands)
  if line.length ≤ lineWidth then [line]
  else
    let indent := start.length + 1
    fillLines lineWidth indent start options ++
      match operands with
      | [] => []
      | operand :: rest => fillLines lineWidth indent (spaces indent ++ operand) rest

def columns (width : Nat) (head text : String) : List String :=
  let lines := wrap (lineWidth - width) text
  let indented (line : String) := spaces width ++ line
  match lines with
  | [] => ["  " ++ head]
  | line :: rest =>
    if head.length + 4 ≤ width then
      ("  " ++ head ++ spaces (width - 2 - head.length) ++ line) :: rest.map indented
    else ("  " ++ head) :: lines.map indented

def OptionSpec.head (option : OptionSpec) : String :=
  Text.join ", " (option.names.map option.written)

def columnWidth (command : CommandSpec) : Nat :=
  let heads := command.operands.map Prod.fst ++ command.options.map OptionSpec.head
  min 24 ((heads.map (fun head => head.length + 4)).foldl max 0)

def helpText (command : CommandSpec) : String :=
  let width := columnWidth command
  let operands := command.operands.flatMap (fun (name, text) => columns width name text)
  let options := command.options.flatMap (fun option => columns width option.head option.help)
  let lines := usageLines command ++ [""] ++ wrap lineWidth command.description ++ [""] ++
    (if operands.isEmpty then [] else "positional arguments:" :: operands ++ [""]) ++
    "options:" :: options
  Text.join "\n" lines ++ "\n"

end CodeAtlas.Command
