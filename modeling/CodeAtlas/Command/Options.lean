import CodeAtlas.Data.Value
import CodeAtlas.Number.Whole
import CodeAtlas.Text.Quoted

/-!
# Command lines

A command takes operands by position and options by name.  A long option may be
shortened as long as one option fits, and a value may follow a long option after
an equals sign.  Short options without values can be written together.  After two
dashes everything is an operand.  What does not fit is refused with a reason.
-/

namespace CodeAtlas.Command

inductive Reading where
  | text
  | whole
  | oneOf (choices : List String)

inductive OptionKind where
  | help
  | flag
  | value (reading : Reading)

structure OptionSpec where
  names : List String
  kind : OptionKind
  help : String

def OptionSpec.helpOption : OptionSpec :=
  ⟨["-h", "--help"], .help, "show this help message and exit"⟩

def OptionSpec.label (option : OptionSpec) : String :=
  Text.join "/" option.names

structure CommandSpec where
  program : String
  description : String
  operands : List (String × String)
  options : List OptionSpec

def CommandSpec.names (command : CommandSpec) : List (String × OptionSpec) :=
  command.options.flatMap (fun option => option.names.map (fun name => (name, option)))

structure Given where
  operands : List (String × String)
  /-- The options in order, by first name; a flag is on. -/
  options : Record
deriving Inhabited

inductive Parsed where
  | help
  | refused (reason : String)
  | run (given : Given)

structure Found where
  option : OptionSpec
  name : String
  value : Option String

inductive Role where
  | operand
  | divider
  | option (found : Found)
  | unknown

structure Word where
  text : String
  role : Role

def Word.isOption (word : Word) : Bool :=
  match word.role with
  | .option _ => true
  | .unknown => true
  | _ => false

/-- Split at the first equals sign, if there is one. -/
def splitValue (word : String) : String × Option String :=
  let head := word.toList.takeWhile (· ≠ '=')
  match word.toList.drop head.length with
  | [] => (word, none)
  | _ :: value => (String.ofList head, some (String.ofList value))

/-- Whether the characters are digits, or digits around a point with some after it. -/
def isPlainNumber (characters : List Char) : Bool :=
  let whole := characters.takeWhile Number.isDigit
  match characters.drop whole.length with
  | [] => !whole.isEmpty
  | '.' :: places => !places.isEmpty && places.all Number.isDigit
  | _ => false

/-- Whether the word is a number below zero; one line feed may follow it. -/
def isNegativeNumber (word : String) : Bool :=
  match word.toList with
  | '-' :: rest => isPlainNumber (if rest.getLast? = some '\n' then rest.dropLast else rest)
  | _ => false

def candidates (command : CommandSpec) (word : String) : List Found :=
  match word.toList with
  | '-' :: '-' :: _ =>
    let (head, value) := splitValue word
    command.names.filterMap (fun (name, option) =>
      if Text.startsWith name head then some ⟨option, name, value⟩ else none)
  | '-' :: second :: rest =>
    command.names.filterMap (fun (name, option) =>
      if name == String.ofList ['-', second] then
        some ⟨option, name, some (String.ofList rest)⟩
      else if Text.startsWith name word then some ⟨option, name, none⟩
      else none)
  | _ => []

def roleOf (command : CommandSpec) (word : String) : Except String Role :=
  if !Text.startsWith word "-" then .ok .operand
  else
    match command.names.lookup word with
    | some option => .ok (.option ⟨option, word, none⟩)
    | none =>
      if word.length = 1 then .ok .operand
      else
        let (head, value) := splitValue word
        match value, command.names.lookup head with
        | some value, some option => .ok (.option ⟨option, head, some value⟩)
        | _, _ =>
          match candidates command word with
          | [found] => .ok (.option found)
          | [] =>
            if isNegativeNumber word || Text.contains word " " then .ok .operand
            else .ok .unknown
          | several => .error ("ambiguous option: " ++ word ++ " could match " ++
              Text.join ", " (several.map Found.name))

def wordsOf (command : CommandSpec) : List String → Except String (List Word)
  | [] => .ok []
  | word :: rest => do
    if word == "--" then
      return ⟨word, .divider⟩ :: rest.map (fun word => ⟨word, .operand⟩)
    else
      let role ← roleOf command word
      return ⟨word, role⟩ :: (← wordsOf command rest)

def skipDividers : List Word → List Word
  | ⟨_, .divider⟩ :: rest => skipDividers rest
  | words => words

def takeOperands : List String → List Word → List (String × String) × List Word
  | [], words => ([], words)
  | name :: names, words =>
    match skipDividers words with
    | ⟨text, .operand⟩ :: rest =>
      let (taken, after) := takeOperands names (skipDividers rest)
      ((name, text) :: taken, after)
    | _ => ([], words)

structure Progress where
  given : Given
  extras : List String

inductive Stop where
  | help
  | refused (reason : String)

def refuse (option : OptionSpec) (reason : String) : Except Stop α :=
  .error (.refused ("argument " ++ option.label ++ ": " ++ reason))

/-- The value of an option as it is read.  Two dashes stand for no value at all. -/
def readGiven (option : OptionSpec) (reading : Reading) (value : String) : Except Stop Value :=
  if value == "--" then .ok (.list [])
  else
    match reading with
    | .text => .ok (.text value)
    | .whole =>
      match Number.whole? value with
      | some number => .ok (.int number)
      | none => refuse option ("invalid int value: " ++ Text.quoted value)
    | .oneOf choices =>
      if choices.contains value then .ok (.text value)
      else refuse option ("invalid choice: " ++ Text.quoted value ++ " (choose from " ++
        Text.join ", " (choices.map Text.quoted) ++ ")")

def Progress.record (progress : Progress) (option : OptionSpec) (value : Value) : Progress :=
  { progress with given := { progress.given with
      options := progress.given.options ++ [(option.names.headD "", value)] } }

def carryOut : List (OptionSpec × String) → Progress → Except Stop Progress
  | [], progress => .ok progress
  | (option, value) :: rest, progress =>
    match option.kind with
    | .help => .error .help
    | .flag => carryOut rest (progress.record option (.bool true))
    | .value reading => do
      carryOut rest (progress.record option (← readGiven option reading value))

def OptionSpec.takesValue (option : OptionSpec) : Bool :=
  match option.kind with
  | .value _ => true
  | _ => false

def nextValue (option : OptionSpec) (words : List Word) : Except Stop (String × List Word) :=
  match words with
  | ⟨text, .operand⟩ :: rest => .ok (text, rest)
  | _ => refuse option "expected one argument"

structure Cluster where
  options : List (OptionSpec × String)
  rest : List Word

def refuseValue (option : OptionSpec) (value : String) : Except Stop α :=
  refuse option ("ignored explicit argument " ++ Text.quoted value)

def readBare (option : OptionSpec) (words : List Word) : Except Stop Cluster :=
  if option.takesValue then do
    let (value, rest) ← nextValue option words
    return ⟨[(option, value)], rest⟩
  else .ok ⟨[(option, "")], words⟩

/-- Read a short option with letters written to it: each of them is an option of its own,
and what follows an option with a value is that value. -/
def readLetters (command : CommandSpec) (words : List Word) :
    OptionSpec → List Char → Except Stop Cluster
  | option, [] => readBare option words
  | option, letter :: letters =>
    if option.takesValue then .ok ⟨[(option, String.ofList (letter :: letters))], words⟩
    else
      match command.names.lookup (String.ofList ['-', letter]) with
      | none => refuseValue option (String.ofList (letter :: letters))
      | some next => do
        let cluster ← readLetters command words next letters
        return { cluster with options := (option, "") :: cluster.options }

def readOption (command : CommandSpec) (found : Found) (words : List Word) :
    Except Stop Cluster :=
  match found.value with
  | none => readBare found.option words
  | some value =>
    if found.option.takesValue then .ok ⟨[(found.option, value)], words⟩
    else if value.isEmpty || Text.startsWith found.name "--" then
      refuseValue found.option value
    else readLetters command words found.option value.toList

/-- Read words, with names that wait for operands.  Every step takes a word, so as many
steps as words are enough. -/
def readWords (command : CommandSpec) : Nat → List String → List Word → Progress →
    Except Stop (List String × Progress)
  | 0, waiting, _, progress => .ok (waiting, progress)
  | steps + 1, waiting, words, progress =>
    let taken := takeOperands waiting words
    let after : Progress := { progress with given := { progress.given with
      operands := progress.given.operands ++ taken.1 } }
    let left := waiting.drop taken.1.length
    if !words.any Word.isOption then
      .ok (left, { after with extras := after.extras ++ taken.2.map Word.text })
    else
      match words with
      | [] => .ok (waiting, progress)
      | ⟨text, .unknown⟩ :: rest =>
        readWords command steps waiting rest
          { progress with extras := progress.extras ++ [text] }
      | ⟨_, .option found⟩ :: rest => do
        let cluster ← readOption command found rest
        readWords command steps waiting cluster.rest (← carryOut cluster.options progress)
      | word :: rest =>
        if taken.1.isEmpty then
          readWords command steps waiting rest
            { progress with extras := progress.extras ++ [word.text] }
        else readWords command steps left taken.2 after

def parse (command : CommandSpec) (words : List String) : Parsed :=
  match wordsOf command words with
  | .error reason => .refused reason
  | .ok words =>
    match readWords command (words.length + 1) (command.operands.map Prod.fst) words
        ⟨⟨[], []⟩, []⟩ with
    | .error .help => .help
    | .error (.refused reason) => .refused reason
    | .ok (waiting, progress) =>
      if !waiting.isEmpty then
        .refused ("the following arguments are required: " ++ Text.join ", " waiting)
      else if !progress.extras.isEmpty then
        .refused ("unrecognized arguments: " ++ Text.join " " progress.extras)
      else .run progress.given

namespace Given

def operand (given : Given) (name : String) : String :=
  (given.operands.lookup name).getD ""

def value? (given : Given) (name : String) : Option Value :=
  given.options.reverse.lookup name

def has (given : Given) (name : String) : Bool :=
  (given.value? name).isSome

end Given

end CodeAtlas.Command
