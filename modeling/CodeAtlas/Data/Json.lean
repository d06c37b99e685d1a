import CodeAtlas.Data.Value
import CodeAtlas.Number.Decimal
import CodeAtlas.Number.Whole

/-!
# The text form of documents

Documents are written as JSON.  A `Layout` says how members are separated; every
character outside ASCII is written as an escape.  Reading accepts the standard
grammar and the three names `NaN`, `Infinity` and `-Infinity`; whole numbers have a
limit on their digits, and lists and records one on their nesting.
-/

namespace CodeAtlas.Json

inductive Layout where
  | compact
  | spaced
  | indented
deriving DecidableEq

private def hexDigit (value : Nat) : Char :=
  (Nat.toDigits 16 value).headD '0'

def unitEscape (unit : Nat) : String :=
  String.ofList ['\\', 'u', hexDigit (unit / 4096 % 16), hexDigit (unit / 256 % 16),
    hexDigit (unit / 16 % 16), hexDigit (unit % 16)]

def charText (character : Char) : String :=
  let point := character.toNat
  if character = '"' then "\\\""
  else if character = '\\' then "\\\\"
  else if character = '\n' then "\\n"
  else if character = '\r' then "\\r"
  else if character = '\t' then "\\t"
  else if point = 8 then "\\b"
  else if point = 12 then "\\f"
  else if 32 ≤ point && point < 127 then String.singleton character
  else if point < 0x10000 then unitEscape point
  else
    let offset := point - 0x10000
    unitEscape (0xD800 + offset / 1024) ++ unitEscape (0xDC00 + offset % 1024)

def quote (text : String) : String :=
  "\"" ++ String.join (text.toList.map charText) ++ "\""

private def lineBreak (depth : Nat) : String :=
  "\n" ++ String.ofList (List.replicate (2 * depth) ' ')

/-- What stands before the first member, between members and after the last. -/
def frame (layout : Layout) (depth : Nat) : String × String × String :=
  match layout with
  | .compact => ("", ",", "")
  | .spaced => ("", ", ", "")
  | .indented => (lineBreak (depth + 1), "," ++ lineBreak (depth + 1), lineBreak depth)

private def enclose (layout : Layout) (depth : Nat) (opening closing : String)
    (members : List String) : String :=
  match members with
  | [] => opening ++ closing
  | _ =>
    let (before, between, after) := frame layout depth
    opening ++ before ++ Text.join between members ++ after ++ closing

mutual

def render (layout : Layout) (depth : Nat) : Value → String
  | .null => "null"
  | .bool value => if value then "true" else "false"
  | .int value => toString value
  | .real value => Number.shortestText value
  | .text value => quote value
  | .list items => enclose layout depth "[" "]" (renderItems layout (depth + 1) items)
  | .record fields =>
    enclose layout depth "\x7b" "\x7d" (renderFields layout (depth + 1) fields)

def renderItems (layout : Layout) (depth : Nat) : List Value → List String
  | [] => []
  | item :: rest => render layout depth item :: renderItems layout depth rest

def renderFields (layout : Layout) (depth : Nat) :
    List (String × Value) → List String
  | [] => []
  | (name, value) :: rest =>
    (quote name ++ (if layout = .compact then ":" else ": ") ++ render layout depth value)
      :: renderFields layout depth rest

end

def write (layout : Layout) (value : Value) : String :=
  render layout 0 value

/-! ## Reading -/

inductive Flaw where
  | byteOrderMark
  | noValue
  | noName
  | noColon
  | noComma
  | extra
  | openText
  | controlCharacter
  | badEscape
  | badUnitEscape
  | longNumber (digits : Nat)
  | deepList
  | deepRecord
deriving DecidableEq

def Flaw.text : Flaw → String
  | .byteOrderMark => "Unexpected UTF-8 BOM (decode using utf-8-sig)"
  | .noValue => "Expecting value"
  | .noName => "Expecting property name enclosed in double quotes"
  | .noColon => "Expecting ':' delimiter"
  | .noComma => "Expecting ',' delimiter"
  | .extra => "Extra data"
  | .openText => "Unterminated string starting at"
  | .controlCharacter => "Invalid control character at"
  | .badEscape => "Invalid \\escape"
  | .badUnitEscape => "Invalid \\uXXXX escape"
  | .longNumber digits =>
    "Exceeds the limit (" ++ toString Number.digitLimit ++
      " digits) for integer string conversion: value has " ++ toString digits ++
      " digits; use sys.set_int_max_str_digits() to increase the limit"
  | .deepList =>
    "maximum recursion depth exceeded while decoding a JSON array from a unicode string"
  | .deepRecord =>
    "maximum recursion depth exceeded while decoding a JSON object from a unicode string"

def Flaw.hasPlace : Flaw → Bool
  | .longNumber _ => false
  | .deepList => false
  | .deepRecord => false
  | _ => true

/-- A flaw and where it shows: the characters before it, its line and its column. -/
structure Problem where
  flaw : Flaw
  position : Nat
  line : Nat
  column : Nat
deriving DecidableEq

def Problem.message (problem : Problem) : String :=
  if problem.flaw.hasPlace then
    problem.flaw.text ++ ": line " ++ toString problem.line ++ " column " ++
      toString problem.column ++ " (char " ++ toString problem.position ++ ")"
  else problem.flaw.text

def Problem.after (read : List Char) (flaw : Flaw) : Problem where
  flaw
  position := read.length
  line := read.count '\n' + 1
  column := (read.reverse.takeWhile (· ≠ '\n')).length + 1

/-- Reading gives what was read, or a flaw and the input from it on. -/
abbrev Reading := Except (Flaw × List Char)

private def isSpace (character : Char) : Bool :=
  character = ' ' || character = '\t' || character = '\n' || character = '\r'

private def skip (input : List Char) : List Char :=
  input.dropWhile isSpace

private def hexValue? (character : Char) : Option Nat :=
  if '0' ≤ character && character ≤ '9' then some (character.toNat - 48)
  else if 'a' ≤ character && character ≤ 'f' then some (character.toNat - 87)
  else if 'A' ≤ character && character ≤ 'F' then some (character.toNat - 55)
  else none

private def unitOf? (a b c d : Char) : Option Nat := do
  let first ← hexValue? a
  let second ← hexValue? b
  let third ← hexValue? c
  let fourth ← hexValue? d
  some (((first * 16 + second) * 16 + third) * 16 + fourth)

/-- Add an escaped code unit to the characters read so far.  The first unit of a
pair waits for the second; a unit without its partner is replaced. -/
private def pushUnit (waiting : Option Nat) (read : List Char) (unit : Nat) :
    Option Nat × List Char :=
  let settled := if waiting.isSome then Char.ofNat 0xFFFD :: read else read
  if 0xDC00 ≤ unit && unit < 0xE000 then
    match waiting with
    | some first =>
      (none, Char.ofNat (0x10000 + (first - 0xD800) * 1024 + (unit - 0xDC00)) :: read)
    | none => (none, Char.ofNat 0xFFFD :: read)
  else if 0xD800 ≤ unit && unit < 0xDC00 then (some unit, settled)
  else (none, Char.ofNat unit :: settled)

private def settle (waiting : Option Nat) (read : List Char) : List Char :=
  if waiting.isSome then Char.ofNat 0xFFFD :: read else read

private def escapeOf? (character : Char) : Option Char :=
  match character with
  | '"' => some '"'
  | '\\' => some '\\'
  | '/' => some '/'
  | 'b' => some (Char.ofNat 8)
  | 'f' => some (Char.ofNat 12)
  | 'n' => some '\n'
  | 'r' => some '\r'
  | 't' => some '\t'
  | _ => none

/-- The characters up to the closing quote; those read so far are kept backwards.
`start` is the input from the opening quote on. -/
private def readChars (start : List Char) (waiting : Option Nat) (read : List Char) :
    List Char → Reading (List Char × List Char)
  | [] => .error (.openText, start)
  | '"' :: rest => .ok ((settle waiting read).reverse, rest)
  | '\\' :: 'u' :: a :: b :: c :: d :: rest =>
    match unitOf? a b c d with
    | some unit =>
      if rest.isEmpty then .error (.badUnitEscape, ['u', a, b, c, d])
      else
        let (pending, sofar) := pushUnit waiting read unit
        readChars start pending sofar rest
    | none => .error (.badUnitEscape, 'u' :: a :: b :: c :: d :: rest)
  | '\\' :: mark :: rest =>
    if mark = 'u' then .error (.badUnitEscape, mark :: rest)
    else
      match escapeOf? mark with
      | some character => readChars start none (character :: settle waiting read) rest
      | none => .error (.badEscape, '\\' :: mark :: rest)
  | character :: rest =>
    if character = '\\' then .error (.openText, start)
    else if character.toNat < 32 then .error (.controlCharacter, character :: rest)
    else readChars start none (character :: settle waiting read) rest

private def readText (input : List Char) : Reading (String × List Char) := do
  let (read, rest) ← readChars ('"' :: input) none [] input
  return (String.ofList read, rest)

private def readExponent (input : List Char) : Option (Int × List Char) :=
  match input with
  | mark :: rest =>
    if mark = 'e' || mark = 'E' then
      let sign := rest.take 1 |>.filter (fun character => character = '-' || character = '+')
      let unsigned := rest.drop sign.length
      let digits := unsigned.takeWhile Char.isDigit
      (Number.exponent? (sign ++ digits)).map
        (fun exponent => (exponent, unsigned.dropWhile Char.isDigit))
    else none
  | [] => none

private def readFraction (input : List Char) : Option (List Char × List Char) :=
  match input with
  | '.' :: rest =>
    let digits := rest.takeWhile Char.isDigit
    if digits.isEmpty then none else some (digits, rest.dropWhile Char.isDigit)
  | _ => none

/-- A number: whole when it has neither a fraction nor an exponent. -/
def readNumber (input : List Char) : Option (Reading (Value × List Char)) :=
  let (negative, unsigned) :=
    match input with
    | '-' :: rest => (true, rest)
    | _ => (false, input)
  let run := unsigned.takeWhile Char.isDigit
  let whole := if run.head? = some '0' then ['0'] else run
  if whole.isEmpty then none
  else
    let afterWhole := unsigned.drop whole.length
    let (fraction, afterFraction) := (readFraction afterWhole).getD ([], afterWhole)
    let power := readExponent afterFraction
    let rest := (power.map Prod.snd).getD afterFraction
    if fraction.isEmpty && power.isNone then
      if Number.digitLimit < whole.length then some (.error (.longNumber whole.length, input))
      else
        let size : Int := Number.digitsValue whole
        some (.ok (.int (if negative then -size else size), rest))
    else
      let exponent := (power.map Prod.fst).getD 0 - fraction.length
      let digits := Number.digitsValue (whole ++ fraction)
      some (.ok (.real (Number.ofDecimal negative digits exponent), rest))

private def stripWord (word : String) (input : List Char) : Option (List Char) :=
  if word.toList.isPrefixOf input then some (input.drop word.length) else none

private def wordValues : List (String × Value) :=
  [("null", .null), ("true", .bool true), ("false", .bool false), ("NaN", .real (0.0 / 0.0)),
    ("Infinity", .real (1.0 / 0.0)), ("-Infinity", .real (-(1.0 / 0.0)))]

private def readPlain (input : List Char) : Reading (Value × List Char) :=
  let word := wordValues.findSome? (fun (word, value) =>
    (stripWord word input).map (fun rest => .ok (value, rest)))
  match word <|> readNumber input with
  | some read => read
  | none => .error (.noValue, input)

/-- The most lists and records that may stand in one another. -/
def nestingLimit : Nat :=
  985

mutual

/-- A value at the front of the input.  The fuel bounds the steps, and `room` is how many
more lists and records may be opened. -/
def readValue : Nat → Nat → List Char → Reading (Value × List Char)
  | 0, _, input => .error (.noValue, input)
  | _ + 1, _, '"' :: rest => do
    let (text, after) ← readText rest
    return (.text text, after)
  | _ + 1, 0, '[' :: rest => .error (.deepList, '[' :: rest)
  | fuel + 1, room + 1, '[' :: rest =>
    match skip rest with
    | ']' :: after => .ok (.list [], after)
    | items => do
      let (read, after) ← readItems fuel room [] items
      return (.list read, after)
  | _ + 1, 0, '\x7b' :: rest => .error (.deepRecord, '\x7b' :: rest)
  | fuel + 1, room + 1, '\x7b' :: rest =>
    match skip rest with
    | '\x7d' :: after => .ok (.record [], after)
    | members => do
      let (read, after) ← readMembers fuel room [] members
      return (.record read, after)
  | _ + 1, _, input => readPlain input

/-- The items of a list up to its end; those read so far are kept backwards. -/
def readItems : Nat → Nat → List Value → List Char → Reading (List Value × List Char)
  | 0, _, _, input => .error (.noValue, input)
  | fuel + 1, room, read, input => do
    let (item, rest) ← readValue fuel room input
    match skip rest with
    | ',' :: more => readItems fuel room (item :: read) (skip more)
    | ']' :: after => return ((item :: read).reverse, after)
    | other => .error (.noComma, other)

/-- The members of a record up to its end; a repeated name keeps its first place
and its last value. -/
def readMembers : Nat → Nat → Record → List Char → Reading (Record × List Char)
  | 0, _, _, input => .error (.noName, input)
  | fuel + 1, room, read, '"' :: input => do
    let (name, rest) ← readText input
    match skip rest with
    | ':' :: later =>
      let (value, afterValue) ← readValue fuel room (skip later)
      match skip afterValue with
      | ',' :: more => readMembers fuel room (Record.set read name value) (skip more)
      | '\x7d' :: after => return (Record.set read name value, after)
      | other => .error (.noComma, other)
    | other => .error (.noColon, other)
  | _ + 1, _, _, input => .error (.noName, input)

end

private def readDocument (input : List Char) : Reading Value := do
  if input.head? = some (Char.ofNat 0xFEFF) then throw (.byteOrderMark, input)
  let (value, rest) ← readValue (input.length + 2) nestingLimit (skip input)
  if (skip rest).isEmpty then return value else throw (.extra, skip rest)

def parse (text : String) : Except Problem Value :=
  let input := text.toList
  match readDocument input with
  | .ok value => .ok value
  | .error (flaw, rest) => .error (.after (input.take (input.length - rest.length)) flaw)

def parse? (text : String) : Option Value :=
  (parse text).toOption

end CodeAtlas.Json
