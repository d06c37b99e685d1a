import CodeAtlas.Data.Value
import CodeAtlas.Number.Decimal
import CodeAtlas.Text.Quoted

/-!
# Values in messages

How a value reads inside a message: a text as it is, a text within a list or a
record between quotes.
-/

namespace CodeAtlas.Value

def realText (number : Float) : String :=
  if number.isNaN then "nan"
  else if number.isInf then (if number < 0.0 then "-inf" else "inf")
  else Number.shortestText number

mutual

def shown : Value → String
  | .null => "None"
  | .bool true => "True"
  | .bool false => "False"
  | .int value => toString value
  | .real value => realText value
  | .text value => Text.quoted value
  | .list items => "[" ++ Text.join ", " (shownItems items) ++ "]"
  | .record fields => "\x7b" ++ Text.join ", " (shownFields fields) ++ "\x7d"

def shownItems : List Value → List String
  | [] => []
  | item :: rest => shown item :: shownItems rest

def shownFields : List (String × Value) → List String
  | [] => []
  | (name, value) :: rest => (Text.quoted name ++ ": " ++ shown value) :: shownFields rest

end

def typeName : Value → String
  | .null => "NoneType"
  | .bool _ => "bool"
  | .int _ => "int"
  | .real _ => "float"
  | .text _ => "str"
  | .list _ => "list"
  | .record _ => "dict"

def lacks (value : Value) (name : String) : String :=
  "'" ++ value.typeName ++ "' object has no attribute '" ++ name ++ "'"

def notPath (value : Value) : String :=
  "expected str, bytes or os.PathLike object, not " ++ value.typeName

def notIterable (value : Value) : String :=
  "'" ++ value.typeName ++ "' object is not iterable"

def notHashable (value : Value) : String :=
  "unhashable type: '" ++ value.typeName ++ "'"

def notAssignable : Value → String
  | .list _ => "list indices must be integers or slices, not str"
  | value => "'" ++ value.typeName ++ "' object does not support item assignment"

def display : Value → String
  | .text value => value
  | value => value.shown

end CodeAtlas.Value
