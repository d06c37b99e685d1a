import CodeAtlas.Data.Display
import CodeAtlas.Data.Json
import CodeAtlas.Text.Utf8

/-!
# Faults

Why an operation did not give a result.  Each constructor is a cause; the words
for it are in `Fault.message`.
-/

namespace CodeAtlas

inductive DiskFault where
  | missing (path : String)
  | exists (path : String)
  | notDirectory (path : String)
  | isDirectory (path : String)
  | invalid (path : String)
  | nameTooLong (path : String)
  | notEmpty (path : String)
deriving DecidableEq

def DiskFault.message : DiskFault → String
  | .missing path => "[Errno 2] No such file or directory: " ++ Text.quoted path
  | .exists path => "[Errno 17] File exists: " ++ Text.quoted path
  | .notDirectory path => "[Errno 20] Not a directory: " ++ Text.quoted path
  | .isDirectory path => "[Errno 21] Is a directory: " ++ Text.quoted path
  | .invalid path => "[Errno 22] Invalid argument: " ++ Text.quoted path
  | .nameTooLong path => "[Errno 36] File name too long: " ++ Text.quoted path
  | .notEmpty path => "[Errno 39] Directory not empty: " ++ Text.quoted path

inductive Fault where
  | missingKey (key : Value)
  | outsideRoot (path root : String)
  | languageUnavailable (language : String)
  | unknownIndexKind (kind : Value)
  /-- Chunks cannot be embedded in batches of zero. -/
  | emptyBatch
  | undecodable (problem : Text.Utf8.Problem)
  | unreadable (problem : Json.Problem)
  /-- A file that should hold kept names starts with another byte, or has none. -/
  | foreignNames (first : Option UInt8)
  | modelFailed (reason : String)
  | serviceRefused (status : Int)
  | notNumber (text : String)
  | tooLarge
  /-- A path holds the character that ends texts in the file system. -/
  | nullInPath
  | uneven (levels : Nat) (shape : String)
  /-- Rows of numbers are nested deeper than so many levels. -/
  | nested (most : Nat)
  | dimensionMismatch
  | outOfRange
  | wrongType (reason : String)
  | unsuitable (reason : String)
  | disk (fault : DiskFault)
deriving Inhabited

def Fault.message : Fault → String
  | .missingKey key => key.shown
  | .outsideRoot path root =>
    Text.quoted path ++ " is not in the subpath of " ++ Text.quoted root ++
      " OR one path is relative and the other is absolute."
  | .languageUnavailable language =>
    "Language " ++ language ++ " not available. Install tree-sitter-" ++ language
  | .unknownIndexKind kind => "Unsupported index type: " ++ kind.display
  | .emptyBatch => "range() arg 3 must not be zero"
  | .undecodable problem => problem.message
  | .unreadable problem => problem.message
  | .foreignNames none => "Ran out of input"
  | .foreignNames (some first) => "invalid load key, '" ++ Text.byteSign first ++ "'."
  | .modelFailed reason => reason
  | .serviceRefused status => toString status
  | .notNumber text => "could not convert string to float: " ++ Text.quoted text
  | .tooLarge => "int too large to convert to float"
  | .nullInPath => "embedded null byte"
  | .uneven levels shape =>
    "setting an array element with a sequence. The requested array has an inhomogeneous " ++
      "shape after " ++ toString levels ++ " dimensions. The detected shape was " ++ shape ++
      " + inhomogeneous part."
  | .nested most =>
    "setting an array element with a sequence. The requested array would exceed the maximum " ++
      "number of dimension of " ++ toString most ++ "."
  | .dimensionMismatch => ""
  | .outOfRange => "list index out of range"
  | .wrongType reason => reason
  | .unsuitable reason => reason
  | .disk fault => fault.message

def orFail [Monad m] [MonadExceptOf Fault m] : Except Fault α → m α
  | .ok value => pure value
  | .error fault => throw fault

end CodeAtlas
