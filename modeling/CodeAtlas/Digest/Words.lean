/-!
# Bytes and 32-bit words

Both digest functions read a message as blocks of sixteen 32-bit words.  The
message is closed by a one bit, zeros up to the last eight bytes of a block and
its own length in bits.
-/

namespace CodeAtlas.Digest

/-- The byte at a position; past the end there are zeros. -/
def byteAt (bytes : ByteArray) (position : Nat) : UInt8 :=
  if inside : position < bytes.size then bytes.get position inside else 0

/-- How many zeros fill a message of the given length up to eight bytes before
the end of a block. -/
def fillLength (length : Nat) : Nat :=
  (119 - length % 64) % 64

def eightBytes (number : Nat) : List UInt8 :=
  (List.range 8).map (fun place => UInt8.ofNat (number / Nat.pow 256 place))

/-- The message with its closing bytes; `order` arranges the bytes of the length. -/
def closeMessage (order : List UInt8 → List UInt8) (bytes : ByteArray) : ByteArray :=
  let fill := List.replicate (fillLength bytes.size) 0
  bytes ++ ⟨(0x80 :: fill ++ order (eightBytes (bytes.size * 8))).toArray⟩

/-- The word of four bytes, the first being the highest. -/
def wordOf (bytes : List UInt8) : UInt32 :=
  bytes.foldl (fun word byte => word * 256 + byte.toUInt32) 0

/-- The sixteen words of a block; `order` arranges the bytes of a word. -/
def blockWords (order : List UInt8 → List UInt8) (bytes : ByteArray) (block : Nat) :
    Array UInt32 :=
  ((List.range 16).map (fun index =>
    wordOf (order ((List.range 4).map (fun offset =>
      byteAt bytes (64 * block + 4 * index + offset)))))).toArray

def wordAt (words : Array UInt32) (position : Nat) : UInt32 :=
  (words[position]?).getD 0

def rotateLeft (word : UInt32) (amount : UInt32) : UInt32 :=
  (word <<< amount) ||| (word >>> (32 - amount))

def rotateRight (word : UInt32) (amount : UInt32) : UInt32 :=
  (word >>> amount) ||| (word <<< (32 - amount))

def hexDigit (digit : Nat) : Char :=
  if digit < 10 then Char.ofNat (48 + digit) else Char.ofNat (87 + digit)

def hexByte (byte : UInt8) : List Char :=
  [hexDigit (byte.toNat / 16), hexDigit (byte.toNat % 16)]

def wordBytes (word : UInt32) : List UInt8 :=
  [(word >>> 24).toUInt8, (word >>> 16).toUInt8, (word >>> 8).toUInt8, word.toUInt8]

/-- The hexadecimal text of words; `order` arranges the bytes of a word. -/
def hexOfWords (order : List UInt8 → List UInt8) (words : List UInt32) : String :=
  String.ofList ((words.flatMap (fun word => order (wordBytes word))).flatMap hexByte)

end CodeAtlas.Digest
