import CodeAtlas.Digest.Words

/-!
# MD5

The digest that names a project, as 32 hexadecimal digits.
-/

namespace CodeAtlas.Digest

namespace Md5

/-- The first 32 bits of the sines of 1 to 64. -/
def roundWords : Array UInt32 :=
  #[0xd76aa478, 0xe8c7b756, 0x242070db, 0xc1bdceee, 0xf57c0faf, 0x4787c62a,
    0xa8304613, 0xfd469501, 0x698098d8, 0x8b44f7af, 0xffff5bb1, 0x895cd7be,
    0x6b901122, 0xfd987193, 0xa679438e, 0x49b40821, 0xf61e2562, 0xc040b340,
    0x265e5a51, 0xe9b6c7aa, 0xd62f105d, 0x02441453, 0xd8a1e681, 0xe7d3fbc8,
    0x21e1cde6, 0xc33707d6, 0xf4d50d87, 0x455a14ed, 0xa9e3e905, 0xfcefa3f8,
    0x676f02d9, 0x8d2a4c8a, 0xfffa3942, 0x8771f681, 0x6d9d6122, 0xfde5380c,
    0xa4beea44, 0x4bdecfa9, 0xf6bb4b60, 0xbebfbc70, 0x289b7ec6, 0xeaa127fa,
    0xd4ef3085, 0x04881d05, 0xd9d4d039, 0xe6db99e5, 0x1fa27cf8, 0xc4ac5665,
    0xf4292244, 0x432aff97, 0xab9423a7, 0xfc93a039, 0x655b59c3, 0x8f0ccc92,
    0xffeff47d, 0x85845dd1, 0x6fa87e4f, 0xfe2ce6e0, 0xa3014314, 0x4e0811a1,
    0xf7537e82, 0xbd3af235, 0x2ad7d2bb, 0xeb86d391]

/-- How far each round rotates: four amounts in turn, other ones every sixteen rounds. -/
def amounts : List (List UInt32) :=
  [[7, 12, 17, 22], [5, 9, 14, 20], [4, 11, 16, 23], [6, 10, 15, 21]]

def amount (index : Nat) : UInt32 :=
  ((amounts[index / 16]?.getD [])[index % 4]?).getD 0

structure State where
  a : UInt32
  b : UInt32
  c : UInt32
  d : UInt32

def initial : State :=
  ⟨0x67452301, 0xefcdab89, 0x98badcfe, 0x10325476⟩

def State.words (state : State) : List UInt32 :=
  [state.a, state.b, state.c, state.d]

def State.add (left right : State) : State :=
  ⟨left.a + right.a, left.b + right.b, left.c + right.c, left.d + right.d⟩

def mixture (state : State) (index : Nat) : UInt32 × Nat :=
  let b := state.b
  let c := state.c
  let d := state.d
  match index / 16 with
  | 0 => ((b &&& c) ||| ((~~~ b) &&& d), index)
  | 1 => ((d &&& b) ||| ((~~~ d) &&& c), (5 * index + 1) % 16)
  | 2 => (b ^^^ c ^^^ d, (3 * index + 5) % 16)
  | _ => (c ^^^ (b ||| (~~~ d)), (7 * index) % 16)

def round (words : Array UInt32) (state : State) (index : Nat) : State :=
  let (mixed, place) := mixture state index
  let sum := state.a + mixed + wordAt roundWords index + wordAt words place
  ⟨state.d, state.b + rotateLeft sum (amount index), state.b, state.c⟩

def absorb (message : ByteArray) (state : State) (block : Nat) : State :=
  let words := blockWords List.reverse message block
  state.add ((List.range 64).foldl (round words) state)

end Md5

def md5 (bytes : ByteArray) : String :=
  let message := closeMessage id bytes
  let final := (List.range (message.size / 64)).foldl (Md5.absorb message) Md5.initial
  hexOfWords List.reverse final.words

end CodeAtlas.Digest
