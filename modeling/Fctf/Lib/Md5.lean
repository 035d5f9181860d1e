import Mathlib.Algebra.Group.Nat.Defs
import Mathlib.Data.List.Basic

/-!
# MD5

The message digest of RFC 1321, on lists of bytes: the message is padded to blocks of 64
bytes, and every block is mixed into a state of four words in 64 steps.

## Main results

* `md5_length`: a digest has 16 bytes, and so 32 hexadecimal digits.
-/

namespace Md5

/-- The constants of the 64 steps. -/
def table : List (BitVec 32) :=
  ([
    0xd76aa478, 0xe8c7b756, 0x242070db, 0xc1bdceee, 0xf57c0faf, 0x4787c62a,
    0xa8304613, 0xfd469501, 0x698098d8, 0x8b44f7af, 0xffff5bb1, 0x895cd7be,
    0x6b901122, 0xfd987193, 0xa679438e, 0x49b40821, 0xf61e2562, 0xc040b340,
    0x265e5a51, 0xe9b6c7aa, 0xd62f105d, 0x02441453, 0xd8a1e681, 0xe7d3fbc8,
    0x21e1cde6, 0xc33707d6, 0xf4d50d87, 0x455a14ed, 0xa9e3e905, 0xfcefa3f8,
    0x676f02d9, 0x8d2a4c8a, 0xfffa3942, 0x8771f681, 0x6d9d6122, 0xfde5380c,
    0xa4beea44, 0x4bdecfa9, 0xf6bb4b60, 0xbebfbc70, 0x289b7ec6, 0xeaa127fa,
    0xd4ef3085, 0x04881d05, 0xd9d4d039, 0xe6db99e5, 0x1fa27cf8, 0xc4ac5665,
    0xf4292244, 0x432aff97, 0xab9423a7, 0xfc93a039, 0x655b59c3, 0x8f0ccc92,
    0xffeff47d, 0x85845dd1, 0x6fa87e4f, 0xfe2ce6e0, 0xa3014314, 0x4e0811a1,
    0xf7537e82, 0xbd3af235, 0x2ad7d2bb, 0xeb86d391] : List ℕ).map (BitVec.ofNat 32)

/-- The rotations of the four rounds, four for each. -/
def rotations : List ℕ :=
  [[7, 12, 17, 22], [5, 9, 14, 20], [4, 11, 16, 23], [6, 10, 15, 21]].flatMap fun r =>
    r ++ r ++ r ++ r

/-- The words of the state. -/
structure State where
  a : BitVec 32
  b : BitVec 32
  c : BitVec 32
  d : BitVec 32
  deriving DecidableEq

/-- The state before the first block. -/
def State.init : State := ⟨0x67452301#32, 0xefcdab89#32, 0x98badcfe#32, 0x10325476#32⟩

/-- The mixing function of a step, and the word of the block it takes. -/
def mix (s : State) (i : ℕ) : BitVec 32 × ℕ :=
  if i < 16 then ((s.b &&& s.c) ||| (~~~s.b &&& s.d), i)
  else if i < 32 then ((s.d &&& s.b) ||| (~~~s.d &&& s.c), (5 * i + 1) % 16)
  else if i < 48 then (s.b ^^^ s.c ^^^ s.d, (3 * i + 5) % 16)
  else (s.c ^^^ (s.b ||| ~~~s.d), 7 * i % 16)

/-- One step. -/
def step (block : List (BitVec 32)) (s : State) (i : ℕ) : State :=
  let (f, g) := mix s i
  let x := s.a + f + table.getD i 0 + block.getD g 0
  ⟨s.d, s.b + x.rotateLeft (rotations.getD i 0), s.b, s.c⟩

/-- The state after a block. -/
def compress (s : State) (block : List (BitVec 32)) : State :=
  let s' := (List.range 64).foldl (step block) s
  ⟨s.a + s'.a, s.b + s'.b, s.c + s'.c, s.d + s'.d⟩

/-- The `k` lowest bytes of a number, the lowest first. -/
def littleEndian (k n : ℕ) : List UInt8 :=
  (List.range k).map fun i => UInt8.ofNat (n / 256 ^ i)

/-- A message with a one bit, zeros up to the last 8 bytes of a block, and its length. -/
def pad (message : List UInt8) : List UInt8 :=
  message ++ [0x80] ++ List.replicate ((119 - message.length % 64) % 64) 0 ++
    littleEndian 8 (8 * message.length)

/-- The words of some bytes. -/
def words : List UInt8 → List (BitVec 32)
  | a :: b :: c :: d :: rest =>
      BitVec.ofNat 32 (a.toNat + 256 * (b.toNat + 256 * (c.toNat + 256 * d.toNat))) ::
        words rest
  | _ => []

/-- The state after the blocks of a message, of which there are `n`. -/
def blocks : ℕ → List (BitVec 32) → State → State
  | 0, _, s => s
  | n + 1, ws, s => blocks n (ws.drop 16) (compress s (ws.take 16))

/-- **MD5.** -/
def md5 (message : List UInt8) : List UInt8 :=
  let ws := words (pad message)
  let s := blocks (ws.length / 16) ws State.init
  [s.a, s.b, s.c, s.d].flatMap fun w => littleEndian 4 w.toNat

/-- Two hexadecimal digits. -/
def hexByte (b : UInt8) : List Char :=
  [Nat.digitChar (b.toNat / 16), Nat.digitChar (b.toNat % 16)]

/-- Some bytes in hexadecimal, in lower case. -/
def hex (bytes : List UInt8) : String := String.ofList (bytes.flatMap hexByte)

theorem littleEndian_length (k n : ℕ) : (littleEndian k n).length = k := by
  rw [littleEndian, List.length_map, List.length_range]

/-- **A digest** has 16 bytes. -/
theorem md5_length (message : List UInt8) : (md5 message).length = 16 := by
  simp only [md5, List.flatMap_cons, List.flatMap_nil, List.length_append, littleEndian_length,
    List.length_nil]

theorem hex_length (bytes : List UInt8) : (hex bytes).toList.length = 2 * bytes.length := by
  rw [hex, String.toList_ofList]
  induction bytes with
  | nil => rfl
  | cons b bytes ih =>
      rw [List.flatMap_cons, List.length_append, ih, List.length_cons, hexByte]
      simp only [List.length_cons, List.length_nil]
      omega

example : hex (md5 []) = "d41d8cd98f00b204e9800998ecf8427e" := by decide +kernel

end Md5
