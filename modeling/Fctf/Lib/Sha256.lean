import Mathlib.Algebra.Group.Nat.Defs
import Mathlib.Data.List.Basic

/-!
# SHA-256 and HMAC

The message digest of FIPS 180-4 on lists of bytes, and the authentication code made of it:
the message is padded to blocks of 64 bytes, and every block is mixed into a state of eight
words in 64 steps.

## Main results

* `sha256_length`, `hmac_length`: a digest and a code have 32 bytes.
-/

namespace Sha256

/-- The constants of the 64 steps. -/
def table : List (BitVec 32) :=
  ([
    0x428a2f98, 0x71374491, 0xb5c0fbcf, 0xe9b5dba5, 0x3956c25b, 0x59f111f1,
    0x923f82a4, 0xab1c5ed5, 0xd807aa98, 0x12835b01, 0x243185be, 0x550c7dc3,
    0x72be5d74, 0x80deb1fe, 0x9bdc06a7, 0xc19bf174, 0xe49b69c1, 0xefbe4786,
    0x0fc19dc6, 0x240ca1cc, 0x2de92c6f, 0x4a7484aa, 0x5cb0a9dc, 0x76f988da,
    0x983e5152, 0xa831c66d, 0xb00327c8, 0xbf597fc7, 0xc6e00bf3, 0xd5a79147,
    0x06ca6351, 0x14292967, 0x27b70a85, 0x2e1b2138, 0x4d2c6dfc, 0x53380d13,
    0x650a7354, 0x766a0abb, 0x81c2c92e, 0x92722c85, 0xa2bfe8a1, 0xa81a664b,
    0xc24b8b70, 0xc76c51a3, 0xd192e819, 0xd6990624, 0xf40e3585, 0x106aa070,
    0x19a4c116, 0x1e376c08, 0x2748774c, 0x34b0bcb5, 0x391c0cb3, 0x4ed8aa4a,
    0x5b9cca4f, 0x682e6ff3, 0x748f82ee, 0x78a5636f, 0x84c87814, 0x8cc70208,
    0x90befffa, 0xa4506ceb, 0xbef9a3f7, 0xc67178f2] : List ℕ).map (BitVec.ofNat 32)

/-- The words of the state. -/
structure State where
  a : BitVec 32
  b : BitVec 32
  c : BitVec 32
  d : BitVec 32
  e : BitVec 32
  f : BitVec 32
  g : BitVec 32
  h : BitVec 32
  deriving DecidableEq

/-- The state before the first block. -/
def State.init : State :=
  ⟨0x6a09e667#32, 0xbb67ae85#32, 0x3c6ef372#32, 0xa54ff53a#32,
    0x510e527f#32, 0x9b05688c#32, 0x1f83d9ab#32, 0x5be0cd19#32⟩

/-- The next word of the schedule, after `ws`, the newest word first. -/
def nextWord (ws : List (BitVec 32)) : BitVec 32 :=
  let x := ws.getD 14 0
  let y := ws.getD 1 0
  ws.getD 15 0 + (x.rotateRight 7 ^^^ x.rotateRight 18 ^^^ (x >>> 3)) + ws.getD 6 0 +
    (y.rotateRight 17 ^^^ y.rotateRight 19 ^^^ (y >>> 10))

/-- The 64 words of the schedule of a block. -/
def schedule (block : List (BitVec 32)) : List (BitVec 32) :=
  ((List.range 48).foldl (fun ws _ => nextWord ws :: ws) block.reverse).reverse

/-- One step, with its constant and its word of the schedule. -/
def step (s : State) (kw : BitVec 32 × BitVec 32) : State :=
  let s₁ := s.e.rotateRight 6 ^^^ s.e.rotateRight 11 ^^^ s.e.rotateRight 25
  let ch := (s.e &&& s.f) ^^^ (~~~s.e &&& s.g)
  let t₁ := s.h + s₁ + ch + kw.1 + kw.2
  let s₀ := s.a.rotateRight 2 ^^^ s.a.rotateRight 13 ^^^ s.a.rotateRight 22
  let maj := (s.a &&& s.b) ^^^ (s.a &&& s.c) ^^^ (s.b &&& s.c)
  ⟨t₁ + (s₀ + maj), s.a, s.b, s.c, s.d + t₁, s.e, s.f, s.g⟩

/-- The state after a block. -/
def compress (s : State) (block : List (BitVec 32)) : State :=
  let s' := (table.zip (schedule block)).foldl step s
  ⟨s.a + s'.a, s.b + s'.b, s.c + s'.c, s.d + s'.d, s.e + s'.e, s.f + s'.f, s.g + s'.g,
    s.h + s'.h⟩

/-- The `k` lowest bytes of a number, the highest first. -/
def bigEndian (k n : ℕ) : List UInt8 :=
  (List.range k).map fun i => UInt8.ofNat (n / 256 ^ (k - 1 - i))

/-- A message with a one bit, zeros up to the last 8 bytes of a block, and its length. -/
def pad (message : List UInt8) : List UInt8 :=
  message ++ [0x80] ++ List.replicate ((119 - message.length % 64) % 64) 0 ++
    bigEndian 8 (8 * message.length)

/-- The words of some bytes. -/
def words : List UInt8 → List (BitVec 32)
  | a :: b :: c :: d :: rest =>
      BitVec.ofNat 32 (((a.toNat * 256 + b.toNat) * 256 + c.toNat) * 256 + d.toNat) ::
        words rest
  | _ => []

/-- The state after the blocks of a message, of which there are `n`. -/
def blocks : ℕ → List (BitVec 32) → State → State
  | 0, _, s => s
  | n + 1, ws, s => blocks n (ws.drop 16) (compress s (ws.take 16))

/-- **SHA-256.** -/
def sha256 (message : List UInt8) : List UInt8 :=
  let ws := words (pad message)
  let s := blocks (ws.length / 16) ws State.init
  [s.a, s.b, s.c, s.d, s.e, s.f, s.g, s.h].flatMap fun w => bigEndian 4 w.toNat

/-- A key as a whole block: a longer one is hashed. -/
def keyBlock (key : List UInt8) : List UInt8 :=
  let key := if 64 < key.length then sha256 key else key
  key ++ List.replicate (64 - key.length) 0

/-- **HMAC-SHA256.** -/
def hmac (key message : List UInt8) : List UInt8 :=
  let inner := (keyBlock key).map (· ^^^ 0x36) ++ message
  let outer := (keyBlock key).map (· ^^^ 0x5c)
  sha256 (outer ++ sha256 inner)

theorem bigEndian_length (k n : ℕ) : (bigEndian k n).length = k := by
  rw [bigEndian, List.length_map, List.length_range]

/-- **A digest** has 32 bytes. -/
theorem sha256_length (message : List UInt8) : (sha256 message).length = 32 := by
  simp only [sha256, List.flatMap_cons, List.flatMap_nil, List.length_append, bigEndian_length,
    List.length_nil]

theorem hmac_length (key message : List UInt8) : (hmac key message).length = 32 :=
  sha256_length _

/-- The digest of `abc`. -/
example : sha256 [97, 98, 99] = bigEndian 32
    0xba7816bf8f01cfea414140de5dae2223b00361a396177a9cb410ff61f20015ad := by
  decide +kernel

end Sha256
