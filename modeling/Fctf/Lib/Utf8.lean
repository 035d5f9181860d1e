import Mathlib.Data.List.Basic

/-!
# UTF-8

The bytes of a text, and the text of some bytes. Bytes that are the encoding of nothing are read as
replacement characters, one for each longest beginning of an encoding.

## Main results

* `decode_encode`: a text is read back from its bytes.
-/

namespace Utf8

/-- The bytes of a text. -/
def encode (s : List Char) : List UInt8 := s.flatMap String.utf8EncodeChar

/-- The character for what cannot be decoded. -/
def replacement : Char := Char.ofNat 0xFFFD

/-- Can the byte continue a character? -/
def continues (b : UInt8) : Bool := 0x80 ≤ b && b ≤ 0xBF

/-- Can `b` stand second in an encoding of three or four bytes that starts with `a`? -/
def second (a b : UInt8) : Bool :=
  if a = 0xE0 then 0xA0 ≤ b && b ≤ 0xBF
  else if a = 0xED then 0x80 ≤ b && b ≤ 0x9F
  else if a = 0xF0 then 0x90 ≤ b && b ≤ 0xBF
  else if a = 0xF4 then 0x80 ≤ b && b ≤ 0x8F
  else 0xE1 ≤ a && a ≤ 0xF3 && continues b

/-- How many of the bytes in front one replacement stands for. -/
def illFormed : List UInt8 → ℕ
  | a :: b :: c :: _ => if second a b then if 0xF0 ≤ a && continues c then 3 else 2 else 1
  | [a, b] => if second a b then 2 else 1
  | _ => 1

/-- The first characters of some bytes. -/
def decodeOf : ℕ → List UInt8 → List Char
  | 0, _ => []
  | _ + 1, [] => []
  | n + 1, a :: rest =>
      match (a :: rest).toByteArray.utf8DecodeChar? 0 with
      | some c => c :: decodeOf n ((a :: rest).drop c.utf8Size)
      | none => replacement :: decodeOf n ((a :: rest).drop (illFormed (a :: rest)))

/-- **The text of some bytes.** -/
def decode (bytes : List UInt8) : List Char := decodeOf bytes.length bytes

theorem decodeOf_encode (s : List Char) {n : ℕ} (hn : (encode s).length ≤ n) :
    decodeOf n (encode s) = s := by
  induction s generalizing n with
  | nil =>
      cases n with
      | zero => rfl
      | succ n => rfl
  | cons c s ih =>
      have hencode : encode (c :: s) = String.utf8EncodeChar c ++ encode s := List.flatMap_cons
      have hlength : (String.utf8EncodeChar c).length = c.utf8Size :=
        String.length_utf8EncodeChar c
      have hpos := c.utf8Size_pos
      obtain ⟨a, rest, hcons⟩ : ∃ a rest, encode (c :: s) = a :: rest := by
        refine List.exists_cons_of_ne_nil fun hnil => ?_
        have := congrArg List.length hnil
        rw [hencode, List.length_append, hlength, List.length_nil] at this
        omega
      have hsize : (encode (c :: s)).length = c.utf8Size + (encode s).length := by
        rw [hencode, List.length_append, hlength]
      obtain ⟨n, rfl⟩ : ∃ m, n = m + 1 := ⟨n - 1, by omega⟩
      have hchar : (encode (c :: s)).toByteArray.utf8DecodeChar? 0 = some c := by
        rw [hencode, List.toByteArray_append]
        exact ByteArray.utf8DecodeChar?_utf8EncodeChar_append
      have hdrop : (encode (c :: s)).drop c.utf8Size = encode s := by
        rw [hencode, ← hlength, List.drop_left]
      rw [hcons] at hchar hdrop ⊢
      rw [decodeOf, hchar]
      dsimp only
      rw [hdrop, ih (by omega)]

/-- **A text is read back.** -/
theorem decode_encode (s : List Char) : decode (encode s) = s := decodeOf_encode s (Nat.le_refl _)

end Utf8
