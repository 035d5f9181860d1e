import Mathlib.Data.List.FinRange
import Mathlib.Data.List.Basic

/-!
# Base64 for URLs

Base64 with the alphabet for URLs and without padding. The decoder is a lenient one: it
skips line breaks, and it does not ask that the bits of the last character that belong to
no byte are zero. So a text is not determined by the bytes it decodes to.

## Main results

* `decode_encode`: what is encoded is decoded.
* `eq_iff_of_decode`: of the texts that decode to the same bytes, two are equal if they have
  the same line breaks and the same spare bits.
-/

namespace Base64

/-- The characters of the alphabet. -/
def alphabet : List Char :=
  "ABCDEFGHIJKLMNOPQRSTUVWXYZabcdefghijklmnopqrstuvwxyz0123456789-_".toList

/-- The character of six bits. -/
def letter (a : Fin 64) : Char := alphabet.getD a 'A'

/-- The byte of that character. -/
def char (a : Fin 64) : UInt8 := UInt8.ofNat (letter a).toNat

/-- The six bits of a character of the alphabet. -/
def sextet (c : UInt8) : Option (Fin 64) := (List.finRange 64).find? fun a => char a = c

/-- The byte made of a number. -/
def byte (n : ℕ) : UInt8 := UInt8.ofNat n

/-- The bytes that groups of six bits stand for; a single group at the end stands for none. -/
def bytes : List (Fin 64) → Option (List UInt8)
  | [] => some []
  | [_] => none
  | [a, b] => some [byte (4 * a + b / 16)]
  | [a, b, c] => some [byte (4 * a + b / 16), byte (b % 16 * 16 + c / 4)]
  | a :: b :: c :: d :: rest =>
      (bytes rest).map fun bs =>
        byte (4 * a + b / 16) :: byte (b % 16 * 16 + c / 4) :: byte (c % 4 * 64 + d) :: bs

/-- The bits of the last group that belong to no byte. -/
def spare : List (Fin 64) → ℕ
  | [_, b] => b % 16
  | [_, _, c] => c % 4
  | _ :: _ :: _ :: _ :: rest => spare rest
  | _ => 0

/-- The groups of six bits for some bytes. -/
def sextets : List UInt8 → List (Fin 64)
  | [] => []
  | [x] => [Fin.ofNat 64 (x.toNat / 4), Fin.ofNat 64 (x.toNat % 4 * 16)]
  | [x, y] =>
      [Fin.ofNat 64 (x.toNat / 4), Fin.ofNat 64 (x.toNat % 4 * 16 + y.toNat / 16),
        Fin.ofNat 64 (y.toNat % 16 * 4)]
  | x :: y :: z :: rest =>
      Fin.ofNat 64 (x.toNat / 4) :: Fin.ofNat 64 (x.toNat % 4 * 16 + y.toNat / 16) ::
        Fin.ofNat 64 (y.toNat % 16 * 4 + z.toNat / 64) :: Fin.ofNat 64 (z.toNat % 64) ::
          sextets rest

/-- The text for some bytes. -/
def encode (bs : List UInt8) : List UInt8 := (sextets bs).map char

/-- The decoder skips line breaks. -/
def isLineBreak (c : UInt8) : Bool := c = 10 || c = 13

/-- The groups of six bits of a text; `none` if it has other characters. -/
def groups (text : List UInt8) : Option (List (Fin 64)) :=
  (text.filter fun c => !isLineBreak c).mapM sextet

/-- **The decoder.** -/
def decode (text : List UInt8) : Option (List UInt8) := (groups text).bind bytes

/-- Which line breaks stand where in a text. -/
def lineBreaks (text : List UInt8) : List (Option UInt8) :=
  text.map fun c => if isLineBreak c then some c else none

/-- The bits of a text's last character that belong to no byte. -/
def spareBits (text : List UInt8) : Option ℕ := (groups text).map spare

/-! ### Characters -/

theorem char_injective : Function.Injective char := by
  have h : ∀ a b : Fin 64, char a = char b → a = b := by decide +kernel
  exact fun a b => h a b

theorem not_isLineBreak_char (a : Fin 64) : isLineBreak (char a) = false := by
  revert a
  decide +kernel

theorem char_eq_of_sextet {c : UInt8} {a : Fin 64} (h : sextet c = some a) : char a = c := by
  simpa using List.find?_some h

@[simp] theorem sextet_char (a : Fin 64) : sextet (char a) = some a := by
  cases h : sextet (char a) with
  | none =>
      rw [sextet, List.find?_eq_none] at h
      simpa using h a (List.mem_finRange a)
  | some b => rw [char_injective (char_eq_of_sextet h)]

/-- The groups of a text determine its characters. -/
theorem mapM_sextet_eq_some {text : List UInt8} {l : List (Fin 64)} :
    text.mapM sextet = some l ↔ text = l.map char := by
  constructor
  · intro h
    induction text generalizing l with
    | nil =>
        cases h
        rfl
    | cons c text ih =>
        rw [List.mapM_cons] at h
        obtain ⟨a, ha, h⟩ := Option.bind_eq_some_iff.mp h
        obtain ⟨l', hl', h⟩ := Option.bind_eq_some_iff.mp h
        cases h
        rw [List.map_cons, ih hl', char_eq_of_sextet ha]
  · rintro rfl
    induction l with
    | nil => rfl
    | cons a l ih => simp [ih]

theorem groups_map_char (l : List (Fin 64)) : groups (l.map char) = some l := by
  rw [groups, mapM_sextet_eq_some, List.filter_eq_self]
  intro c hc
  obtain ⟨a, -, rfl⟩ := List.mem_map.mp hc
  rw [not_isLineBreak_char]
  rfl

/-! ### Bytes -/

theorem toNat_byte {n : ℕ} (h : n < 256) : (byte n).toNat = n := by
  rw [byte, UInt8.toNat_ofNat_of_lt' (by simpa using h)]

theorem byte_inj {m n : ℕ} (hm : m < 256) (hn : n < 256) (h : byte m = byte n) : m = n := by
  rw [← toNat_byte hm, h, toNat_byte hn]

theorem byte_toNat (x : UInt8) : byte x.toNat = x := UInt8.ofNat_toNat

/-- **What is encoded is decoded.** -/
theorem bytes_sextets (bs : List UInt8) : bytes (sextets bs) = some bs := by
  fun_induction sextets bs with
  | case1 => rfl
  | case2 x =>
      have hx := x.toNat_lt
      have h₁ : 4 * (x.toNat / 4 % 64) + x.toNat % 4 * 16 % 64 / 16 = x.toNat := by omega
      simp [bytes, Fin.ofNat, h₁, byte_toNat]
  | case3 x y =>
      have hx := x.toNat_lt
      have hy := y.toNat_lt
      have h₁ : 4 * (x.toNat / 4 % 64) + (x.toNat % 4 * 16 + y.toNat / 16) % 64 / 16 =
          x.toNat := by omega
      have h₂ : (x.toNat % 4 * 16 + y.toNat / 16) % 64 % 16 * 16 +
          y.toNat % 16 * 4 % 64 / 4 = y.toNat := by omega
      simp only [bytes, Fin.ofNat, h₁, h₂, byte_toNat]
  | case4 x y z rest ih =>
      have hx := x.toNat_lt
      have hy := y.toNat_lt
      have hz := z.toNat_lt
      have h₁ : 4 * (x.toNat / 4 % 64) + (x.toNat % 4 * 16 + y.toNat / 16) % 64 / 16 =
          x.toNat := by omega
      have h₂ : (x.toNat % 4 * 16 + y.toNat / 16) % 64 % 16 * 16 +
          (y.toNat % 16 * 4 + z.toNat / 64) % 64 / 4 = y.toNat := by omega
      have h₃ : (y.toNat % 16 * 4 + z.toNat / 64) % 64 % 4 * 64 + z.toNat % 64 % 64 =
          z.toNat := by omega
      simp only [bytes, Fin.ofNat, ih, Option.map_some, h₁, h₂, h₃, byte_toNat]

/-- The first byte of a group gives its first six bits and two of the next. -/
theorem first_inj {a b a' b' : Fin 64}
    (h : byte (4 * a + b / 16) = byte (4 * a' + b' / 16)) :
    a = a' ∧ (b / 16 : ℕ) = b' / 16 := by
  have hn := byte_inj (by omega) (by omega) h
  exact ⟨Fin.ext (by omega), by omega⟩

/-- The second byte gives four bits more and four of the next. -/
theorem second_inj {b c b' c' : Fin 64}
    (h : byte (b % 16 * 16 + c / 4) = byte (b' % 16 * 16 + c' / 4)) :
    (b % 16 : ℕ) = b' % 16 ∧ (c / 4 : ℕ) = c' / 4 := by
  have hn := byte_inj (by omega) (by omega) h
  exact ⟨by omega, by omega⟩

/-- The third byte gives the last bits. -/
theorem third_inj {c d c' d' : Fin 64}
    (h : byte (c % 4 * 64 + d) = byte (c' % 4 * 64 + d')) :
    (c % 4 : ℕ) = c' % 4 ∧ d = d' := by
  have hn := byte_inj (by omega) (by omega) h
  exact ⟨by omega, Fin.ext (by omega)⟩

/-- The bytes and the spare bits determine the groups. -/
theorem bytes_inj {l l' : List (Fin 64)} {bs : List UInt8} (h : bytes l = some bs)
    (h' : bytes l' = some bs) (hspare : spare l = spare l') : l = l' := by
  fun_induction bytes l generalizing l' bs with
  | case1 =>
      cases h
      fun_cases bytes l' <;> simp_all [bytes]
  | case2 => cases h
  | case3 a b =>
      cases h
      fun_cases bytes l' with
      | case3 a' b' =>
          obtain ⟨rfl, hb⟩ := first_inj (List.cons.inj (Option.some.inj h')).1
          have hb' : b' = b := by
            simp only [spare] at hspare
            exact Fin.ext (by omega)
          rw [hb']
      | _ => simp_all [bytes]
  | case4 a b c =>
      cases h
      fun_cases bytes l' with
      | case4 a' b' c' =>
          obtain ⟨h₁, h₂⟩ := List.cons.inj (Option.some.inj h')
          obtain ⟨rfl, hb⟩ := first_inj h₁
          obtain ⟨hb', hc⟩ := second_inj (List.cons.inj h₂).1
          have hbb : b' = b := Fin.ext (by omega)
          have hcc : c' = c := by
            simp only [spare] at hspare
            exact Fin.ext (by omega)
          rw [hbb, hcc]
      | _ => simp_all [bytes]
  | case5 a b c d rest ih =>
      obtain ⟨bs, hrest, rfl⟩ := Option.map_eq_some_iff.mp h
      fun_cases bytes l' with
      | case5 a' b' c' d' rest' =>
          obtain ⟨bs', hrest', heq⟩ := Option.map_eq_some_iff.mp h'
          obtain ⟨h₁, heq⟩ := List.cons.inj heq
          obtain ⟨h₂, heq⟩ := List.cons.inj heq
          obtain ⟨h₃, rfl⟩ := List.cons.inj heq
          obtain ⟨rfl, hb⟩ := first_inj h₁
          obtain ⟨hb', hc⟩ := second_inj h₂
          obtain ⟨hc', rfl⟩ := third_inj h₃
          have hbb : b' = b := Fin.ext (by omega)
          have hcc : c' = c := Fin.ext (by omega)
          rw [hbb, hcc, ih hrest hrest' hspare]
      | _ => simp_all [bytes]

/-! ### Texts -/

theorem decode_encode (bs : List UInt8) : decode (encode bs) = some bs := by
  rw [decode, encode, groups_map_char, Option.bind_some, bytes_sextets]

/-- A text is made of its line breaks and its other characters. -/
theorem eq_of_lineBreaks {text text' : List UInt8}
    (hfilter : text.filter (fun c => !isLineBreak c) = text'.filter fun c => !isLineBreak c)
    (hbreaks : lineBreaks text = lineBreaks text') : text = text' := by
  induction text generalizing text' with
  | nil =>
      rw [lineBreaks, List.map_nil, eq_comm, lineBreaks, List.map_eq_nil_iff] at hbreaks
      exact hbreaks.symm
  | cons c text ih =>
      cases text' with
      | nil => cases hbreaks
      | cons c' text' =>
          obtain ⟨hc, htail⟩ := List.cons.inj hbreaks
          by_cases hline : isLineBreak c = true <;> by_cases hline' : isLineBreak c' = true <;>
            simp only [hline, hline', if_true, if_false, reduceCtorEq, Option.some.injEq,
              Bool.false_eq_true] at hc
          · subst hc
            simp only [List.filter_cons, hline, Bool.not_true, Bool.false_eq_true,
              if_false] at hfilter
            rw [ih hfilter htail]
          · simp only [List.filter_cons, hline, hline', Bool.not_false, if_true,
              List.cons.injEq] at hfilter
            rw [hfilter.1, ih hfilter.2 htail]

/-- **The texts of some bytes** differ by line breaks and spare bits only. -/
theorem eq_iff_of_decode {text text' : List UInt8} {bs : List UInt8}
    (h : decode text = some bs) (h' : decode text' = some bs) :
    text = text' ↔ lineBreaks text = lineBreaks text' ∧ spareBits text = spareBits text' := by
  constructor
  · rintro rfl
    exact ⟨rfl, rfl⟩
  · rintro ⟨hbreaks, hspare⟩
    obtain ⟨l, hl, hbytes⟩ := Option.bind_eq_some_iff.mp h
    obtain ⟨l', hl', hbytes'⟩ := Option.bind_eq_some_iff.mp h'
    rw [spareBits, spareBits, hl, hl', Option.map_some, Option.map_some,
      Option.some.injEq] at hspare
    have heq := bytes_inj hbytes hbytes' hspare
    refine eq_of_lineBreaks ?_ hbreaks
    rw [mapM_sextet_eq_some.mp hl, mapM_sextet_eq_some.mp hl', heq]

/-- A line break at the end of a text is not seen. -/
theorem decode_append_lineBreak (text : List UInt8) : decode (text ++ [10]) = decode text := by
  have hfilter : (text ++ [10]).filter (fun c => !isLineBreak c) =
      text.filter fun c => !isLineBreak c := by
    rw [List.filter_append]
    exact List.append_nil _
  rw [decode, groups, hfilter, decode, groups]

end Base64
