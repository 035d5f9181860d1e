import Mathlib.Data.Nat.Digits.Defs
import Mathlib.Data.List.Basic

/-!
# JSON Texts

A reader for JSON texts that are given as bytes, and a writer for strings that escapes
every character that is not plain ASCII. The reader replaces bytes that are not UTF-8 and
surrogates that stand alone, and takes the numbers as they are written.

## Main results

* `runes_ascii`: bytes below 128 are read as they are.
* `stringBody_escape`: a string that is written is read back.
* `number_digits`: a numeral is read to its end.
-/

namespace Json

/-! ### Bytes -/

/-- The character for what cannot be decoded. -/
def replacement : Char := Char.ofNat 0xFFFD

/-- Can the byte continue a character? -/
def continues (b : UInt8) : Bool := 0x80 ≤ b && b ≤ 0xBF

/-- The character of two bytes. -/
def rune₂ (a b : UInt8) : Option Char :=
  if 0xC2 ≤ a && a ≤ 0xDF && continues b then
    some (Char.ofNat (a.toNat % 32 * 64 + b.toNat % 64))
  else none

/-- The character of three bytes. -/
def rune₃ (a b c : UInt8) : Option Char :=
  let n := (a.toNat % 16 * 64 + b.toNat % 64) * 64 + c.toNat % 64
  if 0xE0 ≤ a && a ≤ 0xEF && continues b && continues c && 0x800 ≤ n &&
      !(0xD800 ≤ n && n ≤ 0xDFFF) then
    some (Char.ofNat n)
  else none

/-- The character of four bytes. -/
def rune₄ (a b c d : UInt8) : Option Char :=
  let n := ((a.toNat % 8 * 64 + b.toNat % 64) * 64 + c.toNat % 64) * 64 + d.toNat % 64
  if 0xF0 ≤ a && a ≤ 0xF4 && continues b && continues c && continues d && 0x10000 ≤ n &&
      n ≤ 0x10FFFF then
    some (Char.ofNat n)
  else none

/-- The character of several bytes that starts with `a`, and the bytes behind it. -/
def rune (a : UInt8) : List UInt8 → Option (Char × List UInt8)
  | b :: c :: d :: rest =>
      ((rune₂ a b).map fun r => (r, c :: d :: rest)) <|>
        ((rune₃ a b c).map fun r => (r, d :: rest)) <|> (rune₄ a b c d).map fun r => (r, rest)
  | [b, c] => ((rune₂ a b).map fun r => (r, [c])) <|> (rune₃ a b c).map fun r => (r, [])
  | [b] => (rune₂ a b).map fun r => (r, [])
  | [] => none

/-- The first characters of some bytes, with a replacement for a byte that starts none. -/
def runesOf : ℕ → List UInt8 → List Char
  | 0, _ => []
  | _ + 1, [] => []
  | n + 1, a :: rest =>
      if a < 0x80 then Char.ofNat a.toNat :: runesOf n rest
      else
        match rune a rest with
        | some (r, rest) => r :: runesOf n rest
        | none => replacement :: runesOf n rest

/-- The characters of some bytes. -/
def runes (bytes : List UInt8) : List Char := runesOf bytes.length bytes

/-! ### Tokens -/

/-- A JSON value; a number is kept as it is written. -/
inductive Value where
  /-- `null`. -/
  | null
  /-- `true` or `false`. -/
  | bool (b : Bool)
  /-- A number. -/
  | number (literal : List Char)
  /-- A string. -/
  | string (text : List Char)
  /-- An array. -/
  | array (elements : List Value)
  /-- An object, with its members in order. -/
  | object (members : List (List Char × Value))

/-- The value of a hexadecimal digit. -/
def hexValue (c : Char) : Option ℕ :=
  if '0' ≤ c ∧ c ≤ '9' then some (c.toNat - '0'.toNat)
  else if 'a' ≤ c ∧ c ≤ 'f' then some (c.toNat - 'a'.toNat + 10)
  else if 'A' ≤ c ∧ c ≤ 'F' then some (c.toNat - 'A'.toNat + 10)
  else none

/-- The value of four hexadecimal digits. -/
def hex4 (a b c d : Char) : Option ℕ := do
  let a ← hexValue a
  let b ← hexValue b
  let c ← hexValue c
  let d ← hexValue d
  pure (((a * 16 + b) * 16 + c) * 16 + d)

/-- The character behind a backslash. -/
def escaped : Char → Option Char
  | '"' => some '"'
  | '\\' => some '\\'
  | '/' => some '/'
  | 'b' => some (Char.ofNat 8)
  | 'f' => some (Char.ofNat 12)
  | 'n' => some '\n'
  | 'r' => some '\r'
  | 't' => some '\t'
  | _ => none

/-- What stands in a string: a character, or a number of 16 bits. -/
inductive Item where
  /-- A character, as it is or behind a backslash. -/
  | char (c : Char)
  /-- `\uXXXX`. -/
  | unit (n : ℕ)

/-- What stands in a string up to its closing quote, and what follows. -/
def items : List Char → Option (List Item × List Char)
  | [] => none
  | '"' :: rest => some ([], rest)
  | '\\' :: 'u' :: a :: b :: c :: d :: rest =>
      (hex4 a b c d).bind fun n => (items rest).map fun (is, l) => (.unit n :: is, l)
  | '\\' :: e :: rest =>
      (escaped e).bind fun r => (items rest).map fun (is, l) => (.char r :: is, l)
  | c :: rest =>
      if c < ' ' || c = '\\' then none else (items rest).map fun (is, l) => (.char c :: is, l)

/-- The first half of a character beyond 16 bits. -/
def isHigh (n : ℕ) : Bool := 0xD800 ≤ n && n ≤ 0xDBFF

/-- The second half. -/
def isLow (n : ℕ) : Bool := 0xDC00 ≤ n && n ≤ 0xDFFF

/-- The text of a string, after the first half `hi` of a character: a half that stands alone
is replaced. -/
def joined : Option ℕ → List Item → List Char
  | none, [] => []
  | some _, [] => [replacement]
  | none, .char c :: is => c :: joined none is
  | some _, .char c :: is => replacement :: c :: joined none is
  | none, .unit n :: is =>
      if isHigh n then joined (some n) is
      else if isLow n then replacement :: joined none is
      else Char.ofNat n :: joined none is
  | some hi, .unit n :: is =>
      if isLow n then
        Char.ofNat ((hi - 0xD800) * 0x400 + (n - 0xDC00) + 0x10000) :: joined none is
      else if isHigh n then replacement :: joined (some n) is
      else replacement :: Char.ofNat n :: joined none is

/-- The text of a string up to its closing quote, and what follows. -/
def stringBody (l : List Char) : Option (List Char × List Char) :=
  (items l).map fun (is, rest) => (joined none is, rest)

/-- Digits, of which there has to be one. -/
def digits (l : List Char) : Option (List Char × List Char) :=
  if l.takeWhile Char.isDigit = [] then none
  else some (l.takeWhile Char.isDigit, l.dropWhile Char.isDigit)

/-- The digits before the point: no zero in front of others. -/
def integerPart : List Char → Option (List Char × List Char)
  | '0' :: l => some (['0'], l)
  | l => digits l

/-- The point and the digits behind it, if there is one. -/
def fraction : List Char → Option (List Char × List Char)
  | '.' :: l => (digits l).map fun (ds, l) => ('.' :: ds, l)
  | l => some ([], l)

/-- The exponent, if there is one. -/
def exponent : List Char → Option (List Char × List Char)
  | c :: l =>
      if c = 'e' || c = 'E' then
        match l with
        | s :: l' =>
            if s = '+' || s = '-' then (digits l').map fun (ds, l) => (c :: s :: ds, l)
            else (digits l).map fun (ds, l) => (c :: ds, l)
        | [] => none
      else some ([], c :: l)
  | [] => some ([], [])

/-- A number without its sign. -/
def unsigned (l : List Char) : Option (List Char × List Char) := do
  let (int, l) ← integerPart l
  let (frac, l) ← fraction l
  let (exp, l) ← exponent l
  pure (int ++ frac ++ exp, l)

/-- A number. -/
def number : List Char → Option (List Char × List Char)
  | '-' :: l => (unsigned l).map fun (n, l) => ('-' :: n, l)
  | l => unsigned l

/-- Without the blanks in front. -/
def skip (l : List Char) : List Char :=
  l.dropWhile fun c => c = ' ' || c = '\t' || c = '\n' || c = '\r'

/-- What follows a word. -/
def afterWord (word : List Char) (l : List Char) : Option (List Char) :=
  if word.isPrefixOf l then some (l.drop word.length) else none

/-! ### Values -/

/-- How deep arrays and objects may be nested. -/
def maxDepth : ℕ := 10000

mutual

/-- A value and what follows, with `fuel` steps left, inside of `depth` arrays and objects. -/
def value (fuel depth : ℕ) (l : List Char) : Option (Value × List Char) :=
  match fuel with
  | 0 => none
  | fuel + 1 =>
      match skip l with
      | '{' :: l =>
          if depth = maxDepth then none
          else
            match skip l with
            | '}' :: l => some (.object [], l)
            | l => (members fuel (depth + 1) l).map fun (ms, l) => (.object ms, l)
      | '[' :: l =>
          if depth = maxDepth then none
          else
            match skip l with
            | ']' :: l => some (.array [], l)
            | l => (elements fuel (depth + 1) l).map fun (vs, l) => (.array vs, l)
      | '"' :: l => (stringBody l).map fun (text, l) => (.string text, l)
      | 't' :: l => (afterWord "rue".toList l).map fun l => (.bool true, l)
      | 'f' :: l => (afterWord "alse".toList l).map fun l => (.bool false, l)
      | 'n' :: l => (afterWord "ull".toList l).map fun l => (.null, l)
      | l => (number l).map fun (n, l) => (.number n, l)

/-- The members of an object up to its end. -/
def members (fuel depth : ℕ) (l : List Char) :
    Option (List (List Char × Value) × List Char) :=
  match fuel with
  | 0 => none
  | fuel + 1 =>
      match skip l with
      | '"' :: l =>
          (stringBody l).bind fun (key, l) =>
            match skip l with
            | ':' :: l =>
                (value fuel depth l).bind fun (v, l) =>
                  match skip l with
                  | ',' :: l => (members fuel depth l).map fun (ms, l) => ((key, v) :: ms, l)
                  | '}' :: l => some ([(key, v)], l)
                  | _ => none
            | _ => none
      | _ => none

/-- The elements of an array up to its end. -/
def elements (fuel depth : ℕ) (l : List Char) : Option (List Value × List Char) :=
  match fuel with
  | 0 => none
  | fuel + 1 =>
      (value fuel depth l).bind fun (v, l) =>
        match skip l with
        | ',' :: l => (elements fuel depth l).map fun (vs, l) => (v :: vs, l)
        | ']' :: l => some ([v], l)
        | _ => none

end

/-- **The value of a text**: every step but one in two reads a character. -/
def parse (bytes : List UInt8) : Option Value :=
  let l := runes bytes
  match value (2 * l.length + 2) 0 l with
  | some (v, rest) => if skip rest = [] then some v else none
  | none => none

/-- The sign of a number, and what it is the sign of. -/
def signed : List Char → ℤ × List Char
  | '-' :: l => (-1, l)
  | l => (1, l)

/-- The integer of 64 bits that a number is, if it is written as one. -/
def int64 (literal : List Char) : Option ℤ :=
  let ds := (signed literal).2
  if ds = [] || !ds.all Char.isDigit then none
  else
    let n : ℤ := (signed literal).1 * (Nat.ofDigitChars 10 ds 0 : ℕ)
    if -2 ^ 63 ≤ n ∧ n < 2 ^ 63 then some n else none

/-! ### Writing strings -/

/-- A hexadecimal digit, in upper case. -/
def hexDigit (n : ℕ) : Char := "0123456789ABCDEF".toList.getD n '0'

/-- `\u` and four hexadecimal digits. -/
def unicodeEscape (n : ℕ) : List Char :=
  ['\\', 'u', hexDigit (n / 4096), hexDigit (n / 256 % 16), hexDigit (n / 16 % 16),
    hexDigit (n % 16)]

/-- The characters of ASCII that are written as they are. -/
def isPlain (c : Char) : Bool :=
  ' ' ≤ c && c ≤ '~' && c ≠ '"' && c ≠ '&' && c ≠ '\'' && c ≠ '+' && c ≠ '<' && c ≠ '>' &&
    c ≠ '\\' && c ≠ Char.ofNat 96

/-- A character in a string. -/
def escapeChar (c : Char) : List Char :=
  if isPlain c then [c]
  else if c = '\\' then ['\\', '\\']
  else if c = '\n' then ['\\', 'n']
  else if c = '\r' then ['\\', 'r']
  else if c = '\t' then ['\\', 't']
  else if c = Char.ofNat 8 then ['\\', 'b']
  else if c = Char.ofNat 12 then ['\\', 'f']
  else if c.toNat < 0x10000 then unicodeEscape c.toNat
  else
    unicodeEscape (0xD800 + (c.toNat - 0x10000) / 0x400) ++
      unicodeEscape (0xDC00 + (c.toNat - 0x10000) % 0x400)

/-- A string between its quotes. -/
def escape (text : List Char) : List Char := text.flatMap escapeChar

/-! ### Reading back -/

/-- The byte of an ASCII character. -/
def asciiByte (c : Char) : UInt8 := UInt8.ofNat c.toNat

theorem char_ofNat_toNat (c : Char) : Char.ofNat c.toNat = c := Char.ofNat_toNat c

theorem toNat_valid (c : Char) :
    c.toNat < 0xD800 ∨ 0xDFFF < c.toNat ∧ c.toNat < 0x110000 :=
  c.valid

/-- Bytes below 128 are read as they are. -/
theorem runes_ascii {l : List Char} (h : ∀ c ∈ l, c.toNat < 128) :
    runes (l.map asciiByte) = l := by
  rw [runes, List.length_map]
  induction l with
  | nil => rfl
  | cons c l ih =>
      have hc : c.toNat < 128 := h c List.mem_cons_self
      have hnat : (asciiByte c).toNat = c.toNat := by
        rw [asciiByte, UInt8.toNat_ofNat_of_lt' (by simp only [UInt8.size]; omega)]
      have hlt : asciiByte c < 0x80 := by
        rw [UInt8.lt_iff_toNat_lt, hnat]
        exact hc
      rw [List.map_cons, List.length_cons, runesOf, if_pos hlt, hnat, char_ofNat_toNat,
        ih fun c' hc' => h c' (List.mem_cons_of_mem c hc')]

@[simp] theorem hexValue_hexDigit {n : ℕ} (h : n < 16) : hexValue (hexDigit n) = some n := by
  have hall : ∀ k : Fin 16, hexValue (hexDigit k) = some (k : ℕ) := by decide
  exact hall ⟨n, h⟩

theorem hex4_unicodeEscape {n : ℕ} (h : n < 65536) :
    hex4 (hexDigit (n / 4096)) (hexDigit (n / 256 % 16)) (hexDigit (n / 16 % 16))
      (hexDigit (n % 16)) = some n := by
  have hsum : ((n / 4096 * 16 + n / 256 % 16) * 16 + n / 16 % 16) * 16 + n % 16 = n := by omega
  rw [hex4, hexValue_hexDigit (by omega), hexValue_hexDigit (by omega),
    hexValue_hexDigit (by omega), hexValue_hexDigit (by omega)]
  exact congrArg some hsum

/-- A number of 16 bits is read back. -/
theorem items_unicodeEscape {n : ℕ} (h : n < 65536) (l : List Char) :
    items (unicodeEscape n ++ l) = (items l).map fun (is, l) => (.unit n :: is, l) := by
  simp only [unicodeEscape, List.cons_append, List.nil_append, items, hex4_unicodeEscape h,
    Option.bind_some]

/-- A character from a blank on that is neither a quote nor a backslash is read as it is. -/
theorem items_cons {c : Char} (hge : ¬c < ' ') (hquote : c ≠ '"') (hslash : c ≠ '\\')
    (l : List Char) : items (c :: l) = (items l).map fun (is, l) => (.char c :: is, l) := by
  rw [items.eq_def]
  split
  · next heq => cases heq
  · next heq => exact absurd (List.cons.inj heq).1 hquote
  · next heq => exact absurd (List.cons.inj heq).1 hslash
  · next heq => exact absurd (List.cons.inj heq).1 hslash
  · next heq =>
      obtain ⟨rfl, rfl⟩ := List.cons.inj heq
      simp only [hge, hslash, decide_false, Bool.or_self, Bool.false_eq_true, if_false]

theorem items_escaped {e r : Char} (he : e ≠ 'u') (hr : escaped e = some r) (l : List Char) :
    items ('\\' :: e :: l) = (items l).map fun (is, l) => (.char r :: is, l) := by
  rw [items.eq_def]
  split
  · next heq => cases heq
  · next heq => exact absurd (List.cons.inj heq).1 (by decide)
  · next heq => exact absurd (List.cons.inj (List.cons.inj heq).2).1 he
  · next heq =>
      obtain ⟨rfl, rfl⟩ := List.cons.inj (List.cons.inj heq).2
      rw [hr, Option.bind_some]
  · next hne heq =>
      obtain ⟨rfl, rfl⟩ := List.cons.inj heq
      exact (hne e l rfl rfl).elim

/-- How a character stands in a string. -/
def itemsOf (c : Char) : List Item :=
  if isPlain c || c ∈ ['\\', '\n', '\r', '\t', Char.ofNat 8, Char.ofNat 12] then [.char c]
  else if c.toNat < 0x10000 then [.unit c.toNat]
  else
    [.unit (0xD800 + (c.toNat - 0x10000) / 0x400), .unit (0xDC00 + (c.toNat - 0x10000) % 0x400)]

/-- A character that is written is read back. -/
theorem items_escapeChar (c : Char) (l : List Char) :
    items (escapeChar c ++ l) = (items l).map fun (is, l) => (itemsOf c ++ is, l) := by
  by_cases hplain : isPlain c = true
  · rw [escapeChar, if_pos hplain, itemsOf, hplain, Bool.true_or, if_pos rfl]
    simp only [isPlain, Bool.and_eq_true, decide_eq_true_eq] at hplain
    obtain ⟨⟨⟨⟨⟨⟨⟨⟨⟨hge, -⟩, hquote⟩, -⟩, -⟩, -⟩, -⟩, -⟩, hslash⟩, -⟩ := hplain
    exact items_cons (Char.not_lt.mpr hge) hquote hslash l
  have hshort {e : Char} (he : e ≠ 'u') (hr : escaped e = some c)
      (hmem : c ∈ ['\\', '\n', '\r', '\t', Char.ofNat 8, Char.ofNat 12]) :
      items (['\\', e] ++ l) = (items l).map fun (is, l) => (itemsOf c ++ is, l) := by
    rw [itemsOf, decide_eq_true hmem, Bool.or_true, if_pos rfl]
    exact items_escaped he hr l
  rw [escapeChar, if_neg hplain]
  split_ifs with h₁ h₂ h₃ h₄ h₅ h₆ h₇
  · exact hshort (by decide) (by rw [h₁]; rfl) (by simp [h₁])
  · exact hshort (by decide) (by rw [h₂]; rfl) (by simp [h₂])
  · exact hshort (by decide) (by rw [h₃]; rfl) (by simp [h₃])
  · exact hshort (by decide) (by rw [h₄]; rfl) (by simp [h₄])
  · exact hshort (by decide) (by rw [h₅]; rfl) (by simp [h₅])
  · exact hshort (by decide) (by rw [h₆]; rfl) (by simp [h₆])
  · rw [itemsOf, if_neg (by simp [hplain, h₁, h₂, h₃, h₄, h₅, h₆]), if_pos h₇]
    exact items_unicodeEscape h₇ l
  · have hvalid := toNat_valid c
    rw [itemsOf, if_neg (by simp [hplain, h₁, h₂, h₃, h₄, h₅, h₆]), if_neg h₇, List.append_assoc,
      items_unicodeEscape (by omega), items_unicodeEscape (by omega), Option.map_map]
    rfl

theorem joined_itemsOf (c : Char) (is : List Item) :
    joined none (itemsOf c ++ is) = c :: joined none is := by
  have hvalid := toNat_valid c
  rw [itemsOf]
  split_ifs with h₁ h₂
  · rfl
  · have hhigh : isHigh c.toNat = false := by
      simp only [isHigh, Bool.and_eq_false_iff, decide_eq_false_iff_not]
      omega
    have hlow : isLow c.toNat = false := by
      simp only [isLow, Bool.and_eq_false_iff, decide_eq_false_iff_not]
      omega
    simp only [List.cons_append, List.nil_append, joined, hhigh, hlow, Bool.false_eq_true,
      if_false, char_ofNat_toNat]
  · have hhigh : isHigh (0xD800 + (c.toNat - 0x10000) / 0x400) = true := by
      simp only [isHigh, Bool.and_eq_true, decide_eq_true_eq]
      omega
    have hlow : isLow (0xDC00 + (c.toNat - 0x10000) % 0x400) = true := by
      simp only [isLow, Bool.and_eq_true, decide_eq_true_eq]
      omega
    have hnat : (0xD800 + (c.toNat - 0x10000) / 0x400 - 0xD800) * 0x400 +
        (0xDC00 + (c.toNat - 0x10000) % 0x400 - 0xDC00) + 0x10000 = c.toNat := by omega
    simp only [List.cons_append, List.nil_append, joined, hhigh, hlow, if_true, hnat,
      char_ofNat_toNat]

/-- **A string that is written is read back.** -/
theorem stringBody_escape (text rest : List Char) :
    stringBody (escape text ++ '"' :: rest) = some (text, rest) := by
  suffices h : ∃ is, items (escape text ++ '"' :: rest) = some (is, rest) ∧
      joined none is = text by
    obtain ⟨is, hitems, hjoined⟩ := h
    rw [stringBody, hitems, Option.map_some]
    exact congrArg (fun text => some (text, rest)) hjoined
  induction text with
  | nil => exact ⟨[], rfl, rfl⟩
  | cons c text ih =>
      obtain ⟨is, hitems, hjoined⟩ := ih
      refine ⟨itemsOf c ++ is, ?_, ?_⟩
      · rw [escape, List.flatMap_cons, ← escape, List.append_assoc, items_escapeChar, hitems,
          Option.map_some]
      · rw [joined_itemsOf, hjoined]

/-- What is written is ASCII. -/
theorem escape_ascii {text : List Char} {c : Char} (h : c ∈ escape text) : c.toNat < 128 := by
  have hdigit (n : ℕ) : (hexDigit n).toNat < 128 := by
    rw [hexDigit, List.getD_eq_getElem?_getD]
    cases hget : "0123456789ABCDEF".toList[n]? with
    | none => decide
    | some d =>
        have hall : "0123456789ABCDEF".toList.all (decide <| ·.toNat < 128) = true := rfl
        exact of_decide_eq_true (List.all_eq_true.mp hall d (List.mem_of_getElem? hget))
  have hunit {n : ℕ} (hc : c ∈ unicodeEscape n) : c.toNat < 128 := by
    simp only [unicodeEscape, List.mem_cons, List.not_mem_nil, or_false] at hc
    rcases hc with rfl | rfl | rfl | rfl | rfl | rfl
    · decide
    · decide
    all_goals exact hdigit _
  obtain ⟨c', -, hc⟩ := List.mem_flatMap.mp h
  rw [escapeChar] at hc
  split_ifs at hc with h₁ h₂ h₃ h₄ h₅ h₆ h₇ h₈
  · rw [List.mem_singleton] at hc
    subst hc
    simp only [isPlain, Bool.and_eq_true, decide_eq_true_eq] at h₁
    obtain ⟨⟨⟨⟨⟨⟨⟨⟨⟨-, hle⟩, -⟩, -⟩, -⟩, -⟩, -⟩, -⟩, -⟩, -⟩ := h₁
    exact lt_of_le_of_lt hle (by decide)
  iterate 6
    · simp only [List.mem_cons, List.not_mem_nil, or_false] at hc
      rcases hc with rfl | rfl <;> decide
  · exact hunit hc
  · rcases List.mem_append.mp hc with hc | hc
    · exact hunit hc
    · exact hunit hc

/-! ### Numerals -/

/-- The numeral of a positive number begins with a digit that is not zero. -/
theorem exists_toDigits {n : ℕ} (hn : 0 < n) :
    ∃ d ds, Nat.toDigits 10 n = d :: ds ∧ d ≠ '0' := by
  induction n using Nat.strong_induction_on with
  | _ n ih =>
      by_cases hlt : n < 10
      · refine ⟨n.digitChar, [], Nat.toDigits_of_lt_base hlt, ?_⟩
        rw [ne_eq, Nat.digitChar_eq_zero]
        omega
      · obtain ⟨d, ds, heq, hd⟩ := ih (n / 10) (by omega) (by omega)
        refine ⟨d, ds ++ [(n % 10).digitChar], ?_, hd⟩
        rw [Nat.toDigits_of_base_le (by omega) (by omega), heq, List.cons_append]

theorem isDigit_of_mem {n : ℕ} {c : Char} (h : c ∈ Nat.toDigits 10 n) : c.isDigit = true :=
  Nat.isDigit_of_mem_toDigits (by omega) (by omega) h

/-- Digits are read to their end. -/
theorem digits_append {ds : List Char} (hne : ds ≠ []) (hall : ∀ c ∈ ds, c.isDigit = true)
    {c : Char} (hc : c.isDigit = false) (l : List Char) :
    digits (ds ++ c :: l) = some (ds, c :: l) := by
  have htake : (ds ++ c :: l).takeWhile Char.isDigit = ds := by
    rw [List.takeWhile_append_of_pos hall, List.takeWhile_cons_of_neg (by simp [hc]),
      List.append_nil]
  have hdrop : (ds ++ c :: l).dropWhile Char.isDigit = c :: l := by
    rw [List.dropWhile_append_of_pos hall, List.dropWhile_cons_of_neg (by simp [hc])]
  rw [digits, htake, hdrop, if_neg hne]

/-- **A numeral is read to its end.** -/
theorem number_digits {n : ℕ} (hn : 0 < n) {c : Char} (hdigit : c.isDigit = false)
    (hdot : c ≠ '.') (hlower : c ≠ 'e') (hupper : c ≠ 'E') (l : List Char) :
    number (Nat.toDigits 10 n ++ c :: l) = some (Nat.toDigits 10 n, c :: l) := by
  have hdigits := digits_append Nat.toDigits_ne_nil (fun _ => isDigit_of_mem (n := n)) hdigit l
  obtain ⟨d, ds, heq, hzero⟩ := exists_toDigits hn
  have hminus : d ≠ '-' := by
    rintro rfl
    exact absurd (isDigit_of_mem (n := n) (heq ▸ List.mem_cons_self)) (by decide)
  have hinteger : integerPart (Nat.toDigits 10 n ++ c :: l) =
      some (Nat.toDigits 10 n, c :: l) := by
    rw [← hdigits, heq, List.cons_append, integerPart]
    intro rest hrest
    exact hzero (List.cons.inj hrest).1
  have hfraction : fraction (c :: l) = some ([], c :: l) := by
    rw [fraction]
    intro rest hrest
    exact hdot (List.cons.inj hrest).1
  have hexponent : exponent (c :: l) = some ([], c :: l) := by
    simp [exponent, hlower, hupper]
  have hunsigned : unsigned (Nat.toDigits 10 n ++ c :: l) =
      some (Nat.toDigits 10 n, c :: l) := by
    simp [unsigned, hinteger, hfraction, hexponent]
  rw [← hunsigned, heq, List.cons_append, number]
  intro rest hrest
  exact hminus (List.cons.inj hrest).1

/-- The value of a numeral within 64 bits. -/
theorem int64_digits {n : ℕ} (h : n < 2 ^ 63) : int64 (Nat.toDigits 10 n) = some (n : ℤ) := by
  have hall : (Nat.toDigits 10 n).all Char.isDigit = true :=
    List.all_eq_true.mpr fun c => isDigit_of_mem
  have hsigned : signed (Nat.toDigits 10 n) = (1, Nat.toDigits 10 n) := by
    rw [signed]
    intro l hl
    exact absurd (isDigit_of_mem (n := n) (hl ▸ List.mem_cons_self)) (by decide)
  have hbound : -2 ^ 63 ≤ (n : ℤ) ∧ (n : ℤ) < 2 ^ 63 := by omega
  simp only [int64, hsigned, hall, Nat.toDigits_ne_nil, Nat.ofDigitChars_ten_toDigits, one_mul,
    decide_false, Bool.not_true, Bool.or_self, Bool.false_eq_true, if_false, if_pos hbound]

/-! ### Values without blanks -/

theorem skip_cons {c : Char} (h : c ∉ [' ', '\t', '\n', '\r']) (l : List Char) :
    skip (c :: l) = c :: l := by
  simp only [List.mem_cons, List.not_mem_nil, or_false, not_or] at h
  rw [skip, List.dropWhile_cons_of_neg (by simp [h])]

theorem value_number {d : Char} (h : d.isDigit = true) (fuel depth : ℕ) (l : List Char) :
    value (fuel + 1) depth (d :: l) = (number (d :: l)).map fun (n, l) => (.number n, l) := by
  have hne {c : Char} (hc : c.isDigit = false) : d ≠ c := by
    rintro rfl
    rw [h] at hc
    cases hc
  have hskip : skip (d :: l) = d :: l := by
    refine skip_cons ?_ l
    simp only [List.mem_cons, List.not_mem_nil, or_false, not_or]
    exact ⟨hne (by decide), hne (by decide), hne (by decide), hne (by decide)⟩
  rw [value, hskip]
  split
  · next heq => exact absurd (List.cons.inj heq).1 (hne (by decide))
  · next heq => exact absurd (List.cons.inj heq).1 (hne (by decide))
  · next heq => exact absurd (List.cons.inj heq).1 (hne (by decide))
  · next heq => exact absurd (List.cons.inj heq).1 (hne (by decide))
  · next heq => exact absurd (List.cons.inj heq).1 (hne (by decide))
  · next heq => exact absurd (List.cons.inj heq).1 (hne (by decide))
  · rfl

theorem value_string (fuel depth : ℕ) (l : List Char) :
    value (fuel + 1) depth ('"' :: l) =
      (stringBody l).map fun (text, l) => (.string text, l) := by
  rw [value, skip_cons (by decide)]
  rfl

theorem value_object {depth : ℕ} (hdepth : depth ≠ maxDepth) (fuel : ℕ) (l : List Char) :
    value (fuel + 1) depth ('\x7b' :: '"' :: l) =
      (members fuel (depth + 1) ('"' :: l)).map fun (ms, l) => (.object ms, l) := by
  rw [value, skip_cons (by decide)]
  simp only [if_neg hdepth, skip_cons (c := '"') (by decide)]
  rfl

section Members

variable {key l rest after : List Char} {v : Value} {fuel depth : ℕ}

/-- A member, with another one behind it. -/
theorem members_cons (hkey : stringBody l = some (key, ':' :: rest))
    (hvalue : value fuel depth rest = some (v, ',' :: after)) :
    members (fuel + 1) depth ('"' :: l) =
      (members fuel depth after).map fun (ms, l) => ((key, v) :: ms, l) := by
  rw [members, skip_cons (by decide)]
  simp only [hkey, Option.bind_some, skip_cons (c := ':') (by decide), hvalue,
    skip_cons (c := ',') (by decide)]

/-- The last member. -/
theorem members_last (hkey : stringBody l = some (key, ':' :: rest))
    (hvalue : value fuel depth rest = some (v, '\x7d' :: after)) :
    members (fuel + 1) depth ('"' :: l) = some ([(key, v)], after) := by
  rw [members, skip_cons (by decide)]
  simp only [hkey, Option.bind_some, skip_cons (c := ':') (by decide), hvalue,
    skip_cons (c := '\x7d') (by decide)]

end Members

end Json
