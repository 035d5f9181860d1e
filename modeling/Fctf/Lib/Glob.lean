import Mathlib.Data.List.Infix
import Mathlib.Data.List.TakeWhile

/-!
# Glob Patterns

The patterns by which a key-value store lists its keys, as far as they are made of
characters that stand for themselves and of stars. A star stands for any text, also for
the empty one; the whole key has to match.

## Main results

* `matches_literal_append`: a literal beginning is a prefix of the key.
* `matches_star_literal`: a star and a literal end are a suffix of the key.
-/

namespace Glob

/-- A part of a pattern. -/
inductive Piece where
  /-- A character that stands for itself. -/
  | literal (c : Char)
  /-- Any text. -/
  | star
  deriving DecidableEq, Repr

/-- The parts of a pattern. -/
def pieces (pattern : List Char) : List Piece :=
  pattern.map fun c => if c = '*' then .star else .literal c

/-- A text that stands for itself. -/
def literal (l : List Char) : List Piece := l.map .literal

/-- Does the key match? -/
def Matches : List Piece → List Char → Bool
  | [], key => key.isEmpty
  | .literal _ :: _, [] => false
  | .literal c :: p, d :: key => c = d && Matches p key
  | .star :: p, key => key.tails.any (Matches p)

variable {p : List Piece} {l key : List Char}

theorem pieces_append (l l' : List Char) : pieces (l ++ l') = pieces l ++ pieces l' :=
  List.map_append

theorem pieces_of_notMem (h : '*' ∉ l) : pieces l = literal l := by
  refine List.map_congr_left fun c hc => if_neg ?_
  rintro rfl
  exact h hc

@[simp] theorem matches_nil_iff : Matches [] key = true ↔ key = [] := by
  rw [Matches, List.isEmpty_iff]

/-- A literal beginning is a prefix of the key. -/
theorem matches_literal_append :
    Matches (literal l ++ p) key = true ↔ ∃ t, key = l ++ t ∧ Matches p t = true := by
  induction l generalizing key with
  | nil => simp [literal]
  | cons c l ih =>
      cases key with
      | nil => simp [literal, Matches]
      | cons d key =>
          have hcons : Matches (literal (c :: l) ++ p) (d :: key) =
              (decide (c = d) && Matches (literal l ++ p) key) := rfl
          rw [hcons, Bool.and_eq_true, decide_eq_true_iff, ih]
          constructor
          · rintro ⟨rfl, t, rfl, ht⟩
            exact ⟨t, rfl, ht⟩
          · rintro ⟨t, heq, ht⟩
            obtain ⟨rfl, rfl⟩ := List.cons.inj heq
            exact ⟨rfl, t, rfl, ht⟩

theorem matches_literal : Matches (literal l) key = true ↔ key = l := by
  have h := @matches_literal_append [] l key
  simpa using h

/-- A star stands for any text. -/
theorem matches_star_cons :
    Matches (.star :: p) key = true ↔ ∃ a t, key = a ++ t ∧ Matches p t = true := by
  simp only [Matches, List.any_eq_true, List.mem_tails]
  constructor
  · rintro ⟨t, ⟨a, rfl⟩, ht⟩
    exact ⟨a, t, rfl, ht⟩
  · rintro ⟨a, t, rfl, ht⟩
    exact ⟨t, ⟨a, rfl⟩, ht⟩

theorem matches_star : Matches [.star] key = true :=
  matches_star_cons.mpr ⟨key, [], by simp, by simp⟩

/-- A literal beginning and a star: the keys with the prefix. -/
theorem matches_literal_star : Matches (literal l ++ [.star]) key = true ↔ l <+: key := by
  rw [matches_literal_append]
  constructor
  · rintro ⟨t, rfl, -⟩
    exact List.prefix_append l t
  · rintro ⟨t, rfl⟩
    exact ⟨t, rfl, matches_star⟩

/-- A star and a literal end: the keys with the suffix. -/
theorem matches_star_literal : Matches (.star :: literal l) key = true ↔ l <:+ key := by
  rw [matches_star_cons]
  constructor
  · rintro ⟨a, t, rfl, ht⟩
    rw [matches_literal.mp ht]
    exact List.suffix_append a l
  · rintro ⟨a, rfl⟩
    exact ⟨a, l, rfl, matches_literal.mpr rfl⟩

end Glob
