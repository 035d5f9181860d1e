import Fctf.FlagCompare
import Fctf.Lib.Backtrack

/-!
# Regular Expressions as Flags

`CompareRegex` asks the runtime for the first match of a flag's pattern in the submission and
compares its text with the submission. It never asks whether the pattern matches the whole
submission: where the engine prefers a match of less, it does not go on to the match of all.

## Main results

* `RegexFlags.language_of_compareRegex`: a submission that is accepted is in the language.
* `RegexFlags.exact_iff`: when a submission is accepted exactly if it is in the language.
-/

open Backtrack

namespace Fctf

namespace RegexFlags

/-- A runtime whose regular expressions are matched by backtracking. `parse` reads a pattern,
given whether case is ignored, or refuses it. -/
def backtracking (toLowerInvariant : BitVec 16 → BitVec 16)
    (parse : Bool → Utf16 → Option (Pattern (BitVec 16))) : Runtime where
  toLowerInvariant := toLowerInvariant
  regexMatch ignoreCase input pattern :=
    match parse ignoreCase pattern with
    | none => .error ()
    | some p => .ok (p.leftmost input)

/-- The flag of a pattern. -/
def regexFlag (caseInsensitive : Bool) (content : Utf16) : Flag :=
  ⟨.regex, some content, caseInsensitive⟩

section Law

variable (toLowerInvariant : BitVec 16 → BitVec 16)
  (parse : Bool → Utf16 → Option (Pattern (BitVec 16)))

/-- What `CompareRegex` accepts. -/
theorem compareRegex_iff {caseInsensitive : Bool} {content : Utf16} {p : Pattern (BitVec 16)}
    (hparse : parse caseInsensitive content = some p) {provided : Utf16} (hne : provided ≠ []) :
    ChallengeHelper.compareRegex (backtracking toLowerInvariant parse)
        (regexFlag caseInsensitive content) provided = .ok true ↔
      provided ∈ p.language ∧ p.PrefersAll provided := by
  rw [← p.leftmost_eq_self_iff hne, ChallengeHelper.compareRegex]
  simp [backtracking, regexFlag, hparse]

/-- **Nothing else is accepted** than what is in the language. -/
theorem language_of_compareRegex {caseInsensitive : Bool} {content : Utf16}
    {p : Pattern (BitVec 16)} (hparse : parse caseInsensitive content = some p)
    {provided : Utf16} (hne : provided ≠ [])
    (h : ChallengeHelper.compareRegex (backtracking toLowerInvariant parse)
      (regexFlag caseInsensitive content) provided = .ok true) : provided ∈ p.language :=
  ((compareRegex_iff toLowerInvariant parse hparse hne).mp h).1

/-- **When a flag accepts exactly its language**: unless the engine prefers a match of less to
every match of the whole submission. -/
theorem exact_iff (caseInsensitive : Bool) (content : Utf16) (p : Pattern (BitVec 16))
    (hparse : parse caseInsensitive content = some p) (provided : Utf16) (hne : provided ≠ []) :
    (ChallengeHelper.compareRegex (backtracking toLowerInvariant parse)
        (regexFlag caseInsensitive content) provided = .ok true ↔ provided ∈ p.language) ↔
      provided ∈ p.language → p.PrefersAll provided := by
  rw [compareRegex_iff toLowerInvariant parse hparse hne]
  tauto

/-- A flag whose language has no word that another one begins with accepts its language. -/
theorem exact_of_prefixFree (caseInsensitive : Bool) (content : Utf16) (p : Pattern (BitVec 16))
    (hparse : parse caseInsensitive content = some p)
    (hfree : ∀ v ∈ p.language, ∀ w ∈ p.language, v <+: w → v = w) (provided : Utf16)
    (hne : provided ≠ []) :
    ChallengeHelper.compareRegex (backtracking toLowerInvariant parse)
      (regexFlag caseInsensitive content) provided = .ok true ↔ provided ∈ p.language :=
  (exact_iff toLowerInvariant parse caseInsensitive content p hparse provided hne).mpr
    fun hmem => Pattern.prefersAll_of_no_prefix fun w hw => hfree w hw provided hmem

end Law

/-- The pattern `a|ab`, or `ab|a`. -/
def alternatives (longerFirst : Bool) : Pattern (BitVec 16) :=
  if longerFirst then .alt (.text [0x61#16, 0x62#16]) (.text [0x61#16])
  else .alt (.text [0x61#16]) (.text [0x61#16, 0x62#16])

/-- The texts of these patterns. -/
def alternativesText (longerFirst : Bool) : Utf16 :=
  if longerFirst then [0x61#16, 0x62#16, 0x7C#16, 0x61#16]
  else [0x61#16, 0x7C#16, 0x61#16, 0x62#16]

/-- A reader of these patterns. -/
def parseAlternatives (_ : Bool) (content : Utf16) : Option (Pattern (BitVec 16)) :=
  if content = alternativesText true then some (alternatives true)
  else if content = alternativesText false then some (alternatives false)
  else none

/-- `ab|a` prefers all of `ab`. -/
theorem exact_example :
    ChallengeHelper.compareRegex (backtracking id parseAlternatives)
        (regexFlag false (alternativesText true)) [0x61#16, 0x62#16] = .ok true ↔
      [0x61#16, 0x62#16] ∈ (alternatives true).language :=
  (exact_iff id parseAlternatives false (alternativesText true) (alternatives true) (if_pos rfl)
    [0x61#16, 0x62#16] (by decide)).mpr fun _ =>
      ((Pattern.head_eq_nil_iff _ _).mp ⟨([false], []), [([true], [0x62#16])], rfl, rfl⟩).2

/-- **What goes wrong.** `a|ab` does not accept `ab`, as it matches `a` first. -/
theorem not_exact :
    [0x61#16, 0x62#16] ∈ (alternatives false).language ∧
      ChallengeHelper.compareRegex (backtracking id parseAlternatives)
        (regexFlag false (alternativesText false)) [0x61#16, 0x62#16] = .ok false ∧
      ¬(ChallengeHelper.compareRegex (backtracking id parseAlternatives)
          (regexFlag false (alternativesText false)) [0x61#16, 0x62#16] = .ok true ↔
        [0x61#16, 0x62#16] ∈ (alternatives false).language) := by
  have hmem : [0x61#16, 0x62#16] ∈ (alternatives false).language :=
    (Pattern.mem_language_iff _ _).mpr ⟨([true], []), by decide, rfl⟩
  have hrejected : ChallengeHelper.compareRegex (backtracking id parseAlternatives)
      (regexFlag false (alternativesText false)) [0x61#16, 0x62#16] = .ok false := by
    decide
  refine ⟨hmem, hrejected, fun h => ?_⟩
  have haccepted := h.mpr hmem
  rw [hrejected] at haccepted
  exact Bool.false_ne_true (Except.ok.inj haccepted)

end RegexFlags

end Fctf
