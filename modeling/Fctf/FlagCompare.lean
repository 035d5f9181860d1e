import Fctf.Entities
import Fctf.RedisHelper

/-!
# Comparing Flags

`ChallengeHelper.Attempt`: a submission is compared with the flags of a bank challenge one
after the other, each in the way its type says. The runtime's letter case and its regular
expressions are parameters.

## Main results

* `ChallengeHelper.compareStatic_iff`: the loop of `CompareStatic` decides equality of the
  texts, up to letter case if the flag says so.
* `ChallengeHelper.attempt_status_iff`: what it takes for a submission to be correct.
-/

namespace Fctf

/-- The text functions of the .NET runtime. -/
structure Runtime where
  /-- `char.ToLowerInvariant`. -/
  toLowerInvariant : BitVec 16 → BitVec 16
  /-- `Regex.Match`, given whether case is ignored, the input and the pattern: the value of
  the first match; it may raise. -/
  regexMatch : Bool → Utf16 → Utf16 → Except Unit (Option Utf16)

/-- `char.IsWhiteSpace`. -/
def isWhiteSpace (c : BitVec 16) : Bool :=
  (0x0009#16 ≤ c && c ≤ 0x000D#16) || (0x2000#16 ≤ c && c ≤ 0x200A#16) ||
    c ∈ [0x0020#16, 0x0085#16, 0x00A0#16, 0x1680#16, 0x2028#16, 0x2029#16, 0x202F#16,
      0x205F#16, 0x3000#16]

/-- `string.Trim`. -/
def Utf16.trim (s : Utf16) : Utf16 :=
  ((s.dropWhile isWhiteSpace).reverse.dropWhile isWhiteSpace).reverse

/-- The result of a comparison. -/
structure AttemptDTO where
  /-- Is the submission correct? -/
  status : Bool
  /-- What the user is told. -/
  message : String
  deriving DecidableEq, Repr

namespace ChallengeHelper

/-- The loop of `CompareStatic`: the bits in which two texts of the same length differ. -/
def differences (f : BitVec 16 → BitVec 16) (saved provided : Utf16) : BitVec 16 :=
  (saved.zip provided).foldl (fun result c => result ||| (f c.1 ^^^ f c.2)) 0#16

/-- `CompareStatic`. -/
def compareStatic (rt : Runtime) (flag : Flag) (provided : Utf16) : Bool :=
  let saved := flag.content.getD []
  if saved.length ≠ provided.length then false
  else if flag.caseInsensitive then differences rt.toLowerInvariant saved provided == 0#16
  else differences id saved provided == 0#16

/-- `CompareRegex`, as `Compare` calls it: whatever it raises becomes a `FlagException`. -/
def compareRegex (rt : Runtime) (flag : Flag) (provided : Utf16) : Except Exn Bool :=
  match rt.regexMatch flag.caseInsensitive provided (flag.content.getD []) with
  | .error _ => .error .flag
  | .ok m => .ok (m == some provided)

/-- `Compare`. -/
def compare (rt : Runtime) (flag : Flag) (provided : Utf16) : Except Exn Bool :=
  match flag.type with
  | .static => .ok (compareStatic rt flag provided)
  | .regex => compareRegex rt flag provided
  | .unknown => .error .argument

/-- `Attempt`, on the flags it has loaded. -/
def attempt (rt : Runtime) (provided : Utf16) : List Flag → Except Exn AttemptDTO
  | [] => .ok ⟨false, "Incorrect"⟩
  | flag :: flags =>
      match compare rt flag provided with
      | .ok true => .ok ⟨true, "Correct"⟩
      | .ok false => attempt rt provided flags
      | .error .flag => .ok ⟨false, "Regex parse error occured"⟩
      | .error e => .error e

/-! ### What the comparison decides -/

/-- The bits collected so far are never lost. -/
theorem foldl_differences_eq_zero_iff (f : BitVec 16 → BitVec 16)
    (l : List (BitVec 16 × BitVec 16)) (d : BitVec 16) :
    l.foldl (fun result c => result ||| (f c.1 ^^^ f c.2)) d = 0#16 ↔
      d = 0#16 ∧ ∀ c ∈ l, f c.1 = f c.2 := by
  induction l generalizing d with
  | nil => simp
  | cons c l ih =>
      rw [List.foldl_cons, ih, BitVec.or_eq_zero_iff, BitVec.xor_eq_zero_iff,
        List.forall_mem_cons]
      tauto

theorem differences_eq_zero_iff (f : BitVec 16 → BitVec 16) {saved provided : Utf16}
    (h : saved.length = provided.length) :
    differences f saved provided = 0#16 ↔ saved.map f = provided.map f := by
  rw [differences, foldl_differences_eq_zero_iff]
  induction saved generalizing provided with
  | nil =>
      obtain rfl := List.length_eq_zero_iff.mp h.symm
      simp
  | cons s saved ih =>
      cases provided with
      | nil => cases h
      | cons p provided =>
          have ih := ih (Nat.succ.inj h)
          simp only [true_and] at ih ⊢
          rw [List.zip_cons_cons, List.forall_mem_cons, ih, List.map_cons, List.map_cons,
            List.cons.injEq]

/-- **A static flag** is met by its own text, up to letter case if it says so. -/
theorem compareStatic_iff (rt : Runtime) (flag : Flag) (provided : Utf16) :
    compareStatic rt flag provided = true ↔
      if flag.caseInsensitive then
        (flag.content.getD []).map rt.toLowerInvariant = provided.map rt.toLowerInvariant
      else flag.content.getD [] = provided := by
  simp only [compareStatic]
  by_cases hl : (flag.content.getD []).length = provided.length
  · rw [if_neg (not_not.mpr hl)]
    split
    · rw [beq_iff_eq, differences_eq_zero_iff _ hl]
    · rw [beq_iff_eq, differences_eq_zero_iff _ hl, List.map_id, List.map_id]
  · rw [if_pos hl]
    have hmap : ∀ f : BitVec 16 → BitVec 16,
        (flag.content.getD []).map f ≠ provided.map f := by
      intro f h
      have := congrArg List.length h
      rw [List.length_map, List.length_map] at this
      exact hl this
    split
    · simp [hmap]
    · simp only [Bool.false_eq_true, false_iff]
      rintro h
      exact hl (congrArg List.length h)

/-- **A submission is correct** if it meets a flag, and the flags before that one could be
compared and are not met. -/
theorem attempt_status_iff (rt : Runtime) (provided : Utf16) (flags : List Flag) :
    (∃ a, attempt rt provided flags = .ok a ∧ a.status = true) ↔
      ∃ before flag after, flags = before ++ flag :: after ∧
        (∀ f ∈ before, compare rt f provided = .ok false) ∧
        compare rt flag provided = .ok true := by
  induction flags with
  | nil => simp [attempt]
  | cons flag flags ih =>
      rw [attempt]
      split
      · next hc =>
          refine iff_of_true ⟨_, rfl, rfl⟩ ⟨[], flag, flags, rfl, ?_, hc⟩
          intro f hf
          cases hf
      · next hc =>
          rw [ih]
          constructor
          · rintro ⟨before, f, after, rfl, hb, hf⟩
            refine ⟨flag :: before, f, after, rfl, ?_, hf⟩
            exact List.forall_mem_cons.mpr ⟨hc, hb⟩
          · rintro ⟨_ | ⟨b, before⟩, f, after, heq, hb, hf⟩
            · obtain ⟨rfl, -⟩ := List.cons.inj heq
              rw [hc] at hf
              cases hf
            · obtain ⟨rfl, rfl⟩ := List.cons.inj heq
              exact ⟨before, f, after, rfl, (List.forall_mem_cons.mp hb).2, hf⟩
      all_goals
        next hc =>
          refine iff_of_false (by simp) ?_
          rintro ⟨_ | ⟨b, before⟩, f, after, heq, hb, hf⟩
          · obtain ⟨rfl, -⟩ := List.cons.inj heq
            rw [hc] at hf
            cases hf
          · obtain ⟨rfl, -⟩ := List.cons.inj heq
            have := (List.forall_mem_cons.mp hb).1
            rw [hc] at this
            cases this

end ChallengeHelper

end Fctf
