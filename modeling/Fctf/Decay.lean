import Fctf.Submissions
import Mathlib.Algebra.Order.Field.Basic
import Mathlib.Data.Rat.Floor

/-!
# The Decay of a Value

`Linear` and `Logarithmic` of the contestants' service and their counterparts in `decay.py`,
in exact arithmetic. Both count one solve less than there are, round up, and stop at the
minimum.

## Main results

* `decayLaw`: in both services and for both functions the value starts at the initial one,
  never rises with the number of solves, and stays above the minimum; nothing is divided by
  zero.
-/

namespace Fctf

/-- What can go wrong when a value is computed. -/
inductive DecayError where
  | divisionByZero
  /-- `None` in an expression. -/
  | typeError
  deriving DecidableEq, Repr

/-- A quotient. -/
def divide (a b : ℚ) : Except DecayError ℚ :=
  if b = 0 then .error .divisionByZero else .ok (a / b)

/-- An attribute that is used in an expression. -/
def operand (value : Option ℤ) : Except DecayError ℤ :=
  match value with
  | none => .error .typeError
  | some value => .ok value

namespace DynamicChallengeHelper

/-- `Linear`. -/
def linear (dynamicChallenge : DynamicChallenge) (solveCount : ℤ) : Except DecayError ℤ :=
  let solveCount := if solveCount ≠ 0 then solveCount - 1 else solveCount
  let value := dynamicChallenge.initial.getD 0 - dynamicChallenge.decay.getD 0 * solveCount
  let value := ⌈(value : ℚ)⌉
  match dynamicChallenge.minimum with
  | none => .ok value
  | some minimum => .ok (if value < minimum then minimum else value)

/-- `Logarithmic`. -/
def logarithmic (dynamicChallenge : DynamicChallenge) (solveCount : ℤ) :
    Except DecayError ℤ := do
  let solveCount := if solveCount ≠ 0 then solveCount - 1 else solveCount
  let decay := dynamicChallenge.decay.getD 1
  let decay := if decay = 0 then 1 else decay
  let initial := dynamicChallenge.initial.getD 0
  let minimum := dynamicChallenge.minimum.getD 0
  let decaySquared : ℚ := (decay : ℚ) ^ 2
  let solveCountSquared : ℚ := (solveCount : ℚ) ^ 2
  let slope ← divide ((minimum - initial : ℤ) : ℚ) decaySquared
  let value := slope * solveCountSquared + initial
  let finalValue := ⌈value⌉
  pure (if finalValue < minimum then minimum else finalValue)

end DynamicChallengeHelper

namespace Decay

/-- `linear`, in `decay.py`. -/
def linear (challenge : DynamicChallenge) (solveCount : ℤ) : Except DecayError ℤ := do
  let solveCount := if solveCount ≠ 0 then solveCount - 1 else solveCount
  let initial ← operand challenge.initial
  let decay ← operand challenge.decay
  let value := initial - decay * solveCount
  let value := ⌈(value : ℚ)⌉
  let minimum ← operand challenge.minimum
  pure (if value < minimum then minimum else value)

/-- `logarithmic`, in `decay.py`: the value, and the challenge, whose decay may be mended. -/
def logarithmic (challenge : DynamicChallenge) (solveCount : ℤ) :
    Except DecayError (ℤ × DynamicChallenge) := do
  let solveCount := if solveCount ≠ 0 then solveCount - 1 else solveCount
  let challenge := if challenge.decay = some 0 then { challenge with decay := some 1 } else challenge
  let minimum ← operand challenge.minimum
  let initial ← operand challenge.initial
  let decay ← operand challenge.decay
  let slope ← divide ((minimum - initial : ℤ) : ℚ) ((decay : ℚ) ^ 2)
  let value := slope * (solveCount : ℚ) ^ 2 + initial
  let value := ⌈value⌉
  pure (if value < minimum then minimum else value, challenge)

end Decay

/-! ### Curves that fall -/

/-- **A value that decays**: it starts at the initial value, falls with the number of solves,
and stops at the minimum. -/
structure Decays (initial minimum : ℤ) (value : ℕ → Except DecayError ℤ) : Prop where
  /-- It can be computed, and lies between the two. -/
  bounded : ∀ n, ∃ v, value n = .ok v ∧ minimum ≤ v ∧ v ≤ initial
  /-- It never rises. -/
  falls : ∀ m n v v', m ≤ n → value m = .ok v → value n = .ok v' → v' ≤ v
  /-- The first solve is worth the initial value. -/
  starts : ∀ n ≤ 1, value n = .ok initial

/-- No value below the minimum. -/
def clamp (minimum value : ℤ) : ℤ := if value < minimum then minimum else value

theorem clamp_eq_max (minimum value : ℤ) : clamp minimum value = max minimum value := by
  rw [clamp]
  split
  · next hlt => exact (max_eq_left hlt.le).symm
  · next hle => exact (max_eq_right (not_lt.mp hle)).symm

/-- **A curve that falls** makes a value that decays. -/
theorem decays_of_antitone {initial minimum : ℤ} {curve : ℕ → ℤ} (hfalls : Antitone curve)
    (hzero : curve 0 = initial) (hle : minimum ≤ initial) :
    Decays initial minimum fun n => .ok (clamp minimum (curve (n - 1))) where
  bounded n := by
    have hcurve : curve (n - 1) ≤ initial := hzero ▸ hfalls (Nat.zero_le _)
    refine ⟨_, rfl, ?_, ?_⟩
    · rw [clamp_eq_max]
      exact le_max_left _ _
    · rw [clamp_eq_max]
      exact max_le hle hcurve
  falls m n v v' hmn hv hv' := by
    obtain rfl := Except.ok.inj hv
    obtain rfl := Except.ok.inj hv'
    rw [clamp_eq_max, clamp_eq_max]
    exact max_le_max_left _ (hfalls (Nat.sub_le_sub_right hmn 1))
  starts n hn := by
    have hnone : n - 1 = 0 := by omega
    rw [hnone, hzero, clamp_eq_max, max_eq_right hle]

section Law

variable {initial minimum decay : ℤ}

/-- The line, of which the first solver takes nothing. -/
def line (initial decay : ℤ) (solves : ℕ) : ℤ := initial - decay * solves

theorem antitone_line (hdecay : 0 ≤ decay) : Antitone (line initial decay) := by
  intro m n hmn
  have hproduct : decay * (m : ℤ) ≤ decay * (n : ℤ) :=
    mul_le_mul_of_nonneg_left (Int.ofNat_le.mpr hmn) hdecay
  rw [line, line]
  omega

/-- The parabola. -/
def parabola (initial minimum decay : ℤ) (solves : ℕ) : ℤ :=
  ⌈((minimum - initial : ℤ) : ℚ) / (decay : ℚ) ^ 2 * (solves : ℚ) ^ 2 + initial⌉

theorem antitone_parabola (hle : minimum ≤ initial) : Antitone (parabola initial minimum decay) := by
  intro m n hmn
  have hslope : ((minimum - initial : ℤ) : ℚ) / (decay : ℚ) ^ 2 ≤ 0 :=
    div_nonpos_of_nonpos_of_nonneg (Int.cast_nonpos.mpr (by omega)) (sq_nonneg _)
  have hsquare : (m : ℚ) ^ 2 ≤ (n : ℚ) ^ 2 :=
    pow_le_pow_left₀ (Nat.cast_nonneg m) (Nat.cast_le.mpr hmn) 2
  exact Int.ceil_mono (add_le_add_left (mul_le_mul_of_nonpos_left hsquare hslope) _)

theorem parabola_zero : parabola initial minimum decay 0 = initial := by
  rw [parabola, Nat.cast_zero, zero_pow two_ne_zero, mul_zero, zero_add, Int.ceil_intCast]

/-- One solve is not counted. -/
theorem solves_not_first (n : ℕ) :
    (if (n : ℤ) ≠ 0 then (n : ℤ) - 1 else n) = ((n - 1 : ℕ) : ℤ) := by
  split <;> omega

/-- Nothing goes wrong with a divisor that is not zero. -/
theorem divide_of_ne {a b : ℚ} (h : b ≠ 0) : divide a b = .ok (a / b) := if_neg h

/-- A decay of zero is mended. -/
theorem mended_ne_zero : (((if decay = 0 then 1 else decay : ℤ) : ℚ)) ^ 2 ≠ 0 := by
  refine pow_ne_zero 2 (Int.cast_ne_zero.mpr ?_)
  split
  · exact one_ne_zero
  · assumption

/-! ### The four functions -/

variable {challenge : DynamicChallenge} (hinitial : challenge.initial = some initial)
  (hminimum : challenge.minimum = some minimum) (hdecay : challenge.decay = some decay)

include hinitial hminimum hdecay

theorem linear_eq (n : ℕ) : DynamicChallengeHelper.linear challenge n =
    .ok (clamp minimum (line initial decay (n - 1))) := by
  simp only [DynamicChallengeHelper.linear, hinitial, hminimum, hdecay, Option.getD_some,
    solves_not_first, Int.ceil_intCast]
  rfl

theorem logarithmic_eq (n : ℕ) : DynamicChallengeHelper.logarithmic challenge n =
    .ok (clamp minimum (parabola initial minimum (if decay = 0 then 1 else decay) (n - 1))) := by
  simp only [DynamicChallengeHelper.logarithmic, hinitial, hminimum, hdecay, Option.getD_some,
    solves_not_first, divide_of_ne mended_ne_zero]
  rfl

theorem pythonLinear_eq (n : ℕ) :
    Decay.linear challenge n = .ok (clamp minimum (line initial decay (n - 1))) := by
  simp only [Decay.linear, hinitial, hminimum, hdecay, operand, solves_not_first,
    Int.ceil_intCast]
  rfl

theorem pythonLogarithmic_eq (n : ℕ) : Prod.fst <$> Decay.logarithmic challenge n =
    .ok (clamp minimum (parabola initial minimum (if decay = 0 then 1 else decay) (n - 1))) := by
  have hmended : (if challenge.decay = some 0 then { challenge with decay := some 1 }
      else challenge) = ⟨some initial, some minimum, some (if decay = 0 then 1 else decay),
        challenge.linear⟩ := by
    obtain ⟨challengeInitial, challengeMinimum, challengeDecay, linear⟩ := challenge
    obtain rfl : challengeInitial = some initial := hinitial
    obtain rfl : challengeMinimum = some minimum := hminimum
    obtain rfl : challengeDecay = some decay := hdecay
    by_cases hzero : decay = 0
    · rw [if_pos (congrArg some hzero), if_pos hzero]
    · rw [if_neg fun heq => hzero (Option.some.inj heq), if_neg hzero]
  rw [Decay.logarithmic]
  dsimp only
  rw [hmended, solves_not_first]
  change Prod.fst <$> (divide ((minimum - initial : ℤ) : ℚ) _ >>= _) = _
  rw [divide_of_ne mended_ne_zero]
  rfl

/-- **The decay law**, in both services and for both functions. -/
theorem decayLaw (hfall : 0 ≤ decay) (hle : minimum ≤ initial) :
    Decays initial minimum (fun n => DynamicChallengeHelper.linear challenge n) ∧
    Decays initial minimum (fun n => DynamicChallengeHelper.logarithmic challenge n) ∧
    Decays initial minimum (fun n => Decay.linear challenge n) ∧
    Decays initial minimum fun n => Prod.fst <$> Decay.logarithmic challenge n := by
  have hline : Decays initial minimum fun n => .ok (clamp minimum (line initial decay (n - 1))) :=
    decays_of_antitone (antitone_line hfall)
      (by rw [line, Nat.cast_zero, mul_zero, sub_zero]) hle
  have hparabola : Decays initial minimum fun n => .ok (clamp minimum
      (parabola initial minimum (if decay = 0 then 1 else decay) (n - 1))) :=
    decays_of_antitone (antitone_parabola hle) parabola_zero hle
  refine ⟨?_, ?_, ?_, ?_⟩
  · rwa [funext (linear_eq hinitial hminimum hdecay)]
  · rwa [funext (logarithmic_eq hinitial hminimum hdecay)]
  · rwa [funext (pythonLinear_eq hinitial hminimum hdecay)]
  · rwa [funext (pythonLogarithmic_eq hinitial hminimum hdecay)]

end Law

/-- A challenge of 500 points, which fall to 100, with a decay of zero. -/
def neverDecays : DynamicChallenge := ⟨some 500, some 100, some 0, false⟩

theorem decayLaw_example :
    Decays 500 100 (fun n => DynamicChallengeHelper.linear neverDecays n) ∧
    Decays 500 100 (fun n => DynamicChallengeHelper.logarithmic neverDecays n) ∧
    Decays 500 100 (fun n => Decay.linear neverDecays n) ∧
    Decays 500 100 fun n => Prod.fst <$> Decay.logarithmic neverDecays n :=
  decayLaw rfl rfl rfl (le_refl (0 : ℤ)) (by decide)

end Fctf
