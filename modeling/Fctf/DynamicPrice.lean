import Fctf.Decay

/-!
# One Price in Both Services

After a solve the contestants' service stores the value of a dynamic challenge; when an
administrator saves the challenge, the management platform does. The first takes the letter
case out of the name of the function and puts a default in the place of every null; the second
looks the name up as it is and computes with what is stored.

## Main results

* `samePrice_iff`: for which settings the two values agree whatever the number of solves.
-/

namespace Fctf

namespace DynamicPrice

/-- The settings of a dynamic challenge as they are stored. -/
structure StoredChallenge where
  (initial minimum decay : Option ℤ)
  function : Option String
  deriving DecidableEq, Repr

/-- The settings, once the function is known. -/
def StoredChallenge.settings (c : StoredChallenge) (linear : Bool) : DynamicChallenge :=
  ⟨c.initial, c.minimum, c.decay, linear⟩

/-- What is stored is null, zero or positive. -/
def StoredChallenge.NonNegative (c : StoredChallenge) : Prop :=
  ∀ setting ∈ [c.initial, c.minimum, c.decay], ∀ value ∈ setting, 0 ≤ value

instance (c : StoredChallenge) : Decidable c.NonNegative :=
  inferInstanceAs (Decidable (∀ setting ∈ [c.initial, c.minimum, c.decay], _))

/-! ### The two services -/

/-- `function.ToLower() == "linear"`. -/
def lowersToLinear (toLower : Char → Char) (c : StoredChallenge) : Bool :=
  (c.function.getD "logarithmic").map toLower = "linear"

/-- The value that `RecalculateDynamicChallengeValue` stores. -/
def recalculateDynamicChallengeValue (toLower : Char → Char) (c : StoredChallenge)
    (solveCount : ℤ) : Except DecayError ℤ :=
  if lowersToLinear toLower c then
    DynamicChallengeHelper.linear (c.settings true) solveCount
  else DynamicChallengeHelper.logarithmic (c.settings false) solveCount

/-- Is it the key of `linear` in `DECAY_FUNCTIONS`? -/
def namesLinear (c : StoredChallenge) : Bool := c.function = some "linear"

/-- The value that `calculate_value` stores. -/
def calculateValue (c : StoredChallenge) (solveCount : ℤ) : Except DecayError ℤ :=
  if namesLinear c then Decay.linear (c.settings true) solveCount
  else Prod.fst <$> Decay.logarithmic (c.settings false) solveCount

/-! ### Where a line and a parabola agree -/

section Curves

variable {initial minimum decay : ℤ}

/-- A decay of zero is mended. -/
def mended (decay : ℤ) : ℤ := if decay = 0 then 1 else decay

/-- The two values after the first solve and `k` more. -/
def AgreeAt (initial minimum decay : ℤ) (k : ℕ) : Prop :=
  clamp minimum (line initial decay k) = clamp minimum (parabola initial minimum (mended decay) k)

/-- A flat curve, and one that falls from the first solve to the second and no more. -/
def Alike (initial minimum decay : ℤ) : Prop :=
  minimum = initial ∨ decay = 1 ∧ minimum + 1 = initial

theorem line_le (hdecay : 0 ≤ decay) (k : ℕ) : line initial decay k ≤ initial := by
  have hproduct : 0 ≤ decay * (k : ℤ) := mul_nonneg hdecay (Int.natCast_nonneg k)
  rw [line]
  omega

theorem parabola_one_one : parabola initial minimum 1 1 = minimum := by
  rw [parabola, Int.cast_one, Nat.cast_one, one_pow, div_one, mul_one, ← Int.cast_add,
    Int.ceil_intCast]
  omega

/-- What a parabola loses. -/
theorem parabola_le_iff {k : ℕ} {v : ℤ} : parabola initial minimum decay k ≤ v ↔
    ((minimum - initial : ℤ) : ℚ) / (decay : ℚ) ^ 2 * (k : ℚ) ^ 2 + initial ≤ v := Int.ceil_le

/-- A parabola that rises is above its end in the end. -/
theorem lt_parabola_of_lt (hlt : initial < minimum) (hdecay : 0 < decay) :
    minimum < parabola initial minimum decay (decay.toNat + 1) := by
  rw [parabola, Int.lt_ceil]
  have hcast : ((decay.toNat : ℕ) : ℚ) = (decay : ℚ) := by
    rw [← Int.cast_natCast, Int.toNat_of_nonneg hdecay.le]
  have hpos : (0 : ℚ) < (decay : ℚ) := Int.cast_pos.mpr hdecay
  have hrise : (0 : ℚ) < ((minimum - initial : ℤ) : ℚ) := Int.cast_pos.mpr (by omega)
  have hratio : (1 : ℚ) < ((decay.toNat + 1 : ℕ) : ℚ) ^ 2 / (decay : ℚ) ^ 2 := by
    rw [one_lt_div (by positivity), Nat.cast_add, hcast, Nat.cast_one]
    exact pow_lt_pow_left₀ (lt_add_one _) hpos.le two_ne_zero
  calc (minimum : ℚ) = ((minimum - initial : ℤ) : ℚ) * 1 + initial := by push_cast; ring
    _ < ((minimum - initial : ℤ) : ℚ) * (((decay.toNat + 1 : ℕ) : ℚ) ^ 2 / (decay : ℚ) ^ 2) +
          initial := by gcongr
    _ = _ := by ring

/-- Nothing below the minimum. -/
theorem clamp_of_lt {v : ℤ} (h : minimum < clamp minimum v) : clamp minimum v = v := by
  rw [clamp] at h ⊢
  split at h
  · exact absurd h (lt_irrefl _)
  · next hle => exact if_neg hle

/-- Curves of the first kind agree. -/
theorem agreeAt_of_alike (hdecay : 0 ≤ decay) (h : Alike initial minimum decay) (k : ℕ) :
    AgreeAt initial minimum decay k := by
  rcases h with rfl | ⟨rfl, rfl⟩
  · have hflat : parabola minimum minimum (mended decay) k = minimum := by
      rw [parabola, sub_self, Int.cast_zero, zero_div, zero_mul, zero_add, Int.ceil_intCast]
    rw [AgreeAt, hflat, clamp_eq_max, clamp_eq_max, max_self, max_eq_left (line_le hdecay k)]
  · have hcurve : parabola (minimum + 1) minimum (mended 1) k = minimum + 1 - (k : ℤ) ^ 2 := by
      have hvalue : ((minimum - (minimum + 1) : ℤ) : ℚ) / ((mended 1 : ℤ) : ℚ) ^ 2 * (k : ℚ) ^ 2 +
          ((minimum + 1 : ℤ) : ℚ) = ((minimum + 1 - (k : ℤ) ^ 2 : ℤ) : ℚ) := by
        rw [mended, if_neg one_ne_zero]
        push_cast
        ring
      rw [parabola, hvalue, Int.ceil_intCast]
    rw [AgreeAt, hcurve, clamp_eq_max, clamp_eq_max, line, one_mul]
    rcases k with _ | _ | k
    · norm_num
    · norm_num
    · have hsquare : ((k + 1 + 1 : ℕ) : ℤ) ≤ ((k + 1 + 1 : ℕ) : ℤ) ^ 2 :=
        le_self_pow₀ (by omega) two_ne_zero
      rw [max_eq_left (by omega), max_eq_left (by omega)]

/-- Where the curves agree on the second solve, they do not on the third: a line that loses
`d` and then `2 d` is no parabola. -/
theorem not_agreeAt_two (hlt : minimum < initial) (hdecay : 2 ≤ decay)
    (hone : AgreeAt initial minimum decay 1) : ¬AgreeAt initial minimum decay 2 := by
  have hmended : mended decay = decay := if_neg (by omega)
  have hdecay' : (2 : ℚ) ≤ (decay : ℚ) := by exact_mod_cast hdecay
  have hsquare : (4 : ℚ) ≤ (decay : ℚ) ^ 2 := by nlinarith only [hdecay']
  have hrange : ((minimum - initial : ℤ) : ℚ) < 0 := by exact_mod_cast (by omega)
  have habove : minimum < parabola initial minimum decay 1 := by
    have hless : ((minimum - initial : ℤ) : ℚ) <
        ((minimum - initial : ℤ) : ℚ) / (decay : ℚ) ^ 2 := by
      rw [lt_div_iff₀ (by positivity)]
      nlinarith only [hsquare, hrange]
    rw [parabola, Int.lt_ceil, Nat.cast_one, one_pow, mul_one]
    push_cast at hless ⊢
    linarith only [hless]
  rw [AgreeAt, hmended, clamp_eq_max, clamp_eq_max, max_eq_right habove.le, line] at hone
  have hlost : ((minimum - initial : ℤ) : ℚ) / (decay : ℚ) ^ 2 ≤ -(decay : ℚ) := by
    have hle : parabola initial minimum decay 1 ≤ initial - decay := by omega
    rw [parabola_le_iff, Nat.cast_one, one_pow, mul_one] at hle
    push_cast at hle ⊢
    linarith only [hle]
  have hrange' : minimum < initial - decay * 2 := by
    rw [div_le_iff₀ (by positivity)] at hlost
    have hlost' : (minimum : ℚ) - initial ≤ -4 * (decay : ℚ) := by
      push_cast at hlost
      nlinarith only [hlost, hsquare, hdecay']
    have hlost'' : minimum - initial ≤ -4 * decay := by exact_mod_cast hlost'
    omega
  have htwo : parabola initial minimum decay 2 ≤ initial - 4 * decay := by
    rw [parabola_le_iff]
    push_cast at hlost ⊢
    linarith only [hlost]
  rw [AgreeAt, hmended, clamp_eq_max, clamp_eq_max, line]
  push_cast
  omega

/-- **Only such curves agree** for every number of solves. -/
theorem alike_of_agreeAt (hdecay : 0 ≤ decay) (h : ∀ k, AgreeAt initial minimum decay k) :
    Alike initial minimum decay := by
  have hmended : 0 < mended decay := by
    rw [mended]
    split <;> omega
  rcases lt_trichotomy initial minimum with hlt | heq | hgt
  · have hat := h ((mended decay).toNat + 1)
    have hline := @line_le initial _ hdecay ((mended decay).toNat + 1)
    have hparabola := lt_parabola_of_lt hlt hmended
    rw [AgreeAt, clamp_eq_max, clamp_eq_max, max_eq_left (hline.trans hlt.le),
      max_eq_right hparabola.le] at hat
    omega
  · exact .inl heq.symm
  · have hone := h 1
    have htwo := h 2
    rcases (by omega : decay = 0 ∨ decay = 1 ∨ 2 ≤ decay) with rfl | rfl | hle
    · rw [AgreeAt, mended, if_pos rfl, parabola_one_one, clamp_eq_max, clamp_eq_max, line,
        max_self, zero_mul, sub_zero, max_eq_right hgt.le] at hone
      omega
    · rw [AgreeAt, mended, if_neg one_ne_zero, parabola_one_one, clamp_eq_max, clamp_eq_max,
        line, max_self] at hone
      refine .inr ⟨rfl, ?_⟩
      omega
    · exact absurd htwo (not_agreeAt_two hgt hle hone)

theorem agree_iff (hdecay : 0 ≤ decay) :
    (∀ k, AgreeAt initial minimum decay k) ↔ Alike initial minimum decay :=
  ⟨alike_of_agreeAt hdecay, fun h k => agreeAt_of_alike hdecay h k⟩

end Curves

/-! ### Where the services agree -/

section Services

variable {toLower : Char → Char} {c : StoredChallenge}

/-- The contestants' service always finds a value. -/
theorem recalculated (toLower : Char → Char) (c : StoredChallenge) (solveCount : ℤ) :
    ∃ v, recalculateDynamicChallengeValue toLower c solveCount = .ok v := by
  rw [recalculateDynamicChallengeValue]
  split
  · rw [DynamicChallengeHelper.linear]
    split
    · exact ⟨_, rfl⟩
    · exact ⟨_, rfl⟩
  · rw [DynamicChallengeHelper.logarithmic]
    dsimp only
    rw [divide_of_ne mended_ne_zero]
    exact ⟨_, rfl⟩

/-- An operand that is there. -/
theorem exists_of_operand {α : Type} {x : Option ℤ} {f : ℤ → Except DecayError α} {v : α}
    (h : (operand x >>= f) = .ok v) : ∃ y, x = some y ∧ f y = .ok v := by
  cases x with
  | none => cases h
  | some y => exact ⟨y, rfl, h⟩

theorem exists_of_map {α β : Type} {f : α → β} {e : Except DecayError α} {v : β}
    (h : f <$> e = .ok v) : ∃ a, e = .ok a := by
  cases e with
  | error e => cases h
  | ok a => exact ⟨a, rfl⟩

/-- The platform finds a value only if nothing is null. -/
theorem settings_of_calculateValue {solveCount v : ℤ} (h : calculateValue c solveCount = .ok v) :
    ∃ initial minimum decay, c.initial = some initial ∧ c.minimum = some minimum ∧
      c.decay = some decay := by
  rw [calculateValue] at h
  split at h
  · obtain ⟨initial, hinitial, h⟩ := exists_of_operand h
    obtain ⟨decay, hdecay, h⟩ := exists_of_operand h
    obtain ⟨minimum, hminimum, -⟩ := exists_of_operand h
    exact ⟨initial, minimum, decay, hinitial, hminimum, hdecay⟩
  · obtain ⟨p, h⟩ := exists_of_map h
    obtain ⟨minimum, hminimum, h⟩ := exists_of_operand h
    obtain ⟨initial, hinitial, h⟩ := exists_of_operand h
    obtain ⟨decay, hdecay, -⟩ := exists_of_operand h
    split at hdecay
    · next hzero =>
        rw [if_pos hzero] at hminimum hinitial
        exact ⟨initial, minimum, 0, hinitial, hminimum, hzero⟩
    · next hzero =>
        rw [if_neg hzero] at hminimum hinitial
        exact ⟨initial, minimum, decay, hinitial, hminimum, hdecay⟩

variable {initial minimum decay : ℤ} (hinitial : c.initial = some initial)
  (hminimum : c.minimum = some minimum) (hdecay : c.decay = some decay)

include hinitial hminimum hdecay

theorem recalculate_eq (n : ℕ) : recalculateDynamicChallengeValue toLower c n =
    .ok (clamp minimum (if lowersToLinear toLower c then line initial decay (n - 1)
      else parabola initial minimum (mended decay) (n - 1))) := by
  rw [recalculateDynamicChallengeValue]
  split
  · exact linear_eq hinitial hminimum hdecay n
  · exact logarithmic_eq hinitial hminimum hdecay n

theorem calculateValue_eq (n : ℕ) : calculateValue c n =
    .ok (clamp minimum (if namesLinear c then line initial decay (n - 1)
      else parabola initial minimum (mended decay) (n - 1))) := by
  rw [calculateValue]
  split
  · exact pythonLinear_eq hinitial hminimum hdecay n
  · exact pythonLogarithmic_eq hinitial hminimum hdecay n

/-- With nothing null they agree if both take the same function, or the functions agree. -/
theorem samePrice_iff_of_settings (hnonneg : 0 ≤ decay) :
    (∀ n : ℕ, recalculateDynamicChallengeValue toLower c n = calculateValue c n) ↔
      lowersToLinear toLower c = namesLinear c ∨ Alike initial minimum decay := by
  have hvalues : (∀ n : ℕ, recalculateDynamicChallengeValue toLower c n = calculateValue c n) ↔
      lowersToLinear toLower c = namesLinear c ∨
        ∀ n : ℕ, AgreeAt initial minimum decay (n - 1) := by
    simp only [recalculate_eq hinitial hminimum hdecay, calculateValue_eq hinitial hminimum hdecay,
      Except.ok.injEq, AgreeAt]
    cases lowersToLinear toLower c <;> cases namesLinear c
    · simp
    · simp [eq_comm]
    · simp
    · simp
  rw [hvalues, ← agree_iff hnonneg]
  refine or_congr_right ⟨fun h k => ?_, fun h n => h (n - 1)⟩
  exact h (k + 1)

end Services

/-- **When both services price a challenge alike**: nothing is null, and both take the name of
the function for the same one, unless the points do not decay at all or fall by one point
once. -/
theorem samePrice_iff (toLower : Char → Char) (c : StoredChallenge) (hc : c.NonNegative) :
    (∀ n : ℕ, recalculateDynamicChallengeValue toLower c n = calculateValue c n) ↔
      ∃ initial minimum decay, c.initial = some initial ∧ c.minimum = some minimum ∧
        c.decay = some decay ∧
        (lowersToLinear toLower c = namesLinear c ∨ Alike initial minimum decay) := by
  have hnonneg (decay : ℤ) (hdecay : c.decay = some decay) : 0 ≤ decay :=
    hc c.decay (by simp) decay (hdecay ▸ rfl)
  constructor
  · intro h
    obtain ⟨v, hv⟩ := recalculated toLower c (0 : ℕ)
    obtain ⟨initial, minimum, decay, hinitial, hminimum, hdecay⟩ :=
      settings_of_calculateValue ((h 0).symm.trans hv)
    exact ⟨initial, minimum, decay, hinitial, hminimum, hdecay,
      (samePrice_iff_of_settings hinitial hminimum hdecay (hnonneg decay hdecay)).mp h⟩
  · rintro ⟨initial, minimum, decay, hinitial, hminimum, hdecay, hsame⟩
    exact (samePrice_iff_of_settings hinitial hminimum hdecay (hnonneg decay hdecay)).mpr hsame

/-- 500 points that fall to 100, logarithmically, as the name says. -/
def usual (function : Option String) : StoredChallenge := ⟨some 500, some 100, some 20, function⟩

theorem samePrice_example :
    recalculateDynamicChallengeValue Char.toLower (usual (some "linear")) 7 =
      calculateValue (usual (some "linear")) 7 :=
  (samePrice_iff Char.toLower (usual (some "linear")) (by decide)).mpr
    ⟨500, 100, 20, rfl, rfl, rfl, .inl (by decide +kernel)⟩ 7

/-- **What goes wrong.** With the function written `Linear` a challenge is worth 480 points after
two solves, until it is saved; with its decay null it cannot be saved at all. -/
theorem not_samePrice :
    ¬(∀ c : StoredChallenge, c.NonNegative → ∀ n : ℕ,
        recalculateDynamicChallengeValue Char.toLower c n = calculateValue c n) ∧
      (recalculateDynamicChallengeValue Char.toLower (usual (some "Linear")) 2 = .ok 480 ∧
        calculateValue (usual (some "Linear")) 2 = .ok 499) ∧
      recalculateDynamicChallengeValue Char.toLower ⟨some 500, some 100, none, none⟩ 2 = .ok 100 ∧
      calculateValue ⟨some 500, some 100, none, none⟩ 2 = .error .typeError := by
  have hbackend : recalculateDynamicChallengeValue Char.toLower (usual (some "Linear")) 2 =
      .ok 480 := by
    decide +kernel
  have hplatform : calculateValue (usual (some "Linear")) 2 = .ok 499 := by
    decide +kernel
  refine ⟨fun h => ?_, ⟨hbackend, hplatform⟩, by decide +kernel, by decide +kernel⟩
  have hsame := h (usual (some "Linear")) (by decide) 2
  rw [show ((2 : ℕ) : ℤ) = 2 from rfl, hbackend, hplatform] at hsame
  exact absurd (Except.ok.inj hsame) (by decide)

end DynamicPrice

end Fctf
