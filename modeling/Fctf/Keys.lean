import Mathlib

/-!
# Redis Keys

The keys under which the services keep their data, as `ChallengeHelper` and the
controllers build them by string interpolation, and the fact every argument about two
keys needs: a key determines the numbers it was built from.

## Main results

* `getCacheKey_inj`, `getZSetKKey_inj`, `attemptKey_inj`, `kpmKey_inj`: each key
  determines its contest, challenge, team, user or minute.
-/

namespace Fctf

/-- The keys of one contest: `contest:{contestId}:…`. -/
def contestKey (contestId : ℤ) (name : String) : String :=
  "contest:" ++ toString contestId ++ ":" ++ name

/-- A name built from two numbers: `…{i}_{j}`. -/
def pairName (kind : String) (i j : ℤ) : String :=
  kind ++ toString i ++ "_" ++ toString j

/-- `ChallengeHelper.GetCacheKey`: the deployment entry of a challenge and a team. -/
def getCacheKey (contestId contestChallengeId teamId : ℤ) : String :=
  contestKey contestId (pairName "deploy_challenge_" contestChallengeId teamId)

/-- `ChallengeHelper.GetZSetKKey`: the active deployments of a team. -/
def getZSetKKey (contestId teamId : ℤ) : String :=
  contestKey contestId ("active_deploys_team_" ++ toString teamId)

/-- The counter of a team's wrong answers to a challenge (`ChallengeController.Attempt`). -/
def attemptKey (contestId contestChallengeId teamId : ℤ) : String :=
  contestKey contestId (pairName "attempt_count_" contestChallengeId teamId)

/-- The key the admin endpoints name for that counter (`submissions.py`). -/
def adminAttemptKey (challengeId teamId : ℤ) : String :=
  pairName "attempt_count_" challengeId teamId

/-- When a team's cooldown for a challenge began (`ChallengeController.Attempt`). -/
def cooldownKey (contestId contestChallengeId teamId : ℤ) : String :=
  contestKey contestId (pairName "submission_cooldown_" contestChallengeId teamId)

/-- The counter of a user's wrong answers in one minute (`CheckAndIncrementKpmAsync`). -/
def kpmKey (userId minute : ℤ) : String :=
  pairName "kpm_check_" userId minute

/-! ### Decimal numerals -/

/-- A numeral consists of digits and a sign. -/
theorem mem_repr {n : ℤ} {c : Char} (h : c ∈ n.repr.toList) : c.isDigit ∨ c = '-' := by
  rw [Int.repr_eq_if] at h
  split at h
  · rw [Nat.toList_repr] at h
    exact .inl (Nat.isDigit_of_mem_toDigits (by omega) (by omega) h)
  · rw [String.toList_append, List.mem_append, Nat.toList_repr] at h
    rcases h with h | h
    · right
      simpa using h
    · exact .inl (Nat.isDigit_of_mem_toDigits (by omega) (by omega) h)

theorem colon_notMem_repr (n : ℤ) : ':' ∉ n.repr.toList := by
  intro h
  rcases mem_repr h with h | h <;> revert h <;> decide

theorem underscore_notMem_repr (n : ℤ) : '_' ∉ n.repr.toList := by
  intro h
  rcases mem_repr h with h | h <;> revert h <;> decide

theorem toList_repr_inj {m n : ℤ} (h : m.repr.toList = n.repr.toList) : m = n :=
  Int.repr_injective (String.toList_injective h)

/-! ### Keys determine their parts -/

/-- A name without a colon can be told from the contest in front of it. -/
theorem contestKey_inj {c c' : ℤ} {name name' : String} (hn : ':' ∉ name.toList)
    (h : contestKey c name = contestKey c' name') : c = c' ∧ name = name' := by
  have hl := congrArg String.toList h
  simp only [contestKey, Int.toString_eq_repr, String.toList_append, List.append_assoc,
    List.append_cancel_left_eq] at hl
  obtain ⟨h₁, -, h₂⟩ :=
    (List.append_cons_inj_of_notMem (colon_notMem_repr c) hn).mp hl
  exact ⟨toList_repr_inj h₁, String.toList_injective h₂⟩

theorem pairName_inj {kind : String} {i j i' j' : ℤ}
    (h : pairName kind i j = pairName kind i' j') : i = i' ∧ j = j' := by
  have hl := congrArg String.toList h
  simp only [pairName, Int.toString_eq_repr, String.toList_append, List.append_assoc,
    List.append_cancel_left_eq] at hl
  obtain ⟨h₁, -, h₂⟩ :=
    (List.append_cons_inj_of_notMem (underscore_notMem_repr i)
      (underscore_notMem_repr j)).mp hl
  exact ⟨toList_repr_inj h₁, toList_repr_inj h₂⟩

theorem colon_notMem_pairName {kind : String} (h : ':' ∉ kind.toList) (i j : ℤ) :
    ':' ∉ (pairName kind i j).toList := by
  simp only [pairName, Int.toString_eq_repr, String.toList_append, List.mem_append, not_or]
  exact ⟨⟨⟨h, colon_notMem_repr i⟩, by decide⟩, colon_notMem_repr j⟩

theorem getCacheKey_inj {c cc t c' cc' t' : ℤ}
    (h : getCacheKey c cc t = getCacheKey c' cc' t') : c = c' ∧ cc = cc' ∧ t = t' := by
  obtain ⟨rfl, hp⟩ := contestKey_inj (colon_notMem_pairName (by decide) cc t) h
  exact ⟨rfl, pairName_inj hp⟩

theorem getZSetKKey_inj {c t c' t' : ℤ} (h : getZSetKKey c t = getZSetKKey c' t') :
    c = c' ∧ t = t' := by
  have hn : ':' ∉ ("active_deploys_team_" ++ toString t).toList := by
    rw [String.toList_append, List.mem_append, not_or]
    exact ⟨by decide, colon_notMem_repr t⟩
  obtain ⟨rfl, hp⟩ := contestKey_inj hn h
  have hl := congrArg String.toList hp
  rw [String.toList_append, String.toList_append, List.append_cancel_left_eq] at hl
  exact ⟨rfl, toList_repr_inj hl⟩

theorem attemptKey_inj {c cc t c' cc' t' : ℤ}
    (h : attemptKey c cc t = attemptKey c' cc' t') : c = c' ∧ cc = cc' ∧ t = t' := by
  obtain ⟨rfl, hp⟩ := contestKey_inj (colon_notMem_pairName (by decide) cc t) h
  exact ⟨rfl, pairName_inj hp⟩

theorem kpmKey_inj {u m u' m' : ℤ} (h : kpmKey u m = kpmKey u' m') : u = u' ∧ m = m' :=
  pairName_inj h

/-- A key of a contest begins with a `c`. -/
theorem contestKey_ne_of_head {c : ℤ} {name key : String}
    (h : key.toList.head? ≠ some 'c') : contestKey c name ≠ key := by
  rintro rfl
  apply h
  simp only [contestKey, String.append_assoc]
  have hc : "contest:".toList.head? = some 'c' := by decide
  rw [String.toList_append, List.head?_append, hc, Option.some_or]

/-- A name built from two numbers begins as its kind does. -/
theorem head_pairName {kind : String} {c : Char} (h : kind.toList.head? = some c) (i j : ℤ) :
    (pairName kind i j).toList.head? = some c := by
  rw [pairName, String.append_assoc, String.append_assoc, String.toList_append,
    List.head?_append, h, Option.some_or]

/-- Wrong answers in a minute and wrong answers to a challenge are counted apart. -/
theorem attemptKey_ne_kpmKey (c cc t u m : ℤ) : attemptKey c cc t ≠ kpmKey u m := by
  refine contestKey_ne_of_head ?_
  rw [kpmKey, head_pairName (c := 'k') (by decide)]
  decide

/-- Cooldowns and wrong answers are kept apart. -/
theorem attemptKey_ne_cooldownKey (c cc t c' cc' t' : ℤ) :
    attemptKey c cc t ≠ cooldownKey c' cc' t' := by
  intro h
  obtain ⟨-, hp⟩ := contestKey_inj (colon_notMem_pairName (by decide) cc t) h
  have ha := @head_pairName "attempt_count_" 'a' (by decide) cc t
  have hs := @head_pairName "submission_cooldown_" 's' (by decide) cc' t'
  rw [hp, hs] at ha
  revert ha
  decide

/-- Cooldowns and the counters of a minute are kept apart. -/
theorem kpmKey_ne_cooldownKey (u m c cc t : ℤ) : kpmKey u m ≠ cooldownKey c cc t := by
  refine (contestKey_ne_of_head ?_).symm
  rw [kpmKey, head_pairName (c := 'k') (by decide)]
  decide

/-- The admin endpoints name no counter of the controller. -/
theorem attemptKey_ne_adminAttemptKey (c cc t cc' t' : ℤ) :
    attemptKey c cc t ≠ adminAttemptKey cc' t' := by
  refine contestKey_ne_of_head ?_
  rw [adminAttemptKey, head_pairName (c := 'a') (by decide)]
  decide

end Fctf
