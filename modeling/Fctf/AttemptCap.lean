import Fctf.AttemptCount

/-!
# The Cap on Stored Wrong Answers

A challenge with `MaxAttempts` has at most that many wrong answers of a team stored. The
counter in Redis enforces it, and Redis may lose the counter at any time. The script then
restores it from the count the request read before, and answers stored or counted since
that reading are forgotten.

## Main results

* `incorrectCount_le_of_seedsCover`: the cap holds in every run in which the counter is
  only restored from counts that are not out of date.
* `not_incorrectCount_le`: a run in which it is restored from one that is.
-/

open Concurrent RedisDb

namespace Fctf

variable {cfg : AttemptConfig} {contestId id t n : ℤ}

/-- The condition on a step: a script that restores the missing counter does so from a
count of all wrong answers stored, or counted and about to be stored; and the limit of the
challenge is not changed. -/
def SeedsCover (contestId id t n : ℤ) (w : (attempts cfg).Pool) : (attempts cfg).Move → Prop
  | .spawn _ => True
  | .act pid e =>
      match w.procs[pid]? with
      | some (_, .call o _) =>
          (account contestId id t w).SeedCovers (accountMove contestId id t e o)
      | _ => True
  | .ambient (.tables tables) =>
      tables.Fixes contestId id fun cc => attemptLimit cc = some n
  | .ambient _ => True

instance decidableSeedCovers (a : Account) (m : AccountMove) : Decidable (a.SeedCovers m) :=
  match m with
  | .count _ | .countLost _ => inferInstanceAs (Decidable (_ → _))
  | .stay | .store | .drop | .reset => .isTrue trivial

instance (contestId id : ℤ) (P : ContestsChallenge → Prop) [DecidablePred P]
    (tables : AttemptTables) : Decidable (tables.Fixes contestId id P) :=
  inferInstanceAs (Decidable (∀ cc ∈ tables.contestsChallenges, _))

instance (w : (attempts cfg).Pool) (m : (attempts cfg).Move) :
    Decidable (SeedsCover contestId id t n w m) := by
  unfold SeedsCover
  induction m using Service.Move.casesOn with
  | spawn c => dsimp only; infer_instance
  | act pid e =>
      dsimp only
      generalize w.procs[pid]? = found
      rcases found with _ | ⟨c, _ | ⟨o, k⟩⟩ <;> dsimp only <;> infer_instance
  | ambient x => induction x using AttemptMove.casesOn <;> dsimp only <;> infer_instance

/-- **The cap.** In every run that restores the counter from counts of all wrong answers,
no more than `n` wrong answers of the team are stored. -/
theorem incorrectCount_le_of_seedsCover (cfg : AttemptConfig) (contestId id t n : ℤ)
    (s₀ : AttemptWorld)
    (hlimit : s₀.tables.Fixes contestId id fun cc => attemptLimit cc = some n)
    (hstored : (s₀.incorrectCount id t : ℤ) ≤ n)
    (hcounter : ∀ c, s₀.redis.getNum (attemptKey contestId id t) = some c →
      (s₀.incorrectCount id t : ℤ) ≤ c)
    (w : (attempts cfg).Pool)
    (h : Service.Reaches (SeedsCover contestId id t n) ((attempts cfg).start s₀) w) :
    (w.shared.incorrectCount id t : ℤ) ≤ n := by
  have hcovered : (account contestId id t w).Covered n := by
    refine (account_invariant h hlimit ?_ (fun _ _ hg => hg) ?_
      fun a counter ha hc => ha.expire hc).2
    · exact ⟨hstored, hcounter⟩
    · intro w pid e c o k ha hp hg
      refine ha.apply ?_ (held_pos hp)
      have hp' : w.procs[pid]? = some (c, .call o k) := hp
      simpa only [SeedsCover, hp'] using hg
  have hle := hcovered.limit
  simp only [account] at hle
  omega

/-- A wrong answer, and a second one after the counter was lost. -/
theorem incorrectCount_le_example :
    ∃ w, Service.runIf (SeedsCover 1 7 5 1)
        ((attempts defaultAttemptConfig).start (attemptWorld oneTryChallenge))
        (Service.callNow 0 wrongAnswer calmAttempt 13 ++
          [.ambient (AttemptMove.evict (attemptKey 1 7 5))] ++
          Service.callNow 1 wrongAnswer calmAttempt 4) = some w ∧
      w.shared.incorrectCount 7 5 = 1 ∧ (w.shared.incorrectCount 7 5 : ℤ) ≤ 1 := by
  have hrun : (Service.runIf (SeedsCover 1 7 5 1)
      ((attempts defaultAttemptConfig).start (attemptWorld oneTryChallenge))
      (Service.callNow 0 wrongAnswer calmAttempt 13 ++
        [.ambient (AttemptMove.evict (attemptKey 1 7 5))] ++
        Service.callNow 1 wrongAnswer calmAttempt 4)).any
      (fun w => decide (w.shared.incorrectCount 7 5 = 1)) = true := by
    decide +kernel
  obtain ⟨w, hw, hone⟩ := (Option.any_eq_true _ _).mp hrun
  refine ⟨w, hw, of_decide_eq_true hone, ?_⟩
  exact incorrectCount_le_of_seedsCover defaultAttemptConfig 1 7 5 1 _ (by decide) (by decide)
    (fun c hc => by cases hc) w (Service.reaches_of_runIf hw)

/-- **A count out of date.** The first request has counted no stored wrong answers, the
second stores one, the counter is lost, and the first restores it from its count. -/
theorem not_incorrectCount_le :
    ∃ w, Service.Reaches Service.anyMove
        ((attempts defaultAttemptConfig).start (attemptWorld oneTryChallenge)) w ∧
      attemptLimit oneTryChallenge = some 1 ∧ ¬(w.shared.incorrectCount 7 5 : ℤ) ≤ 1 := by
  have hrun : (Service.run
      ((attempts defaultAttemptConfig).start (attemptWorld oneTryChallenge))
      (Service.callNow 0 wrongAnswer calmAttempt 10 ++
        Service.callNow 1 wrongAnswer calmAttempt 12 ++
        [.ambient (AttemptMove.evict (attemptKey 1 7 5))] ++ List.replicate 3 (.act 0 calmAttempt))).any
      (fun w => decide (w.shared.incorrectCount 7 5 = 2)) = true := by
    decide +kernel
  obtain ⟨w, hw, htwo⟩ := (Option.any_eq_true _ _).mp hrun
  refine ⟨w, Service.reaches_of_run hw, rfl, ?_⟩
  rw [of_decide_eq_true htwo]
  decide

end Fctf
