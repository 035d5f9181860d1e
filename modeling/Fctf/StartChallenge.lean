import Fctf.Deployment

/-!
# Starting a Challenge

`ChallengeController.StartChallenge` of the contestants' backend: the checks, the
reservation of a slot, the call of the deployment center's start endpoint, and the
roll-back of the reservation when that call does not answer with success.
-/

open Concurrent RedisDb

namespace Fctf

/-- The prerequisite check; an exception inside it lets the request pass. -/
def prerequisitesMet (bank : Challenge) (contestId teamId : ℤ) : Prog deployI Exn Bool :=
  match bank.prerequisites with
  | none => pure true
  | some prerequisites =>
      if prerequisites.isEmpty then pure true
      else
        try
          let solvedBankIds : List ℤ ← issue (.solvedBankIds contestId teamId)
          let allBankIds : List ℤ ← issue (.allBankIds contestId)
          let prereqs := prerequisites.filter (· ∈ allBankIds)
          pure (prereqs.all (· ∈ solvedBankIds))
        catch _ => pure true

/-- The attempts check: has the team wrong answers left? -/
def attemptsLeft (cc : ContestsChallenge) (teamId : ℤ) : Prog deployI Exn Bool :=
  match cc.maxAttempts with
  | none => pure true
  | some maxAttempts =>
      if maxAttempts ≤ 0 then pure true
      else do
        let incorrectCount : ℤ ← issue (.countIncorrect cc.id teamId)
        pure (decide (incorrectCount < maxAttempts))

/-- The deploy quota: has the team starts left? -/
def deploysLeft (cc : ContestsChallenge) (teamId : ℤ) : Prog deployI Exn Bool :=
  match cc.maxDeployCount with
  | none => pure true
  | some maxDeployCount =>
      if maxDeployCount ≤ 0 then pure true
      else do
        let currentDeployCount : ℤ ← issue (.countStartTrackings cc.id teamId)
        pure (decide (currentDeployCount < maxDeployCount))

/-- May this member start challenges? -/
def mayStart (cfg : DeployConfig) (teamId userId : ℤ) : Prog deployI Exn Bool :=
  if cfg.captainOnlyStart then do
    let captainId : Option ℤ ← issue (.captainId teamId)
    match captainId with
    | none => pure true
    | some captainId => pure (decide (captainId = userId))
  else pure true

/-- Everything checked before a slot is reserved: the challenge, or the refusal. -/
def startChecks (cfg : DeployConfig) (userId teamId contestId challengeId : ℤ) :
    Prog deployI Exn
      (Except ChallengeDeployResponeDTO (ContestsChallenge × Challenge)) := do
  let user : Option User ← issue (.findUser userId)
  if user.isNone then return .error (.refuse 404 "User not found")
  if teamId = 0 then return .error (.refuse 404 "Team not found")
  let cc : Option ContestsChallenge ← issue (.findContestsChallenge challengeId)
  match cc with
  | none => return .error (.refuse 404 "Challenge not found")
  | some cc =>
      if cc.contestId ≠ contestId then return .error (.refuse 404 "Challenge not found")
      match cc.bankChallenge with
      | none => return .error (.refuse 404 "Challenge not found")
      | some bank =>
          if !cc.requireDeploy then
            return .error (.refuse 400 "This challenge does not require deploy")
          if cc.state = .hidden || bank.sharedInstant then
            return .error (.refuse 400 "This challenge is not available for deployment")
          if !(← prerequisitesMet bank contestId teamId) then
            return .error (.refuse 403 "You don't have the permission to start this challenge. Please complete the required challenges first.")
          if !(← attemptsLeft cc teamId) then
            return .error (.refuse 400
              "You have 0 tries remaining. You cannot start this challenge.")
          if !(← deploysLeft cc teamId) then
            return .error (.refuse 400
              "You have reached the maximum number of deployments for this challenge.")
          let solve : Bool ← issue (.isSolved cc.id teamId)
          if solve then
            return .error (.refuse 400 "Your team has already solved this challenge. You cannot start this challenge.")
          if !(← mayStart cfg teamId userId) then
            return .error (.refuse 400 "Contact the organizers to select a team captain. Only the team captain has the permission to start the challenge.")
          return .ok (cc, bank)

/-- Minutes from `now` to a deadline. -/
def minutesLeft (timeFinished now : ℤ) : ℤ :=
  max 0 (timeFinished - now) / 60

/-- The answer when the challenge already has a slot. -/
def alreadyExists (deploymentKey : String) : Prog deployI Exn ChallengeDeployResponeDTO := do
  let deploymentCache : Option ChallengeDeploymentCacheDTO ← getFromCacheAsync deploymentKey
  match deploymentCache with
  | none => pure (.refuse 400 "You have already started this challenge.")
  | some cache =>
      match cache.status with
      | .initial =>
          pure (.refuse 400 "Your previous challenge deployment is still in progress. Please wait until it is completed before starting a new one.")
      | .pending => pure (.plain 200 true "Challenge is deploying.")
      | .deleting =>
          pure (.refuse 400
            "Challenge is being deleted. Please wait a moment before starting again.")
      | .runing =>
          if 0 < cache.timeFinished then do
            let now ← utcNow
            pure ⟨200, true, "Challenge is running.", some cache.challengeUrl,
              minutesLeft cache.timeFinished now⟩
          else pure ⟨200, true, "Challenge is running.", some cache.challengeUrl, 0⟩
      | _ => pure (.refuse 400 "You have already started this challenge.")

/-- `ChallengeService.ChallengeStart`: the call of the start endpoint. -/
def challengeStart (cc : ContestsChallenge) (bank : Challenge) (userId teamId contestId : ℤ) :
    Prog deployI Exn ChallengeDeployResponeDTO :=
  try
    let _ ← utcNow
    let body : Option ChallengeDeployResponeDTO ←
      issue (.postStart ⟨bank.id, cc.id, contestId, teamId, userId⟩)
    match body with
    | none =>
        pure (.plain 400 false
          "Deployment service is not responding. Please try again later.")
    | some result => pure result
  catch _ => pure (.plain 500 false "An unexpected error occurred.")

/-- The entry a reservation writes. -/
def initialEntry (cc : ContestsChallenge) (contestId teamId userId : ℤ) :
    ChallengeDeploymentCacheDTO where
  challengeId := cc.id
  contestId := contestId
  userId := userId
  teamId := teamId
  _namespace := ""
  podId := ""
  workflowName := ""
  challengeUrl := ""
  timeFinished := 0
  status := .initial
  ready := false

/-- After a reservation: the call of the start endpoint, and the roll-back unless it
answers with success. -/
def startReserved (cc : ContestsChallenge) (bank : Challenge)
    (userId teamId contestId : ℤ) : Prog deployI Exn ChallengeDeployResponeDTO :=
  let deploymentKey := getCacheKey contestId cc.id teamId
  try
    let response ← challengeStart cc bank userId teamId contestId
    if response.status ≠ 200 then
      let _ ← atomicRemoveDeploymentZSet teamId deploymentKey cc.id contestId
      pure response
    else
      try issue (.saveActionLogs userId cc.id) catch _ => pure ()
      pure response
  catch _ =>
    let _ ← atomicRemoveDeploymentZSet teamId deploymentKey cc.id contestId
    pure (.refuse 400 "Failed to connect to start API")

/-- `ChallengeController.StartChallenge`. -/
def startChallenge (cfg : DeployConfig) (userId teamId contestId challengeId : ℤ) :
    Prog deployI Exn ChallengeDeployResponeDTO := do
  match ← startChecks cfg userId teamId contestId challengeId with
  | .error refusal => pure refusal
  | .ok (cc, bank) =>
      let deploymentKey := getCacheKey contestId cc.id teamId
      match ← atomicCheckAndCreateDeploymentZSet teamId deploymentKey cc.id cfg.limitChallenges
          (initialEntry cc contestId teamId userId) 300 contestId with
      | .limitExceeded =>
          pure (.refuse 400 ("You have reached the maximum limit of " ++
            toString cfg.limitChallenges ++ " concurrent challenges."))
      | .alreadyExists => alreadyExists deploymentKey
      | .pass => startReserved cc bank userId teamId contestId
      | .locked => pure (.refuse 500 "Unexpected Redis error.")

/-! ### What the checks read -/

/-- What a start reads before it reserves a slot. -/
def CheckOp : DeployOp → Prop
  | .findUser _ => True
  | .findContestsChallenge _ => True
  | .solvedBankIds _ _ => True
  | .allBankIds _ => True
  | .countIncorrect _ _ => True
  | .countStartTrackings _ _ => True
  | .isSolved _ _ => True
  | .captainId _ => True
  | _ => False

theorem throughout_prerequisitesMet (bank : Challenge) (contestId teamId : ℤ) :
    (prerequisitesMet bank contestId teamId).Throughout CheckOp := by
  rw [prerequisitesMet]
  split
  · trivial
  · split
    · trivial
    · refine .handle (.bind (throughout_issue trivial) fun _ => ?_) fun _ => trivial
      exact .bind (throughout_issue trivial) fun _ => trivial

theorem throughout_attemptsLeft (cc : ContestsChallenge) (teamId : ℤ) :
    (attemptsLeft cc teamId).Throughout CheckOp := by
  rw [attemptsLeft]
  split
  · trivial
  · split
    · trivial
    · exact .bind (throughout_issue trivial) fun _ => trivial

theorem throughout_deploysLeft (cc : ContestsChallenge) (teamId : ℤ) :
    (deploysLeft cc teamId).Throughout CheckOp := by
  rw [deploysLeft]
  split
  · trivial
  · split
    · trivial
    · exact .bind (throughout_issue trivial) fun _ => trivial

theorem throughout_mayStart (cfg : DeployConfig) (teamId userId : ℤ) :
    (mayStart cfg teamId userId).Throughout CheckOp := by
  rw [mayStart]
  split
  · refine .bind (throughout_issue trivial) fun captainId => ?_
    cases captainId <;> trivial
  · trivial

theorem throughout_startChecks (cfg : DeployConfig) (userId teamId contestId challengeId : ℤ) :
    (startChecks cfg userId teamId contestId challengeId).Throughout CheckOp := by
  rw [startChecks]
  refine .bind (throughout_issue trivial) fun user => ?_
  split
  · trivial
  split
  · trivial
  refine .bind (throughout_issue trivial) fun cc => ?_
  split
  · trivial
  split
  · trivial
  split
  · trivial
  split
  · trivial
  split
  · trivial
  refine .bind (throughout_prerequisitesMet _ _ _) fun _ => ?_
  split
  · trivial
  refine .bind (throughout_attemptsLeft _ _) fun _ => ?_
  split
  · trivial
  refine .bind (throughout_deploysLeft _ _) fun _ => ?_
  split
  · trivial
  refine .bind (throughout_issue trivial) fun solve => ?_
  split
  · trivial
  refine .bind (throughout_mayStart _ _ _) fun _ => ?_
  split <;> trivial

end Fctf
