import Fctf.K8sService
import Fctf.StartChallenge

/-!
# The Deployment Center

`DeployService.Start` and `Stop`, to which the contestants' backend turns for a start or
a stop, and `StatusCheck`. A start is put into the queue of the deployment worker, and
the cached entry of the deployment is written after it.
-/

open Concurrent RedisDb

namespace Fctf

/-- The entry `DeployService.Start` writes once the request is in the queue. -/
def pendingDeployEntry (req : ChallengeStartStopReqDTO) : ChallengeDeploymentCacheDTO where
  challengeId := req.contestChallengeId
  contestId := req.contestId
  userId := req.userId
  teamId := req.teamId
  _namespace := ""
  podId := ""
  workflowName := ""
  challengeUrl := ""
  timeFinished := 0
  status := .pendingDeploy
  ready := false

/-- The key of the entry a request is about. -/
def ChallengeStartStopReqDTO.key (req : ChallengeStartStopReqDTO) : String :=
  getCacheKey req.contestId req.contestChallengeId req.teamId

/-- What `DeployService.Start` makes of a cached entry: an answer, or none if a new
deployment may be queued. -/
def startCached (req : ChallengeStartStopReqDTO) (cache : ChallengeDeploymentCacheDTO) :
    Prog deployI Exn (Option ChallengeDeployResponeDTO) :=
  match cache.status with
  | .pending => do
      let prepared := ChallengeDeployResponeDTO.plain 200 true
        "Your challenge is being prepared. This usually takes a few moments."
      if cache.workflowName ≠ "" then
        let wfPhase ← getWorkflowStatus cache.workflowName
        if wfPhase = .pending ∨ wfPhase = .running ∨ wfPhase = .succeeded then
          pure (some prepared)
        else
          let _ ← removeCacheAsync req.key
          pure none
      else pure (some prepared)
  | .runing =>
      if !cache.ready then
        pure (some (.plain 200 true
          "Your challenge is starting. Please wait while we finish setup."))
      else if 0 < cache.timeFinished then do
        let now ← utcNow
        pure (some ⟨200, true, "Your challenge is ready.", some cache.challengeUrl,
          minutesLeft cache.timeFinished now⟩)
      else pure (some ⟨200, true, "Your challenge is ready.", some cache.challengeUrl, 0⟩)
  | .deleting =>
      pure (some (.plain 409 false
        "A previous session is being stopped. Please try again in a few seconds."))
  | .stopped => do
      let _ ← removeCacheAsync req.key
      let _ ← atomicRemoveDeploymentZSet req.teamId req.key req.contestChallengeId
        req.contestId
      pure none
  | _ => pure none

/-- The text for a start that could not be queued, by what was raised. -/
def startFailure : Exn → ChallengeDeployResponeDTO
  | .brokerUnreachable =>
      .plain 500 false "Deployment service is temporarily unavailable. Please try again shortly."
  | .queueFull =>
      .plain 429 false "Deployment queue is currently full. Please retry in a moment."
  | .routingFailed =>
      .plain 500 false "Deployment routing failed. Please contact support if this persists."
  | _ =>
      .plain 500 false "Something went wrong while starting the challenge. Please try again."

/-- Queue a start, then write its entry; a failure removes the entry. -/
def queueStart (cfg : DeployConfig) (req : ChallengeStartStopReqDTO) :
    Prog deployI Exn ChallengeDeployResponeDTO :=
  try
    issue (.enqueue req (cfg.queueTimeoutMinutes * 60))
    let _ ← setCacheAsync req.key (pendingDeployEntry req) (cfg.queueTimeoutMinutes * 60)
    pure (.plain 200 true "Request received. Your challenge has been queued for deployment.")
  catch ex =>
    let _ ← removeCacheAsync req.key
    pure (startFailure ex)

/-- `DeployService.Start`. -/
def deployServiceStart (cfg : DeployConfig) (req : ChallengeStartStopReqDTO) :
    Prog deployI Exn ChallengeDeployResponeDTO := do
  let deploymentCache : Option ChallengeDeploymentCacheDTO ← getFromCacheAsync req.key
  match deploymentCache with
  | none => queueStart cfg req
  | some cache =>
      match ← startCached req cache with
      | some answer => pure answer
      | none => queueStart cfg req

/-- An admin's stop: the namespace, the slot and the entry are removed at once. -/
def forceStop (req : ChallengeStartStopReqDTO) (deployInfo : ChallengeDeploymentCacheDTO) :
    Prog deployI Exn ChallengeDeployResponeDTO := do
  let _ ← deleteNamespace deployInfo._namespace
  let _ ← atomicRemoveDeploymentZSet req.teamId req.key req.contestChallengeId req.contestId
  let _ ← removeCacheAsync req.key
  pure (.plain 200 true "Admin force deleted challenge successfully.")

/-- A member's stop: the entry says so for 40 seconds, and the listener does the rest. -/
def requestStop (req : ChallengeStartStopReqDTO) (deployInfo : ChallengeDeploymentCacheDTO) :
    Prog deployI Exn ChallengeDeployResponeDTO := do
  let _ ← atomicUpdateExpiration req.teamId req.key req.contestChallengeId 40
    (some { deployInfo with status := .deleting, ready := false }) req.contestId
  let _ ← deleteNamespace deployInfo._namespace
  pure (.plain 200 true
    "Challenge is stopping, watcher will send STOPPED event when pod terminates.")

/-- `DeployService.Stop`. -/
def deployServiceStop (req : ChallengeStartStopReqDTO) :
    Prog deployI Exn ChallengeDeployResponeDTO :=
  try
    let deployInfo : Option ChallengeDeploymentCacheDTO ← getFromCacheAsync req.key
    match deployInfo with
    | none =>
        pure (.plain 404 false
          "No deployment cache info found for the specified challenge and team.")
    | some deployInfo =>
        let user : Option User ← issue (.findUser req.userId)
        if (user.map (·.admin)).getD false then forceStop req deployInfo
        else requestStop req deployInfo
  catch _ => pure (.plain 500 false "Error during stopping challenge.")

/-- `DeployService.StatusCheck`. -/
def statusCheck (cfg : DeployConfig) (req : ChallengCheckStatusReqDTO) :
    Prog deployI Exn ChallengeDeployResponeDTO :=
  try
    let deploymentCache : Option ChallengeDeploymentCacheDTO ←
      getFromCacheAsync (getCacheKey req.contestId req.challengeId req.teamId)
    match deploymentCache with
    | none => pure (.plain 404 false "No deployment info found.")
    | some cache =>
        if cache.status = .runing ∧ cache.ready then
          handleChallengeRunning cfg req.challengeId req.contestId cache.teamId
            cache._namespace cache
        else pure (.plain 200 false "Pod is not running.")
  catch _ => pure (.plain 500 false "Error during status check.")

/-! ### What a start performs -/

/-- A start reads and writes single entries, and removes them with or without their slot. -/
def CentreOp : DeployOp → Prop
  | .redis .utcNow => True
  | .redis (.get _) => True
  | .redis (.set _ _ _) => True
  | .redis (.del _) => True
  | .redis (.remove _ _ _) => True
  | .workflowStatus _ => True
  | .enqueue _ _ => True
  | _ => False

theorem performs_startCached (req : ChallengeStartStopReqDTO)
    (cache : ChallengeDeploymentCacheDTO) :
    (startCached req cache).Throughout CentreOp := by
  rw [startCached]
  split
  · split
    · refine .bind (.handle (throughout_issue trivial) fun _ => trivial) fun phase => ?_
      split
      · trivial
      · exact .bind (throughout_removeCache trivial) fun _ => trivial
    · trivial
  · split
    · trivial
    · split
      · exact .bind (throughout_utcNow trivial) fun _ => trivial
      · trivial
  · trivial
  · refine .bind (throughout_removeCache trivial) fun _ => ?_
    refine .bind (.handle (.bind (throughout_issue trivial) fun _ => trivial) fun _ => ?_)
      fun _ => trivial
    trivial
  · trivial

theorem performs_queueStart (cfg : DeployConfig) (req : ChallengeStartStopReqDTO) :
    (queueStart cfg req).Throughout CentreOp := by
  refine .handle (.bind (throughout_issue trivial) fun _ => ?_) fun _ => ?_
  · exact .bind (.handle (throughout_issue trivial) fun _ => trivial) fun _ => trivial
  · exact .bind (throughout_removeCache trivial) fun _ => trivial

/-- **What a start performs.** -/
theorem performs_deployServiceStart (cfg : DeployConfig) (req : ChallengeStartStopReqDTO) :
    (deployServiceStart cfg req).Throughout CentreOp := by
  refine .bind (throughout_get trivial) fun cache => ?_
  split
  · exact performs_queueStart cfg req
  · refine .bind (performs_startCached _ _) fun answer => ?_
    split
    · trivial
    · exact performs_queueStart cfg req

end Fctf
