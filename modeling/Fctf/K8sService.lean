import Fctf.Deployment

/-!
# Deployment Names and `K8sService`

The namespace of a deployment carries its team, contest and challenge in its name
(`ChallengeHelper`), and the services find the cached entry of a pod through that name.
`K8sService` deletes namespaces, looks for stuck pods, and turns a deployment into a
running one.
-/

open Concurrent RedisDb

namespace Fctf

/-! ### Deployment names -/

/-- `ToLower().Replace(" ", "-")`. -/
def kebab (s : String) : String :=
  String.ofList (s.toList.map fun c => if c = ' ' then '-' else c.toLower)

/-- `ChallengeHelper.GetDeploymentAppName` at time `date`. -/
def getDeploymentAppName (parseAlphaNumeric : String → String)
    (teamId contestId contestChallengeId : ℤ) (challengeName : String) (date : ℤ) : String :=
  let challName := parseAlphaNumeric challengeName
  let team :=
    if teamId = -2 then "shared" else if teamId = -1 then "0" else toString teamId
  kebab ("team-" ++ team ++ "-" ++ toString contestId ++ "-" ++ toString contestChallengeId
    ++ "-" ++ challName ++ "-" ++ toString date)

/-- The value of a string of digits. -/
def digitsValue (cs : List Char) : ℤ :=
  cs.foldl (fun n c => 10 * n + (c.toNat - '0'.toNat : ℕ)) 0

/-- `int.TryParse`: blanks around, a sign, digits, within 32 bits. -/
def tryParseInt (cs : List Char) : Option ℤ :=
  let cs := ((cs.dropWhile Char.isWhitespace).reverse.dropWhile Char.isWhitespace).reverse
  let (sign, digits) :=
    match cs with
    | '-' :: cs => ((-1 : ℤ), cs)
    | '+' :: cs => (1, cs)
    | cs => (1, cs)
  if digits.isEmpty || !digits.all Char.isDigit then none
  else
    let n := sign * digitsValue digits
    if -2147483648 ≤ n ∧ n ≤ 2147483647 then some n else none

/-- The team, contest and challenge a namespace belongs to. -/
structure DeploymentName where
  /-- The team. -/
  teamId : ℤ
  /-- The contest. -/
  contestId : ℤ
  /-- The challenge in the contest. -/
  contestChallengeId : ℤ
  deriving DecidableEq, Repr

/-- `ChallengeHelper.ParseDeploymentAppName`; `none` where it raises. -/
def parseDeploymentAppName (appName : String) : Option DeploymentName :=
  match (appName.toList.splitOn '-').filter (· ≠ []) with
  | head :: team :: contest :: challenge :: _ =>
      if !"team".toList.isPrefixOf head then none
      else do
        let teamId ←
          if team.map Char.toLower = "shared".toList then some (-2) else tryParseInt team
        let contestId ← tryParseInt contest
        let contestChallengeId ← tryParseInt challenge
        pure ⟨if teamId = 0 then -1 else teamId, contestId, contestChallengeId⟩
  | _ => none

/-- The cached entry's key for a deployment name. -/
def DeploymentName.key (n : DeploymentName) : String :=
  getCacheKey n.contestId n.contestChallengeId n.teamId

/-! ### Kubernetes and Argo calls -/

/-- `K8sService.DeleteNamespace`: a failure is reported as `false`. -/
def deleteNamespace (ns : String) : Prog deployI Exn Bool :=
  try
    issue (.deleteNamespace ns)
    pure true
  catch _ => pure false

/-- `K8sService.GetWorkflowStatus`: a failure reads as an unknown phase. -/
def getWorkflowStatus (workflowName : String) : Prog deployI Exn WorkflowPhase :=
  try issue (.workflowStatus workflowName) catch _ => pure .unknown

/-- The reason in the status of the first container. -/
def V1ContainerStatus.reason (cs : V1ContainerStatus) : String :=
  match cs.waiting, cs.terminated with
  | _, some reason => reason.getD "Terminated"
  | some reason, none => reason.getD "Waiting"
  | none, none => ""

/-- `K8sService.IsPodStuck` at time `now`. -/
def isPodStuck (pod : V1Pod) (now : ℤ) : Bool :=
  let cs := pod.containerStatuses.head?
  let ageSeconds := (pod.startTime.map (now - ·)).getD 0
  if ageSeconds < 15 then false
  else
    let reason := (cs.map (·.reason)).getD ""
    let restartCount := (cs.map (·.restartCount)).getD 0
    let fatalReasons := ["ImagePullBackOff", "ErrImagePull", "InvalidImageName",
      "CreateContainerConfigError", "CreateContainerError"]
    pod.phase = "Failed" ||
      reason ∈ fatalReasons && 30 < ageSeconds ||
      (reason = "CrashLoopBackOff" || reason = "OOMKilled") && 2 < restartCount ||
      reason = "ContainerCreating" && 300 < ageSeconds ||
      pod.phase = "Running" && !((cs.map (·.ready)).getD false) && 180 < ageSeconds

/-- What `GetPodsByLabel` tells of a pod. -/
structure PodInfo where
  /-- Its namespace. -/
  ns : String
  /-- The team. -/
  teamId : ℤ
  /-- The challenge. -/
  challengeId : ℤ
  /-- Its name. -/
  name : String
  /-- Are its containers ready? -/
  ready : Bool
  deriving DecidableEq, Repr

/-- One pod of the list: a stuck pod of a team is deleted with its cached entry, any other
pod that is not stuck is reported. -/
def inspectPod (pod : V1Pod) : Prog deployI Exn (Option PodInfo) := do
  match parseDeploymentAppName pod.ns with
  | none => throw .invalidOperation
  | some n =>
      let now ← utcNow
      let isStuck := isPodStuck pod now
      let _ : Option ChallengeDeploymentCacheDTO ← getFromCacheAsync n.key
      if isStuck then
        let deleted ← if 0 < n.teamId then deleteNamespace pod.ns else pure false
        if deleted then
          let _ ← removeCacheAsync n.key
          pure none
        else pure none
      else
        pure (some ⟨pod.ns, n.teamId, n.contestChallengeId, pod.name,
          pod.containerStatuses.all (·.ready)⟩)

/-- `K8sService.GetPodsByLabel`, called without an event handler. It visits the pods in
order; a failure ends the visit, and what was collected is returned. -/
def getPodsByLabel : Prog deployI Exn (List PodInfo) :=
  try
    let pods : List V1Pod ← issue .listPods
    visit pods
  catch _ => pure []
where
  /-- The loop over the pods. -/
  visit : List V1Pod → Prog deployI Exn (List PodInfo)
    | [] => pure []
    | pod :: pods =>
        try
          let info ← inspectPod pod
          let infos ← visit pods
          pure (info.toList ++ infos)
        catch _ => pure []

/-- The row of a deployment that was reported running. -/
def startRow (contestChallengeId contestId teamId now : ℤ) (podName : String) :
    ChallengeStartTracking :=
  ⟨contestChallengeId, contestId, teamId, now, none, podName⟩

/-- The deadline of a deployment: the cached one while it is in the future, and otherwise
a new one, for which a row is inserted unless it is an admin's deployment. -/
def decideDeadline (contestChallengeId contestId teamId : ℤ) (podName : String)
    (timeLimit : Option ℤ) (timeFinished : ℤ) : Prog deployI Exn ℤ := do
  let now ← utcNow
  if now < timeFinished then pure timeFinished
  else
    let minutes := timeLimit.getD 30
    let now ← utcNow
    if teamId ≠ -1 ∧ teamId ≠ -2 then
      issue (.addStartTracking (startRow contestChallengeId contestId teamId now podName))
    pure (now + minutes * 60)

/-- `K8sService.HandleChallengeRunning`. -/
def handleChallengeRunning (cfg : DeployConfig) (contestChallengeId contestId teamId : ℤ)
    (podName : String) (deploymentCache : ChallengeDeploymentCacheDTO) :
    Prog deployI Exn ChallengeDeployResponeDTO :=
  try
    let cc : Option ContestsChallenge ← issue (.findContestsChallenge contestChallengeId)
    match cc with
    | none => pure (.plain 404 false "Challenge not found.")
    | some cc =>
        let finalUnixFinished ← decideDeadline contestChallengeId contestId teamId podName
          cc.timeLimit deploymentCache.timeFinished
        let challengeDomain := cfg.generateChallengeToken podName finalUnixFinished
        let now ← utcNow
        let realTtlSeconds :=
          if finalUnixFinished - now ≤ 0 then 60 else finalUnixFinished - now
        let _ ← atomicUpdateExpiration teamId (getCacheKey contestId contestChallengeId teamId)
          contestChallengeId realTtlSeconds
          (some { deploymentCache with
            status := .runing
            challengeUrl := challengeDomain
            timeFinished := finalUnixFinished
            ready := true }) contestId
        pure ⟨200, true, "Challenge is running.", some challengeDomain,
          cc.timeLimit.getD (-1)⟩
  catch _ => pure (.plain 500 false "Internal server error.")

end Fctf
