import Fctf.K8sService

/-!
# The Deployment Listener

`ChallengesInformerService` watches the pods of all deployments and keeps the cached
entries in step with them. A pod event is handled by a shard chosen by the pod's uid, so
events of different pods of one deployment may be handled at the same time.

A handler finds the cached entry through the team, contest and challenge in the name of
the pod's namespace.
-/

open Concurrent RedisDb

namespace Fctf

/-- `HandleDeletion`. -/
def handleDeletion (n : DeploymentName) (cache : Option ChallengeDeploymentCacheDTO)
    (ns : String) : Prog deployI Exn Unit := do
  let _ ← atomicRemoveDeploymentZSet n.teamId n.key n.contestChallengeId n.contestId
  issue (.statusChanged n.teamId n.contestChallengeId ((cache.map (·.userId)).getD 0) .stopped
    none)
  try
    let challengeTracking : Option ℕ ← issue (.findOpenTracking ns)
    match challengeTracking with
    | none => pure ()
    | some row =>
        let now ← utcNow
        issue (.stopTracking row now)
  catch _ => pure ()

/-- `CleanupGhostResources`. -/
def cleanupGhostResources (ns : String) (n : DeploymentName) (status : DeploymentStatus) :
    Prog deployI Exn Unit := do
  let deleted ← deleteNamespace ns
  if deleted then
    let _ ← atomicRemoveDeploymentZSet n.teamId n.key n.contestChallengeId n.contestId
    issue (.statusChanged n.teamId n.contestChallengeId 0 status none)
  else pure ()

/-- `HandlePodRestart`: the entry as the handler goes on with it. It is written only if
the deadline is in the future. -/
def handlePodRestart (newUid : String) (n : DeploymentName)
    (cache : ChallengeDeploymentCacheDTO) : Prog deployI Exn ChallengeDeploymentCacheDTO := do
  let cache := { cache with podId := newUid, ready := false }
  let now ← utcNow
  let remainingTtl := cache.timeFinished - now
  if 0 < remainingTtl then
    let _ ← atomicUpdateExpiration n.teamId n.key n.contestChallengeId remainingTtl
      (some cache) n.contestId
    pure cache
  else pure cache

/-- `HandleRunningState`. -/
def handleRunningState (cfg : DeployConfig) (pod : V1Pod) (n : DeploymentName)
    (cache : ChallengeDeploymentCacheDTO) : Prog deployI Exn Unit := do
  let ready := pod.containerStatuses.all (·.ready)
  if ready && pod.podReadyCondition && cache.status ≠ .deleting then
    if cache.ready then pure ()
    else
      let deployResult ← handleChallengeRunning cfg n.contestChallengeId n.contestId n.teamId
        cache._namespace cache
      issue (.statusChanged n.teamId n.contestChallengeId cache.userId .runing
        (some (deployResult.challengeUrl.getD "")))
  else pure ()

/-- The handling of a pod that is there and has an entry. -/
def handleLivePod (cfg : DeployConfig) (pod : V1Pod) (n : DeploymentName)
    (cache : ChallengeDeploymentCacheDTO) : Prog deployI Exn Unit := do
  let cache ←
    if cache.podId ≠ pod.uid then handlePodRestart pod.uid n cache else pure cache
  let now ← utcNow
  if isPodStuck pod now then cleanupGhostResources pod.ns n .failed
  else handleRunningState cfg pod n cache

/-- `ProcessPodChangeAsync`. -/
def processPodChange (cfg : DeployConfig) (pod : V1Pod) (eventType : WatchEventType) :
    Prog deployI Exn Unit :=
  if eventType = .bookmark ∨ eventType = .error then pure ()
  else
    match parseDeploymentAppName pod.ns with
    | none => throw .invalidOperation
    | some n => do
        let cache : Option ChallengeDeploymentCacheDTO ← getFromCacheAsync n.key
        if eventType = .deleted then handleDeletion n cache pod.ns
        else
          match cache with
          | none => cleanupGhostResources pod.ns n .stopped
          | some cache =>
              if pod.deleting then pure () else handleLivePod cfg pod n cache

end Fctf
