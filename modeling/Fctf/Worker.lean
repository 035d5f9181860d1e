import Fctf.DeployService

/-!
# The Deployment Worker

`Worker.ProcessAsync`: a batch of messages is taken from the queue, and for each of them
the cached entry is read, a workflow is submitted to Argo, and the entry is written back
with the namespace and the name of the workflow.
-/

open Concurrent RedisDb

namespace Fctf

/-- The namespace of `ChallengeHelper.BuildArgoPayload`, which dates it. -/
def buildArgoPayload (cfg : DeployConfig) (contestChallenge : ContestsChallenge)
    (req : ChallengeStartStopReqDTO) : Prog deployI Exn String := do
  let date ← utcNow
  pure (getDeploymentAppName cfg.parseAlphaNumeric req.teamId req.contestId
    req.contestChallengeId (contestChallenge.name.getD "") date)

/-- Submit the workflow, and acknowledge the message if Argo names it. -/
def submitAndAck (appName : String) (mess : DequeuedMessage) : Prog deployI Exn String := do
  let response : ArgoResponse ← issue (.submitWorkflow appName mess.data)
  match response with
  | .none => throw .invalidOperation
  | .empty => pure ""
  | .malformed => throw .invalidOperation
  | .named workflowName =>
      issue (.ack mess.deliveryTag)
      if workflowName.toList.all Char.isWhitespace then throw .invalidOperation
      pure workflowName

/-- The entry the worker writes. -/
def deployedEntry (cache : ChallengeDeploymentCacheDTO) (appName workflowName : String) :
    ChallengeDeploymentCacheDTO :=
  { cache with
    _namespace := appName
    status := .pending
    workflowName := workflowName
    timeFinished := 0 }

/-- The `try` block for one message. -/
def deployMessage (cfg : DeployConfig) (mess : DequeuedMessage)
    (deploymentCache : Option ChallengeDeploymentCacheDTO) : Prog deployI Exn Unit := do
  match deploymentCache with
  | none => throw .invalidOperation
  | some cache =>
      let contestChallenge : Option ContestsChallenge ←
        issue (.findContestsChallenge mess.data.contestChallengeId)
      match contestChallenge with
      | none => throw .invalidOperation
      | some contestChallenge =>
          if !contestChallenge.hasImage then throw .invalidOperation
          let appName ← buildArgoPayload cfg contestChallenge mess.data
          let workflowName ← submitAndAck appName mess
          let _ ← atomicUpdateExpiration mess.data.teamId mess.data.key
            mess.data.contestChallengeId (cfg.argoDeployTtlMinutes * 60)
            (some (deployedEntry cache appName workflowName)) mess.data.contestId
          pure ()

/-- One message. -/
def processMessage (cfg : DeployConfig) (mess : DequeuedMessage) : Prog deployI Exn Unit := do
  let deploymentCache : Option ChallengeDeploymentCacheDTO ← getFromCacheAsync mess.data.key
  try deployMessage cfg mess deploymentCache
  catch _ => issue (.nack mess.deliveryTag)

/-- `Worker.ProcessAsync`. -/
def workerProcess (cfg : DeployConfig) : Prog deployI Exn Unit := do
  let runningWorkflow : ℕ ← issue .countRunningWorkflows
  if cfg.maxRunningWorkflow ≤ runningWorkflow then pure ()
  else
    let availableSlots := cfg.maxRunningWorkflow - runningWorkflow
    let messages : List DequeuedMessage ← issue (.dequeue (min availableSlots cfg.batchSize))
    forM messages (processMessage cfg)

end Fctf
