import Fctf.Listener
import Fctf.Worker

/-!
# The Platform

All deployment services at once: any number of calls of each, interleaved operation by
operation, with the passage of time and with changes of the tables they only read.

The contestants' backend and the deployment center are joined by an HTTP endpoint that
others call as well, so a start or stop may reach the deployment center at any time, and
the backend gets whatever answer the surroundings choose.
-/

open Concurrent RedisDb

namespace Fctf

/-- The calls. -/
inductive DeployCall where
  | startChallenge (userId teamId contestId challengeId : ℤ)
  | start (req : ChallengeStartStopReqDTO)
  | stop (req : ChallengeStartStopReqDTO)
  | statusCheck (req : ChallengCheckStatusReqDTO)
  | worker
  | podEvent (pod : V1Pod) (eventType : WatchEventType)
  | getPodsByLabel
  deriving DecidableEq

/-- What the surroundings do between operations. -/
inductive DeployMove where
  | tick (seconds : ℕ)
  | tables (tables : Tables)

/-- The program of a call. What it returns goes to the caller. -/
def DeployCall.program (cfg : DeployConfig) : DeployCall → Prog deployI Exn Unit
  | .startChallenge u t c id => do let _ ← Fctf.startChallenge cfg u t c id
  | .start req => do let _ ← deployServiceStart cfg req
  | .stop req => do let _ ← deployServiceStop req
  | .statusCheck req => do let _ ← Fctf.statusCheck cfg req
  | .worker => workerProcess cfg
  | .podEvent pod eventType => processPodChange cfg pod eventType
  | .getPodsByLabel => do let _ ← Fctf.getPodsByLabel

/-- What a move of the surroundings does. -/
def DeployMove.apply : DeployMove → World → World
  | .tick d, w => { w with redis := w.redis.tick d }
  | .tables t, w => { w with tables := t }

/-- The platform. -/
def platform (cfg : DeployConfig) : Service deployI Exn Unit World where
  Call := DeployCall
  Env := DeployEnv
  Ext := DeployMove
  program := DeployCall.program cfg
  exec e o w := o.exec e w
  ambient m w := m.apply w

/-! ### A platform with one challenge

One contest challenge, 7 of contest 1, with the default configuration values; concrete
runs are about team 5 of it. -/

/-- The default configuration values. -/
def defaultConfig : DeployConfig where
  limitChallenges := 3
  captainOnlyStart := false
  queueTimeoutMinutes := 5
  argoDeployTtlMinutes := 6
  maxRunningWorkflow := 30
  batchSize := 20
  parseAlphaNumeric := id
  generateChallengeToken podName _ := podName

/-- The challenge: one start, thirty minutes. -/
def webChallenge : ContestsChallenge where
  id := 7
  contestId := 1
  bankChallenge := some ⟨3, "web", false, none, false⟩
  name := some "web"
  value := some 100
  state := .visible
  requireDeploy := true
  maxAttempts := none
  maxDeployCount := some 1
  timeLimit := some 30
  cooldown := none
  hasImage := true

/-- The tables with that challenge. -/
def webTables : Tables where
  users id := some ⟨id, false⟩
  contestsChallenges id := if id = 7 then some webChallenge else none
  captainId _ := none
  incorrectCount _ _ := 0
  solved _ _ := false
  solvedBankIds _ _ := []
  allBankIds _ := [3]

/-- The platform's state at time 1000, before any call. -/
def webWorld : World := ⟨Db.empty 1000, [], [], 0, webTables⟩

/-- Surroundings in which nothing is lost and every request is accepted. -/
def calm : DeployEnv where
  fault := .none
  exn := .redis
  started := some (.plain 200 true
    "Request received. Your challenge has been queued for deployment.")
  runningWorkflows := 0
  argo := .named "wf"
  phase := .running
  pods := []

/-- The request to start the challenge for team 5. -/
def webStart : ChallengeStartStopReqDTO := ⟨3, 7, 1, 5, 9⟩

/-- A ready pod of the deployment that a start at time 1000 leads to. -/
def webPod (uid : String) : V1Pod where
  name := "web"
  ns := "team-5-1-7-web-1000"
  uid := uid
  deleting := false
  phase := "Running"
  startTime := some 1000
  containerStatuses := [⟨none, none, true, 0⟩]
  podReadyCondition := true

/-- The start of the challenge for team 5, from the request to the submitted workflow. -/
def deployWeb : List (platform defaultConfig).Move :=
  Service.callNow 0 (DeployCall.startChallenge 9 5 1 7) calm 9 ++
    Service.callNow 1 (DeployCall.start webStart) calm 3 ++
    Service.callNow 2 DeployCall.worker calm 9

end Fctf
