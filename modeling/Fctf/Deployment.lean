import Fctf.Entities
import Fctf.Lib.Pool
import Fctf.RedisHelper
import Mathlib.Data.List.Basic

/-!
# The Deployment Services' World

What the services around a challenge deployment share: Redis, the start-tracking table,
the queue between the deployment center and its worker, and the tables they only read.
Kubernetes, Argo and the HTTP endpoints answer what the surroundings choose.

`DeployOp` lists every awaited operation of these services, `DeployOp.exec` what one
operation answers and does. An operation may be lost, or its reply; it then raises.

## Main results

* `DeployOp.exec_redis`, `DeployOp.exec_trackings`: what each operation does to Redis and
  to the start-tracking table, by cases.
-/

open Concurrent RedisDb

namespace Fctf

/-! ### Kubernetes and Argo -/

/-- `Enums.WorkflowPhase`. -/
inductive WorkflowPhase where
  | pending
  | waiting
  | running
  | succeeded
  | failed
  | error
  | terminating
  | terminated
  | skipped
  | unknown
  deriving DecidableEq, Repr

/-- The kinds of watch events. -/
inductive WatchEventType where
  | added
  | modified
  | deleted
  | error
  | bookmark
  deriving DecidableEq, Repr

/-- The status of a container. `waiting` and `terminated` hold the reason, which may be
missing. -/
structure V1ContainerStatus where
  /-- Is it waiting, and why? -/
  waiting : Option (Option String)
  /-- Is it terminated, and why? -/
  terminated : Option (Option String)
  /-- Is it ready? -/
  ready : Bool
  /-- How often it was restarted. -/
  restartCount : ℤ
  deriving DecidableEq, Repr

/-- A pod, as far as the services look at it. -/
structure V1Pod where
  /-- Its name. -/
  name : String
  /-- Its namespace. -/
  ns : String
  /-- Its uid. -/
  uid : String
  /-- Has it a deletion timestamp? -/
  deleting : Bool
  /-- Its phase. -/
  phase : String
  /-- When it started. -/
  startTime : Option ℤ
  /-- Its containers. -/
  containerStatuses : List V1ContainerStatus
  /-- Has it the condition `Ready` with status `True`? -/
  podReadyCondition : Bool
  deriving DecidableEq, Repr

/-- Argo's response to a submission. -/
inductive ArgoResponse where
  | none
  | empty
  | malformed
  | named (workflowName : String)
  deriving DecidableEq, Repr

/-! ### The shared state -/

/-- A message in the deployment queue. -/
structure DequeuedMessage where
  /-- The delivery tag. -/
  deliveryTag : ℕ
  /-- The request. -/
  data : ChallengeStartStopReqDTO
  /-- When it is too old. -/
  expiry : ℤ
  deriving DecidableEq, Repr

/-- The tables these services read and never write. -/
structure Tables where
  /-- Users by id. -/
  users : ℤ → Option User
  /-- Contest challenges by id. -/
  contestsChallenges : ℤ → Option ContestsChallenge
  /-- The captain of a team. -/
  captainId : ℤ → Option ℤ
  /-- Incorrect submissions to a challenge by a team. -/
  incorrectCount : ℤ → ℤ → ℤ
  /-- Has the team solved the challenge? -/
  solved : ℤ → ℤ → Bool
  /-- Bank challenges a team has solved in a contest. -/
  solvedBankIds : ℤ → ℤ → List ℤ
  /-- Bank challenges used in a contest. -/
  allBankIds : ℤ → List ℤ

/-- The shared state. -/
structure World where
  /-- Redis. -/
  redis : Db ChallengeDeploymentCacheDTO ℤ
  /-- The table `ChallengeStartTrackings`. -/
  challengeStartTrackings : List ChallengeStartTracking
  /-- The deployment queue, oldest message first. -/
  queue : List DequeuedMessage
  /-- The tag of the next message. -/
  nextTag : ℕ
  /-- The other tables. -/
  tables : Tables

/-- How many rows a challenge and a team have. -/
def World.startCount (w : World) (contestChallengeId teamId : ℤ) : ℕ :=
  w.challengeStartTrackings.countP fun d =>
    d.contestChallengeId = contestChallengeId ∧ d.teamId = teamId

/-- Take up to `count` messages that are not too old; those too old are dropped. -/
def takeBatch (now : ℤ) : ℕ → List DequeuedMessage → List DequeuedMessage × List DequeuedMessage
  | 0, queue => ([], queue)
  | _, [] => ([], [])
  | count + 1, msg :: queue =>
      if msg.expiry < now then takeBatch now (count + 1) queue
      else
        let (batch, rest) := takeBatch now count queue
        (msg :: batch, rest)

/-! ### Operations -/

/-- The awaited operations. -/
inductive DeployOp where
  | redis (o : RedisOp ChallengeDeploymentCacheDTO)
  | findUser (userId : ℤ)
  | findContestsChallenge (id : ℤ)
  | solvedBankIds (contestId teamId : ℤ)
  | allBankIds (contestId : ℤ)
  | countIncorrect (contestChallengeId teamId : ℤ)
  | countStartTrackings (contestChallengeId teamId : ℤ)
  | isSolved (contestChallengeId teamId : ℤ)
  | captainId (teamId : ℤ)
  | addStartTracking (row : ChallengeStartTracking)
  | findOpenTracking (label : String)
  | stopTracking (row : ℕ) (stoppedAt : ℤ)
  | saveActionLogs (userId contestChallengeId : ℤ)
  | postStart (req : ChallengeStartStopReqDTO)
  | enqueue (req : ChallengeStartStopReqDTO) (expirySeconds : ℤ)
  | countRunningWorkflows
  | dequeue (count : ℕ)
  | ack (deliveryTag : ℕ)
  | nack (deliveryTag : ℕ)
  | submitWorkflow (appName : String) (req : ChallengeStartStopReqDTO)
  | workflowStatus (workflowName : String)
  | deleteNamespace (ns : String)
  | listPods
  | statusChanged (teamId contestChallengeId userId : ℤ) (status : DeploymentStatus)
      (challengeUrl : Option String)

/-- The type of an operation's reply. -/
def DeployOp.Reply : DeployOp → Type
  | redis o => o.Reply
  | findUser _ => Option User
  | findContestsChallenge _ => Option ContestsChallenge
  | solvedBankIds _ _ => List ℤ
  | allBankIds _ => List ℤ
  | countIncorrect _ _ => ℤ
  | countStartTrackings _ _ => ℤ
  | isSolved _ _ => Bool
  | captainId _ => Option ℤ
  | addStartTracking _ => Unit
  | findOpenTracking _ => Option ℕ
  | stopTracking _ _ => Unit
  | saveActionLogs _ _ => Unit
  | postStart _ => Option ChallengeDeployResponeDTO
  | enqueue _ _ => Unit
  | countRunningWorkflows => ℕ
  | dequeue _ => List DequeuedMessage
  | ack _ => Unit
  | nack _ => Unit
  | submitWorkflow _ _ => ArgoResponse
  | workflowStatus _ => WorkflowPhase
  | deleteNamespace _ => Unit
  | listPods => List V1Pod
  | statusChanged _ _ _ _ _ => Unit

/-- The interface of the deployment services. -/
def deployI : Interface := ⟨DeployOp, DeployOp.Reply⟩

/-- An operation as a program. -/
def issue (o : DeployOp) : Prog deployI Exn o.Reply :=
  Prog.perform (I := deployI) o

instance : RedisAccess deployI ChallengeDeploymentCacheDTO where
  request o := issue (.redis o)

/-- What the surroundings choose during one operation. -/
structure DeployEnv where
  /-- Is it lost, or its reply? -/
  fault : Fault
  /-- What a lost operation raises. -/
  exn : Exn
  /-- The response of the start endpoint. -/
  started : Option ChallengeDeployResponeDTO
  /-- How many workflows Argo is running. -/
  runningWorkflows : ℕ
  /-- Argo's response. -/
  argo : ArgoResponse
  /-- A workflow's phase. -/
  phase : WorkflowPhase
  /-- The pods of the cluster. -/
  pods : List V1Pod

/-- Read something of the state, unless a fault gets in the way. -/
def DeployEnv.read {α : Type} (e : DeployEnv) (f : World → α) (w : World) :
    Except Exn α × World :=
  e.fault.apply e.exn (fun w => (.ok (f w), w)) w

/-- Change the state, unless a fault gets in the way. -/
def DeployEnv.write (e : DeployEnv) (f : World → World) (w : World) :
    Except Exn Unit × World :=
  e.fault.apply e.exn (fun w => (.ok (), f w)) w

/-- What one operation answers and does. -/
def DeployOp.exec (e : DeployEnv) : (o : DeployOp) → World → Except Exn o.Reply × World
  | redis o, w =>
      ((o.execFaulty e.fault w.redis).1, { w with redis := (o.execFaulty e.fault w.redis).2 })
  | findUser id, w => e.read (fun w => w.tables.users id) w
  | findContestsChallenge id, w => e.read (fun w => w.tables.contestsChallenges id) w
  | solvedBankIds c t, w => e.read (fun w => w.tables.solvedBankIds c t) w
  | allBankIds c, w => e.read (fun w => w.tables.allBankIds c) w
  | countIncorrect cc t, w => e.read (fun w => w.tables.incorrectCount cc t) w
  | countStartTrackings cc t, w => e.read (fun w => (w.startCount cc t : ℤ)) w
  | isSolved cc t, w => e.read (fun w => w.tables.solved cc t) w
  | captainId t, w => e.read (fun w => w.tables.captainId t) w
  | addStartTracking row, w =>
      e.write (fun w =>
        { w with challengeStartTrackings := w.challengeStartTrackings ++ [row] }) w
  | findOpenTracking label, w =>
      e.read (fun w => w.challengeStartTrackings.findIdx? fun ct =>
        ct.label = label ∧ ct.stoppedAt.isNone) w
  | stopTracking i t, w =>
      e.write (fun w =>
        { w with
          challengeStartTrackings :=
            w.challengeStartTrackings.modify i fun ct => { ct with stoppedAt := some t } }) w
  | saveActionLogs _ _, w => e.write id w
  | postStart _, w => e.read (fun _ => e.started) w
  | enqueue req expirySeconds, w =>
      e.write (fun w =>
        { w with
          queue := w.queue ++ [⟨w.nextTag, req, w.redis.clock + expirySeconds⟩]
          nextTag := w.nextTag + 1 }) w
  | countRunningWorkflows, w => e.read (fun _ => e.runningWorkflows) w
  | dequeue count, w =>
      e.fault.apply e.exn
        (fun w => (.ok (takeBatch w.redis.clock count w.queue).1,
          { w with queue := (takeBatch w.redis.clock count w.queue).2 })) w
  | ack _, w => e.write id w
  | nack _, w => e.write id w
  | submitWorkflow _ _, w => e.read (fun _ => e.argo) w
  | workflowStatus _, w => e.read (fun _ => e.phase) w
  | deleteNamespace _, w => e.write id w
  | listPods, w => e.read (fun _ => e.pods) w
  | statusChanged _ _ _ _ _, w => e.write id w

/-! ### What operations leave alone -/

/-- What an operation does to Redis. -/
theorem DeployOp.exec_redis (e : DeployEnv) (o : DeployOp) (w : World) :
    (o.exec e w).2.redis =
      match o with
      | .redis o => (o.execFaulty e.fault w.redis).2
      | _ => w.redis := by
  cases hf : e.fault <;> cases o <;>
    simp only [DeployOp.exec, DeployEnv.read, DeployEnv.write, Fault.apply, hf, id]

/-- What an operation does to the start-tracking table. -/
theorem DeployOp.exec_trackings (e : DeployEnv) (o : DeployOp) (w : World) :
    (o.exec e w).2.challengeStartTrackings =
      match o with
      | .addStartTracking row =>
          if e.fault = .before then w.challengeStartTrackings
          else w.challengeStartTrackings ++ [row]
      | .stopTracking i t =>
          if e.fault = .before then w.challengeStartTrackings
          else w.challengeStartTrackings.modify i fun ct => { ct with stoppedAt := some t }
      | _ => w.challengeStartTrackings := by
  cases hf : e.fault <;> cases o <;>
    simp [DeployOp.exec, DeployEnv.read, DeployEnv.write, Fault.apply, hf]

/-- A count of rows by something other than their end: only an insertion changes it. -/
theorem DeployOp.countP_trackings_exec (e : DeployEnv) (o : DeployOp) (w : World)
    (p : ChallengeStartTracking → Bool)
    (hp : ∀ ct t, p { ct with stoppedAt := some t } = p ct) :
    (o.exec e w).2.challengeStartTrackings.countP p =
      match o with
      | .addStartTracking row =>
          if e.fault ≠ .before ∧ p row = true then w.challengeStartTrackings.countP p + 1
          else w.challengeStartTrackings.countP p
      | _ => w.challengeStartTrackings.countP p := by
  have hmodify : ∀ (l : List ChallengeStartTracking) i t,
      (l.modify i fun ct => { ct with stoppedAt := some t }).countP p = l.countP p := by
    intro l
    induction l with
    | nil => exact fun i t => by rw [List.modify_nil]
    | cons ct l ih =>
        rintro (_ | i) t
        · rw [List.modify_zero_cons, List.countP_cons, List.countP_cons, hp]
        · rw [List.modify_succ_cons, List.countP_cons, List.countP_cons, ih]
  rw [DeployOp.exec_trackings]
  cases o with
  | addStartTracking row =>
      by_cases hf : e.fault = .before
      · simp [hf]
      · by_cases hr : p row = true <;> simp [hf, hr]
  | stopTracking i t =>
      by_cases hf : e.fault = .before
      · simp [hf]
      · simp [hf, hmodify]
  | _ => rfl

/-- No operation writes the other tables. -/
theorem DeployOp.exec_tables (e : DeployEnv) (o : DeployOp) (w : World) :
    (o.exec e w).2.tables = w.tables := by
  cases hf : e.fault <;> cases o <;>
    simp [DeployOp.exec, DeployEnv.read, DeployEnv.write, Fault.apply, hf]

/-- Operations take no time. -/
theorem DeployOp.exec_clock (e : DeployEnv) (o : DeployOp) (w : World) :
    (o.exec e w).2.redis.clock = w.redis.clock := by
  rw [DeployOp.exec_redis]
  cases o with
  | redis o => exact RedisOp.clock_execFaulty _ _ _
  | _ => rfl

/-- A reading of the clock is not ahead of the time. -/
def DeployOp.HonestClock (now : ℤ) : (o : DeployOp) → Except Exn o.Reply → Prop
  | .redis o, r => o.HonestClock now r
  | _, _ => True

/-- The clock is honest. -/
theorem DeployOp.honestClock_exec (e : DeployEnv) (o : DeployOp) (w : World) :
    o.HonestClock w.redis.clock (o.exec e w).1 := by
  cases o with
  | redis o => exact RedisOp.honestClock_execFaulty _ _ _
  | _ => trivial

/-! ### Operations of programs -/

section Throughout

variable {φ : DeployOp → Prop}

theorem throughout_issue {o : DeployOp} (h : φ o) : (issue o).Throughout φ :=
  ⟨h, fun _ => trivial⟩

theorem throughout_utcNow (h : φ (.redis .utcNow)) :
    (utcNow : Prog deployI Exn ℤ).Throughout φ :=
  throughout_issue h

theorem throughout_get {key : String} (h : φ (.redis (.get key))) :
    (getFromCacheAsync key : Prog deployI Exn _).Throughout φ :=
  .handle (throughout_issue h) fun _ => trivial

theorem throughout_removeCache {key : String} (h : φ (.redis (.del key))) :
    (removeCacheAsync key : Prog deployI Exn _).Throughout φ :=
  .handle (throughout_issue h) fun _ => trivial

end Throughout

/-! ### Configuration -/

/-- The configuration values the services read, and the two text functions whose inner
workings are of no account here. -/
structure DeployConfig where
  /-- `limit_challenges`. -/
  limitChallenges : ℤ
  /-- `captain_only_start_challenge`. -/
  captainOnlyStart : Bool
  /-- `DEPLOYMENT_QUEUE_TIMEOUT_MINUTES`. -/
  queueTimeoutMinutes : ℤ
  /-- `ARGO_DEPLOY_TTL_MINUTES`. -/
  argoDeployTtlMinutes : ℤ
  /-- `MAX_RUNNING_WORKFLOW`. -/
  maxRunningWorkflow : ℕ
  /-- `BATCH_SIZE`. -/
  batchSize : ℕ
  /-- `ChallengeHelper.ParseAlphaNumeric`. -/
  parseAlphaNumeric : String → String
  /-- `ChallengeHelper.GenerateChallengeToken`. -/
  generateChallengeToken : String → ℤ → String

end Fctf
