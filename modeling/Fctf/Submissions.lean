import Fctf.FlagCompare
import Fctf.Lib.Pool

/-!
# The Submissions' World

What the requests that submit flags share: the tables `submissions` and `solves`, Redis,
and the tables they only read. The unique indexes of `solves` are part of the insertion.

`AttemptOp` lists every awaited operation of the attempt endpoint and of the admin
endpoints that deal with submissions, `AttemptOp.exec` what one operation answers and does.
An operation may be lost, or its reply; it then raises.

## Main results

* `AttemptOp.exec_redis`, `AttemptOp.exec_submissions`, `AttemptOp.exec_solves`: what each
  operation does to Redis and to the two tables, by cases.
-/

open Concurrent RedisDb

namespace Fctf

/-! ### The shared state -/

/-- The settings of a challenge whose value decays. -/
structure DynamicChallenge where
  /-- The value of the first solve. -/
  initial : Option ℤ
  /-- The least value. -/
  minimum : Option ℤ
  /-- How fast it decays. -/
  decay : Option ℤ
  /-- Does it decay linearly? -/
  linear : Bool
  deriving DecidableEq, Repr

/-- The tables the attempt endpoint reads. -/
structure AttemptTables where
  /-- Users by id. -/
  users : ℤ → Option User
  /-- The challenges of all contests. -/
  contestsChallenges : List ContestsChallenge
  /-- The flags of a bank challenge. -/
  flags : ℤ → List Flag
  /-- The captain of a team. -/
  captainId : ℤ → Option ℤ
  /-- The settings of a bank challenge whose value decays. -/
  dynamicChallenges : ℤ → Option DynamicChallenge

/-- A contest's challenge by id. -/
def AttemptTables.contestsChallenge (tables : AttemptTables) (id : ℤ) :
    Option ContestsChallenge :=
  tables.contestsChallenges.find? fun c => c.id = id

/-- The tables after a challenge was stored, every column of its row. -/
def AttemptTables.store (tables : AttemptTables) (row : ContestsChallenge) : AttemptTables :=
  { tables with
    contestsChallenges := tables.contestsChallenges.map fun c => if c.id = row.id then row else c }

/-- A row to be inserted into `submissions`. -/
structure NewSubmission where
  /-- The contest. -/
  contestId : ℤ
  /-- The challenge in the contest. -/
  contestChallengeId : ℤ
  /-- Who submitted it. -/
  userId : Option ℤ
  /-- For which team. -/
  teamId : ℤ
  /-- The text. -/
  provided : Utf16
  deriving DecidableEq, Repr

/-- The row as it is stored. -/
def NewSubmission.row (s : NewSubmission) (id : ℤ) (type : SubmissionType) (date : ℤ) :
    Submission where
  id := id
  contestId := s.contestId
  contestChallengeId := s.contestChallengeId
  userId := s.userId
  teamId := some s.teamId
  provided := s.provided
  type := type
  date := some date

/-- The solve that goes with a correct submission. -/
def NewSubmission.solf (s : NewSubmission) (id : ℤ) : Solf :=
  ⟨id, s.contestChallengeId, s.userId, some s.teamId⟩

/-- The shared state. -/
structure AttemptWorld where
  /-- Redis. -/
  redis : Db ChallengeDeploymentCacheDTO ℤ
  /-- The table `submissions`. -/
  submissions : List Submission
  /-- The table `solves`. -/
  solves : List Solf
  /-- The id of the next submission. -/
  nextId : ℤ
  /-- The other tables. -/
  tables : AttemptTables

namespace AttemptWorld

/-- How many wrong answers to a challenge are stored for a team. -/
def incorrectCount (w : AttemptWorld) (contestChallengeId teamId : ℤ) : ℕ :=
  w.submissions.countP fun s =>
    s.contestChallengeId = contestChallengeId ∧ s.teamId = some teamId ∧ s.type = .incorrect

/-- How many correct answers to a challenge are stored for a team. -/
def correctCount (w : AttemptWorld) (contestChallengeId teamId : ℤ) : ℕ :=
  w.submissions.countP fun s =>
    s.contestChallengeId = contestChallengeId ∧ s.teamId = some teamId ∧ s.type = .correct

/-- How often a team has a challenge credited. -/
def solveCount (w : AttemptWorld) (contestChallengeId teamId : ℤ) : ℕ :=
  w.solves.countP fun s => s.contestChallengeId = contestChallengeId ∧ s.teamId = some teamId

/-- Has the team solved the challenge? -/
def isSolved (w : AttemptWorld) (contestChallengeId teamId : ℤ) : Bool :=
  w.solves.any fun s => s.contestChallengeId = contestChallengeId ∧ s.teamId = some teamId

/-- The bank challenges behind a team's solves of some challenges. -/
def solvedBankIds (w : AttemptWorld) (contestChallengeIds : List ℤ) (teamId : ℤ) : List ℤ :=
  (w.solves.filter fun s =>
    s.contestChallengeId ∈ contestChallengeIds ∧ s.teamId = some teamId).filterMap fun s =>
      (w.tables.contestsChallenge s.contestChallengeId).bind fun c =>
        c.bankChallenge.map (·.id)

/-- Do the indexes `uq_solves_cc_team` and `uq_solves_cc_user` stand against a solve? -/
def violatesUnique (w : AttemptWorld) (s : NewSubmission) : Bool :=
  w.solves.any fun t =>
    t.contestChallengeId = s.contestChallengeId ∧
      (t.teamId = some s.teamId ∨ t.userId.isSome ∧ t.userId = s.userId)

/-- `SaveChangesAsync` with a correct submission and its solve: both rows or none. -/
def insertSolve (s : NewSubmission) (w : AttemptWorld) : Except Exn Unit × AttemptWorld :=
  if w.violatesUnique s then (.error .duplicateKey, w)
  else
    (.ok (),
      { w with
        submissions := w.submissions ++ [s.row w.nextId .correct w.redis.clock]
        solves := w.solves ++ [s.solf w.nextId]
        nextId := w.nextId + 1 })

/-- `SaveChangesAsync` with a wrong submission. -/
def insertFail (s : NewSubmission) (w : AttemptWorld) : AttemptWorld :=
  { w with
    submissions := w.submissions ++ [s.row w.nextId .incorrect w.redis.clock]
    nextId := w.nextId + 1 }

/-- `SaveChangesAsync` with a challenge marked as modified. -/
def storeChallenge (row : ContestsChallenge) (w : AttemptWorld) : AttemptWorld :=
  { w with tables := w.tables.store row }

end AttemptWorld

/-! ### Operations -/

/-- The awaited operations. -/
inductive AttemptOp where
  | redis (o : RedisOp ChallengeDeploymentCacheDTO)
  | findUser (userId : ℤ)
  | findContestsChallenge (id contestId : ℤ)
  | captainId (teamId : ℤ)
  | contestChallengeIds (contestId : ℤ)
  | solvedBankIds (contestChallengeIds : List ℤ) (teamId : ℤ)
  | allBankIds (contestId : ℤ)
  | isSolved (contestChallengeId teamId : ℤ)
  | countIncorrect (contestChallengeId teamId : ℤ)
  | findFlags (challengeId : ℤ)
  | addSolve (s : NewSubmission)
  | addFail (s : NewSubmission)
  | acquireLock (key : String)
  | releaseLock (key : String)
  | findDynamicChallenge (contestChallengeId : ℤ)
  | getSolveCount (contestChallengeId contestId : ℤ)
  | saveChallenge (row : ContestsChallenge)
  | forceStop (contestChallengeId teamId : ℤ)
  | saveActionLogs (actionType userId contestChallengeId : ℤ)
  | findSubmission (id : ℤ)
  | resetSubmissions

/-- The type of an operation's reply. -/
def AttemptOp.Reply : AttemptOp → Type
  | redis o => o.Reply
  | findUser _ => Option User
  | findContestsChallenge _ _ => Option ContestsChallenge
  | captainId _ => Option ℤ
  | contestChallengeIds _ => List ℤ
  | solvedBankIds _ _ => List ℤ
  | allBankIds _ => List ℤ
  | isSolved _ _ => Bool
  | countIncorrect _ _ => ℤ
  | findFlags _ => List Flag
  | addSolve _ => Unit
  | addFail _ => Unit
  | acquireLock _ => Bool
  | releaseLock _ => Unit
  | findDynamicChallenge _ => Option DynamicChallenge
  | getSolveCount _ _ => ℤ
  | saveChallenge _ => Unit
  | forceStop _ _ => Unit
  | saveActionLogs _ _ _ => Unit
  | findSubmission _ => Option Submission
  | resetSubmissions => Unit

/-- The interface of these endpoints. -/
def attemptI : Interface := ⟨AttemptOp, AttemptOp.Reply⟩

/-- An operation as a program. -/
def query (o : AttemptOp) : Prog attemptI Exn o.Reply :=
  Prog.perform (I := attemptI) o

instance : RedisAccess attemptI ChallengeDeploymentCacheDTO where
  request o := query (.redis o)

/-- What the surroundings choose during one operation. -/
structure AttemptEnv where
  /-- Is it lost, or its reply? -/
  fault : Fault
  /-- What a lost operation raises. -/
  exn : Exn
  /-- Is the lock free? -/
  lockFree : Bool
  deriving DecidableEq, Repr

/-- Read something of the state, unless a fault gets in the way. -/
def AttemptEnv.read {α : Type} (e : AttemptEnv) (f : AttemptWorld → α) (w : AttemptWorld) :
    Except Exn α × AttemptWorld :=
  e.fault.apply e.exn (fun w => (.ok (f w), w)) w

/-- Change the state, unless a fault gets in the way. -/
def AttemptEnv.write (e : AttemptEnv) (f : AttemptWorld → AttemptWorld) (w : AttemptWorld) :
    Except Exn Unit × AttemptWorld :=
  e.fault.apply e.exn (fun w => (.ok (), f w)) w

/-- What one operation answers and does. The query of `GetSolveCount` names `ContestId` of
`Solf`, which is not mapped to a column, so the provider refuses to translate it. -/
def AttemptOp.exec (e : AttemptEnv) :
    (o : AttemptOp) → AttemptWorld → Except Exn o.Reply × AttemptWorld
  | redis o, w =>
      ((o.execFaulty e.fault w.redis).1, { w with redis := (o.execFaulty e.fault w.redis).2 })
  | findUser id, w => e.read (fun w => w.tables.users id) w
  | findContestsChallenge id contestId, w =>
      e.read (fun w =>
        w.tables.contestsChallenges.find? fun c => c.id = id ∧ c.contestId = contestId) w
  | captainId t, w => e.read (fun w => w.tables.captainId t) w
  | contestChallengeIds contestId, w =>
      e.read (fun w =>
        (w.tables.contestsChallenges.filter fun c => c.contestId = contestId).map (·.id)) w
  | solvedBankIds ids t, w => e.read (fun w => w.solvedBankIds ids t) w
  | allBankIds contestId, w =>
      e.read (fun w =>
        (w.tables.contestsChallenges.filter fun c => c.contestId = contestId).filterMap
          fun c => c.bankChallenge.map (·.id)) w
  | isSolved cc t, w => e.read (fun w => w.isSolved cc t) w
  | countIncorrect cc t, w => e.read (fun w => (w.incorrectCount cc t : ℤ)) w
  | findFlags id, w => e.read (fun w => w.tables.flags id) w
  | addSolve s, w => e.fault.apply e.exn (AttemptWorld.insertSolve s) w
  | addFail s, w => e.write (AttemptWorld.insertFail s) w
  | acquireLock _, w => e.read (fun _ => e.lockFree) w
  | releaseLock _, w => e.write id w
  | findDynamicChallenge cc, w =>
      e.read (fun w => (w.tables.contestsChallenge cc).bind fun c =>
        c.bankChallenge.bind fun bank => w.tables.dynamicChallenges bank.id) w
  | getSolveCount _ _, w => e.fault.apply e.exn (fun w => (.error .invalidOperation, w)) w
  | saveChallenge row, w => e.write (AttemptWorld.storeChallenge row) w
  | forceStop _ _, w => e.write id w
  | saveActionLogs _ _ _, w => e.write id w
  | findSubmission id, w => e.read (fun w => w.submissions.find? fun s => s.id = id) w
  | resetSubmissions, w => e.write (fun w => { w with submissions := [], solves := [] }) w

/-! ### What operations leave alone -/

/-- What an operation does to Redis. -/
theorem AttemptOp.exec_redis (e : AttemptEnv) (o : AttemptOp) (w : AttemptWorld) :
    (o.exec e w).2.redis =
      match o with
      | .redis o => (o.execFaulty e.fault w.redis).2
      | _ => w.redis := by
  cases o with
  | addSolve s =>
      simp only [AttemptOp.exec]
      cases e.fault <;> simp only [Fault.apply, AttemptWorld.insertSolve] <;> split <;> rfl
  | redis o => rfl
  | _ => cases hf : e.fault <;>
      simp only [AttemptOp.exec, AttemptEnv.read, AttemptEnv.write, Fault.apply, hf, id,
        AttemptWorld.insertFail, AttemptWorld.storeChallenge]

/-- What an operation does to the table `submissions`. -/
theorem AttemptOp.exec_submissions (e : AttemptEnv) (o : AttemptOp) (w : AttemptWorld) :
    (o.exec e w).2.submissions =
      match o with
      | .addSolve s =>
          if e.fault = .before ∨ w.violatesUnique s = true then w.submissions
          else w.submissions ++ [s.row w.nextId .correct w.redis.clock]
      | .addFail s =>
          if e.fault = .before then w.submissions
          else w.submissions ++ [s.row w.nextId .incorrect w.redis.clock]
      | .resetSubmissions => if e.fault = .before then w.submissions else []
      | _ => w.submissions := by
  cases o with
  | addSolve s =>
      cases hf : e.fault <;> by_cases hv : w.violatesUnique s = true <;>
        simp [AttemptOp.exec, Fault.apply, AttemptWorld.insertSolve, hf, hv]
  | redis o => rfl
  | _ => cases hf : e.fault <;>
      simp [AttemptOp.exec, AttemptEnv.read, AttemptEnv.write, Fault.apply, hf,
        AttemptWorld.insertFail, AttemptWorld.storeChallenge]

/-- What an operation does to the table `solves`. -/
theorem AttemptOp.exec_solves (e : AttemptEnv) (o : AttemptOp) (w : AttemptWorld) :
    (o.exec e w).2.solves =
      match o with
      | .addSolve s =>
          if e.fault = .before ∨ w.violatesUnique s = true then w.solves
          else w.solves ++ [s.solf w.nextId]
      | .resetSubmissions => if e.fault = .before then w.solves else []
      | _ => w.solves := by
  cases o with
  | addSolve s =>
      cases hf : e.fault <;> by_cases hv : w.violatesUnique s = true <;>
        simp [AttemptOp.exec, Fault.apply, AttemptWorld.insertSolve, hf, hv]
  | redis o => rfl
  | _ => cases hf : e.fault <;>
      simp [AttemptOp.exec, AttemptEnv.read, AttemptEnv.write, Fault.apply, hf,
        AttemptWorld.insertFail, AttemptWorld.storeChallenge]

/-- An operation writes no table but these two, except for the row of a challenge. -/
theorem AttemptOp.exec_tables (e : AttemptEnv) (o : AttemptOp) (w : AttemptWorld)
    (h : ∀ row, o ≠ .saveChallenge row) : (o.exec e w).2.tables = w.tables := by
  cases o with
  | addSolve s =>
      cases hf : e.fault <;> by_cases hv : w.violatesUnique s = true <;>
        simp [AttemptOp.exec, Fault.apply, AttemptWorld.insertSolve, hf, hv]
  | redis o => rfl
  | saveChallenge row => exact absurd rfl (h row)
  | _ => cases hf : e.fault <;>
      simp [AttemptOp.exec, AttemptEnv.read, AttemptEnv.write, Fault.apply, hf,
        AttemptWorld.insertFail]

end Fctf
