import Fctf.Submissions

/-!
# Submitting a Flag

`ChallengeController.Attempt` of the contestants' backend: the checks, the comparison with
the flags, the credit of a solve with the recalculation of a decaying value, and the
counters and the row of a wrong answer.

The admin endpoints for single submissions and the reset of the platform are here too, as
far as they touch the same tables.
-/

open Concurrent RedisDb

namespace Fctf

/-! ### Configuration and data -/

/-- The configuration values the endpoint reads, the runtime, and what the model leaves
open: how often the lock is tried before the request is given up, and the decay that is
computed in floating point. -/
structure AttemptConfig where
  /-- `paused`. -/
  paused : Bool
  /-- `ctf_name`. -/
  ctfName : String
  /-- Is `user_mode` the mode of single users? -/
  isUserMode : Bool
  /-- `captain_only_submit_challenge`. -/
  captainOnlySubmit : Bool
  /-- `incorrect_submissions_per_min`. -/
  incorrectSubmissionsPerMin : ℤ
  /-- The runtime. -/
  runtime : Runtime
  /-- How often the lock is tried again. -/
  lockRetries : ℕ
  /-- `Logarithmic`. -/
  logarithmic : DynamicChallenge → ℤ → ℤ

/-- A request with the claims of its token. -/
structure ChallengeAttemptRequest where
  /-- The user. -/
  userId : ℤ
  /-- The team, 0 if there is none. -/
  teamId : ℤ
  /-- The contest. -/
  contestId : ℤ
  /-- The challenge in the contest. -/
  challengeId : ℤ
  /-- The text. -/
  submission : Option Utf16
  deriving DecidableEq, Repr

/-- The `status` of an answer. -/
inductive AttemptStatus where
  | paused
  | invalid
  | forbidden
  | ratelimited
  | alreadySolved
  | incorrect
  | correct
  deriving DecidableEq, Repr

/-- The `data` of an answer. -/
structure AttemptData where
  /-- The status. -/
  status : AttemptStatus
  /-- The text for the user. -/
  message : String
  /-- Seconds to wait. -/
  cooldown : Option ℤ
  /-- The points. -/
  value : Option ℤ
  deriving DecidableEq, Repr

/-- An answer. -/
structure AttemptResponse where
  /-- The HTTP status. -/
  httpStatus : ℕ
  /-- The field `success`. -/
  success : Option Bool
  /-- The field `data`. -/
  data : Option AttemptData
  /-- The field `error`, or the `message` beside `success`. -/
  error : Option String
  deriving DecidableEq, Repr

namespace AttemptResponse

/-- An answer without a body: `Forbid()`, `NotFound()`. -/
def empty (httpStatus : ℕ) : AttemptResponse := ⟨httpStatus, none, none, none⟩

/-- An answer with a status and a text. -/
def plain (httpStatus : ℕ) (success : Bool) (status : AttemptStatus) (message : String) :
    AttemptResponse :=
  ⟨httpStatus, some success, some ⟨status, message, none, none⟩, none⟩

/-- The same with seconds to wait. -/
def wait (httpStatus : ℕ) (status : AttemptStatus) (message : String) (cooldown : ℤ) :
    AttemptResponse :=
  ⟨httpStatus, some true, some ⟨status, message, some cooldown, none⟩, none⟩

/-- The answer to a team that has solved the challenge. -/
def alreadySolved : AttemptResponse :=
  plain 200 true .alreadySolved "You or your teammate already solved this"

/-- The answer to a team without tries. -/
def noTries : AttemptResponse :=
  plain 400 true .incorrect "You have 0 tries remaining"

/-- The answer to a solve that could not be stored. -/
def notRecorded : AttemptResponse :=
  ⟨500, some false, none, some "Failed to record submission. Please try again."⟩

/-- The status told in an answer. -/
def status (r : AttemptResponse) : Option AttemptStatus := r.data.map (·.status)

end AttemptResponse

/-! ### The checks -/

/-- May this member submit flags? -/
def captainMaySubmit (cfg : AttemptConfig) (teamId userId : ℤ) : Prog attemptI Exn Bool :=
  if cfg.captainOnlySubmit && decide (0 < teamId) then do
    let captainId : Option ℤ ← query (.captainId teamId)
    match captainId with
    | none => pure true
    | some captainId => pure (decide (captainId = userId))
  else pure true

/-- The seconds left of the cooldown, which starts anew if it is over. -/
def remainingCooldown (cc : ContestsChallenge) (contestId teamId : ℤ) :
    Prog attemptI Exn (Option ℤ) :=
  let cooldownSeconds := cc.cooldown.getD 0
  if 0 < cooldownSeconds then do
    let nowSeconds ← utcNow
    let cooldownCheck ← checkAndUpdateCooldownAsync (cooldownKey contestId cc.id teamId)
      nowSeconds cooldownSeconds 600
    if 0 ≤ cooldownCheck ∧ nowSeconds - cooldownCheck < cooldownSeconds then
      pure (some (cooldownSeconds - (nowSeconds - cooldownCheck)))
    else pure none
  else pure none

/-- The text to compare. -/
def ChallengeAttemptRequest.submitted (req : ChallengeAttemptRequest) : Utf16 :=
  (req.submission.map Utf16.trim).getD []

/-- Everything checked before the challenge's state: the refusal, if there is one. -/
def requestChecks (cfg : AttemptConfig) (req : ChallengeAttemptRequest)
    (cc : ContestsChallenge) : Prog attemptI Exn (Option AttemptResponse) := do
  if cfg.paused then
    return some (.plain 403 true .paused (cfg.ctfName ++ " is paused"))
  if !cfg.isUserMode && decide (req.teamId = 0) then return some (.empty 403)
  if req.submitted.isEmpty then
    return some (.plain 400 false .invalid "Submission cannot be empty")
  if 1000 < req.submitted.length then
    return some (.plain 400 false .invalid
      "Submission exceeds maximum length of 1000 characters")
  if !(← captainMaySubmit cfg req.teamId req.userId) then
    return some (.plain 403 false .forbidden
      "Only the team captain has permission to submit flags for challenges.")
  match ← remainingCooldown cc req.contestId req.teamId with
  | some remainingCooldown =>
      return some (.wait 429 .ratelimited
        ("Please wait " ++ toString remainingCooldown ++ " seconds before submitting again.")
        remainingCooldown)
  | none => return none

/-- The prerequisite check; an exception inside it lets the request pass. -/
def prerequisitesSolved (bank : Challenge) (contestId teamId : ℤ) :
    Prog attemptI Exn Bool :=
  match bank.prerequisites with
  | none => pure true
  | some prerequisites =>
      if prerequisites.isEmpty then pure true
      else
        try
          let contestChallengeIds : List ℤ ← query (.contestChallengeIds contestId)
          let solvedBankIds : List ℤ ← query (.solvedBankIds contestChallengeIds teamId)
          let allBankIds : List ℤ ← query (.allBankIds contestId)
          let prereqs := prerequisites.filter (· ∈ allBankIds)
          pure (prereqs.all (· ∈ solvedBankIds))
        catch _ => pure true

/-- `MaxAttempts`, if it is a limit. -/
def attemptLimit (cc : ContestsChallenge) : Option ℤ := cc.maxAttempts.filter (0 < ·)

/-- Everything checked between the request and the comparison. -/
def challengeChecks (cc : ContestsChallenge) (bank : Challenge) (contestId teamId : ℤ) :
    Prog attemptI Exn (Option AttemptResponse) := do
  if cc.state = .hidden then return some (.empty 404)
  if cc.state = .locked then return some (.empty 403)
  if !(← prerequisitesSolved bank contestId teamId) then
    return some ⟨403, some false, none, some "You don't have the permission to access this challenge. Complete the required challenges first."⟩
  let solvePreCheck : Bool ← query (.isSolved cc.id teamId)
  if solvePreCheck then return some .alreadySolved
  match attemptLimit cc with
  | none => return none
  | some maxAttempts =>
      let currentFailsPreCheck : ℤ ← query (.countIncorrect cc.id teamId)
      if maxAttempts ≤ currentFailsPreCheck then return some .noTries
      return none

/-- `ChallengeHelper.Attempt`: load the flags and compare. -/
def compareFlags (cfg : AttemptConfig) (bank : Challenge) (submission : Utf16) :
    Prog attemptI Exn AttemptDTO := do
  let flags : List Flag ← query (.findFlags bank.id)
  match ChallengeHelper.attempt cfg.runtime submission flags with
  | .ok attempt => pure attempt
  | .error e => throw e

/-! ### After the answer is stored -/

/-- Stop the deployment, if there is one; a failure is only logged. -/
def stopDeployment (cc : ContestsChallenge) (contestId teamId : ℤ) :
    Prog attemptI Exn Unit := do
  if cc.requireDeploy then
    let deployed ← keyExistsAsync (getCacheKey contestId cc.id teamId)
    if deployed then
      try query (.forceStop cc.id teamId) catch _ => pure ()

/-- Write the action log; a failure is only logged. -/
def logAction (actionType : ℤ) (cc : ContestsChallenge) (userId : ℤ) :
    Prog attemptI Exn Unit :=
  try query (.saveActionLogs actionType userId cc.id) catch _ => pure ()

/-! ### Decaying values -/

/-- What an `int` holds after an overflow. -/
def int32 (value : ℤ) : ℤ := value.bmod (2 ^ 32)

/-- `Linear`. -/
def linear (dynamicChallenge : DynamicChallenge) (solveCount : ℤ) : ℤ :=
  let solveCount := if solveCount ≠ 0 then solveCount - 1 else solveCount
  let value := int32
    (dynamicChallenge.initial.getD 0 - int32 (dynamicChallenge.decay.getD 0 * solveCount))
  match dynamicChallenge.minimum with
  | none => value
  | some minimum => if value < minimum then minimum else value

/-- The value after so many solves. -/
def DynamicChallenge.decayed (dynamicChallenge : DynamicChallenge) (cfg : AttemptConfig)
    (solveCount : ℤ) : ℤ :=
  if dynamicChallenge.linear then Fctf.linear dynamicChallenge solveCount
  else cfg.logarithmic dynamicChallenge solveCount

/-- The key of the lock of a challenge's recalculation. -/
def recalculationKey (contestId contestChallengeId : ℤ) : String :=
  "challenge:dynamic:recalc:" ++ toString contestId ++ ":" ++ toString contestChallengeId

/-- Wait for the lock. A request that never gets it is given up at last. -/
def awaitLock (lockKey : String) (moreTries : ℕ) : Prog attemptI Exn Unit := do
  let lockAcquired : Bool ← query (.acquireLock lockKey)
  if lockAcquired then pure ()
  else
    match moreTries with
    | 0 => throw .canceled
    | moreTries + 1 => awaitLock lockKey moreTries

/-- The body of the recalculation, under the lock: the new value, if there is one. The
context tracks the row `cc` since the request has loaded it, so what is stored with the new
value is that row. -/
def newValue (cfg : AttemptConfig) (cc : ContestsChallenge) (contestId : ℤ) :
    Prog attemptI Exn (Option ℤ) := do
  let dynamicChallenge : Option DynamicChallenge ← query (.findDynamicChallenge cc.id)
  match dynamicChallenge with
  | none => pure none
  | some dynamicChallenge =>
      let solveCount : ℤ ← query (.getSolveCount cc.id contestId)
      let newValue := dynamicChallenge.decayed cfg solveCount
      query (.saveChallenge { cc with value := some newValue })
      pure (some newValue)

/-- `DynamicChallengeHelper.RecalculateDynamicChallengeValue`. Whatever it raises it raises
to its caller, after giving the lock back. -/
def recalculateDynamicChallengeValue (cfg : AttemptConfig) (cc : ContestsChallenge)
    (contestId : ℤ) : Prog attemptI Exn (Option ℤ) := do
  let lockKey := recalculationKey contestId cc.id
  awaitLock lockKey cfg.lockRetries
  let value ←
    try newValue cfg cc contestId
    catch e =>
      query (.releaseLock lockKey)
      throw e
  query (.releaseLock lockKey)
  pure value

/-! ### The two outcomes -/

/-- The row of a submission. -/
def ChallengeAttemptRequest.row (req : ChallengeAttemptRequest) (cc : ContestsChallenge)
    (user : Option User) : NewSubmission :=
  ⟨req.contestId, cc.id, user.map (·.id), req.teamId, req.submitted⟩

/-- Store a correct answer: the refusal if that fails. -/
def saveSolve (s : NewSubmission) : Prog attemptI Exn (Option AttemptResponse) :=
  try
    query (.addSolve s)
    pure none
  catch
    | .duplicateKey => pure (some .alreadySolved)
    | _ => pure (some .notRecorded)

/-- The new value of the challenge, if it decays. -/
def recalculated (cfg : AttemptConfig) (cc : ContestsChallenge) (bank : Challenge)
    (contestId : ℤ) : Prog attemptI Exn (Option ℤ) :=
  if bank.dynamic then recalculateDynamicChallengeValue cfg cc contestId else pure none

/-- What is done and answered once the solve is stored. -/
def answerSolve (cfg : AttemptConfig) (req : ChallengeAttemptRequest)
    (cc : ContestsChallenge) (bank : Challenge) (user : Option User) (attempt : AttemptDTO) :
    Prog attemptI Exn AttemptResponse := do
  let newValue ← recalculated cfg cc bank req.contestId
  stopDeployment cc req.contestId req.teamId
  logAction 3 cc ((user.map (·.id)).getD req.userId)
  return ⟨200, some true, some ⟨.correct, attempt.message, none, newValue.or cc.value⟩, none⟩

/-- The correct branch. -/
def creditSolve (cfg : AttemptConfig) (req : ChallengeAttemptRequest)
    (cc : ContestsChallenge) (bank : Challenge) (user : Option User) (attempt : AttemptDTO) :
    Prog attemptI Exn AttemptResponse := do
  let solveCheck : Bool ← query (.isSolved cc.id req.teamId)
  if solveCheck then return .alreadySolved
  match ← saveSolve (req.row cc user) with
  | some refusal => return refusal
  | none => answerSolve cfg req cc bank user attempt

/-- Give a minute's counter a time to live, if it has none. -/
def keepForMinute (kpmWithMinuteKey : String) : Prog attemptI Exn Unit := do
  let ttl : Option ℤ ← query (.redis (.timeToLive kpmWithMinuteKey))
  if ttl.all (· < 0) then
    let _ : Bool ← query (.redis (.expire kpmWithMinuteKey 90))

/-- `CheckAndIncrementKpmAsync`. -/
def checkAndIncrementKpmAsync (userId limit : ℤ) : Prog attemptI Exn (Bool × ℤ) := do
  if limit ≤ 0 then return (false, 0)
  let now ← utcNow
  let kpmWithMinuteKey := kpmKey userId (now / 60)
  let newCount : ℤ ← query (.redis (.incr kpmWithMinuteKey))
  keepForMinute kpmWithMinuteKey
  return (decide (limit < newCount), newCount)

/-- The attempts counted against the limit after this one; `none` if it was used up. -/
def countAttempt (cc : ContestsChallenge) (contestId teamId maxAttempts : ℤ) :
    Prog attemptI Exn (Option ℤ) := do
  let smartSyncThreshold := maxAttempts * 3 / 2
  let actualDbCount : ℤ ← query (.countIncorrect cc.id teamId)
  let result ← checkAndIncrementAttemptsAsync (attemptKey contestId cc.id teamId)
    maxAttempts smartSyncThreshold actualDbCount
  if (show ℤ from result) = -1 then return none
  return some result

/-- A sentence, ended by a period if it has no end. -/
def punctuated (message : String) : String :=
  match message.toList.getLast? with
  | none => message
  | some c => if c ∈ "!().;?[]\x7b\x7d".toList then message else message ++ "."

/-- The answer to a wrong answer that was stored. -/
def triesLeft (cc : ContestsChallenge) (attempt : AttemptDTO) (maxAttempts fails : ℤ) :
    AttemptResponse :=
  let attemptsLeft := maxAttempts - fails
  let triesStr := if attemptsLeft = 1 then "try" else "tries"
  .wait 200 .incorrect
    (punctuated attempt.message ++ " You have " ++ toString attemptsLeft ++ " " ++ triesStr ++
      " remaining.")
    (cc.cooldown.getD 0)

/-- Count a wrong answer against the limit, if there is one. Without a limit the count is
of no account. -/
def countedFails (req : ChallengeAttemptRequest) (cc : ContestsChallenge) :
    Prog attemptI Exn (Option ℤ) :=
  match attemptLimit cc with
  | none => pure (some 0)
  | some maxAttempts => countAttempt cc req.contestId req.teamId maxAttempts

/-- Count a wrong answer and store it: the attempts counted, or `none` if they were used
up. -/
def saveFail (req : ChallengeAttemptRequest) (cc : ContestsChallenge) (user : Option User) :
    Prog attemptI Exn (Option ℤ) := do
  match ← countedFails req cc with
  | none => return none
  | some fails =>
      query (.addFail (req.row cc user))
      return some fails

/-- Stop the deployment of a team that has used up its tries. -/
def stopIfUsedUp (req : ChallengeAttemptRequest) (cc : ContestsChallenge)
    (attemptsLeft : ℤ) : Prog attemptI Exn Unit :=
  if attemptsLeft ≤ 0 then stopDeployment cc req.contestId req.teamId else pure ()

/-- What is done and answered once a wrong answer is stored. -/
def answerFail (req : ChallengeAttemptRequest) (cc : ContestsChallenge) (user : Option User)
    (attempt : AttemptDTO) (fails : ℤ) : Prog attemptI Exn AttemptResponse := do
  logAction 4 cc ((user.map (·.id)).getD req.userId)
  match attemptLimit cc with
  | none => return .wait 200 .incorrect attempt.message (cc.cooldown.getD 0)
  | some maxAttempts =>
      stopIfUsedUp req cc (maxAttempts - fails)
      return triesLeft cc attempt maxAttempts fails

/-- The incorrect branch. -/
def recordFail (cfg : AttemptConfig) (req : ChallengeAttemptRequest) (cc : ContestsChallenge)
    (user : Option User) (attempt : AttemptDTO) : Prog attemptI Exn AttemptResponse := do
  let kpmLimit := cfg.incorrectSubmissionsPerMin
  let (kpmExceeded, kpmCount) ← checkAndIncrementKpmAsync req.userId kpmLimit
  if kpmExceeded then
    return .wait 429 .ratelimited
      ("You're submitting flags too fast. Slow down. (" ++ toString kpmCount ++ "/" ++
        toString kpmLimit ++ " attempts in last minute)") 0
  match ← saveFail req cc user with
  | none => return .noTries
  | some fails => answerFail req cc user attempt fails

/-! ### The endpoint -/

/-- `ChallengeController.Attempt`, once the challenge is found. -/
def attemptChallenge (cfg : AttemptConfig) (req : ChallengeAttemptRequest)
    (user : Option User) (cc : ContestsChallenge) (bank : Challenge) :
    Prog attemptI Exn AttemptResponse := do
  match ← requestChecks cfg req cc with
  | some refusal => return refusal
  | none =>
      match ← challengeChecks cc bank req.contestId req.teamId with
      | some refusal => return refusal
      | none =>
          let attempt ← compareFlags cfg bank req.submitted
          if attempt.status then creditSolve cfg req cc bank user attempt
          else recordFail cfg req cc user attempt

/-- `ChallengeController.Attempt`. -/
def attempt (cfg : AttemptConfig) (req : ChallengeAttemptRequest) :
    Prog attemptI Exn AttemptResponse := do
  let user : Option User ← query (.findUser req.userId)
  if req.challengeId = 0 then
    return ⟨400, none, none, some "ChallengeId is required"⟩
  let cc : Option ContestsChallenge ←
    query (.findContestsChallenge req.challengeId req.contestId)
  match cc with
  | none => return ⟨404, none, none, some "Challenge not found"⟩
  | some cc =>
      match cc.bankChallenge with
      | none => return ⟨404, none, none, some "Challenge not found"⟩
      | some bank => attemptChallenge cfg req user cc bank

/-! ### The admin endpoints -/

/-- `Submission.patch` and `Submission.delete` of the management platform. The first thing
either does with the row is to read its `challenge_id`, which the model `Submissions` does
not have. -/
def editSubmission (id : ℤ) : Prog attemptI Exn AttemptResponse := do
  let submission : Option Submission ← query (.findSubmission id)
  match submission with
  | none => return .empty 404
  | some _ => throw .attributeError

/-- `reset` of the management platform, with the section `submissions` ticked. -/
def reset : Prog attemptI Exn AttemptResponse := do
  query .resetSubmissions
  return .empty 302

end Fctf
