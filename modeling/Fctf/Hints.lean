import Fctf.ChallengeToken
import Fctf.Lib.Grouping
import Fctf.Lib.History
import Fctf.RedisLock
import Fctf.Scores

/-!
# Hints

A hint of a challenge may cost points. `UnlockHint` checks the prerequisites of the challenge and
of the hint, looks for an unlock that is there already, compares the cost with the score of the
team, and stores the unlock with an award of the negative cost, all of it under a lock of the team
that runs out after half a minute. `GetHintById` and `GetHintsByChallengeId` look for that unlock
later.

An entity that the context of a request has read once keeps its values when it is read again.
-/

open Concurrent RedisDb Grouping

namespace Fctf

open RedisLock (LockOp LockWorld)

namespace Hints

/-! ### Tables -/

/-- A challenge of the bank. -/
structure BankChallenge where
  id : ℤ
  name : String
  requirements : Option String
  deriving DecidableEq, Repr

/-- A hint. -/
structure Hint where
  id : ℤ
  type : Option String
  challengeId : Option ℤ
  content : Option String
  cost : Option ℤ
  requirements : Option String
  deriving DecidableEq, Repr

/-- A row of `unlocks`. -/
structure Unlock where
  id : ℤ
  userId : Option ℤ
  teamId : Option ℤ
  target : Option ℤ
  type : Option String
  date : Option ℤ
  deriving DecidableEq, Repr

/-- The tables, the locks in Redis, and the time in milliseconds. -/
structure HintWorld where
  challenges : List BankChallenge
  hints : List Hint
  unlocks : List Unlock
  /-- The tables scores are computed from, with the challenges of the contests. -/
  score : ScoreDb
  lock : LockWorld

/-- `HintUnlockType`. -/
def hintUnlockType : String := "hints"

/-- What a deployment has settled: its mode, how the database compares texts, and how JSON is
read. -/
structure HintConfig where
  /-- `IsTeamsMode`. -/
  teamsMode : Bool
  sql : Collation
  /-- `JsonDocument.Parse`. -/
  parse : String → Option Json.Value
  /-- The prerequisites in a `ChallengeRequirementsDTO`, unless it cannot be read. -/
  deserialize : String → Option (Option (List ℤ))

/-- Whose unlocks and solves are looked for. -/
inductive Account where
  | team (teamId : Option ℤ)
  | user (userId : ℤ)
  deriving DecidableEq, Repr

/-- Is a row with these columns one of the account? -/
def Account.owns (userId teamId : Option ℤ) : Account → Bool
  | team id => teamId = id
  | user id => userId = some id

/-- The comparison of two nullable texts. -/
def sameType (sql : Collation) : Option String → Option String → Bool
  | none, none => true
  | some a, some b => sql.eq a b
  | _, _ => false

/-- Does an unlock open a hint? -/
def Unlock.opens (sql : Collation) (unlock : Unlock) : Bool :=
  unlock.type.all fun type => sql.eq type hintUnlockType

/-! ### Operations -/

/-- The exceptions: those of the service, those of what it calls, and what JSON cannot be. -/
inductive HintError where
  /-- `InvalidOperationException` of the service. -/
  | business (message : String)
  | failed (e : Exn)
  | json
  deriving DecidableEq, Repr

/-- Is it an `InvalidOperationException`? -/
def HintError.isInvalidOperation : HintError → Bool
  | business _ => true
  | failed e => e = .invalidOperation
  | json => false

/-- What the requests ask for. -/
inductive HintOp where
  | findHint (id : ℤ)
  | findChallenge (id : ℤ)
  | findContestsChallenge (contestId : ℤ) (bankId : Option ℤ)
  | findSolve (contestChallengeId teamId : ℤ)
  | findUser (userId : ℤ)
  | findUserTeam (userId contestId : ℤ)
  | newGuid
  | lock (o : LockOp)
  | challengeIds
  | contestChallengeIds (contestId : ℤ) (bankIds : List ℤ)
  | solvedIds (account : Account)
  | unlockedIds (account : Account)
  | freeHintIds
  | hintIds
  | findUnlock (target : ℤ) (type : Option String) (account : Account)
  | findHintUnlock (target : ℤ) (account : Account)
  | hintsOf (challengeId : ℤ)
  | unlockedAmong (ids : List ℤ) (account : Account)
  | memberIds (teamId : ℤ)
  | solvesScore (userIds : List ℤ)
  | awardsScore (userIds : List ℤ)
  | utcNow
  | saveUnlock (unlock : Unlock) (award : Award)
  | saveActionLogs (challengeId userId : ℤ)

/-- The type of an operation's reply. -/
def HintOp.Reply : HintOp → Type
  | findHint _ => Option (Hint × Option BankChallenge)
  | findChallenge _ => Option BankChallenge
  | findContestsChallenge _ _ => Option ContestsChallenge
  | findSolve _ _ => Option Solf
  | findUser _ => Option ScoreAccount
  | findUserTeam _ _ => Option ScoreAccount
  | newGuid => String
  | lock o => o.Reply
  | challengeIds => List ℤ
  | contestChallengeIds _ _ => List ℤ
  | solvedIds _ => List ℤ
  | unlockedIds _ => List ℤ
  | freeHintIds => List ℤ
  | hintIds => List ℤ
  | findUnlock _ _ _ => Option Unlock
  | findHintUnlock _ _ => Option Unlock
  | hintsOf _ => List Hint
  | unlockedAmong _ _ => List ℤ
  | memberIds _ => List ℤ
  | solvesScore _ => ℤ
  | awardsScore _ => ℤ
  | utcNow => ℤ
  | saveUnlock _ _ => ℤ
  | saveActionLogs _ _ => Unit

/-- The interface. -/
def hintI : Interface := ⟨HintOp, HintOp.Reply⟩

namespace HintWorld

variable (w : HintWorld)

/-- A challenge of the bank by id. -/
def challenge (id : ℤ) : Option BankChallenge := w.challenges.find? (·.id = id)

/-- `Hints.Include(h => h.Challenge)`. -/
def hint (id : ℤ) : Option (Hint × Option BankChallenge) :=
  (w.hints.find? (·.id = id)).map fun hint => (hint, hint.challengeId.bind w.challenge)

/-- The challenge of a contest that a bank challenge is used as. -/
def contestsChallenge (contestId : ℤ) (bankId : Option ℤ) : Option ContestsChallenge :=
  w.score.contestsChallenges.find? fun cc =>
    decide (cc.bankChallenge.map (·.id) = bankId) && decide (cc.contestId = contestId)

/-- `GetUserTeamInContest`. -/
def userTeam (userId contestId : ℤ) : Option ScoreAccount :=
  w.score.teams.find? fun t =>
    decide (t.contestId = some contestId) && w.score.userTeams.contains (userId, t.id)

/-- The ids of the challenges of a contest that use one of these bank challenges. -/
def contestChallengeIds (contestId : ℤ) (bankIds : List ℤ) : List ℤ :=
  (w.score.contestsChallenges.filter fun cc => decide (cc.contestId = contestId) &&
    (cc.bankChallenge.map (·.id)).any bankIds.contains).map (·.id)

/-- The ids of the challenges that an account has solved. -/
def solvedIds (account : Account) : List ℤ :=
  (w.score.solves.filter fun s =>
    decide (0 < s.contestChallengeId) && account.owns s.userId s.teamId).map (·.contestChallengeId)

/-- The targets of the unlocks of an account with the type of hints. -/
def unlockedIds (sql : Collation) (account : Account) : List ℤ :=
  (w.unlocks.filter fun u => u.type.any (sql.eq · hintUnlockType) &&
    account.owns u.userId u.teamId).filterMap (·.target)

/-- The ids of the hints that cost nothing. -/
def freeHintIds : List ℤ :=
  (w.hints.filter fun h => decide (h.cost = none) || decide (h.cost = some 0)).map (·.id)

/-- An unlock of the same account, target and type. -/
def findUnlock (sql : Collation) (target : ℤ) (type : Option String) (account : Account) :
    Option Unlock :=
  w.unlocks.find? fun u => decide (u.target = some target) && sameType sql u.type type &&
    account.owns u.userId u.teamId

/-- An unlock that opens a hint for an account. -/
def findHintUnlock (sql : Collation) (target : ℤ) (account : Account) : Option Unlock :=
  w.unlocks.find? fun u => account.owns u.userId u.teamId && decide (u.target = some target) &&
    u.opens sql

/-- The hints of these that are open for an account. -/
def unlockedAmong (sql : Collation) (ids : List ℤ) (account : Account) : List ℤ :=
  (w.unlocks.filter fun u => u.target.any ids.contains && u.opens sql &&
    account.owns u.userId u.teamId).filterMap (·.target)

/-- What the solves of some users sum up to. -/
def solvesScore (userIds : List ℤ) : ℤ :=
  points ((solveRows (·.userId) w.score).filter (ScoreHelper.ofUsers userIds none))

/-- What the awards of some users sum up to. -/
def awardsScore (userIds : List ℤ) : ℤ :=
  points ((awardRows (·.userId) w.score).filter (ScoreHelper.ofUsers userIds none))

/-- The next id of a table. -/
def nextId (ids : List ℤ) : ℤ := (ids.max?).getD 0 + 1

/-- `SaveChangesAsync` with an unlock and an award. -/
def saveUnlock (unlock : Unlock) (award : Award) : ℤ × HintWorld :=
  let id := nextId (w.unlocks.map (·.id))
  (id, { w with
    unlocks := w.unlocks ++ [{ unlock with id := id }]
    score := { w.score with
      awards := w.score.awards ++ [{ award with id := nextId (w.score.awards.map (·.id)) }] } })

end HintWorld

/-- What the surroundings choose: whether an operation fails, and if so, whether the failure is
taken for a transient one; the guid that is drawn. -/
structure HintEnv where
  fault : Fault
  transient : Bool
  guid : String
  deriving DecidableEq, Repr

/-- A failure of the database. One that is taken for transient is wrapped. -/
def HintEnv.error (e : HintEnv) : HintError :=
  .failed (if e.transient then .invalidOperation else .database)

/-- A query. -/
def HintEnv.read {α : Type} (e : HintEnv) (answer : HintWorld → α) (w : HintWorld) :
    Except HintError α × HintWorld :=
  (if e.fault = .none then .ok (answer w) else .error e.error, w)

/-- What one operation answers and does. -/
def HintOp.exec (cfg : HintConfig) (e : HintEnv) :
    (o : HintOp) → HintWorld → Except HintError o.Reply × HintWorld
  | findHint id, w => e.read (·.hint id) w
  | findChallenge id, w => e.read (·.challenge id) w
  | findContestsChallenge contestId bankId, w => e.read (·.contestsChallenge contestId bankId) w
  | findSolve contestChallengeId teamId, w =>
      e.read (fun w => w.score.solves.find? fun s =>
        decide (s.contestChallengeId = contestChallengeId) && decide (s.teamId = some teamId)) w
  | findUser userId, w => e.read (fun w => w.score.users.find? (·.id = userId)) w
  | findUserTeam userId contestId, w => e.read (·.userTeam userId contestId) w
  | newGuid, w => (.ok e.guid, w)
  | lock o, w =>
      let r := o.exec e.fault w.lock
      (r.1.mapError .failed, { w with lock := r.2 })
  | challengeIds, w => e.read (fun w => w.challenges.map (·.id)) w
  | contestChallengeIds contestId bankIds, w => e.read (·.contestChallengeIds contestId bankIds) w
  | solvedIds account, w => e.read (·.solvedIds account) w
  | unlockedIds account, w => e.read (·.unlockedIds cfg.sql account) w
  | freeHintIds, w => e.read (·.freeHintIds) w
  | hintIds, w => e.read (fun w => w.hints.map (·.id)) w
  | findUnlock target type account, w => e.read (·.findUnlock cfg.sql target type account) w
  | findHintUnlock target account, w => e.read (·.findHintUnlock cfg.sql target account) w
  | hintsOf challengeId, w =>
      e.read (fun w => w.hints.filter (·.challengeId = some challengeId)) w
  | unlockedAmong ids account, w => e.read (·.unlockedAmong cfg.sql ids account) w
  | memberIds teamId, w => e.read (fun w => ScoreHelper.memberIds w.score teamId) w
  | solvesScore userIds, w => e.read (·.solvesScore userIds) w
  | awardsScore userIds, w => e.read (·.awardsScore userIds) w
  | utcNow, w => (.ok (w.lock.clock * 1000), w)
  | saveUnlock unlock award, w =>
      match e.fault with
      | .none => (.ok (w.saveUnlock unlock award).1, (w.saveUnlock unlock award).2)
      | .before => (.error e.error, w)
      | .after => (.error e.error, (w.saveUnlock unlock award).2)
  | saveActionLogs _ _, w => e.read (fun _ => ()) w

/-- The operations of the interface. -/
def hintExec (cfg : HintConfig) (e : HintEnv) (o : hintI.Op) (w : HintWorld) :
    Except HintError (hintI.Reply o) × HintWorld :=
  HintOp.exec cfg e o w

/-- One operation. -/
def request (o : HintOp) : Prog hintI HintError o.Reply := Prog.perform (I := hintI) o

/-- `try .. finally`. -/
def finallyDo {α : Type} (body : Prog hintI HintError α) (cleanup : Prog hintI HintError Unit) :
    Prog hintI HintError α := do
  let result ← body.handle fun e => do
    cleanup
    throw e
  cleanup
  return result

/-! ### Prerequisites -/

/-- `TryGetInt32`: a number of 32 bits without a fraction. What is no number raises. -/
def tryGetInt32 : Json.Value → Option (Option ℤ)
  | .number literal =>
      some ((String.ofList literal).toInt?.filter fun n =>
        decide (-2 ^ 31 ≤ n) && decide (n < 2 ^ 31))
  | _ => none

/-- The numbers up to the first element that is none. -/
def collectInts : List Json.Value → List ℤ
  | [] => []
  | item :: items =>
      match tryGetInt32 item with
      | none => []
      | some value => value.toList ++ collectInts items

/-- The last member of a name, as `TryGetProperty` finds it. -/
def tryGetProperty (name : String) : Json.Value → Option Json.Value
  | .object members => (members.filter fun m => m.1 = name.toList).getLast?.map (·.2)
  | _ => none

/-- `GetPrerequisites`. -/
def getPrerequisites (parse : String → Option Json.Value) (requirementsJson : Option String) :
    List ℤ :=
  match requirementsJson with
  | none => []
  | some text =>
      if isNullOrWhiteSpace text then []
      else
        match (parse text).bind (tryGetProperty "prerequisites") with
        | some (.array items) => collectInts items
        | _ => []

section Programs

variable (cfg : HintConfig)

/-- The team or the user whose solves or unlocks matter. -/
def account (teamId : Option ℤ) (userId : ℤ) : Account :=
  if cfg.teamsMode then .team teamId else .user userId

/-- The account in `EnsureChallengePrerequisitesUnlockedAsync`. -/
def solvingAccount (userId contestId : ℤ) : Prog hintI HintError Account := do
  if cfg.teamsMode then
    let team : Option ScoreAccount ← request (.findUserTeam userId contestId)
    match team with
    | none => throw (.business "User team not found")
    | some team => return .team (some team.id)
  else return .user userId

/-- What has to be solved first is looked up, and what the account has solved. -/
def checkSolved (userId contestId : ℤ) (validPrerequisites : List ℤ) :
    Prog hintI HintError Unit := do
  let contestChallengeIds : List ℤ ← request (.contestChallengeIds contestId validPrerequisites)
  let account ← solvingAccount cfg userId contestId
  let solvedContestChallengeIds : List ℤ ← request (.solvedIds account)
  if contestChallengeIds.all solvedContestChallengeIds.contains then return ()
  else
    throw (.business
      "You don't have the permission to unlock hints for this challenge. Complete the required challenges first.")

/-- The prerequisites of a challenge that there are. -/
def checkPrerequisites (userId contestId : ℤ) (prerequisites : List ℤ) :
    Prog hintI HintError Unit :=
  if prerequisites.isEmpty then pure ()
  else do
    let allChallengeIds : List ℤ ← request .challengeIds
    let validPrerequisites := prerequisites.filter allChallengeIds.contains
    if validPrerequisites.isEmpty then return ()
    else checkSolved cfg userId contestId validPrerequisites

/-- The body of the `try`. -/
def ensureBody (userId contestId : ℤ) (requirements : String) : Prog hintI HintError Unit :=
  match cfg.deserialize requirements with
  | none => throw .json
  | some prerequisites => checkPrerequisites cfg userId contestId (prerequisites.getD [])

/-- `EnsureChallengePrerequisitesUnlockedAsync`. An exception of another kind is logged, with the
team, and ignored. -/
def ensureChallengePrerequisitesUnlocked (challenge : BankChallenge) (userId contestId : ℤ) :
    Prog hintI HintError Unit :=
  match challenge.requirements with
  | none => pure ()
  | some requirements =>
      if isNullOrWhiteSpace requirements then pure ()
      else
        (ensureBody cfg userId contestId requirements).handle fun e =>
          if e.isInvalidOperation then throw e
          else do
            let _ : Option ScoreAccount ← request (.findUserTeam userId contestId)
            return ()

/-- The account in the check of the prerequisites of a hint. -/
def unlockingAccount (teamId : Option ℤ) (userId : ℤ) : Prog hintI HintError Account :=
  if cfg.teamsMode then
    match teamId with
    | none => throw (.business "User team not found")
    | some teamId => pure (.team (some teamId))
  else pure (.user userId)

/-- The prerequisites of a hint. -/
def ensureHintPrerequisites (prerequisites : List ℤ) (teamId : Option ℤ) (userId : ℤ) :
    Prog hintI HintError Unit :=
  if prerequisites.isEmpty then pure ()
  else do
    let account ← unlockingAccount cfg teamId userId
    let unlockIds : List ℤ ← request (.unlockedIds account)
    let freeIds : List ℤ ← request .freeHintIds
    let allHintIds : List ℤ ← request .hintIds
    if (prerequisites.filter allHintIds.contains).all (unlockIds ++ freeIds).contains then
      return ()
    else throw (.business "You must unlock other hints before accessing this hint")

/-- `GetTeamScore`, for an admin. -/
def getTeamScore (team : ScoreAccount) : Prog hintI HintError ℤ := do
  let teamMemberIds : List ℤ ← request (.memberIds team.id)
  if teamMemberIds.isEmpty then return 0
  else
    let solvesScore : ℤ ← request (.solvesScore teamMemberIds)
    let awardsScore : ℤ ← request (.awardsScore teamMemberIds)
    return solvesScore + awardsScore

/-- `UnlockRequestDto`. -/
structure UnlockRequestDto where
  type : Option String
  target : ℤ
  deriving DecidableEq, Repr

/-- `UnlockResponseDTO`. -/
structure UnlockResponseDTO where
  id : ℤ
  type : Option String
  target : Option ℤ
  teamId : Option ℤ
  userId : Option ℤ
  date : Option ℤ
  deriving DecidableEq, Repr

/-- What an unlock is asked with: the request, the user with the team, the contest, and the
hint. -/
structure Purchase where
  req : UnlockRequestDto
  userId : ℤ
  teamId : Option ℤ
  contestId : ℤ
  hint : Hint
  challenge : BankChallenge
  deriving DecidableEq, Repr

/-- The unlock that is stored. Its id is given by the database. -/
def Purchase.unlock (p : Purchase) (date : ℤ) : Unlock :=
  ⟨0, some p.userId, p.teamId, some p.req.target, p.req.type, some date⟩

/-- The award that is stored with it. -/
def Purchase.award (p : Purchase) (date : ℤ) : Award :=
  ⟨0, none, some p.userId, p.teamId, some date, some (-p.hint.cost.getD 0)⟩

/-- The key of the lock. -/
def Purchase.lockKey (p : Purchase) : String :=
  contestKey p.contestId
    (if cfg.teamsMode then "hint:unlock:team:" ++ (p.teamId.map toString).getD ""
    else "hint:unlock:user:" ++ toString p.userId)

/-- The unlock and the award are stored. -/
def store (p : Purchase) : Prog hintI HintError UnlockResponseDTO := do
  let date : ℤ ← request .utcNow
  let awardDate : ℤ ← request .utcNow
  let id : ℤ ← request (.saveUnlock (p.unlock date) (p.award awardDate))
  return ⟨id, p.req.type, some p.req.target, p.teamId, some p.userId, some date⟩

/-- The score has to reach the cost. -/
def pay (p : Purchase) : Prog hintI HintError UnlockResponseDTO := do
  let userTeam : Option ScoreAccount ← request (.findUserTeam p.userId p.contestId)
  match userTeam with
  | none => throw (.business "User team not found")
  | some userTeam =>
      let score ← getTeamScore userTeam
      if p.hint.cost.any (score < ·) then
        throw (.business "Not enough points to unlock this hint")
      else store p

/-- What is done under the lock. -/
def unlockUnderLock (p : Purchase) : Prog hintI HintError UnlockResponseDTO := do
  ensureChallengePrerequisitesUnlocked cfg p.challenge p.userId p.contestId
  ensureHintPrerequisites cfg (getPrerequisites cfg.parse p.hint.requirements) p.teamId p.userId
  let existing : Option Unlock ←
    request (.findUnlock p.req.target p.req.type (account cfg p.teamId p.userId))
  if existing.isSome then throw (.business "Already unlocked")
  else pay p

/-- The lock is taken, and given back whatever happens. -/
def underLock (p : Purchase) : Prog hintI HintError UnlockResponseDTO := do
  let lockToken : String ← request .newGuid
  let acquired : Bool ← request (.lock (.setIfNotExists (p.lockKey cfg) lockToken (some 30000)))
  if acquired then
    finallyDo (unlockUnderLock cfg p) do
      let _ : ℤ ← request (.lock (.compareAndDelete (p.lockKey cfg) lockToken))
  else throw (.business "Another unlock operation is in progress. Please try again.")

/-- What a context knows of a row that is read again. -/
def identify {α : Type} (key : α → ℤ) (tracked : α) (found : α) : α :=
  if key found = key tracked then tracked else found

/-- `UnlockHint`, in a context that has read the hint and the challenge already. -/
def unlockHint (req : UnlockRequestDto) (userId contestId : ℤ) (hint : Hint)
    (challenge : BankChallenge) (contestChallenge : ContestsChallenge) :
    Prog hintI HintError (Option UnlockResponseDTO) := do
  let target : Option (Hint × Option BankChallenge) ← request (.findHint req.target)
  match target with
  | none => return none
  | some _ =>
      let found : Option ContestsChallenge ←
        request (.findContestsChallenge contestId hint.challengeId)
      if found.all fun cc => (identify (·.id) contestChallenge cc).state ≠ .visible then
        return none
      else
        let user : Option ScoreAccount ← request (.findUser userId)
        match user with
        | none => throw (.business "User not found")
        | some user =>
            let team : Option ScoreAccount ← request (.findUserTeam user.id contestId)
            some <$> underLock cfg ⟨req, user.id, team.map (·.id), contestId, hint, challenge⟩

/-! ### Views -/

/-- `HintResponseDTO`. -/
structure HintResponseDTO where
  id : ℤ
  type : Option String
  challengeId : Option ℤ
  cost : Option ℤ
  content : Option String
  html : Option String
  requirements : Option String
  view : String
  deriving DecidableEq, Repr

/-- `HintSummaryDTO`. -/
structure HintSummaryDTO where
  id : ℤ
  cost : Option ℤ
  isUnlocked : Bool
  deriving DecidableEq, Repr

/-- `HintListDTO`. -/
structure HintListDTO where
  size : ℕ
  hints : List HintSummaryDTO
  deriving DecidableEq, Repr

/-- `(hint.Cost ?? 0) > 0`. -/
def Hint.hasCost (hint : Hint) : Bool := decide (0 < hint.cost.getD 0)

/-- What is shown of a hint. -/
def Hint.shown (hint : Hint) (view : String) : HintResponseDTO where
  id := hint.id
  type := hint.type
  challengeId := hint.challengeId
  cost := hint.cost
  content := if view ≠ "locked" then hint.content else none
  html := if view ≠ "locked" then hint.content.map fun c => "<p>" ++ c ++ "</p>\n" else none
  requirements := hint.requirements
  view := view

/-- What is shown to nobody in particular. -/
def Hint.lockedForAll (hint : Hint) : HintResponseDTO :=
  ⟨hint.id, hint.type, hint.challengeId, hint.cost, none, none, none, "locked"⟩

/-- Whose unlocks open hints, if there is a team. -/
def viewingAccount (userId contestId : ℤ) : Prog hintI HintError (Option Account) := do
  if cfg.teamsMode then
    let team : Option ScoreAccount ← request (.findUserTeam userId contestId)
    return team.map fun t => .team (some t.id)
  else return some (.user userId)

/-- Is a hint that costs something open for a user? -/
def isUnlocked (hintId userId contestId : ℤ) : Prog hintI HintError Bool := do
  let account ← viewingAccount cfg userId contestId
  match account with
  | none => return false
  | some account =>
      let unlocked : Option Unlock ← request (.findHintUnlock hintId account)
      return unlocked.isSome

/-- The body of the `try` of `GetHintById`. -/
def getHintByIdBody (id userId contestId : ℤ) :
    Prog hintI HintError (Option HintResponseDTO) := do
  let found : Option (Hint × Option BankChallenge) ← request (.findHint id)
  match found with
  | none => return none
  | some (hint, _) =>
      let contestChallenge : Option ContestsChallenge ←
        request (.findContestsChallenge contestId hint.challengeId)
      if contestChallenge.all (·.state ≠ .visible) then return none
      else
        let user : Option ScoreAccount ← request (.findUser userId)
        match user with
        | none =>
            if hint.hasCost then return some hint.lockedForAll
            else return some (hint.shown "unlocked")
        | some user =>
            if hint.hasCost then
              let unlocked ← isUnlocked cfg hint.id user.id contestId
              return some (hint.shown (if unlocked then "unlocked" else "locked"))
            else return some (hint.shown "unlocked")

/-- `GetHintById`. -/
def getHintById (id userId contestId : ℤ) : Prog hintI HintError (Option HintResponseDTO) :=
  (getHintByIdBody cfg id userId contestId).handle fun _ => pure none

/-- The ids of the hints that are open for a user. -/
def unlockedHintIds (ids : List ℤ) (userId contestId : ℤ) :
    Prog hintI HintError (List ℤ) :=
  if ids.isEmpty then pure []
  else do
    let currentUser : Option ScoreAccount ← request (.findUser userId)
    match currentUser with
    | none => return []
    | some currentUser =>
        let account ← viewingAccount cfg currentUser.id contestId
        match account with
        | none => return []
        | some account => request (.unlockedAmong ids account)

/-- The list of some hints. -/
def hintList (hints : List Hint) (unlocked : List ℤ) : HintListDTO :=
  ⟨hints.length, hints.map fun h => ⟨h.id, h.cost, !h.hasCost || unlocked.contains h.id⟩⟩

/-- The body of the `try` of `GetHintsByChallengeId`. -/
def getHintsBody (challengeId userId contestId : ℤ) :
    Prog hintI HintError (Option HintListDTO) := do
  let challenge : Option BankChallenge ← request (.findChallenge challengeId)
  match challenge with
  | none => return none
  | some _ =>
      let contestChallenge : Option ContestsChallenge ←
        request (.findContestsChallenge contestId (some challengeId))
      if contestChallenge.all (·.state ≠ .visible) then return none
      else
        let hints : List Hint ← request (.hintsOf challengeId)
        let unlocked ← unlockedHintIds cfg (hints.map (·.id)) userId contestId
        return some (hintList hints unlocked)

/-- `GetHintsByChallengeId`. -/
def getHintsByChallengeId (challengeId userId contestId : ℤ) :
    Prog hintI HintError (Option HintListDTO) :=
  (getHintsBody cfg challengeId userId contestId).handle fun _ => pure none

/-! ### The controller -/

/-- What the controller answers. -/
inductive HintAnswer where
  | unauthorized (error : String)
  | badRequest (error : String)
  | notFound (message : String)
  | unlocked (data : UnlockResponseDTO)
  | hint (data : HintResponseDTO)
  | hints (data : Option HintListDTO)
  deriving DecidableEq, Repr

/-- What follows once the challenge is found. -/
def unlockUnsolved (req : UnlockRequestDto) (userId teamId contestId : ℤ) (hint : Hint)
    (challenge : BankChallenge) (contestChallenge : ContestsChallenge) :
    Prog hintI HintError HintAnswer := do
  let solve : Option Solf ← request (.findSolve contestChallenge.id teamId)
  if solve.isSome then return .badRequest "Challenge already solved"
  else
    let result ← unlockHint cfg req userId contestId hint challenge contestChallenge
    match result with
    | none => return .badRequest "Unable to unlock hint"
    | some data =>
        let _ : Unit ← (request (.saveActionLogs challenge.id userId)).handle fun _ => pure ()
        return .unlocked data

/-- `PostUnlock`. -/
def postUnlock (req : UnlockRequestDto) (userId teamId contestId : ℤ) :
    Prog hintI HintError HintAnswer :=
  if teamId = 0 ∨ userId = 0 then pure (.unauthorized "PermisUnlockHintsion denied")
  else do
    let target : Option (Hint × Option BankChallenge) ← request (.findHint req.target)
    match target with
    | some (hint, some challenge) =>
        let contestChallenge : Option ContestsChallenge ←
          request (.findContestsChallenge contestId (some challenge.id))
        match contestChallenge with
        | none => return .badRequest "Challenge is hidden"
        | some contestChallenge =>
            if contestChallenge.state = .hidden then return .badRequest "Challenge is hidden"
            else unlockUnsolved cfg req userId teamId contestId hint challenge contestChallenge
    | _ => return .badRequest "Invalid challenge or hint"

/-- A call. -/
inductive HintCall where
  | postUnlock (req : UnlockRequestDto) (userId teamId contestId : ℤ)
  | getHintById (id userId contestId : ℤ)
  | getHintByChallengeId (id userId contestId : ℤ)
  deriving DecidableEq, Repr

/-- Its program. -/
def HintCall.program : HintCall → Prog hintI HintError HintAnswer
  | postUnlock req userId teamId contestId => Hints.postUnlock cfg req userId teamId contestId
  | getHintById id userId contestId => do
      let hint ← Hints.getHintById cfg id userId contestId
      match hint with
      | none => return .notFound "Hint not found"
      | some hint => return .hint hint
  | getHintByChallengeId id userId contestId =>
      .hints <$> getHintsByChallengeId cfg id userId contestId

/-- The service. What others do may be anything, until a condition on the runs says more. -/
def hintService : Service hintI HintError HintAnswer HintWorld where
  Call := HintCall
  Env := HintEnv
  Ext := HintWorld
  program := HintCall.program cfg
  exec := hintExec cfg
  ambient x _ := x

end Programs

end Hints

end Fctf
