import Fctf.Lib.History
import Fctf.RedisHelper

/-!
# Pulling Challenges into a Contest

`PullChallengesToContest` copies challenges of the bank into a contest. What is in the
contest already is read once, before the loop; every new entry is saved on its own. Entity
Framework adds a saved entry to the collection that was read, so a challenge that is named
twice is added once.

## Main results

* `pulled_of_undisturbed`: calls for one contest that do not overlap, and whose first save
  alone may fail, are all or nothing and leave no challenge twice.
* `not_pulled`: calls that overlap add a challenge twice, and a save that fails leaves what
  was saved before.
-/

open Concurrent

namespace Fctf

namespace PullChallenges

/-! ### The tables -/

/-- What is copied of a challenge. -/
structure Properties where
  (name description category type requirements imageLink deployFile : Option String)
  (state connectionProtocol connectionInfo : Option String)
  (difficulty cpuLimit cpuRequest memoryLimit memoryRequest maxDeployCount : Option ℤ)
  (maxAttempts value timeLimit startTime timeFinished cooldown : Option ℤ)
  (useGvisor isPublic requireDeploy : Option Bool)
  deriving DecidableEq, Repr

/-- A challenge of the bank. -/
structure BankChallenge where
  id : ℕ
  properties : Properties
  deriving DecidableEq, Repr

/-- What a teacher asks for: a challenge of the bank, with properties to override. -/
structure PullItem where
  bankChallengeId : ℕ
  overrides : Properties
  deriving DecidableEq, Repr

/-- A challenge of a contest. -/
structure ContestsChallenge where
  contestId : ℕ
  bankId : Option ℕ
  userId : Option ℕ
  properties : Properties
  importCount : ℕ
  deployStatus : String
  deriving DecidableEq, Repr

/-- A user. -/
structure User where
  id : ℕ
  type : String
  deriving DecidableEq, Repr

/-- A contest. -/
structure Contest where
  id : ℕ
  ownerId : Option ℕ
  deriving DecidableEq, Repr

/-- The tables. A row of `contestsChallenges` has its place for an id. -/
structure PullWorld where
  users : List User
  contests : List Contest
  challenges : List BankChallenge
  contestsChallenges : List ContestsChallenge
  deriving DecidableEq, Repr

/-- `contest.ContestsChallenges`. -/
def PullWorld.challengesOf (w : PullWorld) (contestId : ℕ) : List ContestsChallenge :=
  w.contestsChallenges.filter (·.contestId = contestId)

/-! ### Operations -/

/-- The requests to the database. -/
inductive PullOp where
  | findUser (userId : ℕ)
  | findContest (contestId : ℕ)
  | bankChallenges (bankChallengeIds : List ℕ)
  | save (contestChallenge : ContestsChallenge)

/-- The type of an operation's reply. A contest comes with its challenges, and a row that was
saved has got an id. -/
def PullOp.Reply : PullOp → Type
  | findUser _ => Option User
  | findContest _ => Option (Contest × List ContestsChallenge)
  | bankChallenges _ => List BankChallenge
  | save _ => ℕ

/-- The interface. -/
def pullI : Interface := ⟨PullOp, PullOp.Reply⟩

/-- What one operation answers and does. -/
def PullOp.exec (f : Fault) : (o : PullOp) → PullWorld → Except Exn o.Reply × PullWorld
  | findUser userId, w => f.apply .database (fun w => (.ok (w.users.find? (·.id = userId)), w)) w
  | findContest contestId, w =>
      f.apply .database (fun w =>
        (.ok ((w.contests.find? (·.id = contestId)).map fun contest =>
          (contest, w.challengesOf contestId)), w)) w
  | bankChallenges ids, w =>
      f.apply .database (fun w =>
        (.ok (w.challenges.filter fun c => ids.contains c.id), w)) w
  | save contestChallenge, w =>
      f.apply .database (fun w =>
        (.ok w.contestsChallenges.length,
          { w with contestsChallenges := w.contestsChallenges ++ [contestChallenge] })) w

/-! ### The method -/

/-- What is returned of a new challenge. -/
structure ContestChallengeDTO where
  (id contestId : ℕ)
  bankId : Option ℕ
  name : String
  (category description state : Option String)
  (value maxAttempts : Option ℤ)
  requireDeploy : Option Bool
  solveCount : ℕ
  deriving DecidableEq, Repr

/-- The response. -/
inductive PullResponse where
  | userNotFound
  | contestNotFound
  | forbidden
  | ok (data : List ContestChallengeDTO)
  | failed
  deriving DecidableEq, Repr

/-- `Success`. -/
def PullResponse.success : PullResponse → Bool
  | ok _ => true
  | _ => false

/-- `Message`. -/
def PullResponse.message : PullResponse → String
  | userNotFound => "User not found"
  | contestNotFound => "Contest not found"
  | forbidden => "Only contest owner or admin can pull challenges"
  | ok data => "Successfully pulled " ++ toString data.length ++ " challenges to contest"
  | failed => "Failed to pull challenges to contest"

/-- The configured properties, or else those of the bank, or else a default. -/
def configured (pullItem bank : Properties) : Properties where
  name := pullItem.name <|> bank.name
  description := pullItem.description <|> bank.description
  category := pullItem.category <|> bank.category
  type := pullItem.type <|> bank.type
  difficulty := pullItem.difficulty <|> bank.difficulty
  requirements := pullItem.requirements <|> bank.requirements
  imageLink := pullItem.imageLink <|> bank.imageLink
  deployFile := pullItem.deployFile <|> bank.deployFile
  cpuLimit := pullItem.cpuLimit <|> bank.cpuLimit
  cpuRequest := pullItem.cpuRequest <|> bank.cpuRequest
  memoryLimit := pullItem.memoryLimit <|> bank.memoryLimit
  memoryRequest := pullItem.memoryRequest <|> bank.memoryRequest
  useGvisor := pullItem.useGvisor <|> bank.useGvisor
  maxDeployCount := pullItem.maxDeployCount <|> bank.maxDeployCount <|> some 0
  isPublic := pullItem.isPublic <|> bank.isPublic
  maxAttempts := pullItem.maxAttempts <|> bank.maxAttempts <|> some 0
  value := pullItem.value <|> bank.value <|> some 100
  state := pullItem.state <|> bank.state <|> some "visible"
  timeLimit := pullItem.timeLimit <|> bank.timeLimit
  startTime := pullItem.startTime <|> bank.startTime
  timeFinished := pullItem.timeFinished <|> bank.timeFinished
  cooldown := pullItem.cooldown <|> bank.cooldown <|> some 0
  requireDeploy := pullItem.requireDeploy <|> bank.requireDeploy
  connectionProtocol := pullItem.connectionProtocol <|> bank.connectionProtocol <|> some "http"
  connectionInfo := pullItem.connectionInfo <|> bank.connectionInfo

/-- The new challenge of the contest. -/
def contestChallenge (contestId userId : ℕ) (pullItem : PullItem) (bankChallenge : BankChallenge) :
    ContestsChallenge where
  contestId := contestId
  bankId := some pullItem.bankChallengeId
  userId := some userId
  properties := configured pullItem.overrides bankChallenge.properties
  importCount := 0
  deployStatus := "CREATED"

/-- What is returned of it. -/
def ContestsChallenge.toDTO (cc : ContestsChallenge) (id : ℕ) : ContestChallengeDTO where
  id := id
  contestId := cc.contestId
  bankId := cc.bankId
  name := cc.properties.name.getD ""
  category := cc.properties.category
  description := cc.properties.description
  state := cc.properties.state
  value := cc.properties.value
  maxAttempts := cc.properties.maxAttempts
  requireDeploy := cc.properties.requireDeploy
  solveCount := 0

/-- Is the challenge among those of the contest? -/
def pulled (tracked : List ContestsChallenge) (bankChallengeId : ℕ) : Bool :=
  tracked.any (·.bankId = some bankChallengeId)

/-- `Add` and `SaveChangesAsync`. -/
def save (cc : ContestsChallenge) : Prog pullI Exn ℕ := Prog.perform (I := pullI) (.save cc)

/-- The loop. `tracked` is `contest.ContestsChallenges`. -/
def pullLoop (contestId userId : ℕ) (bankChallenges : List BankChallenge) :
    List PullItem → List ContestsChallenge → List ContestChallengeDTO →
      Prog pullI Exn (List ContestChallengeDTO)
  | [], _, addedChallenges => pure addedChallenges
  | pullItem :: challenges, tracked, addedChallenges =>
      match bankChallenges.find? (·.id = pullItem.bankChallengeId) with
      | none => pullLoop contestId userId bankChallenges challenges tracked addedChallenges
      | some bankChallenge =>
          if pulled tracked pullItem.bankChallengeId then
            pullLoop contestId userId bankChallenges challenges tracked addedChallenges
          else do
            let cc := contestChallenge contestId userId pullItem bankChallenge
            let id ← save cc
            pullLoop contestId userId bankChallenges challenges (tracked ++ [cc])
              (addedChallenges ++ [cc.toDTO id])

/-- A call: the contest, the items and the user. -/
structure PullCall where
  contestId : ℕ
  challenges : List PullItem
  userId : ℕ
  deriving DecidableEq, Repr

/-- The ids that are asked for. -/
def PullCall.bankChallengeIds (c : PullCall) : List ℕ := c.challenges.map (·.bankChallengeId)

/-- What follows once the user and the contest are found. -/
def pullInto (c : PullCall) (user : User) (contest : Contest) (tracked : List ContestsChallenge) :
    Prog pullI Exn PullResponse :=
  if user.type ≠ "admin" ∧ contest.ownerId ≠ some c.userId then pure .forbidden
  else do
    let bankChallenges : List BankChallenge ←
      Prog.perform (I := pullI) (.bankChallenges c.bankChallengeIds)
    let addedChallenges ← pullLoop c.contestId c.userId bankChallenges c.challenges tracked []
    pure (.ok addedChallenges)

/-- The body of the `try`. -/
def pullBody (c : PullCall) : Prog pullI Exn PullResponse := do
  let user : Option User ← Prog.perform (I := pullI) (.findUser c.userId)
  match user with
  | none => return .userNotFound
  | some user =>
      let found : Option (Contest × List ContestsChallenge) ←
        Prog.perform (I := pullI) (.findContest c.contestId)
      match found with
      | none => return .contestNotFound
      | some (contest, tracked) => pullInto c user contest tracked

/-- `PullChallengesToContest`. -/
def pullChallengesToContest (c : PullCall) : Prog pullI Exn PullResponse :=
  (pullBody c).handle fun _ => pure .failed

/-- The service. -/
def pullService : Service pullI Exn PullResponse PullWorld where
  Call := PullCall
  Env := Fault
  Ext := Empty
  program := pullChallengesToContest
  exec f o w := o.exec f w
  ambient x _ := nomatch x

instance : DecidableEq pullService.Call := inferInstanceAs (DecidableEq PullCall)

/-! ### What is promised -/

/-- The challenges of the bank that the contest holds. -/
def bankIds (contestId : ℕ) (w : PullWorld) : List ℕ :=
  (w.challengesOf contestId).filterMap (·.bankId)

/-- Is there such a challenge in the bank? -/
def Known (w : PullWorld) (id : ℕ) : Prop := ∃ b ∈ w.challenges, b.id = id

/-- A call has added all that it was asked for, or it has failed and changed nothing. -/
def AllOrNothing (log : List pullService.Entry) (w : pullService.Pool) (pid : ℕ) (c : PullCall)
    (r : PullResponse) : Prop :=
  if r.success = true then
    ∀ id ∈ c.bankChallengeIds, Known w.shared id → id ∈ bankIds c.contestId w.shared
  else ∀ n ∈ log, n.pid = pid → n.after = n.before

/-- **Pulling is all or nothing**, and no challenge is in the contest twice. -/
structure Pulled (contestId : ℕ) (log : List pullService.Entry) (w : pullService.Pool) :
    Prop where
  /-- No challenge is in the contest twice. -/
  duplicateFree : (bankIds contestId w.shared).Nodup
  /-- Every call that is over. -/
  allOrNothing : ∀ pid c r, c.contestId = contestId → Service.Finished w pid c (.ok r) →
    AllOrNothing log w pid c r

/-- Does an operation save a challenge? -/
def isSave : PullOp → Bool
  | .save _ => true
  | _ => false

/-- A call of the contest has begun and is not over. -/
def busy (contestId : ℕ) (log : List pullService.Entry) (w : pullService.Pool) (pid : ℕ) :
    Bool :=
  match w.procs[pid]? with
  | some (c, .call _ _) => decide (c.contestId = contestId) && log.any (·.pid = pid)
  | _ => false

/-- May an operation of a call fail? A save only before it has done anything, and only the
first. -/
def mayFail (log : List pullService.Entry) (pid : ℕ) (e : Fault) (o : PullOp) : Bool :=
  !isSave o || decide (e = .none) ||
    (decide (e = .before) && !log.any fun n => decide (n.pid = pid) && isSave n.op)

/-- **The condition.** A call of the contest does something only while no other one is under
way, and of its saves only the first may fail, before it has done anything. -/
def undisturbed (contestId : ℕ) (log : List pullService.Entry) (w : pullService.Pool) :
    pullService.Move → Bool
  | .act pid e =>
      match w.procs[pid]? with
      | some (c, .call o _) =>
          decide (c.contestId ≠ contestId) ||
            (((List.range w.procs.length).all fun pid' =>
              decide (pid' = pid) || !busy contestId log w pid') && mayFail log pid e o)
      | _ => true
  | _ => true

/-- The condition on a step of a run. -/
def Undisturbed (contestId : ℕ) (log : List pullService.Entry) (w : pullService.Pool)
    (m : pullService.Move) : Prop :=
  undisturbed contestId log w m = true

instance (contestId : ℕ) (log : List pullService.Entry) (w : pullService.Pool)
    (m : pullService.Move) : Decidable (Undisturbed contestId log w m) :=
  inferInstanceAs (Decidable (_ = true))

/-! ### Where a call stands -/

/-- Where a call stands: it has read the contest or not yet, it goes through its items, or an
operation has failed; and whether it has saved something. -/
inductive Stage where
  | begins
  | read (tracked : List ContestsChallenge)
  | pulls (tracked : List ContestsChallenge) (bank : List BankChallenge) (saved : Bool)
  | failed (saved : Bool)

/-- What it has read of the contest, and added. -/
def Stage.tracked : Stage → Option (List ContestsChallenge)
  | read tracked => some tracked
  | pulls tracked _ _ => some tracked
  | _ => none

/-- Has it saved something? -/
def Stage.saved : Stage → Bool
  | pulls _ _ saved => saved
  | failed saved => saved
  | _ => false

/-- What a call does next. -/
def Stage.allows (c : PullCall) : Stage → PullOp → Prop
  | begins, .findUser _ => True
  | begins, .findContest contestId => contestId = c.contestId
  | read _, .bankChallenges ids => ids = c.bankChallengeIds
  | pulls tracked _ _, .save cc =>
      cc.contestId = c.contestId ∧ ∃ id, cc.bankId = some id ∧ pulled tracked id = false
  | _, _ => False

/-- Where it stands after the reply. -/
def Stage.next : Stage → (o : PullOp) → Except Exn o.Reply → Stage
  | begins, .findContest _, .ok (some (_, tracked)) => read tracked
  | read tracked, .bankChallenges _, .ok bank => pulls tracked bank false
  | pulls tracked bank _, .save cc, .ok _ => pulls (tracked ++ [cc]) bank true
  | q, _, .ok _ => q
  | q, _, .error _ => failed q.saved

/-- The protocol of a call. -/
def protocol (c : PullCall) : Protocol pullI Exn Stage := ⟨Stage.allows c, Stage.next⟩

/-- Everything asked for that is in the bank has been added. -/
def AllPulled (ids : List ℕ) (bank : List BankChallenge) (tracked : List ContestsChallenge) :
    Prop :=
  ∀ id ∈ ids, (bank.find? (·.id = id)).isSome → pulled tracked id = true

/-- Where a call may end. -/
def Ends (c : PullCall) (q : Stage) (r : Except Exn PullResponse) : Prop :=
  ∃ response, r = .ok response ∧
    if response.success = true then
      ∃ tracked bank saved, q = .pulls tracked bank saved ∧
        AllPulled c.bankChallengeIds bank tracked
    else q.saved = true → q = .failed true

theorem pulled_append {tracked added : List ContestsChallenge} {id : ℕ}
    (h : pulled tracked id = true) : pulled (tracked ++ added) id = true := by
  rw [pulled, List.any_append, ← pulled, h, Bool.true_or]

/-- Where the loop may end. -/
def LoopEnds (ids : List ℕ) (bank : List BankChallenge) (tracked : List ContestsChallenge)
    (q : Stage) : Except Exn (List ContestChallengeDTO) → Prop
  | .ok _ => ∃ tracked' saved', q = .pulls tracked' bank saved' ∧ AllPulled ids bank tracked' ∧
      ∀ id, pulled tracked id = true → pulled tracked' id = true
  | .error _ => ∃ saved', q = .failed saved'

/-- One more item, which is there now. -/
theorem LoopEnds.cons {ids : List ℕ} {bank : List BankChallenge}
    {tracked tracked' : List ContestsChallenge} {q : Stage}
    {r : Except Exn (List ContestChallengeDTO)} {id : ℕ} (h : LoopEnds ids bank tracked' q r)
    (hkeep : ∀ id, pulled tracked id = true → pulled tracked' id = true)
    (hid : (bank.find? (·.id = id)).isSome → pulled tracked' id = true) :
    LoopEnds (id :: ids) bank tracked q r := by
  cases r with
  | error e => exact h
  | ok dtos =>
      obtain ⟨tracked'', saved, hq, hall, hkeep'⟩ := h
      exact ⟨tracked'', saved, hq, List.forall_mem_cons.mpr ⟨fun hknown => hkeep' _ (hid hknown),
        hall⟩, fun id h => hkeep' id (hkeep id h)⟩

/-- **The loop** goes through the items. -/
theorem pullLoop_follows (c : PullCall) (bank : List BankChallenge) (items : List PullItem)
    (tracked : List ContestsChallenge) (added : List ContestChallengeDTO) (saved : Bool) :
    (pullLoop c.contestId c.userId bank items tracked added).Follows (protocol c)
      (LoopEnds (items.map (·.bankChallengeId)) bank tracked) (.pulls tracked bank saved) := by
  induction items generalizing tracked added saved with
  | nil => exact ⟨tracked, saved, rfl, fun id hid => (nomatch hid), fun id h => h⟩
  | cons item items ih =>
      rw [pullLoop]
      cases hfind : bank.find? (·.id = item.bankChallengeId) with
      | none =>
          refine (ih tracked added saved).mono fun q r h => h.cons (fun _ h => h) fun hknown => ?_
          rw [hfind] at hknown
          cases hknown
      | some b =>
          by_cases hpulled : pulled tracked item.bankChallengeId = true
          · simp only [if_pos hpulled]
            exact (ih tracked added saved).mono fun q r h => h.cons (fun _ h => h) fun _ => hpulled
          · simp only [if_neg hpulled]
            refine ⟨⟨rfl, _, rfl, Bool.eq_false_iff.mpr hpulled⟩, fun r => ?_⟩
            cases r with
            | error e => exact ⟨saved, rfl⟩
            | ok id =>
                refine (ih (tracked ++ [contestChallenge c.contestId c.userId item b]) _ true).mono
                  fun q r h => h.cons (fun _ => pulled_append) fun _ => ?_
                rw [pulled, List.any_append, Bool.or_eq_true]
                exact .inr (by simp [contestChallenge])

/-- Where the body of the `try` may end. -/
def BodyEnds (c : PullCall) (q : Stage) : Except Exn PullResponse → Prop
  | .ok response => Ends c q (.ok response)
  | .error _ => q.saved = true → q = .failed true

theorem pullInto_follows (c : PullCall) (user : User) (contest : Contest)
    (tracked : List ContestsChallenge) :
    (pullInto c user contest tracked).Follows (protocol c) (BodyEnds c) (.read tracked) := by
  rw [pullInto]
  split
  · exact ⟨.forbidden, rfl, nofun⟩
  · refine ⟨rfl, fun r => ?_⟩
    cases r with
    | error e => exact nofun
    | ok bank =>
        refine Prog.Follows.bind (p := pullLoop c.contestId c.userId bank c.challenges tracked [])
          ((pullLoop_follows c bank c.challenges tracked [] false).mono fun q r h => ?_)
        cases r with
        | error e =>
            obtain ⟨saved, rfl⟩ := h
            exact fun hsaved => congrArg Stage.failed hsaved
        | ok dtos =>
            obtain ⟨tracked', saved', rfl, hall, -⟩ := h
            exact ⟨.ok dtos, rfl, tracked', bank, saved', rfl, hall⟩

theorem pullBody_follows (c : PullCall) :
    (pullBody c).Follows (protocol c) (BodyEnds c) .begins := by
  refine ⟨trivial, fun r => ?_⟩
  cases r with
  | error e => exact nofun
  | ok user =>
      cases user with
      | none => exact ⟨.userNotFound, rfl, nofun⟩
      | some user =>
          refine ⟨rfl, fun r => ?_⟩
          cases r with
          | error e => exact nofun
          | ok found =>
              cases found with
              | none => exact ⟨.contestNotFound, rfl, nofun⟩
              | some found => exact pullInto_follows c user found.1 found.2

/-- **A call** keeps to its protocol. -/
theorem program_follows (c : PullCall) :
    (pullChallengesToContest c).Follows (protocol c) (Ends c) .begins := by
  refine Prog.Follows.handle ((pullBody_follows c).mono fun q r h => ?_)
  cases r with
  | ok response => exact h
  | error e => exact ⟨.failed, rfl, h⟩

/-! ### What one operation does -/

section Exec

variable {f : Fault} {o : PullOp} {s : PullWorld} {contestId : ℕ}

theorem exec_snd_of_not_save (h : isSave o = false) : (o.exec f s).2 = s := by
  cases o with
  | save cc => cases h
  | _ => cases f <;> rfl

theorem exec_save_snd (cc : ContestsChallenge) (f : Fault) (s : PullWorld) :
    ((PullOp.save cc).exec f s).2 =
      if f = .before then s
      else { s with contestsChallenges := s.contestsChallenges ++ [cc] } := by
  cases f <;> rfl

theorem exec_challenges (f : Fault) (o : PullOp) (s : PullWorld) :
    (o.exec f s).2.challenges = s.challenges := by
  cases o with
  | save cc => cases f <;> rfl
  | _ => cases f <;> rfl

theorem challengesOf_append (cc : ContestsChallenge) :
    PullWorld.challengesOf { s with contestsChallenges := s.contestsChallenges ++ [cc] }
      contestId = s.challengesOf contestId ++ if cc.contestId = contestId then [cc] else [] := by
  rw [PullWorld.challengesOf, List.filter_append, PullWorld.challengesOf, List.filter_singleton]
  congr 1
  by_cases h : cc.contestId = contestId
  · rw [if_pos h, decide_eq_true h, cond_true]
  · rw [if_neg h, decide_eq_false h, cond_false]

theorem challengesOf_subset (f : Fault) (o : PullOp) (s : PullWorld) (contestId : ℕ) :
    s.challengesOf contestId ⊆ (o.exec f s).2.challengesOf contestId := by
  by_cases ho : isSave o = true
  · cases o with
    | save cc =>
        rw [exec_save_snd]
        split
        · exact List.Subset.refl _
        · rw [challengesOf_append]
          exact List.subset_append_left _ _
    | _ => cases ho
  · rw [exec_snd_of_not_save (Bool.eq_false_iff.mpr ho)]
    exact List.Subset.refl _

/-- What a call does for another contest. -/
theorem challengesOf_of_ne {c : PullCall} {q : Stage} (ho : q.allows c o)
    (hne : c.contestId ≠ contestId) :
    (o.exec f s).2.challengesOf contestId = s.challengesOf contestId := by
  by_cases hsave : isSave o = true
  · cases o with
    | save cc =>
        cases q with
        | pulls tracked bank saved =>
            obtain ⟨hcc, -⟩ := ho
            rw [exec_save_snd]
            split
            · rfl
            · rw [challengesOf_append, if_neg (hcc.trans_ne hne), List.append_nil]
        | _ => cases ho
    | _ => cases hsave
  · rw [exec_snd_of_not_save (Bool.eq_false_iff.mpr hsave)]

theorem pulled_iff {w : PullWorld} {id : ℕ} :
    pulled (w.challengesOf contestId) id = true ↔ id ∈ bankIds contestId w := by
  rw [pulled, List.any_eq_true, bankIds, List.mem_filterMap]
  exact exists_congr fun cc => and_congr_right fun _ => decide_eq_true_iff

end Exec

/-! ### The invariant -/

/-- **Where a call of the contest stands** tells what is in the contest, as long as the call
is not over. -/
structure Place (contestId : ℕ) (log : List pullService.Entry) (s : PullWorld) (pid : ℕ)
    (c : PullCall) (running : Prop) (q : Stage) : Prop where
  /-- A call that has done nothing. -/
  fresh : (∀ n ∈ log, n.pid ≠ pid) → q = .begins
  /-- What was there stays. -/
  kept : ∀ tracked, q.tracked = some tracked → tracked ⊆ s.challengesOf contestId
  /-- What was read is still all that is there. -/
  current : ∀ tracked, q.tracked = some tracked → running → tracked = s.challengesOf contestId
  /-- The challenges of the bank. -/
  bank : ∀ tracked bank saved, q = .pulls tracked bank saved → ∀ id ∈ c.bankChallengeIds,
    Known s id → (bank.find? (·.id = id)).isSome
  /-- A call that has saved something. -/
  saved : q.saved = true → ∃ n ∈ log, n.pid = pid ∧ isSave n.op = true
  /-- One that has not. -/
  unsaved : q.saved = false → ∀ n ∈ log, n.pid = pid → n.after = n.before
  /-- What was saved was not followed by a failure. -/
  sound : q ≠ .failed true

section Place

variable {contestId pid : ℕ} {log : List pullService.Entry} {s : PullWorld} {c : PullCall}
  {running running' : Prop} {q : Stage}

/-- An operation of another call. -/
theorem Place.other {n : pullService.Entry} {s' : PullWorld}
    (h : Place contestId log s pid c running q) (hpid : n.pid ≠ pid)
    (hsubset : s.challengesOf contestId ⊆ s'.challengesOf contestId)
    (hbank : s'.challenges = s.challenges)
    (hsame : running → (∀ m ∈ log, m.pid ≠ pid) ∨
      s'.challengesOf contestId = s.challengesOf contestId) :
    Place contestId (log ++ [n]) s' pid c running q where
  fresh hlog := h.fresh fun m hm => hlog m (List.mem_append_left _ hm)
  kept tracked htracked := List.Subset.trans (h.kept tracked htracked) hsubset
  current tracked htracked hrunning := by
    rcases hsame hrunning with hfresh | heq
    · rw [h.fresh hfresh] at htracked
      cases htracked
    · exact heq ▸ h.current tracked htracked hrunning
  bank tracked bank saved hq id hid hknown :=
    h.bank tracked bank saved hq id hid (by rwa [Known, ← hbank])
  saved hsaved :=
    have ⟨m, hm, hboth⟩ := h.saved hsaved
    ⟨m, List.mem_append_left _ hm, hboth⟩
  unsaved hsaved m hm hmpid := by
    rcases List.mem_append.mp hm with hm | hm
    · exact h.unsaved hsaved m hm hmpid
    · obtain rfl := List.mem_singleton.mp hm
      exact absurd hmpid hpid
  sound := h.sound

/-- An operation that changes nothing, and leads to a standing that says no more. -/
theorem Place.quiet {e : Fault} {o : PullOp} {q' : Stage}
    (h : Place contestId log s pid c running q) (hafter : (o.exec e s).2 = s)
    (htracked : ∀ tracked, q'.tracked = some tracked → tracked = s.challengesOf contestId)
    (hbank : ∀ tracked bank saved, q' = .pulls tracked bank saved → ∀ id ∈ c.bankChallengeIds,
      Known s id → (bank.find? (·.id = id)).isSome)
    (hq : q.saved = false) (hq' : q'.saved = false) :
    Place contestId (log ++ [⟨pid, c, e, o, s⟩]) s pid c running' q' where
  fresh hlog := absurd rfl (hlog _ (List.mem_append_right _ (List.mem_singleton_self _)))
  kept tracked ht := htracked tracked ht ▸ List.Subset.refl _
  current tracked ht _ := htracked tracked ht
  bank := hbank
  saved hsaved := absurd (hsaved.symm.trans hq') (by decide)
  unsaved _ m hm hmpid := by
    rcases List.mem_append.mp hm with hm | hm
    · exact h.unsaved hq m hm hmpid
    · obtain rfl := List.mem_singleton.mp hm
      exact hafter
  sound hfailed := by
    rw [hfailed] at hq'
    cases hq'

/-- A save that succeeds. -/
theorem Place.save {tracked : List ContestsChallenge} {bank : List BankChallenge} {saved : Bool}
    {cc : ContestsChallenge}
    (h : Place contestId log s pid c running (.pulls tracked bank saved)) (hrunning : running)
    (hcc : cc.contestId = contestId) :
    Place contestId (log ++ [⟨pid, c, Fault.none, PullOp.save cc, s⟩])
      { s with contestsChallenges := s.contestsChallenges ++ [cc] } pid c running'
      (.pulls (tracked ++ [cc]) bank true) := by
  have hcurrent : tracked ++ [cc] = PullWorld.challengesOf
      { s with contestsChallenges := s.contestsChallenges ++ [cc] } contestId := by
    rw [challengesOf_append, if_pos hcc, h.current tracked rfl hrunning]
  exact {
    fresh := fun hlog => absurd rfl (hlog _ (List.mem_append_right _ (List.mem_singleton_self _)))
    kept := by
      rintro _ ⟨⟩
      exact hcurrent ▸ List.Subset.refl _
    current := by
      rintro _ ⟨⟩ -
      exact hcurrent
    bank := by
      rintro _ _ _ ⟨⟩
      exact h.bank _ _ _ rfl
    saved := fun _ => ⟨_, List.mem_append_right _ (List.mem_singleton_self _), rfl, rfl⟩
    unsaved := nofun
    sound := nofun }

/-- A save that fails is the first. -/
theorem saved_eq_false_of_mayFail {e : Fault} {o : PullOp}
    (h : Place contestId log s pid c running q) (ho : isSave o = true)
    (hfail : mayFail log pid e o = true) (he : e ≠ .none) : e = .before ∧ q.saved = false := by
  rw [mayFail, ho, decide_eq_false he, Bool.not_true, Bool.false_or, Bool.false_or,
    Bool.and_eq_true] at hfail
  refine ⟨of_decide_eq_true hfail.1, Bool.eq_false_iff.mpr fun hsaved => ?_⟩
  obtain ⟨n, hn, hpid, hsave⟩ := h.saved hsaved
  refine absurd hfail.2 (Bool.not_eq_true _ ▸ ?_)
  rw [Bool.not_eq_false', List.any_eq_true]
  exact ⟨n, hn, by rw [hpid, hsave, decide_eq_true rfl, Bool.true_and]⟩

/-- **One operation of a call** that may act. -/
theorem Place.step {e : Fault} {o : PullOp} (h : Place contestId log s pid c True q)
    (hc : c.contestId = contestId) (ho : q.allows c o) (hfail : mayFail log pid e o = true) :
    Place contestId (log ++ [⟨pid, c, e, o, s⟩]) (o.exec e s).2 pid c running'
      (q.next o (o.exec e s).1) := by
  cases q with
  | failed saved => cases o <;> cases ho
  | begins =>
      cases o with
      | findUser userId =>
          cases e <;> exact h.quiet rfl nofun nofun rfl rfl
      | findContest id =>
          obtain rfl : id = c.contestId := ho
          cases e with
          | none =>
              rw [exec_snd_of_not_save (by rfl)]
              cases hfind : s.contests.find? (·.id = c.contestId) with
              | none =>
                  have hreply : ((PullOp.findContest c.contestId).exec .none s).1 = .ok none := by
                    simp only [PullOp.exec, Fault.apply, hfind, Option.map_none]
                  rw [hreply]
                  exact h.quiet rfl nofun nofun rfl rfl
              | some contest =>
                  have hreply : ((PullOp.findContest c.contestId).exec .none s).1 =
                      .ok (some (contest, s.challengesOf c.contestId)) := by
                    simp only [PullOp.exec, Fault.apply, hfind, Option.map_some]
                  rw [hreply]
                  refine h.quiet rfl ?_ nofun rfl rfl
                  rintro _ ⟨⟩
                  rw [hc]
          | _ => exact h.quiet rfl nofun nofun rfl rfl
      | _ => cases ho
  | read tracked =>
      cases o with
      | bankChallenges ids =>
          obtain rfl : ids = c.bankChallengeIds := ho
          cases e with
          | none =>
              refine h.quiet rfl ?_ ?_ rfl rfl
              · rintro _ ⟨⟩
                exact h.current tracked rfl trivial
              · rintro _ _ _ ⟨⟩ id hid ⟨b, hb, rfl⟩
                rw [List.find?_isSome]
                exact ⟨b, List.mem_filter.mpr ⟨hb, List.contains_iff_mem.mpr hid⟩, by simp⟩
          | _ => exact h.quiet rfl nofun nofun rfl rfl
      | _ => cases ho
  | pulls tracked bank saved =>
      cases o with
      | save cc =>
          obtain ⟨hcc, -⟩ := ho
          by_cases he : e = .none
          · subst he
            exact h.save trivial (hcc.trans hc)
          · obtain ⟨rfl, hsaved⟩ := saved_eq_false_of_mayFail h rfl hfail he
            exact h.quiet rfl nofun nofun hsaved hsaved
      | _ => cases ho

end Place

/-! ### The run -/

/-- A call that is not over. -/
def Running : Prog pullI Exn PullResponse → Prop
  | .call _ _ => True
  | .ret _ => False

/-- No challenge is there twice, and every call of the contest is in its place. -/
structure AllPlaced (contestId : ℕ) (log : List pullService.Entry) (w : pullService.Pool)
    (qs : List Stage) : Prop where
  /-- No challenge is there twice. -/
  duplicateFree : (bankIds contestId w.shared).Nodup
  /-- The log is that of the calls there are. -/
  pids : ∀ n ∈ log, n.pid < w.procs.length
  /-- Every call of the contest. -/
  places : ∀ pid c p q, c.contestId = contestId → w.procs[pid]? = some (c, p) →
    qs[pid]? = some q → Place contestId log w.shared pid c (Running p) q

section Run

variable {contestId : ℕ} {log : List pullService.Entry} {w : pullService.Pool} {qs : List Stage}

/-- What the condition says of a call of the contest. -/
theorem Undisturbed.act {pid : ℕ} {e : Fault} {c : pullService.Call} {o : PullOp}
    {k : Except Exn o.Reply → Prog pullI Exn PullResponse}
    (h : Undisturbed contestId log w (.act pid e)) (hp : Service.Pending w pid c o k)
    (hc : c.contestId = contestId) :
    (∀ pid' c' p', pid' ≠ pid → c'.contestId = contestId → w.procs[pid']? = some (c', p') →
      Running p' → ∀ n ∈ log, n.pid ≠ pid') ∧ mayFail log pid e o = true := by
  simp only [Undisturbed, undisturbed, show w.procs[pid]? = some (c, .call o k) from hp, hc, ne_eq, not_true_eq_false, decide_false, Bool.false_or,
    Bool.and_eq_true, List.all_eq_true, List.mem_range, Bool.or_eq_true, decide_eq_true_eq,
    Bool.not_eq_true'] at h
  refine ⟨fun pid' c' p' hne hc' hp' hrunning n hn hpid => ?_, h.2⟩
  have hidle := (h.1 pid' (List.getElem?_eq_some_iff.mp hp').1).resolve_left hne
  cases p' with
  | ret r => exact hrunning
  | call o' k' =>
      rw [busy, hp'] at hidle
      simp only [hc', decide_true, Bool.true_and] at hidle
      exact absurd (List.any_eq_true.mpr ⟨n, hn, decide_eq_true hpid⟩)
        (Bool.eq_false_iff.mp hidle)

/-- One operation adds no challenge twice. -/
theorem AllPlaced.duplicateFree_exec {pid : ℕ} {e : Fault} {c : pullService.Call} {o : PullOp} {q : Stage}
    (h : AllPlaced contestId log w qs)
    (hplace : c.contestId = contestId → Place contestId log w.shared pid c True q)
    (ho : q.allows c o) : (bankIds contestId (o.exec e w.shared).2).Nodup := by
  by_cases hc : c.contestId = contestId
  · by_cases hsave : isSave o = true
    · cases o with
      | save cc =>
          cases q with
          | pulls tracked bank saved =>
              obtain ⟨hcc, id, hid, hnew⟩ := ho
              rw [exec_save_snd]
              split
              · exact h.duplicateFree
              · rw [bankIds, challengesOf_append, if_pos (hcc.trans hc), List.filterMap_append,
                  List.filterMap_cons_some hid, List.filterMap_nil]
                refine List.Nodup.append h.duplicateFree (List.nodup_singleton id) ?_
                rw [List.disjoint_singleton, ← bankIds, ← pulled_iff,
                  ← (hplace hc).current tracked rfl trivial, hnew]
                exact Bool.false_ne_true
          | _ => cases ho
      | _ => cases hsave
    · rw [exec_snd_of_not_save (Bool.eq_false_iff.mpr hsave)]
      exact h.duplicateFree
  · rw [bankIds, challengesOf_of_ne ho hc]
    exact h.duplicateFree

/-- **One step.** -/
theorem AllPlaced.act {pid : ℕ} {e : Fault} {c : pullService.Call} {o : PullOp} {q : Stage}
    {k : Except Exn o.Reply → Prog pullI Exn PullResponse}
    (h : AllPlaced contestId log w qs) (hp : Service.Pending w pid c o k)
    (hq : qs[pid]? = some q) (hg : Undisturbed contestId log w (.act pid e))
    (ho : q.allows c o) :
    AllPlaced contestId (log ++ [⟨pid, c, e, o, w.shared⟩])
      ⟨(o.exec e w.shared).2, w.procs.set pid (c, k (o.exec e w.shared).1)⟩
      (qs.set pid (q.next o (o.exec e w.shared).1)) := by
  have hplace : c.contestId = contestId → Place contestId log w.shared pid c True q :=
    fun hc => h.places pid c _ q hc hp hq
  refine ⟨h.duplicateFree_exec hplace ho, fun n hn => ?_, fun pid' c' p' q' hc' hp' hq' => ?_⟩
  · rw [List.length_set]
    rcases List.mem_append.mp hn with hn | hn
    · exact h.pids n hn
    · obtain rfl := List.mem_singleton.mp hn
      exact (List.getElem?_eq_some_iff.mp hp).1
  · change (w.procs.set pid _)[pid']? = _ at hp'
    by_cases hpid : pid = pid'
    · subst hpid
      rw [List.getElem?_set_self (List.getElem?_eq_some_iff.mp hp).1] at hp'
      rw [List.getElem?_set_self (List.getElem?_eq_some_iff.mp hq).1] at hq'
      obtain ⟨rfl, -⟩ := Prod.mk.inj (Option.some.inj hp')
      obtain rfl := Option.some.inj hq'
      exact (hplace hc').step hc' ho (hg.act hp hc').2
    · rw [List.getElem?_set_ne hpid] at hp' hq'
      refine (h.places pid' c' p' q' hc' hp' hq').other hpid
        (challengesOf_subset e o w.shared contestId) (exec_challenges e o w.shared) fun hrunning => ?_
      by_cases hc : c.contestId = contestId
      · exact .inl ((hg.act hp hc).1 pid' c' p' (Ne.symm hpid) hc' hp' hrunning)
      · exact .inr (challengesOf_of_ne ho hc)

/-- A new call. -/
theorem AllPlaced.spawn (h : AllPlaced contestId log w qs)
    (hlength : w.procs.length = qs.length) (c : pullService.Call) :
    AllPlaced contestId log ⟨w.shared, w.procs ++ [(c, pullService.program c)]⟩
      (qs ++ [.begins]) := by
  refine ⟨h.duplicateFree, fun n hn => ?_, fun pid c' p q hc' hp hq => ?_⟩
  · rw [List.length_append]
    exact Nat.lt_add_right 1 (h.pids n hn)
  · change (w.procs ++ _)[pid]? = _ at hp
    by_cases hlt : pid < w.procs.length
    · rw [List.getElem?_append_left hlt] at hp
      rw [List.getElem?_append_left (hlength ▸ hlt)] at hq
      exact h.places pid c' p q hc' hp hq
    · rw [List.getElem?_append_right (hlength ▸ Nat.le_of_not_lt hlt)] at hq
      obtain rfl := List.mem_singleton.mp (List.mem_of_getElem? hq)
      exact ⟨fun _ => rfl, nofun, nofun, nofun, nofun,
        fun _ n hn hpid => absurd (hpid ▸ h.pids n hn) hlt, nofun⟩

/-- **The run.** -/
theorem placed_of_undisturbed {s₀ : PullWorld} (hfree : (bankIds contestId s₀).Nodup)
    (h : Service.Records (Undisturbed contestId) (pullService.start s₀) log w) :
    ∃ qs, AllPlaced contestId log w qs ∧ Service.Standings protocol Ends w qs := by
  refine h.protocol_invariant (J := AllPlaced contestId) (fun _ => .begins) ?_
    (fun _ _ c _ => program_follows c) ?_ ?_ fun _ _ _ x => nomatch x
  · exact ⟨hfree, fun n hn => (nomatch hn), fun pid c p q _ hp => nomatch hp⟩
  · exact fun log w qs c hJ hst _ => hJ.spawn hst.length_eq c
  · exact fun log w qs pid e c o k q hJ _ hp hq hg hf => hJ.act hp hq hg hf.1

/-- **Pulling is all or nothing** as long as the calls for a contest do not overlap and no
save fails after another one. -/
theorem pulled_of_undisturbed (contestId : ℕ) (s₀ : PullWorld) (log : List pullService.Entry)
    (w : pullService.Pool) (hfree : (bankIds contestId s₀).Nodup)
    (h : Service.Records (Undisturbed contestId) (pullService.start s₀) log w) :
    Pulled contestId log w := by
  obtain ⟨qs, hplaced, hst⟩ := placed_of_undisturbed hfree h
  refine ⟨hplaced.duplicateFree, fun pid c r hc hfinished => ?_⟩
  obtain ⟨q, hq, hends⟩ := hst.get hfinished
  have hplace := hplaced.places pid c _ q hc hfinished hq
  obtain ⟨_, ⟨⟩, hends⟩ := hends
  split at hends
  · next hsuccess =>
      obtain ⟨tracked, bank, saved, rfl, hall⟩ := hends
      refine (if_pos hsuccess).mpr ?_
      intro id hid hknown
      have hmem := hall id hid (hplace.bank tracked bank saved rfl id hid hknown)
      rw [← pulled_iff, hc]
      obtain ⟨cc, hcc, hbank⟩ := List.any_eq_true.mp hmem
      exact List.any_eq_true.mpr ⟨cc, hplace.kept tracked rfl hcc, hbank⟩
  · next hfail =>
      refine (if_neg hfail).mpr (hplace.unsaved (Bool.eq_false_iff.mpr fun hsaved => ?_))
      exact hplace.sound (hends hsaved)

end Run

/-! ### Runs -/

/-- No properties. -/
def noProperties : Properties :=
  ⟨none, none, none, none, none, none, none, none, none, none, none, none, none, none, none, none,
    none, none, none, none, none, none, none, none, none⟩

/-- An empty contest, and a bank of two challenges. -/
def emptyContest : PullWorld :=
  ⟨[⟨1, "admin"⟩], [⟨1, some 1⟩], [⟨7, noProperties⟩, ⟨8, noProperties⟩], []⟩

/-- An administrator asks for both, for one of them twice, and for one that is not there. -/
def pullBoth : PullCall :=
  ⟨1, [⟨7, noProperties⟩, ⟨9, noProperties⟩, ⟨7, noProperties⟩, ⟨8, noProperties⟩], 1⟩

/-- Two calls, one after the other. -/
theorem pulled_example :
    ∃ log w, Service.runLogged (Undisturbed 1) [] (pullService.start emptyContest)
        (Service.callNow 0 pullBoth Fault.none 5 ++ Service.callNow 1 pullBoth Fault.none 3) =
          some (log, w) ∧
      bankIds 1 w.shared = [7, 8] ∧ Pulled 1 log w := by
  have hrun : (Service.runLogged (Undisturbed 1) [] (pullService.start emptyContest)
      (Service.callNow 0 pullBoth Fault.none 5 ++ Service.callNow 1 pullBoth Fault.none 3)).any
      (fun p => decide (bankIds 1 p.2.shared = [7, 8])) = true := by
    decide +kernel
  obtain ⟨⟨log, w⟩, hw, hids⟩ := (Option.any_eq_true _ _).mp hrun
  exact ⟨log, w, hw, of_decide_eq_true hids,
    pulled_of_undisturbed 1 emptyContest log w (by decide) (Service.records_of_runLogged .refl hw)⟩

/-- **What goes wrong.** Two calls that have both read the empty contest add the challenges
twice; a call whose second save fails leaves what the first has saved. -/
theorem not_pulled :
    ¬(∀ log w, Service.Records Service.anyLogged (pullService.start emptyContest) log w →
        (bankIds 1 w.shared).Nodup) ∧
      ¬(∀ log w, Service.Records Service.anyLogged (pullService.start emptyContest) log w →
        ∀ pid c r, c.contestId = 1 → Service.Finished w pid c (.ok r) →
          AllOrNothing log w pid c r) := by
  constructor
  · have hrun : (Service.runLogged Service.anyLogged [] (pullService.start emptyContest)
        (Service.callNow 0 pullBoth Fault.none 2 ++ Service.callNow 1 pullBoth Fault.none 5 ++
          [.act 0 Fault.none, .act 0 Fault.none])).any
        (fun p => decide (bankIds 1 p.2.shared = [7, 8, 7])) = true := by
      decide +kernel
    obtain ⟨⟨log, w⟩, hw, hids⟩ := (Option.any_eq_true _ _).mp hrun
    intro h
    have hnodup := h log w (Service.records_of_runLogged .refl hw)
    rw [of_decide_eq_true hids] at hnodup
    exact absurd hnodup (by decide)
  · have hrun : (Service.runLogged Service.anyLogged [] (pullService.start emptyContest)
        (Service.callNow 0 pullBoth Fault.none 4 ++ [.act 0 Fault.before])).any
        (fun p => decide (Service.answer p.2 0 = some ⟨pullBoth, .ok .failed⟩) &&
          p.1.any fun n => decide (n.pid = 0 ∧ n.after ≠ n.before)) = true := by
      decide +kernel
    obtain ⟨⟨log, w⟩, hw, hboth⟩ := (Option.any_eq_true _ _).mp hrun
    obtain ⟨hanswer, hany⟩ := Bool.and_eq_true_iff.mp hboth
    obtain ⟨n, hn, hchanged⟩ := List.any_eq_true.mp hany
    obtain ⟨hpid, hafter⟩ := of_decide_eq_true hchanged
    intro h
    have hall := h log w (Service.records_of_runLogged .refl hw) 0 pullBoth .failed rfl
      (Service.finished_of_answer (of_decide_eq_true hanswer))
    exact hafter (hall n hn hpid)

end PullChallenges

end Fctf
