import Fctf.Attempt
import Fctf.Lib.Protocol

/-!
# Where a Request Stands

What an attempt has done and learned so far, as a protocol of the endpoint's operations:
it has found its challenge, read how many wrong answers are stored, compared the flags,
counted a wrong answer, stored a row. Every later result about attempts speaks of these
phases and looks into no program again.

## Main results

* `follows_attempt`: the endpoint performs its operations in the order of the phases, and
  answers as its last phase says.
-/

open Concurrent RedisDb

namespace Fctf

/-! ### Phases -/

/-- Where a request stands. -/
inductive Phase where
  /-- The challenge is not known yet. -/
  | start
  /-- It is known, and nothing was compared. -/
  | found (cc : ContestsChallenge)
  /-- It was found to be solved already. -/
  | solved (cc : ContestsChallenge)
  /-- The stored wrong answers were counted. -/
  | prechecked (cc : ContestsChallenge) (fails : ℤ)
  /-- The text was found to be correct. -/
  | matched (cc : ContestsChallenge)
  /-- The solve was stored. -/
  | credited (cc : ContestsChallenge)
  /-- The solve was stored, and the lock was not free. -/
  | waiting (cc : ContestsChallenge)
  /-- The solve was stored, and the recalculation has raised. -/
  | broken (cc : ContestsChallenge)
  /-- Storing the solve has raised. -/
  | uncredited (cc : ContestsChallenge)
  /-- The text was found to be wrong. -/
  | missed (cc : ContestsChallenge)
  /-- After that the stored wrong answers were counted again. -/
  | recounted (cc : ContestsChallenge) (fails : ℤ)
  /-- The wrong answer was counted against the limit. -/
  | counted (cc : ContestsChallenge)
  /-- The limit was found to be used up after the comparison. -/
  | refused (cc : ContestsChallenge)
  /-- The wrong answer was stored. -/
  | stored (cc : ContestsChallenge)
  /-- Storing the wrong answer has raised, or the look for a solve. -/
  | failed
  deriving DecidableEq

/-- The phase after a look for the challenge. -/
def Phase.afterFind : Option ContestsChallenge → Phase
  | none => .start
  | some cc => .found cc

/-- The phase after the comparison with the flags. -/
def Phase.afterCompare (cfg : AttemptConfig) (req : ChallengeAttemptRequest)
    (cc : ContestsChallenge) (q : Phase) (flags : List Flag) : Phase :=
  match ChallengeHelper.attempt cfg.runtime req.submitted flags with
  | .ok attempt => if attempt.status then .matched cc else .missed cc
  | .error _ => q

/-- The phase after a try to get the lock. -/
def Phase.afterLock (cc : ContestsChallenge) (lockFree : Bool) : Phase :=
  if lockFree then .credited cc else .waiting cc

/-- The phase after the counter's script. -/
def Phase.afterCount (cc : ContestsChallenge) (result : ℤ) : Phase :=
  if result = -1 then .refused cc else .counted cc

/-- The phase after an operation. -/
def Phase.next (cfg : AttemptConfig) (req : ChallengeAttemptRequest) :
    Phase → (o : AttemptOp) → Except Exn o.Reply → Phase
  | .start, .findContestsChallenge _ _, .ok cc => .afterFind cc
  | .found cc, .isSolved _ _, .ok true => .solved cc
  | .found cc, .countIncorrect _ _, .ok fails => .prechecked cc fails
  | .found cc, .findFlags _, .ok flags => .afterCompare cfg req cc (.found cc) flags
  | .prechecked cc fails, .findFlags _, .ok flags =>
      .afterCompare cfg req cc (.prechecked cc fails) flags
  | .matched cc, .isSolved _ _, .ok true => .solved cc
  | .matched _, .isSolved _ _, .error _ => .failed
  | .matched cc, .addSolve _, .ok _ => .credited cc
  | .matched cc, .addSolve _, .error .duplicateKey => .solved cc
  | .matched cc, .addSolve _, .error _ => .uncredited cc
  | .credited cc, .acquireLock _, .ok lockFree => .afterLock cc lockFree
  | .waiting cc, .acquireLock _, .ok lockFree => .afterLock cc lockFree
  | .waiting cc, .acquireLock _, .error _ => .broken cc
  | .credited cc, .acquireLock _, .error _ => .broken cc
  | .credited cc, .findDynamicChallenge _, .error _ => .broken cc
  | .credited cc, .getSolveCount _ _, .error _ => .broken cc
  | .credited cc, .saveChallenge _, .error _ => .broken cc
  | .credited cc, .releaseLock _, .error _ => .broken cc
  | .missed cc, .countIncorrect _ _, .ok fails => .recounted cc fails
  | .recounted cc _, .redis (.checkAndIncrement _ _ _ _ _), .ok result => .afterCount cc result
  | .missed cc, .addFail _, .ok _ => .stored cc
  | .missed _, .addFail _, .error _ => .failed
  | .counted cc, .addFail _, .ok _ => .stored cc
  | .counted _, .addFail _, .error _ => .failed
  | q, _, _ => q

/-! ### What an operation can do to a phase -/

/-- The stored wrong answers that were counted. -/
def countRead : (o : AttemptOp) → Except Exn o.Reply → Option ℤ
  | .countIncorrect _ _, .ok fails => some fails
  | _, _ => none

/-- Whether the challenge was found to be solved. -/
def solvedRead : (o : AttemptOp) → Except Exn o.Reply → Option Bool
  | .isSolved _ _, .ok solved => some solved
  | _, _ => none

/-- What the counter's script has answered. -/
def countResult : (o : AttemptOp) → Except Exn o.Reply → Option ℤ
  | .redis (.checkAndIncrement _ _ _ _ _), .ok result => some result
  | _, _ => none

/-- What a comparison with the flags told. -/
def comparison (cfg : AttemptConfig) (req : ChallengeAttemptRequest) :
    (o : AttemptOp) → Except Exn o.Reply → Option Bool
  | .findFlags _, .ok flags =>
      match ChallengeHelper.attempt cfg.runtime req.submitted flags with
      | .ok attempt => some attempt.status
      | .error _ => none
  | _, _ => none

/-- Only the load of the flags is a comparison. -/
theorem comparison_eq_some {cfg : AttemptConfig} {req : ChallengeAttemptRequest}
    {o : AttemptOp} {r : Except Exn o.Reply} {b : Bool}
    (h : comparison cfg req o r = some b) : ∃ bankId, o = .findFlags bankId := by
  unfold comparison at h
  split at h
  · exact ⟨_, rfl⟩
  · cases h

/-- The operations of the recalculation. -/
def recalculationOp : AttemptOp → Prop
  | .acquireLock _ => True
  | .findDynamicChallenge _ => True
  | .getSolveCount _ _ => True
  | .saveChallenge _ => True
  | .releaseLock _ => True
  | _ => False

/-- From a phase to the next one, by an operation with a reply. -/
inductive Phase.Step (cfg : AttemptConfig) (req : ChallengeAttemptRequest) (o : AttemptOp)
    (r : Except Exn o.Reply) : Phase → Phase → Prop
  /-- Nothing that matters. -/
  | stay (q : Phase) : Step cfg req o r q q
  /-- The challenge was found. -/
  | find (cc : ContestsChallenge) : Step cfg req o r .start (.found cc)
  /-- The challenge was found to be solved. -/
  | findSolved (cc : ContestsChallenge) (q : Phase) (hq : q = .found cc ∨ q = .matched cc)
      (h : solvedRead o r = some true) : Step cfg req o r q (.solved cc)
  /-- The stored wrong answers were counted before the comparison. -/
  | precheck (cc : ContestsChallenge) (fails : ℤ) (h : countRead o r = some fails) :
      Step cfg req o r (.found cc) (.prechecked cc fails)
  /-- The text was compared. -/
  | compare (cc : ContestsChallenge) (q : Phase) (b : Bool)
      (hq : q = .found cc ∨ ∃ fails, q = .prechecked cc fails)
      (h : comparison cfg req o r = some b) :
      Step cfg req o r q (if b then .matched cc else .missed cc)
  /-- Whether it is solved could not be found out. -/
  | unread (cc : ContestsChallenge) (id t : ℤ) (h : o = .isSolved id t)
      (hr : r.isOk = false) : Step cfg req o r (.matched cc) .failed
  /-- There is such a solve. -/
  | duplicate (cc : ContestsChallenge) (s : NewSubmission) (h : o = .addSolve s)
      (hr : r = .error .duplicateKey) : Step cfg req o r (.matched cc) (.solved cc)
  /-- The solve was stored, or not. -/
  | insertSolve (cc : ContestsChallenge) (s : NewSubmission) (h : o = .addSolve s)
      (hr : r ≠ .error .duplicateKey) :
      Step cfg req o r (.matched cc) (if r.isOk then .credited cc else .uncredited cc)
  /-- The lock was got, or not. -/
  | lock (cc : ContestsChallenge) (q : Phase) (key : String) (lockFree : Bool)
      (hq : q = .credited cc ∨ q = .waiting cc) (h : o = .acquireLock key)
      (hr : r.isOk = true) : Step cfg req o r q (.afterLock cc lockFree)
  /-- The recalculation has raised. -/
  | breaks (cc : ContestsChallenge) (q : Phase) (hq : q = .credited cc ∨ q = .waiting cc)
      (h : recalculationOp o) (hr : r.isOk = false) : Step cfg req o r q (.broken cc)
  /-- The stored wrong answers were counted after the comparison. -/
  | recount (cc : ContestsChallenge) (fails : ℤ) (h : countRead o r = some fails) :
      Step cfg req o r (.missed cc) (.recounted cc fails)
  /-- The wrong answer was counted against the limit, or refused. -/
  | count (cc : ContestsChallenge) (fails result : ℤ) (h : countResult o r = some result) :
      Step cfg req o r (.recounted cc fails) (.afterCount cc result)
  /-- The wrong answer was stored, or not. -/
  | insertFail (cc : ContestsChallenge) (q : Phase) (s : NewSubmission)
      (hq : q = .missed cc ∨ q = .counted cc) (h : o = .addFail s) :
      Step cfg req o r q (if r.isOk then .stored cc else .failed)

/-- The comparison, as a step. -/
theorem Phase.step_afterCompare {cfg : AttemptConfig} {req : ChallengeAttemptRequest}
    {cc : ContestsChallenge} {q : Phase} (hq : q = .found cc ∨ ∃ fails, q = .prechecked cc fails)
    (bankId : ℤ) (flags : List Flag) :
    Phase.Step cfg req (.findFlags bankId) (.ok flags) q (.afterCompare cfg req cc q flags) := by
  rw [Phase.afterCompare]
  cases h : ChallengeHelper.attempt cfg.runtime req.submitted flags with
  | error e => exact .stay q
  | ok attempt => exact .compare cc q attempt.status hq (by simp only [comparison, h])

/-- **Everything an operation can do to a phase.** -/
theorem Phase.step_next (cfg : AttemptConfig) (req : ChallengeAttemptRequest) (q : Phase)
    (o : AttemptOp) (r : Except Exn o.Reply) :
    Phase.Step cfg req o r q (q.next cfg req o r) := by
  unfold Phase.next
  split
  · next cc =>
      cases cc with
      | none => exact .stay _
      | some cc => exact .find cc
  · exact .findSolved _ _ (.inl rfl) rfl
  · exact .precheck _ _ rfl
  · exact Phase.step_afterCompare (.inl rfl) _ _
  · exact Phase.step_afterCompare (.inr ⟨_, rfl⟩) _ _
  · exact .findSolved _ _ (.inr rfl) rfl
  · exact .unread _ _ _ rfl rfl
  · exact .insertSolve _ _ rfl fun h => nomatch h
  · exact .duplicate _ _ rfl rfl
  · next hne => exact .insertSolve _ _ rfl fun h => hne (Except.error.inj h)
  · exact .lock _ _ _ _ (.inl rfl) rfl rfl
  · exact .lock _ _ _ _ (.inr rfl) rfl rfl
  · exact .breaks _ _ (.inr rfl) trivial rfl
  · exact .breaks _ _ (.inl rfl) trivial rfl
  · exact .breaks _ _ (.inl rfl) trivial rfl
  · exact .breaks _ _ (.inl rfl) trivial rfl
  · exact .breaks _ _ (.inl rfl) trivial rfl
  · exact .breaks _ _ (.inl rfl) trivial rfl
  · exact .recount _ _ rfl
  · exact .count _ _ _ rfl
  · exact .insertFail _ _ _ (.inl rfl) rfl
  · exact .insertFail _ _ _ (.inl rfl) rfl
  · exact .insertFail _ _ _ (.inr rfl) rfl
  · exact .insertFail _ _ _ (.inr rfl) rfl
  · exact .stay _

/-! ### Operations in a phase -/

/-- A request about the cooldown. -/
def cooldownRequest (req : ChallengeAttemptRequest) (cc : ContestsChallenge) :
    RedisOp ChallengeDeploymentCacheDTO → Prop
  | .utcNow => True
  | .checkCooldown key _ _ ttl =>
      key = cooldownKey req.contestId cc.id req.teamId ∧ ttl = 600
  | _ => False

/-- A request about the wrong answers of a minute. -/
def kpmRequest (userId : ℤ) : RedisOp ChallengeDeploymentCacheDTO → Prop
  | .utcNow => True
  | .incr key => ∃ minute, key = kpmKey userId minute
  | .timeToLive key => ∃ minute, key = kpmKey userId minute
  | .expire key ttl => (∃ minute, key = kpmKey userId minute) ∧ ttl = 90
  | _ => False

/-- The request that counts a wrong answer against the limit. -/
def countRequest (req : ChallengeAttemptRequest) (cc : ContestsChallenge) (fails : ℤ) :
    RedisOp ChallengeDeploymentCacheDTO → Prop
  | .checkAndIncrement key maxAttempts _ actualDbCount ttl =>
      key = attemptKey req.contestId cc.id req.teamId ∧ attemptLimit cc = some maxAttempts ∧
        actualDbCount = fails ∧ ttl = 86400
  | _ => False

/-- The operations of the checks. -/
def checkOp (req : ChallengeAttemptRequest) (cc : ContestsChallenge) : AttemptOp → Prop
  | .redis o => cooldownRequest req cc o
  | .captainId _ => True
  | .contestChallengeIds _ => True
  | .solvedBankIds _ _ => True
  | .allBankIds _ => True
  | _ => False

/-- The operations after a row was stored. -/
def followUpOp : AttemptOp → Prop
  | .redis (.keyExists _) => True
  | .forceStop _ _ => True
  | .saveActionLogs _ _ _ => True
  | _ => False

/-- The row is for this request. -/
def ownRow (req : ChallengeAttemptRequest) (cc : ContestsChallenge) (s : NewSubmission) :
    Prop :=
  s.contestChallengeId = cc.id ∧ s.teamId = req.teamId

/-- The operations allowed in a phase. -/
def Phase.allows (req : ChallengeAttemptRequest) : Phase → AttemptOp → Prop
  | .start, .findUser _ => True
  | .start, .findContestsChallenge id contestId =>
      id = req.challengeId ∧ contestId = req.contestId
  | .found cc, .isSolved id teamId => id = cc.id ∧ teamId = req.teamId
  | .found cc, .countIncorrect id teamId => id = cc.id ∧ teamId = req.teamId
  | .found cc, .findFlags _ => attemptLimit cc = none
  | .found cc, o => checkOp req cc o
  | .prechecked cc fails, .findFlags _ => ∃ n, attemptLimit cc = some n ∧ fails < n
  | .matched cc, .isSolved id teamId => id = cc.id ∧ teamId = req.teamId
  | .matched cc, .addSolve s => ownRow req cc s
  | .credited cc, .saveChallenge row => ∃ value, row = { cc with value := value }
  | .credited _, o => recalculationOp o ∨ followUpOp o
  | .waiting _, .acquireLock _ => True
  | .broken _, .releaseLock _ => True
  | .missed _, .redis o => kpmRequest req.userId o
  | .missed cc, .countIncorrect id teamId => id = cc.id ∧ teamId = req.teamId
  | .missed cc, .addFail s => attemptLimit cc = none ∧ ownRow req cc s
  | .recounted cc fails, .redis o => countRequest req cc fails o
  | .counted cc, .addFail s => ownRow req cc s
  | .stored _, o => followUpOp o
  | _, _ => False

/-- The endpoint's protocol. -/
def attemptProtocol (cfg : AttemptConfig) (req : ChallengeAttemptRequest) :
    Protocol attemptI Exn Phase where
  allows := Phase.allows req
  next := Phase.next cfg req

/-! ### Answers -/

/-- The request was turned away before the comparison. -/
def TurnedAway (a : AttemptResponse) : Prop :=
  400 ≤ a.httpStatus ∧ a.status ≠ some .correct ∧ a.status ≠ some .incorrect

/-- The request raised. -/
def Raised (r : Except Exn AttemptResponse) : Prop := ∃ e, r = .error e

/-- What a request answers in its last phase. -/
def Phase.answers : Phase → Except Exn AttemptResponse → Prop
  | .start, r | .found _, r => Raised r ∨ ∃ a, r = .ok a ∧ TurnedAway a
  | .prechecked cc fails, r =>
      Raised r ∨ (∃ n, attemptLimit cc = some n ∧ n ≤ fails) ∧ r = .ok .noTries
  | .solved _, r => r = .ok .alreadySolved
  | .matched _, _ => False
  | .credited _, r => ∃ a, r = .ok a ∧ a.httpStatus = 200 ∧ a.status = some .correct
  | .waiting _, r | .broken _, r | .failed, r => Raised r
  | .uncredited _, r => r = .ok .notRecorded
  | .missed _, r =>
      Raised r ∨ ∃ a, r = .ok a ∧ a.httpStatus = 429 ∧ a.status = some .ratelimited
  | .recounted _ _, r => Raised r
  | .counted _, _ => False
  | .refused _, r => r = .ok .noTries
  | .stored _, r => ∃ a, r = .ok a ∧ a.httpStatus = 200 ∧ a.status = some .incorrect

/-- The wrong answer was accepted and stored. -/
def Accepted (r : Except Exn AttemptResponse) : Prop :=
  ∃ a, r = .ok a ∧ a.httpStatus = 200 ∧ a.status = some .incorrect

/-- The wrong answer was refused for the limit. -/
def Refused (r : Except Exn AttemptResponse) : Prop := r = .ok .noTries

/-- The submission was answered to be correct. -/
def Credited (r : Except Exn AttemptResponse) : Prop :=
  ∃ a, r = .ok a ∧ a.status = some .correct

theorem turnedAway_plain {httpStatus : ℕ} {success : Bool} {status : AttemptStatus}
    {message : String} (hhttp : 400 ≤ httpStatus) (hc : status ≠ .correct)
    (hi : status ≠ .incorrect) : TurnedAway (.plain httpStatus success status message) :=
  ⟨hhttp, fun h => hc (Option.some.inj h), fun h => hi (Option.some.inj h)⟩

theorem turnedAway_wait {httpStatus : ℕ} {status : AttemptStatus} {message : String}
    {cooldown : ℤ} (hhttp : 400 ≤ httpStatus) (hc : status ≠ .correct)
    (hi : status ≠ .incorrect) : TurnedAway (.wait httpStatus status message cooldown) :=
  ⟨hhttp, fun h => hc (Option.some.inj h), fun h => hi (Option.some.inj h)⟩

theorem turnedAway_of_data {a : AttemptResponse} (hhttp : 400 ≤ a.httpStatus)
    (hdata : a.data = none) : TurnedAway a := by
  have hstatus : a.status = none := by rw [AttemptResponse.status, hdata, Option.map_none]
  refine ⟨hhttp, ?_, ?_⟩ <;> rw [hstatus] <;> exact fun h => nomatch h

/-- A phase's answer tells a status. -/
theorem status_of_answers {q : Phase} {a : AttemptResponse} (h : q.answers (.ok a)) :
    match q with
    | .start | .found _ => TurnedAway a
    | .prechecked cc fails => (∃ n, attemptLimit cc = some n ∧ n ≤ fails) ∧ a = .noTries
    | .solved _ => a = .alreadySolved
    | .credited _ => a.httpStatus = 200 ∧ a.status = some .correct
    | .uncredited _ => a = .notRecorded
    | .missed _ => a.httpStatus = 429 ∧ a.status = some .ratelimited
    | .refused _ => a = .noTries
    | .stored _ => a.httpStatus = 200 ∧ a.status = some .incorrect
    | .matched _ | .waiting _ | .broken _ | .recounted _ _ | .counted _ | .failed => False := by
  have hraised : ¬Raised (.ok a) := fun ⟨_, he⟩ => nomatch he
  cases q with
  | start =>
      obtain ⟨_, hb, ht⟩ := h.resolve_left hraised
      obtain rfl := Except.ok.inj hb
      exact ht
  | found cc =>
      obtain ⟨_, hb, ht⟩ := h.resolve_left hraised
      obtain rfl := Except.ok.inj hb
      exact ht
  | prechecked cc fails =>
      obtain ⟨hn, ha⟩ := h.resolve_left hraised
      exact ⟨hn, Except.ok.inj ha⟩
  | solved cc => exact Except.ok.inj h
  | credited cc =>
      obtain ⟨_, hb, ht⟩ := h
      obtain rfl := Except.ok.inj hb
      exact ht
  | uncredited cc => exact Except.ok.inj h
  | missed cc =>
      obtain ⟨_, hb, ht⟩ := h.resolve_left hraised
      obtain rfl := Except.ok.inj hb
      exact ht
  | refused cc => exact Except.ok.inj h
  | stored cc =>
      obtain ⟨_, hb, ht⟩ := h
      obtain rfl := Except.ok.inj hb
      exact ht
  | matched cc | counted cc => exact h
  | _ => exact hraised h

/-- Only a wrong answer that was stored is accepted. -/
theorem stored_of_accepted {q : Phase} {r : Except Exn AttemptResponse} (h : q.answers r)
    (hr : Accepted r) : ∃ cc, q = .stored cc := by
  obtain ⟨a, rfl, hhttp, hstatus⟩ := hr
  have ha := status_of_answers h
  cases q with
  | stored cc => exact ⟨cc, rfl⟩
  | start | found cc => exact absurd hstatus ha.2.2
  | prechecked cc fails =>
      rw [ha.2] at hhttp
      cases hhttp
  | solved cc =>
      rw [ha] at hstatus
      cases hstatus
  | credited cc =>
      rw [ha.2] at hstatus
      cases hstatus
  | uncredited cc =>
      rw [ha] at hstatus
      cases hstatus
  | missed cc =>
      rw [ha.1] at hhttp
      cases hhttp
  | refused cc =>
      rw [ha] at hhttp
      cases hhttp
  | _ => exact ha.elim

/-- Only a request that has found the limit used up is refused for it. -/
theorem limited_of_refused {q : Phase} {r : Except Exn AttemptResponse} (h : q.answers r)
    (hr : Refused r) :
    (∃ cc fails n, q = .prechecked cc fails ∧ attemptLimit cc = some n ∧ n ≤ fails) ∨
      ∃ cc, q = .refused cc := by
  obtain rfl := hr
  have ha := status_of_answers h
  cases q with
  | start | found cc => exact absurd rfl ha.2.2
  | prechecked cc fails =>
      obtain ⟨n, hn, hle⟩ := ha.1
      exact .inl ⟨cc, fails, n, rfl, hn, hle⟩
  | refused cc => exact .inr ⟨cc, rfl⟩
  | solved cc => cases ha
  | credited cc => cases ha.2
  | uncredited cc => cases ha
  | missed cc => cases ha.2
  | stored cc => cases ha.1
  | _ => exact ha.elim

/-- Only a submission that was credited is answered to be correct. -/
theorem credited_of_answers {q : Phase} {r : Except Exn AttemptResponse} (h : q.answers r)
    (hr : Credited r) : ∃ cc, q = .credited cc := by
  obtain ⟨a, rfl, hstatus⟩ := hr
  have ha := status_of_answers h
  cases q with
  | credited cc => exact ⟨cc, rfl⟩
  | start | found cc => exact absurd hstatus ha.2.1
  | prechecked cc fails =>
      rw [ha.2] at hstatus
      cases hstatus
  | solved cc =>
      rw [ha] at hstatus
      cases hstatus
  | uncredited cc =>
      rw [ha] at hstatus
      cases hstatus
  | missed cc =>
      rw [ha.2] at hstatus
      cases hstatus
  | refused cc =>
      rw [ha] at hstatus
      cases hstatus
  | stored cc =>
      rw [ha.2] at hstatus
      cases hstatus
  | _ => exact ha.elim

/-! ### The walk -/

section Walk

variable {cfg : AttemptConfig} {req : ChallengeAttemptRequest} {cc : ContestsChallenge}
  {bank : Challenge} {α : Type}

/-- The checks stay in their phase. -/
theorem next_of_checkOp {o : AttemptOp} (h : checkOp req cc o) (r : Except Exn o.Reply) :
    Phase.next cfg req (.found cc) o r = .found cc := by
  cases o with
  | redis o => cases o <;> rfl
  | captainId t => rfl
  | contestChallengeIds c => rfl
  | solvedBankIds ids t => rfl
  | allBankIds c => rfl
  | _ => exact h.elim

theorem allows_of_checkOp {o : AttemptOp} (h : checkOp req cc o) :
    Phase.allows req (.found cc) o := by
  cases o with
  | isSolved cc t => exact h.elim
  | countIncorrect cc t => exact h.elim
  | findFlags id => exact h.elim
  | _ => exact h

/-- What is done after a row was stored stays in its phase. -/
theorem next_of_followUpOp {o : AttemptOp} (h : followUpOp o) (cfg : AttemptConfig)
    (req : ChallengeAttemptRequest) (cc : ContestsChallenge) (r : Except Exn o.Reply) :
    Phase.next cfg req (.credited cc) o r = .credited cc ∧
      Phase.next cfg req (.stored cc) o r = .stored cc := by
  cases o with
  | redis o => exact ⟨rfl, rfl⟩
  | forceStop cc t => exact ⟨rfl, rfl⟩
  | saveActionLogs a u cc => exact ⟨rfl, rfl⟩
  | _ => exact h.elim

/-- A program of checks, and what it returns. -/
theorem follows_of_checks {p : Prog attemptI Exn α} (h : p.Throughout (checkOp req cc)) :
    p.Follows (attemptProtocol cfg req) (fun q _ => q = .found cc) (.found cc) :=
  Prog.Follows.of_throughout
    (h.mono fun _ ho => ⟨allows_of_checkOp ho, fun r => next_of_checkOp ho r⟩) fun _ => rfl

theorem throughout_query {φ : AttemptOp → Prop} {o : AttemptOp} (h : φ o) :
    (query o).Throughout φ :=
  ⟨h, fun _ => trivial⟩

/-- What follows the storing of an answer. -/
theorem throughout_stopDeployment (cc : ContestsChallenge) (contestId teamId : ℤ) :
    (stopDeployment cc contestId teamId).Throughout followUpOp := by
  rw [stopDeployment]
  split
  · refine .bind (.handle (throughout_query trivial) fun _ => trivial) fun deployed => ?_
    split
    · exact .handle (throughout_query trivial) fun _ => trivial
    · trivial
  · trivial

theorem throughout_logAction (actionType : ℤ) (cc : ContestsChallenge) (userId : ℤ) :
    (logAction actionType cc userId).Throughout followUpOp :=
  .handle (throughout_query trivial) fun _ => trivial

theorem throughout_answerFail (req : ChallengeAttemptRequest) (cc : ContestsChallenge)
    (user : Option User) (attempt : AttemptDTO) (fails : ℤ) :
    (answerFail req cc user attempt fails).Throughout followUpOp := by
  refine .bind (throughout_logAction _ _ _) fun _ => ?_
  split
  · trivial
  refine .bind ?_ fun _ => trivial
  rw [stopIfUsedUp]
  split
  · exact throughout_stopDeployment _ _ _
  · trivial

theorem captainMaySubmit_checks (teamId userId : ℤ) :
    (captainMaySubmit cfg teamId userId).Throughout (checkOp req cc) := by
  rw [captainMaySubmit]
  split
  · refine .bind (throughout_query trivial) fun captainId => ?_
    split <;> trivial
  · trivial

theorem remainingCooldown_checks :
    (remainingCooldown cc req.contestId req.teamId).Throughout (checkOp req cc) := by
  rw [remainingCooldown]
  split
  · refine .bind (throughout_query trivial) fun now => ?_
    refine .bind (throughout_query ⟨rfl, rfl⟩) fun check => ?_
    split <;> trivial
  · trivial

theorem prerequisitesSolved_checks (contestId teamId : ℤ) :
    (prerequisitesSolved bank contestId teamId).Throughout (checkOp req cc) := by
  rw [prerequisitesSolved]
  split
  · trivial
  · split
    · trivial
    · refine .handle ?_ fun _ => trivial
      refine .bind (throughout_query trivial) fun ids => ?_
      refine .bind (throughout_query trivial) fun solved => ?_
      exact .bind (throughout_query trivial) fun all => trivial

/-- The checks of the request turn it away or let it pass. -/
theorem follows_requestChecks :
    (requestChecks cfg req cc).Follows (attemptProtocol cfg req)
      (fun q r => q = .found cc ∧ ∀ a, r = .ok (some a) → TurnedAway a) (.found cc) := by
  have hsome : ∀ {a : AttemptResponse}, TurnedAway a →
      ∀ b, (Except.ok (some a) : Except Exn _) = .ok (some b) → TurnedAway b := by
    rintro a ha b h
    obtain rfl := Option.some.inj (Except.ok.inj h)
    exact ha
  simp only [requestChecks]
  split
  · exact ⟨rfl, hsome (turnedAway_plain (by decide) (by decide) (by decide))⟩
  split
  · exact ⟨rfl, hsome (turnedAway_of_data (by decide) rfl)⟩
  split
  · exact ⟨rfl, hsome (turnedAway_plain (by decide) (by decide) (by decide))⟩
  split
  · exact ⟨rfl, hsome (turnedAway_plain (by decide) (by decide) (by decide))⟩
  refine Prog.Follows.bind ((follows_of_checks (captainMaySubmit_checks _ _)).mono
    fun q r hq => ?_)
  subst hq
  cases r with
  | error e => exact ⟨rfl, fun a h => nomatch h⟩
  | ok may =>
      dsimp only
      split
      · exact ⟨rfl, hsome (turnedAway_plain (by decide) (by decide) (by decide))⟩
      refine Prog.Follows.bind ((follows_of_checks remainingCooldown_checks).mono
        fun q r hq => ?_)
      subst hq
      cases r with
      | error e => exact ⟨rfl, fun a h => nomatch h⟩
      | ok remaining =>
          cases remaining with
          | none => exact ⟨rfl, fun a h => nomatch h⟩
          | some seconds =>
              exact ⟨rfl, hsome (turnedAway_wait (by decide) (by decide) (by decide))⟩

/-- The flags may be compared: there is no limit, or it is not used up. -/
def MayCompare (cc : ContestsChallenge) (q : Phase) : Prop :=
  q = .found cc ∧ attemptLimit cc = none ∨
    ∃ fails n, q = .prechecked cc fails ∧ attemptLimit cc = some n ∧ fails < n

/-- Where the checks of the challenge end. -/
def ChecksEnd (cc : ContestsChallenge) (q : Phase) :
    Except Exn (Option AttemptResponse) → Prop
  | .ok none => MayCompare cc q
  | .ok (some a) => q.answers (.ok a)
  | .error _ => q = .found cc

/-- The check of the limit turns the request away, or it may be compared. -/
theorem follows_attemptsLeft :
    (match attemptLimit cc with
      | none => pure none
      | some maxAttempts => do
          let currentFailsPreCheck : ℤ ← query (.countIncorrect cc.id req.teamId)
          if maxAttempts ≤ currentFailsPreCheck then return some .noTries
          return none : Prog attemptI Exn (Option AttemptResponse)).Follows
      (attemptProtocol cfg req) (ChecksEnd cc) (.found cc) := by
  cases hlimit : attemptLimit cc with
  | none => exact Or.inl ⟨rfl, hlimit⟩
  | some n =>
      have hreply : ∀ fails : ℤ,
          (if n ≤ fails then pure (some .noTries) else pure none :
            Prog attemptI Exn (Option AttemptResponse)).Follows (attemptProtocol cfg req)
            (ChecksEnd cc) (.prechecked cc fails) := by
        intro fails
        split
        · next hle => exact Or.inr ⟨⟨n, hlimit, hle⟩, rfl⟩
        · next hlt => exact Or.inr ⟨fails, n, rfl, hlimit, not_le.mp hlt⟩
      refine ⟨⟨rfl, rfl⟩, fun r => ?_⟩
      cases r with
      | error e => rfl
      | ok fails => exact hreply fails

/-- The checks of the challenge turn the request away, or it may be compared. -/
theorem follows_challengeChecks :
    (challengeChecks cc bank req.contestId req.teamId).Follows (attemptProtocol cfg req)
      (ChecksEnd cc) (.found cc) := by
  simp only [challengeChecks]
  split
  · exact .inr ⟨_, rfl, turnedAway_of_data (by decide) rfl⟩
  split
  · exact .inr ⟨_, rfl, turnedAway_of_data (by decide) rfl⟩
  refine Prog.Follows.bind ((follows_of_checks (prerequisitesSolved_checks _ _)).mono
    fun q r hq => ?_)
  subst hq
  cases r with
  | error e => rfl
  | ok solved =>
      dsimp only
      split
      · exact .inr ⟨_, rfl, turnedAway_of_data (by decide) rfl⟩
      refine ⟨⟨rfl, rfl⟩, fun r => ?_⟩
      cases r with
      | error e => rfl
      | ok solvePreCheck =>
          cases solvePreCheck with
          | true => rfl
          | false => exact follows_attemptsLeft

/-- The comparison tells right from wrong. -/
theorem follows_compareFlags {q : Phase} (hq : MayCompare cc q) :
    (compareFlags cfg bank req.submitted).Follows (attemptProtocol cfg req)
      (fun q' r =>
        match r with
        | .ok attempt => q' = if attempt.status then .matched cc else .missed cc
        | .error _ => q' = q) q := by
  have hcompared : ∀ flags : List Flag,
      (match ChallengeHelper.attempt cfg.runtime req.submitted flags with
        | .ok attempt => pure attempt
        | .error e => throw e : Prog attemptI Exn AttemptDTO).Follows (attemptProtocol cfg req)
        (fun q' r =>
          match r with
          | .ok attempt => q' = if attempt.status then .matched cc else .missed cc
          | .error _ => q' = q) (.afterCompare cfg req cc q flags) := by
    intro flags
    rw [Phase.afterCompare]
    split <;> rfl
  obtain ⟨rfl, hlimit⟩ | ⟨fails, n, rfl, hlimit, hlt⟩ := hq
  · refine ⟨hlimit, fun r => ?_⟩
    cases r with
    | error e => rfl
    | ok flags => exact hcompared flags
  · refine ⟨⟨n, hlimit, hlt⟩, fun r => ?_⟩
    cases r with
    | error e => rfl
    | ok flags => exact hcompared flags

/-! #### The correct branch -/

/-- A row was stored. -/
def Phase.saved (cc : ContestsChallenge) (q : Phase) : Prop :=
  q = .credited cc ∨ q = .stored cc

/-- A program that leaves the phase as it is and does not raise. -/
def Quiet (cfg : AttemptConfig) (req : ChallengeAttemptRequest) (q : Phase)
    (p : Prog attemptI Exn α) : Prop :=
  p.Follows (attemptProtocol cfg req) (fun q' r => q' = q ∧ ∃ a, r = .ok a) q

/-- A quiet program can be passed over. -/
theorem Quiet.bind {q : Phase} {p : Prog attemptI Exn α} {β : Type}
    {f : α → Prog attemptI Exn β} {post : Phase → Except Exn β → Prop}
    (hp : Quiet cfg req q p) (hf : ∀ a, (f a).Follows (attemptProtocol cfg req) post q) :
    (p >>= f).Follows (attemptProtocol cfg req) post q := by
  refine Prog.Follows.bind (hp.mono fun q' r hr => ?_)
  obtain ⟨rfl, a, rfl⟩ := hr
  exact hf a

/-- What is done after a row was stored is allowed after a solve. -/
theorem allows_followUpOp {o : AttemptOp} (h : followUpOp o) :
    (Phase.credited cc).allows req o := by
  cases o with
  | redis o => exact Or.inr h
  | forceStop id t => exact Or.inr trivial
  | saveActionLogs actionType userId id => exact Or.inr trivial
  | _ => exact h.elim

/-- A failure after a row was stored is only logged. -/
theorem quiet_handle {q : Phase} (hq : q.saved cc) {p : Prog attemptI Exn α} {a : α}
    (h : p.Throughout followUpOp) : Quiet cfg req q (p.handle fun _ => pure a) := by
  refine Prog.Follows.handle (Prog.Follows.of_throughout
    (h.mono fun o ho => ?_) fun r => ?_)
  · obtain rfl | rfl := hq
    · exact ⟨allows_followUpOp ho, fun r => (next_of_followUpOp ho cfg req cc r).1⟩
    · exact ⟨ho, fun r => (next_of_followUpOp ho cfg req cc r).2⟩
  · cases r with
    | error e => exact ⟨rfl, a, rfl⟩
    | ok b => exact ⟨rfl, b, rfl⟩

theorem quiet_logAction {q : Phase} (hq : q.saved cc) (actionType userId : ℤ) :
    Quiet cfg req q (logAction actionType cc userId) :=
  quiet_handle hq (throughout_query trivial)

theorem quiet_keyExists {q : Phase} (hq : q.saved cc) (key : String) :
    Quiet cfg req q (keyExistsAsync key : Prog attemptI Exn Bool) :=
  quiet_handle (p := query (.redis (.keyExists key))) (a := false) hq
    (throughout_query (o := .redis (.keyExists key)) trivial)

theorem quiet_stopDeployment {q : Phase} (hq : q.saved cc) (contestId teamId : ℤ) :
    Quiet cfg req q (stopDeployment cc contestId teamId) := by
  rw [stopDeployment]
  split
  · refine (quiet_keyExists hq _).bind fun deployed => ?_
    split
    · exact quiet_handle hq (throughout_query trivial)
    · exact ⟨rfl, (), rfl⟩
  · exact ⟨rfl, (), rfl⟩

/-- Where the recalculation ends: it raises only if an operation of it has, or the lock
was not free. -/
def RecalculationEnd (cc : ContestsChallenge) (q : Phase) : Except Exn α → Prop
  | .ok _ => q = .credited cc
  | .error _ => q = .waiting cc ∨ q = .broken cc

/-- One try to get the lock. -/
theorem follows_tryLock {lockKey : String} {rest : Prog attemptI Exn Unit} {q : Phase}
    (hq : q = .credited cc ∨ q = .waiting cc)
    (hrest : rest.Follows (attemptProtocol cfg req) (RecalculationEnd cc) (.waiting cc)) :
    (do
      let lockAcquired : Bool ← query (.acquireLock lockKey)
      if lockAcquired then pure () else rest).Follows
      (attemptProtocol cfg req) (RecalculationEnd cc) q := by
  have hreply : ∀ lockFree : Bool,
      (if lockFree then pure () else rest : Prog attemptI Exn Unit).Follows
        (attemptProtocol cfg req) (RecalculationEnd cc) (.afterLock cc lockFree) := by
    rintro (_ | _)
    · exact hrest
    · rfl
  rcases hq with rfl | rfl
  · refine ⟨.inl trivial, fun r => ?_⟩
    cases r with
    | error e => exact Or.inr rfl
    | ok lockFree => exact hreply lockFree
  · refine ⟨trivial, fun r => ?_⟩
    cases r with
    | error e => exact Or.inr rfl
    | ok lockFree => exact hreply lockFree

theorem follows_awaitLock (lockKey : String) (moreTries : ℕ) {q : Phase}
    (hq : q = .credited cc ∨ q = .waiting cc) :
    (awaitLock lockKey moreTries).Follows (attemptProtocol cfg req) (RecalculationEnd cc)
      q := by
  induction moreTries generalizing q with
  | zero => exact follows_tryLock hq (Or.inl rfl)
  | succ n ih => exact follows_tryLock hq (ih (.inr rfl))

/-- The body of the recalculation raises only if an operation of it does. -/
theorem follows_newValue (contestId : ℤ) :
    (newValue cfg cc contestId).Follows (attemptProtocol cfg req)
      (fun q r =>
        match r with
        | .ok _ => q = .credited cc
        | .error _ => q = .broken cc) (.credited cc) := by
  refine ⟨.inl trivial, fun r => ?_⟩
  cases r with
  | error e => rfl
  | ok dynamicChallenge =>
      cases dynamicChallenge with
      | none => rfl
      | some d =>
          refine ⟨.inl trivial, fun r => ?_⟩
          cases r with
          | error e => rfl
          | ok solveCount =>
              refine ⟨⟨_, rfl⟩, fun r => ?_⟩
              cases r with
              | error e => rfl
              | ok _ => rfl

/-- **The recalculation** raises only if an operation of it has, or the lock was not
free. -/
theorem follows_recalculate (contestId : ℤ) :
    (recalculateDynamicChallengeValue cfg cc contestId).Follows
      (attemptProtocol cfg req) (RecalculationEnd cc) (.credited cc) := by
  refine Prog.Follows.bind ((follows_awaitLock _ _ (.inl rfl)).mono fun q r hq => ?_)
  cases r with
  | error e => exact hq
  | ok _ =>
      subst hq
      refine Prog.Follows.bind (Prog.Follows.handle
        ((follows_newValue contestId).mono fun q r hq => ?_))
      cases r with
      | error e =>
          subst hq
          refine ⟨trivial, fun r => ?_⟩
          cases r with
          | error e => exact Or.inr rfl
          | ok _ => exact Or.inr rfl
      | ok value =>
          subst hq
          refine ⟨.inl trivial, fun r => ?_⟩
          cases r with
          | error e => exact Or.inr rfl
          | ok _ => rfl

/-- What is answered once the solve is stored. -/
theorem follows_answerSolve (user : Option User) (attempt : AttemptDTO) :
    (answerSolve cfg req cc bank user attempt).Follows (attemptProtocol cfg req)
      Phase.answers (.credited cc) := by
  have hrecalculated : (recalculated cfg cc bank req.contestId).Follows
      (attemptProtocol cfg req) (RecalculationEnd cc) (.credited cc) := by
    rw [recalculated]
    split
    · exact follows_recalculate _
    · rfl
  refine Prog.Follows.bind (hrecalculated.mono fun q r hq => ?_)
  cases r with
  | error e =>
      obtain rfl | rfl := hq
      · exact ⟨e, rfl⟩
      · exact ⟨e, rfl⟩
  | ok value =>
      subst hq
      refine (quiet_stopDeployment (.inl rfl) _ _).bind fun _ => ?_
      refine (quiet_logAction (.inl rfl) _ _).bind fun _ => ?_
      exact ⟨_, rfl, rfl, rfl⟩

/-- The solve is stored, or the answer says why not. -/
theorem follows_saveSolve {s : NewSubmission} (hs : ownRow req cc s) :
    (saveSolve s).Follows (attemptProtocol cfg req)
      (fun q r => r = .ok none ∧ q = .credited cc ∨
        ∃ a, r = .ok (some a) ∧ q.answers (.ok a)) (.matched cc) := by
  refine ⟨hs, fun r => ?_⟩
  cases r with
  | ok _ => exact Or.inl ⟨rfl, rfl⟩
  | error e =>
      cases e with
      | duplicateKey => exact Or.inr ⟨_, rfl, rfl⟩
      | _ => exact Or.inr ⟨_, rfl, rfl⟩

/-- **The correct branch.** -/
theorem follows_creditSolve (user : Option User) (attempt : AttemptDTO) :
    (creditSolve cfg req cc bank user attempt).Follows (attemptProtocol cfg req)
      Phase.answers (.matched cc) := by
  refine ⟨⟨rfl, rfl⟩, fun r => ?_⟩
  cases r with
  | error e => exact ⟨e, rfl⟩
  | ok solveCheck =>
      cases solveCheck with
      | true => rfl
      | false =>
          change Prog.Follows _ _ (Phase.matched cc) (saveSolve (req.row cc user) >>= _)
          refine Prog.Follows.bind ((follows_saveSolve ⟨rfl, rfl⟩).mono fun q r hr => ?_)
          obtain ⟨rfl, rfl⟩ | ⟨a, rfl, ha⟩ := hr
          · exact follows_answerSolve user attempt
          · exact ha

/-! #### The incorrect branch -/

/-- An operation about the wrong answers of a minute. -/
def kpmOp (userId : ℤ) : AttemptOp → Prop
  | .redis o => kpmRequest userId o
  | _ => False

theorem follows_of_kpmOp {p : Prog attemptI Exn α} (h : p.Throughout (kpmOp req.userId)) :
    p.Follows (attemptProtocol cfg req) (fun q _ => q = .missed cc) (.missed cc) := by
  refine Prog.Follows.of_throughout (h.mono fun o ho => ?_) fun _ => rfl
  cases o with
  | redis r => exact ⟨ho, fun _ => by cases r <;> rfl⟩
  | _ => exact ho.elim

theorem kpmOp_keepForMinute (userId minute : ℤ) :
    (keepForMinute (kpmKey userId minute)).Throughout (kpmOp userId) := by
  refine .bind (throughout_query ⟨minute, rfl⟩) fun ttl => ?_
  split
  · exact .bind (throughout_query ⟨⟨minute, rfl⟩, rfl⟩) fun _ => trivial
  · trivial

theorem follows_kpm (limit : ℤ) :
    (checkAndIncrementKpmAsync req.userId limit).Follows (attemptProtocol cfg req)
      (fun q _ => q = .missed cc) (.missed cc) := by
  refine follows_of_kpmOp ?_
  rw [checkAndIncrementKpmAsync]
  split
  · trivial
  · refine .bind (throughout_query (o := .redis .utcNow) trivial) fun now => ?_
    refine .bind (throughout_query (o := .redis (.incr _)) ⟨_, rfl⟩) fun count => ?_
    exact .bind (kpmOp_keepForMinute _ _) fun _ => trivial

/-- Where the count of a wrong answer ends. -/
def CountEnd (cc : ContestsChallenge) (q : Phase) : Except Exn (Option ℤ) → Prop
  | .ok none => q = .refused cc
  | .ok (some _) => q = .counted cc ∨ q = .missed cc ∧ attemptLimit cc = none
  | .error _ => q = .missed cc ∨ ∃ fails, q = .recounted cc fails

/-- A wrong answer is counted against the limit, if there is one, or refused. -/
theorem follows_countedFails :
    (countedFails req cc).Follows (attemptProtocol cfg req) (CountEnd cc) (.missed cc) := by
  rw [countedFails]
  split
  · next hlimit => exact Or.inr ⟨rfl, hlimit⟩
  · next n hlimit =>
      have hreply : ∀ result : ℤ,
          (if result = -1 then pure none else pure (some result) :
            Prog attemptI Exn (Option ℤ)).Follows (attemptProtocol cfg req) (CountEnd cc)
            (.afterCount cc result) := by
        intro result
        rw [Phase.afterCount]
        split
        · rfl
        · exact Or.inl rfl
      refine ⟨⟨rfl, rfl⟩, fun r => ?_⟩
      cases r with
      | error e => exact Or.inl rfl
      | ok actualDbCount =>
          refine ⟨⟨rfl, hlimit, rfl, rfl⟩, fun r => ?_⟩
          cases r with
          | error e => exact Or.inr ⟨actualDbCount, rfl⟩
          | ok result => exact hreply result

theorem follows_saveFail (user : Option User) :
    (saveFail req cc user).Follows (attemptProtocol cfg req)
      (fun q r =>
        match r with
        | .ok none => q = .refused cc
        | .ok (some _) => q = .stored cc
        | .error _ => q = .failed ∨ q = .missed cc ∨ ∃ fails, q = .recounted cc fails)
      (.missed cc) := by
  refine Prog.Follows.bind (follows_countedFails.mono fun q r hq => ?_)
  cases r with
  | error e => exact Or.inr hq
  | ok counted =>
      cases counted with
      | none => exact hq
      | some fails =>
          obtain rfl | ⟨rfl, hlimit⟩ := hq
          · refine ⟨⟨rfl, rfl⟩, fun r => ?_⟩
            cases r with
            | error e => exact Or.inl rfl
            | ok _ => rfl
          · refine ⟨⟨hlimit, rfl, rfl⟩, fun r => ?_⟩
            cases r with
            | error e => exact Or.inl rfl
            | ok _ => rfl

theorem follows_answerFail (user : Option User) (attempt : AttemptDTO) (fails : ℤ) :
    (answerFail req cc user attempt fails).Follows (attemptProtocol cfg req) Phase.answers
      (.stored cc) := by
  refine (quiet_logAction (.inr rfl) _ _).bind fun _ => ?_
  split
  · exact ⟨_, rfl, rfl, rfl⟩
  · have hstop : ∀ n, Quiet cfg req (.stored cc) (stopIfUsedUp req cc n) := by
      intro n
      rw [stopIfUsedUp]
      split
      · exact quiet_stopDeployment (.inr rfl) _ _
      · exact ⟨rfl, (), rfl⟩
    refine (hstop _).bind fun _ => ?_
    exact ⟨_, rfl, rfl, rfl⟩

/-- **The incorrect branch.** -/
theorem follows_recordFail (user : Option User) (attempt : AttemptDTO) :
    (recordFail cfg req cc user attempt).Follows (attemptProtocol cfg req) Phase.answers
      (.missed cc) := by
  refine Prog.Follows.bind ((follows_kpm _).mono fun q r hq => ?_)
  subst hq
  cases r with
  | error e => exact Or.inl ⟨e, rfl⟩
  | ok kpm =>
      obtain ⟨kpmExceeded, kpmCount⟩ := kpm
      cases kpmExceeded with
      | true => exact Or.inr ⟨_, rfl, rfl, rfl⟩
      | false =>
          refine Prog.Follows.bind ((follows_saveFail user).mono fun q r hq => ?_)
          cases r with
          | error e =>
              obtain rfl | rfl | ⟨fails, rfl⟩ := hq
              · exact ⟨e, rfl⟩
              · exact Or.inl ⟨e, rfl⟩
              · exact ⟨e, rfl⟩
          | ok saved =>
              cases saved with
              | none =>
                  subst hq
                  rfl
              | some fails =>
                  subst hq
                  exact follows_answerFail user attempt fails

/-! #### The endpoint -/

theorem answers_of_raised {q : Phase} (hq : MayCompare cc q) (e : Exn) :
    q.answers (.error e) := by
  obtain ⟨rfl, -⟩ | ⟨fails, n, rfl, -⟩ := hq
  · exact Or.inl ⟨e, rfl⟩
  · exact Or.inl ⟨e, rfl⟩

theorem follows_attemptChallenge (user : Option User) :
    (attemptChallenge cfg req user cc bank).Follows (attemptProtocol cfg req) Phase.answers
      (.found cc) := by
  refine Prog.Follows.bind (follows_requestChecks.mono fun q r hq => ?_)
  obtain ⟨rfl, hrefusal⟩ := hq
  cases r with
  | error e => exact Or.inl ⟨e, rfl⟩
  | ok refusal =>
      cases refusal with
      | some a => exact Or.inr ⟨a, rfl, hrefusal a rfl⟩
      | none =>
          refine Prog.Follows.bind (follows_challengeChecks.mono fun q r hq => ?_)
          cases r with
          | error e =>
              obtain rfl : q = .found cc := hq
              exact Or.inl ⟨e, rfl⟩
          | ok refusal =>
              cases refusal with
              | some a => exact hq
              | none =>
                  refine Prog.Follows.bind ((follows_compareFlags hq).mono fun q' r hr => ?_)
                  cases r with
                  | error e =>
                      obtain rfl : q' = q := hr
                      exact answers_of_raised hq e
                  | ok attempt =>
                      dsimp only at hr ⊢
                      split at hr
                      · next hs =>
                          subst hr
                          rw [if_pos hs]
                          exact follows_creditSolve user attempt
                      · next hs =>
                          subst hr
                          rw [if_neg hs]
                          exact follows_recordFail user attempt

/-- What is done with the challenge that was found. -/
def attemptFound (cfg : AttemptConfig) (req : ChallengeAttemptRequest) (user : Option User) :
    Option ContestsChallenge → Prog attemptI Exn AttemptResponse
  | none => pure ⟨404, none, none, some "Challenge not found"⟩
  | some cc =>
      match cc.bankChallenge with
      | none => pure ⟨404, none, none, some "Challenge not found"⟩
      | some bank => attemptChallenge cfg req user cc bank

theorem follows_attemptFound (user : Option User) (cc : Option ContestsChallenge) :
    (attemptFound cfg req user cc).Follows (attemptProtocol cfg req) Phase.answers
      (.afterFind cc) := by
  rcases cc with _ | cc
  · exact Or.inr ⟨_, rfl, turnedAway_of_data (by decide) rfl⟩
  · rw [Phase.afterFind, attemptFound]
    cases cc.bankChallenge with
    | none => exact Or.inr ⟨_, rfl, turnedAway_of_data (by decide) rfl⟩
    | some bank => exact follows_attemptChallenge user

/-- **The endpoint** performs its operations in the order of the phases, and answers as
its last phase says. -/
theorem follows_attempt (cfg : AttemptConfig) (req : ChallengeAttemptRequest) :
    (attempt cfg req).Follows (attemptProtocol cfg req) Phase.answers .start := by
  refine ⟨trivial, fun r => ?_⟩
  cases r with
  | error e => exact Or.inl ⟨e, rfl⟩
  | ok user =>
      change Prog.Follows _ _ Phase.start (if req.challengeId = 0 then _ else _)
      split
      · exact Or.inr ⟨_, rfl, turnedAway_of_data (by decide) rfl⟩
      · refine ⟨⟨rfl, rfl⟩, fun r => ?_⟩
        cases r with
        | error e => exact Or.inl ⟨e, rfl⟩
        | ok cc => exact follows_attemptFound user cc

end Walk

end Fctf
