import Fctf.AttemptProtocol

/-!
# The Attempt Service

Any number of attempts and admin requests at once, interleaved operation by operation, with
the passage of time, the eviction of counters from Redis, changes of the tables that are
only read, and what the deployment services write to Redis.

## Main results

* `follows_call`: every call keeps to its protocol.
* `getNum_exec`: only the counter's script, and for its own key, writes a counter of wrong
  answers to a challenge.
* `Knows.next`: what a request has learned about its challenge stays true of the tables.
-/

open Concurrent RedisDb

namespace Fctf

/-- The calls. -/
inductive AttemptCall where
  | attempt (req : ChallengeAttemptRequest)
  | editSubmission (id : ℤ)
  | reset
  deriving DecidableEq, Repr

/-- What the surroundings do between operations. -/
inductive AttemptMove where
  | tick (seconds : ℕ)
  | evict (key : String)
  | tables (tables : AttemptTables)
  | deployments (strings : Store ChallengeDeploymentCacheDTO) (zsets : Store (SortedSet ℤ))

/-- The program of a call. -/
def AttemptCall.program (cfg : AttemptConfig) : AttemptCall → Prog attemptI Exn AttemptResponse
  | .attempt req => Fctf.attempt cfg req
  | .editSubmission id => Fctf.editSubmission id
  | .reset => Fctf.reset

/-- What a move of the surroundings does. -/
def AttemptMove.apply : AttemptMove → AttemptWorld → AttemptWorld
  | .tick d, w => { w with redis := w.redis.tick d }
  | .evict key, w => { w with redis := w.redis.delNum key }
  | .tables t, w => { w with tables := t }
  | .deployments strings zsets, w =>
      { w with redis := { w.redis with strings := strings, zsets := zsets } }

/-- The service. -/
def attempts (cfg : AttemptConfig) : Service attemptI Exn AttemptResponse AttemptWorld where
  Call := AttemptCall
  Env := AttemptEnv
  Ext := AttemptMove
  program := AttemptCall.program cfg
  exec e o w := o.exec e w
  ambient m w := m.apply w

instance (cfg : AttemptConfig) : DecidableEq (attempts cfg).Call :=
  inferInstanceAs (DecidableEq AttemptCall)

/-! ### Protocols -/

/-- The protocol of a call. -/
def callProtocol (cfg : AttemptConfig) : AttemptCall → Protocol attemptI Exn Phase
  | .attempt req => attemptProtocol cfg req
  | .editSubmission id => ⟨fun _ o => o = .findSubmission id, fun q _ _ => q⟩
  | .reset => ⟨fun _ o => o = .resetSubmissions, fun q _ _ => q⟩

/-- What a call answers in its last phase. -/
def callAnswers : AttemptCall → Phase → Except Exn AttemptResponse → Prop
  | .attempt _, q, r => q.answers r
  | _, _, _ => True

/-- **Every call keeps to its protocol.** -/
theorem follows_call (cfg : AttemptConfig) (c : AttemptCall) :
    (c.program cfg).Follows (callProtocol cfg c) (callAnswers c) .start := by
  cases c with
  | attempt req => exact follows_attempt cfg req
  | editSubmission id =>
      refine ⟨rfl, fun r => ?_⟩
      cases r with
      | error e => trivial
      | ok submission => cases submission <;> trivial
  | reset =>
      refine ⟨rfl, fun r => ?_⟩
      cases r <;> trivial

/-- A count that was read is the count of the answers stored. -/
theorem countRead_exec {e : AttemptEnv} {o : AttemptOp} {w : AttemptWorld} {fails : ℤ}
    (h : countRead o (o.exec e w).1 = some fails) :
    ∃ id t, o = .countIncorrect id t ∧ (w.incorrectCount id t : ℤ) = fails := by
  cases o with
  | countIncorrect id t =>
      cases hf : e.fault with
      | none =>
          simp only [AttemptOp.exec, AttemptEnv.read, hf, Fault.apply, countRead] at h
          exact ⟨id, t, rfl, Option.some.inj h⟩
      | _ => simp [AttemptOp.exec, AttemptEnv.read, hf, Fault.apply, countRead] at h
  | _ => cases h

/-! ### Counters -/

/-- The requests to Redis that attempts make. -/
def AttemptRequest : RedisOp ChallengeDeploymentCacheDTO → Prop
  | .utcNow => True
  | .keyExists _ => True
  | .timeToLive _ => True
  | .incr key => ∃ userId minute, key = kpmKey userId minute
  | .expire _ ttl => 0 < ttl
  | .checkCooldown key _ _ ttl =>
      (∃ contestId cc t, key = cooldownKey contestId cc t) ∧ 0 < ttl
  | .checkAndIncrement _ _ _ _ ttl => 0 < ttl
  | _ => False

/-- Calls make no other requests. -/
theorem attemptRequest_of_allows {cfg : AttemptConfig} {c : AttemptCall} {q : Phase}
    {o : RedisOp ChallengeDeploymentCacheDTO}
    (ho : (callProtocol cfg c).allows q (.redis o)) : AttemptRequest o := by
  cases c with
  | editSubmission id => cases ho
  | reset => cases ho
  | attempt req =>
      cases q with
      | found cc =>
          cases o with
          | checkCooldown key now cooldown ttl =>
              obtain ⟨rfl, rfl⟩ := ho
              exact ⟨⟨_, _, _, rfl⟩, by decide⟩
          | utcNow => trivial
          | _ => exact ho.elim
      | credited cc =>
          rcases ho with ho | ho
          · exact ho.elim
          · cases o with
            | keyExists key => trivial
            | _ => exact ho.elim
      | stored cc =>
          cases o with
          | keyExists key => trivial
          | _ => exact ho.elim
      | missed cc =>
          cases o with
          | utcNow => trivial
          | timeToLive key => trivial
          | incr key =>
              obtain ⟨minute, rfl⟩ := ho
              exact ⟨_, minute, rfl⟩
          | expire key ttl =>
              obtain ⟨-, rfl⟩ := ho
              show (0 : ℤ) < 90
              decide
          | _ => exact ho.elim
      | recounted cc fails =>
          cases o with
          | checkAndIncrement key m th n ttl =>
              obtain ⟨-, -, -, rfl⟩ := ho
              show (0 : ℤ) < 86400
              decide
          | _ => exact ho.elim
      | _ => exact ho.elim

/-- **The counter of wrong answers to a challenge**, after an operation of a call. -/
theorem getNum_exec {cfg : AttemptConfig} {c : AttemptCall} {q : Phase} {o : AttemptOp}
    (ho : (callProtocol cfg c).allows q o) (e : AttemptEnv) (w : AttemptWorld)
    (contestId cc t : ℤ) :
    (o.exec e w).2.redis.getNum (attemptKey contestId cc t) =
      match o with
      | .redis (.checkAndIncrement key m th n ttl) =>
          if e.fault = .before then w.redis.getNum (attemptKey contestId cc t)
          else (checkAndIncrementScript key m th n ttl w.redis).2.getNum
            (attemptKey contestId cc t)
      | _ => w.redis.getNum (attemptKey contestId cc t) := by
  rw [AttemptOp.exec_redis]
  cases o with
  | redis o =>
      have hrequest := attemptRequest_of_allows ho
      by_cases hf : e.fault = .before
      · dsimp only
        rw [hf, RedisOp.execFaulty_before]
        cases o <;> simp
      · dsimp only
        rw [RedisOp.execFaulty_of_ne hf]
        cases o with
        | utcNow => rfl
        | keyExists key => rfl
        | timeToLive key => rfl
        | incr key =>
            obtain ⟨userId, minute, rfl⟩ := hrequest
            exact w.redis.getNum_incrby_of_ne 1 (attemptKey_ne_kpmKey _ _ _ _ _)
        | expire key ttl => exact w.redis.getNum_expireNum _ hrequest
        | checkCooldown key now cooldown ttl =>
            obtain ⟨⟨c', cc', t', rfl⟩, httl⟩ := hrequest
            exact (cooldownScript_frame _ now cooldown ttl w.redis).getNum_of_ne
              (attemptKey_ne_cooldownKey _ _ _ _ _ _)
        | checkAndIncrement key m th n ttl =>
            dsimp only
            rw [if_neg hf]
            rfl
        | _ => exact hrequest.elim
  | _ => rfl

/-! ### What a request knows of its challenge -/

/-- The challenge a request has found. -/
def Phase.challenge : Phase → Option ContestsChallenge
  | .start => none
  | .found cc => some cc
  | .solved cc => some cc
  | .prechecked cc _ => some cc
  | .matched cc => some cc
  | .credited cc => some cc
  | .waiting cc => some cc
  | .broken cc => some cc
  | .uncredited cc => some cc
  | .missed cc => some cc
  | .recounted cc _ => some cc
  | .counted cc => some cc
  | .refused cc => some cc
  | .stored cc => some cc
  | .failed => none

/-- The challenge `id` is of the contest and has the property `P`, as far as the tables
say. -/
def AttemptTables.Fixes (contestId id : ℤ) (P : ContestsChallenge → Prop)
    (tables : AttemptTables) : Prop :=
  ∀ cc ∈ tables.contestsChallenges, cc.id = id → cc.contestId = contestId ∧ P cc

/-- A request knows this of the challenge it has found. -/
def Knows (contestId id : ℤ) (P : ContestsChallenge → Prop) (c : AttemptCall) (q : Phase) :
    Prop :=
  ∀ req cc, c = .attempt req → q.challenge = some cc →
    (cc.id = req.challengeId ∧ cc.contestId = req.contestId) ∧
      (cc.id = id → cc.contestId = contestId ∧ P cc)

/-- A request does not change its challenge. -/
theorem Phase.challenge_next (cfg : AttemptConfig) (req : ChallengeAttemptRequest) {q : Phase}
    (hq : q ≠ .start) (o : AttemptOp) (r : Except Exn o.Reply) :
    (q.next cfg req o r).challenge = q.challenge ∨ (q.next cfg req o r).challenge = none := by
  have hstep := Phase.step_next cfg req q o r
  generalize q.next cfg req o r = q' at hstep ⊢
  cases hstep with
  | stay => exact .inl rfl
  | find cc => exact absurd rfl hq
  | findSolved cc q hq' h => rcases hq' with rfl | rfl <;> exact .inl rfl
  | precheck cc fails h => exact .inl rfl
  | compare cc q b hq' h =>
      rcases hq' with rfl | ⟨fails, rfl⟩ <;> cases b <;> exact .inl rfl
  | unread cc id t h hr => exact .inr rfl
  | duplicate cc s h hr => exact .inl rfl
  | insertSolve cc s h hr => split <;> exact .inl rfl
  | lock cc q key lockFree hq' h hr =>
      rcases hq' with rfl | rfl <;> cases lockFree <;> exact .inl rfl
  | breaks cc q hq' h hr => rcases hq' with rfl | rfl <;> exact .inl rfl
  | recount cc fails h => exact .inl rfl
  | count cc fails result h =>
      rw [Phase.afterCount]
      split <;> exact .inl rfl
  | insertFail cc q s hq' h =>
      rcases hq' with rfl | rfl <;> split <;> first | exact .inl rfl | exact .inr rfl

/-- The text was found to be right. -/
def Phase.right : Phase → Bool
  | .matched _ | .credited _ | .waiting _ | .broken _ | .uncredited _ => true
  | _ => false

/-- A text found to be right stays so, unless the challenge is found to be solved, or the
request raises. -/
theorem Phase.right_next {cfg : AttemptConfig} {req : ChallengeAttemptRequest} {q : Phase}
    (h : q.right = true) (o : AttemptOp) (r : Except Exn o.Reply) :
    (q.next cfg req o r).right = true ∨ (∃ cc, q.next cfg req o r = .solved cc) ∨
      q.next cfg req o r = .failed := by
  have hstep := Phase.step_next cfg req q o r
  generalize q.next cfg req o r = q' at hstep ⊢
  cases hstep with
  | stay => exact .inl h
  | findSolved cc q hq ho => exact .inr (.inl ⟨cc, rfl⟩)
  | unread cc id t ho hr => exact .inr (.inr rfl)
  | duplicate cc s ho hr => exact .inr (.inl ⟨cc, rfl⟩)
  | insertSolve cc s ho hr => split <;> exact .inl rfl
  | lock cc q key lockFree hq ho hr => cases lockFree <;> exact .inl rfl
  | breaks cc q hq ho hr => exact .inl rfl
  | compare cc q b hq ho => rcases hq with rfl | ⟨fails, rfl⟩ <;> cases h
  | insertFail cc q s hq ho => rcases hq with rfl | rfl <;> cases h
  | _ => cases h

/-- A text is found to be right by a comparison only. -/
theorem Phase.right_of_next {cfg : AttemptConfig} {req : ChallengeAttemptRequest} {q : Phase}
    {o : AttemptOp} {r : Except Exn o.Reply} (h : (q.next cfg req o r).right = true) :
    q.right = true ∨ comparison cfg req o r = some true := by
  have hstep := Phase.step_next cfg req q o r
  generalize q.next cfg req o r = q' at hstep h
  cases hstep with
  | stay => exact .inl h
  | insertSolve cc s ho hr => exact .inl rfl
  | lock cc q key lockFree hq ho hr => rcases hq with rfl | rfl <;> exact .inl rfl
  | breaks cc q hq ho hr => rcases hq with rfl | rfl <;> exact .inl rfl
  | compare cc q b hq ho =>
      cases b with
      | true => exact .inr ho
      | false => cases h
  | insertFail cc q s hq ho => split at h <;> cases h
  | count cc fails result ho =>
      rw [Phase.afterCount] at h
      split at h <;> cases h
  | _ => cases h

/-- A request has counted the stored wrong answers by a count only. -/
theorem Phase.prechecked_of_next {cfg : AttemptConfig} {req : ChallengeAttemptRequest}
    {q : Phase} {o : AttemptOp} {r : Except Exn o.Reply} {cc : ContestsChallenge} {fails : ℤ}
    (h : q.next cfg req o r = .prechecked cc fails) :
    q = .prechecked cc fails ∨ q = .found cc ∧ countRead o r = some fails := by
  have hstep := Phase.step_next cfg req q o r
  rw [h] at hstep
  generalize hq' : Phase.prechecked cc fails = q' at hstep
  cases hstep with
  | stay => exact .inl rfl
  | precheck cc' fails' ho =>
      obtain ⟨rfl, rfl⟩ := Phase.prechecked.inj hq'
      exact .inr ⟨rfl, ho⟩
  | lock cc q key lockFree hq ho hr => cases lockFree <;> cases hq'
  | compare cc q b hq ho => cases b <;> cases hq'
  | insertSolve cc s ho hr => split at hq' <;> cases hq'
  | insertFail cc q s hq ho => split at hq' <;> cases hq'
  | count cc fails result ho =>
      rw [Phase.afterCount] at hq'
      split at hq' <;> cases hq'
  | _ => cases hq'

/-- The challenge that a look into the tables finds. -/
theorem challenge_of_find {cfg : AttemptConfig} {req : ChallengeAttemptRequest}
    {o : AttemptOp} (ho : Phase.allows req .start o) {e : AttemptEnv} {w : AttemptWorld}
    {cc : ContestsChallenge}
    (h : (Phase.next cfg req .start o (o.exec e w).1).challenge = some cc) :
    cc ∈ w.tables.contestsChallenges ∧ cc.id = req.challengeId ∧
      cc.contestId = req.contestId := by
  cases o with
  | findUser id => cases h
  | findContestsChallenge id contestId =>
      obtain ⟨rfl, rfl⟩ := ho
      cases hf : e.fault with
      | before => simp [AttemptOp.exec, AttemptEnv.read, Fault.apply, hf, Phase.next,
          Phase.challenge] at h
      | after => simp [AttemptOp.exec, AttemptEnv.read, Fault.apply, hf, Phase.next,
          Phase.challenge] at h
      | none =>
          simp only [AttemptOp.exec, AttemptEnv.read, Fault.apply, hf, Phase.next] at h
          generalize hfind : w.tables.contestsChallenges.find? _ = found at h
          cases found with
          | none => cases h
          | some cc' =>
              obtain rfl : cc' = cc := Option.some.inj h
              have hp := List.find?_some hfind
              exact ⟨List.mem_of_find?_eq_some hfind, of_decide_eq_true hp⟩
  | _ => exact ho.elim

/-- A request knows only the challenge it was made for. -/
theorem challenge_of_next {cfg : AttemptConfig} {req : ChallengeAttemptRequest} {q : Phase}
    {o : AttemptOp} (ho : q.allows req o) {e : AttemptEnv} {w : AttemptWorld}
    {cc : ContestsChallenge} (h : (q.next cfg req o (o.exec e w).1).challenge = some cc) :
    q.challenge = some cc ∨ cc ∈ w.tables.contestsChallenges ∧ cc.id = req.challengeId ∧
      cc.contestId = req.contestId := by
  by_cases hq : q = .start
  · subst hq
    exact .inr (challenge_of_find ho h)
  · rcases Phase.challenge_next cfg req hq o (o.exec e w).1 with hn | hn
    · exact .inl (hn.symm.trans h)
    · exact absurd (hn.symm.trans h) (by simp)

section Knows

variable {contestId id : ℤ} {P : ContestsChallenge → Prop}

/-- **What a request knows of its challenge** stays true as it goes on. -/
theorem Knows.next {cfg : AttemptConfig} {c : AttemptCall} {q : Phase} {o : AttemptOp}
    (h : Knows contestId id P c q) {w : AttemptWorld} (hfix : w.tables.Fixes contestId id P)
    (ho : (callProtocol cfg c).allows q o) (e : AttemptEnv) :
    Knows contestId id P c ((callProtocol cfg c).next q o (o.exec e w).1) := by
  rintro req cc rfl hcc
  obtain hcc | ⟨hmem, hcontest⟩ := challenge_of_next ho hcc
  · exact h req cc rfl hcc
  · exact ⟨hcontest, hfix cc hmem⟩

theorem knows_start (c : AttemptCall) : Knows contestId id P c .start :=
  fun _ _ _ h => nomatch h

/-- The challenge that is stored is the one the request has found, up to its value. -/
theorem Knows.stored {cfg : AttemptConfig} {c : AttemptCall} {q : Phase}
    {row : ContestsChallenge} (h : Knows contestId id P c q)
    (hvalue : ∀ (cc : ContestsChallenge) v, P cc → P { cc with value := v })
    (ho : (callProtocol cfg c).allows q (.saveChallenge row)) (hid : row.id = id) :
    row.contestId = contestId ∧ P row := by
  cases c with
  | attempt req =>
      cases q with
      | credited cc =>
          obtain ⟨v, rfl⟩ := ho
          obtain ⟨hcontest, hP⟩ := (h req cc rfl rfl).2 hid
          exact ⟨hcontest, hvalue cc v hP⟩
      | _ => exact ho.elim
  | _ => cases ho

/-- The operations leave the challenge as it is, up to its value. -/
theorem AttemptTables.Fixes.exec {cfg : AttemptConfig} {c : AttemptCall} {q : Phase}
    {w : AttemptWorld} (h : w.tables.Fixes contestId id P) (hk : Knows contestId id P c q)
    (hvalue : ∀ (cc : ContestsChallenge) v, P cc → P { cc with value := v }) (e : AttemptEnv)
    {o : AttemptOp} (ho : (callProtocol cfg c).allows q o) :
    (o.exec e w).2.tables.Fixes contestId id P := by
  by_cases hs : ∃ row, o = .saveChallenge row
  · obtain ⟨row, rfl⟩ := hs
    have hstore : (w.tables.store row).Fixes contestId id P := by
      intro cc hcc hid
      obtain ⟨cc', hcc', rfl⟩ := List.mem_map.mp hcc
      by_cases hcc : cc'.id = row.id
      · rw [if_pos hcc] at hid ⊢
        exact hk.stored hvalue ho hid
      · rw [if_neg hcc] at hid ⊢
        exact h cc' hcc' hid
    cases hf : e.fault <;>
      simp only [AttemptOp.exec, AttemptEnv.write, AttemptWorld.storeChallenge, Fault.apply,
        hf] <;> assumption
  · rw [AttemptOp.exec_tables e o w fun row ho => hs ⟨row, ho⟩]
    exact h

end Knows

/-! ### A contest with one challenge

One challenge, 7 of contest 1, with one flag and one try; concrete runs are about team 5. -/

/-- The default configuration values, and a runtime without regular expressions. -/
def defaultAttemptConfig : AttemptConfig where
  paused := false
  ctfName := "FCTF"
  isUserMode := false
  captainOnlySubmit := false
  incorrectSubmissionsPerMin := 10
  runtime := ⟨id, fun _ _ _ => .ok none⟩
  lockRetries := 3
  logarithmic _ _ := 0

/-- The challenge. -/
def oneTryChallenge : ContestsChallenge where
  id := 7
  contestId := 1
  bankChallenge := some ⟨3, "web", false, none, false⟩
  name := some "web"
  value := some 100
  state := .visible
  requireDeploy := false
  maxAttempts := some 1
  maxDeployCount := none
  timeLimit := none
  cooldown := none
  hasImage := false

/-- The flag. -/
def flagText : Utf16 := [0x66#16, 0x6C#16, 0x61#16, 0x67#16]

/-- The tables with a challenge. -/
def attemptTables (cc : ContestsChallenge) : AttemptTables where
  users id := some ⟨id, false⟩
  contestsChallenges := [cc]
  flags _ := [⟨.static, some flagText, false⟩]
  captainId _ := none
  dynamicChallenges _ := some ⟨some 100, some 50, some 10, true⟩

/-- The state at time 1000, before any submission. -/
def attemptWorld (cc : ContestsChallenge) : AttemptWorld :=
  ⟨Db.empty 1000, [], [], 1, attemptTables cc⟩

/-- Surroundings in which nothing is lost. -/
def calmAttempt : AttemptEnv := ⟨.none, .redis, true⟩

/-- A wrong answer of team 5. -/
def wrongAnswer : AttemptCall := .attempt ⟨9, 5, 1, 7, some [0x78#16]⟩

/-- A right answer of team 5. -/
def rightAnswer : AttemptCall := .attempt ⟨9, 5, 1, 7, some flagText⟩

/-- What it is answered. -/
def rightReply : Except Exn AttemptResponse :=
  .ok ⟨200, some true, some ⟨.correct, "Correct", none, some 100⟩, none⟩

end Fctf
