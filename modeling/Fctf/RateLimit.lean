import Fctf.AttemptsGivenBack

/-!
# The Limit of a Minute

`incorrect_submissions_per_min` bounds how many wrong guesses of a user are judged within
one minute of the clock. The endpoint compares a guess first and asks for the limit only if
the guess is wrong. A guess over the limit is therefore told right from wrong all the same:
a right one is answered to be correct, a wrong one to be too fast, and the wrong one is
neither stored nor counted.

## Main results

* `attempt_eq`: the endpoint, cut at the comparison.
* `oracleFree_iff`: after every run of requests of a user in a minute, a further guess is
  answered as the limit asks if and only if it is not compared, or the limit is not used up
  and the team has tries left.
* `not_oracleFree`: a wrong guess over the limit.
-/

open Concurrent RedisDb

namespace Fctf

/-! ### The endpoint, cut at the comparison -/

/-- What the checks of a request end with: a refusal, or what is compared. -/
abbrev Checked := Except AttemptResponse (Option User × ContestsChallenge × Challenge)

/-- What the checks of the challenge end with. -/
def Checked.of (user : Option User) (cc : ContestsChallenge) (bank : Challenge) :
    Option AttemptResponse → Checked
  | some refusal => .error refusal
  | none => .ok (user, cc, bank)

section Cut

variable (cfg : AttemptConfig) (req : ChallengeAttemptRequest)

/-- The checks of a request whose challenge is found: the refusal, if there is one. -/
def checkedChallenge (cc : ContestsChallenge) (bank : Challenge) :
    Prog attemptI Exn (Option AttemptResponse) := do
  match ← requestChecks cfg req cc with
  | some refusal => return some refusal
  | none => challengeChecks cc bank req.contestId req.teamId

/-- The checks of a request whose challenge was looked for. -/
def checkedFound (user : Option User) : Option ContestsChallenge → Prog attemptI Exn Checked
  | none => return .error ⟨404, none, none, some "Challenge not found"⟩
  | some cc =>
      match cc.bankChallenge with
      | none => return .error ⟨404, none, none, some "Challenge not found"⟩
      | some bank => return .of user cc bank (← checkedChallenge cfg req cc bank)

/-- The endpoint up to the comparison. -/
def checked : Prog attemptI Exn Checked := do
  let user : Option User ← query (.findUser req.userId)
  if req.challengeId = 0 then
    return .error ⟨400, none, none, some "ChallengeId is required"⟩
  let cc : Option ContestsChallenge ←
    query (.findContestsChallenge req.challengeId req.contestId)
  checkedFound cfg req user cc

/-- The endpoint from the comparison on. -/
def judged : Checked → Prog attemptI Exn AttemptResponse
  | .error refusal => pure refusal
  | .ok (user, cc, bank) => do
      let attempt ← compareFlags cfg bank req.submitted
      if attempt.status then creditSolve cfg req cc bank user attempt
      else recordFail cfg req cc user attempt

theorem attemptChallenge_eq (user : Option User) (cc : ContestsChallenge) (bank : Challenge) :
    attemptChallenge cfg req user cc bank =
      (checkedChallenge cfg req cc bank >>= fun refusal => pure (.of user cc bank refusal)) >>=
        judged cfg req := by
  rw [attemptChallenge, checkedChallenge, Prog.bind_assoc, Prog.bind_assoc]
  congr 1
  funext refusal
  cases refusal with
  | some refusal => rfl
  | none =>
      dsimp only
      congr 1
      funext refusal
      cases refusal <;> rfl

/-- **The endpoint** is its checks and then its judgement. -/
theorem attempt_eq : attempt cfg req = checked cfg req >>= judged cfg req := by
  refine congrArg (Prog.call _) (funext fun r => ?_)
  rcases r with _ | user
  · rfl
  · by_cases hid : req.challengeId = 0
    · simp only [if_pos hid]
      rfl
    · simp only [if_neg hid]
      refine congrArg (Prog.call _) (funext fun r => ?_)
      rcases r with _ | _ | ⟨_, _, _ | bank, _⟩
      · rfl
      · rfl
      · rfl
      · exact attemptChallenge_eq cfg req user _ bank

end Cut

section Serve

variable {cfg : AttemptConfig} {req : ChallengeAttemptRequest}

/-- One operation with nobody else around. -/
def calmExec (o : attemptI.Op) (w : AttemptWorld) :
    Except Exn (attemptI.Reply o) × AttemptWorld :=
  AttemptOp.exec calmAttempt o w

/-- A request served alone. -/
theorem serve_eq (w : AttemptWorld) :
    serve cfg req w =
      match (checked cfg req).eval calmExec w with
      | (.ok found, w') => (judged cfg req found).eval calmExec w'
      | (.error e, w') => (.error e, w') := by
  rw [serve, attempt_eq]
  refine (Prog.eval_bind _ _ _ : Prog.eval calmExec _ _ = _).trans ?_
  generalize (checked cfg req).eval calmExec w = out
  obtain ⟨_ | found, w'⟩ := out <;> rfl

/-- What is compared, and the state it is compared in. -/
def reached (cfg : AttemptConfig) (req : ChallengeAttemptRequest) (w : AttemptWorld) :
    Option ((Option User × ContestsChallenge × Challenge) × AttemptWorld) :=
  match (checked cfg req).eval calmExec w with
  | (.ok (.ok found), w') => some (found, w')
  | _ => none

/-- What the comparison tells the request. -/
def told (cfg : AttemptConfig) (req : ChallengeAttemptRequest) (w : AttemptWorld) :
    Option Bool :=
  match reached cfg req w with
  | some ((_, _, bank), w') =>
      match ChallengeHelper.attempt cfg.runtime req.submitted (w'.tables.flags bank.id) with
      | .ok attempt => some attempt.status
      | .error _ => none
  | none => none

/-! ### The checks -/

/-- The operations of the checks. -/
def AttemptOp.OfChecks : AttemptOp → Prop
  | .redis .utcNow => True
  | .redis (.checkCooldown key _ _ _) => ∃ contestId cc t, key = cooldownKey contestId cc t
  | .findUser _ => True
  | .findContestsChallenge _ _ => True
  | .captainId _ => True
  | .contestChallengeIds _ => True
  | .solvedBankIds _ _ => True
  | .allBankIds _ => True
  | .isSolved _ _ => True
  | .countIncorrect _ _ => True
  | _ => False

/-- The operations of the checks once the challenge is found. -/
def AttemptOp.OfFoundChecks (o : AttemptOp) : Prop :=
  o.OfChecks ∧ ∀ id contestId, o ≠ .findContestsChallenge id contestId

theorem ofFoundChecks_of_checkOp {cc : ContestsChallenge} {o : AttemptOp}
    (h : checkOp req cc o) : o.OfFoundChecks := by
  cases o with
  | redis o =>
      cases o with
      | utcNow => exact ⟨trivial, fun _ _ ho => nomatch ho⟩
      | checkCooldown key now cooldown ttl => exact ⟨⟨_, _, _, h.1⟩, fun _ _ ho => nomatch ho⟩
      | _ => exact h.elim
  | captainId t => exact ⟨trivial, fun _ _ ho => nomatch ho⟩
  | contestChallengeIds c => exact ⟨trivial, fun _ _ ho => nomatch ho⟩
  | solvedBankIds ids t => exact ⟨trivial, fun _ _ ho => nomatch ho⟩
  | allBankIds c => exact ⟨trivial, fun _ _ ho => nomatch ho⟩
  | _ => exact h.elim

theorem throughout_requestChecks (cc : ContestsChallenge) :
    (requestChecks cfg req cc).Throughout AttemptOp.OfFoundChecks := by
  simp only [requestChecks]
  split
  · trivial
  split
  · trivial
  split
  · trivial
  split
  · trivial
  refine .bind ((captainMaySubmit_checks _ _).mono
    fun _ (h : checkOp req cc _) => ofFoundChecks_of_checkOp h)
    fun may => ?_
  split
  · trivial
  refine .bind (remainingCooldown_checks.mono fun _ h => ofFoundChecks_of_checkOp h)
    fun remaining => ?_
  cases remaining <;> trivial

theorem throughout_challengeChecks (cc : ContestsChallenge) (bank : Challenge) :
    (challengeChecks cc bank req.contestId req.teamId).Throughout AttemptOp.OfFoundChecks := by
  simp only [challengeChecks]
  split
  · trivial
  split
  · trivial
  refine .bind ((prerequisitesSolved_checks _ _).mono
    fun _ (h : checkOp req cc _) => ofFoundChecks_of_checkOp h)
    fun solved => ?_
  split
  · trivial
  refine .bind (throughout_query ⟨trivial, fun _ _ ho => by cases ho⟩) fun solvePreCheck => ?_
  split
  · trivial
  cases attemptLimit cc with
  | none => trivial
  | some n =>
      refine .bind (throughout_query ⟨trivial, fun _ _ ho => by cases ho⟩) fun fails => ?_
      split <;> trivial

theorem throughout_checkedChallenge (cc : ContestsChallenge) (bank : Challenge) :
    (checkedChallenge cfg req cc bank).Throughout AttemptOp.OfFoundChecks := by
  refine .bind (throughout_requestChecks _) fun refusal => ?_
  cases refusal with
  | some refusal => trivial
  | none => exact throughout_challengeChecks _ _

theorem throughout_checked : (checked cfg req).Throughout AttemptOp.OfChecks := by
  refine .bind (throughout_query trivial) fun user => ?_
  split
  · trivial
  refine .bind (throughout_query trivial) fun cc => ?_
  simp only [checkedFound]
  split
  · trivial
  split
  · trivial
  exact .bind ((throughout_checkedChallenge _ _).mono fun _ ho => ho.1) fun _ => trivial

/-- What the checks leave alone. -/
structure Passed (w w' : AttemptWorld) : Prop where
  /-- The submissions. -/
  submissions : w'.submissions = w.submissions
  /-- The tables. -/
  tables : w'.tables = w.tables
  /-- The time. -/
  clock : w'.redis.clock = w.redis.clock
  /-- All counters but the cooldowns. -/
  lookupNum : ∀ key, (∀ contestId cc t, key ≠ cooldownKey contestId cc t) →
    w'.redis.lookupNum key = w.redis.lookupNum key

/-- **The checks** leave all but the cooldowns alone. -/
theorem passed_checked (w : AttemptWorld) :
    Passed w ((checked cfg req).eval calmExec w).2 := by
  refine throughout_checked.eval (J := Passed w) ⟨rfl, rfl, rfl, fun _ _ => rfl⟩ ?_
  intro o w' ho h
  cases o with
  | redis o =>
      cases o with
      | utcNow => exact h
      | checkCooldown key now cooldown ttl =>
          obtain ⟨contestId, cc, t, rfl⟩ := ho
          have hframe := cooldownScript_frame (cooldownKey contestId cc t) now cooldown ttl
            w'.redis
          exact ⟨h.submissions, h.tables, hframe.clock.trans h.clock, fun key hk =>
            (hframe.lookupNum_of_ne key (hk _ _ _)).trans (h.lookupNum key hk)⟩
      | _ => exact ho.elim
  | findUser id => exact h
  | findContestsChallenge id contestId => exact h
  | captainId t => exact h
  | contestChallengeIds c => exact h
  | solvedBankIds ids t => exact h
  | allBankIds c => exact h
  | isSolved id t => exact h
  | countIncorrect id t => exact h
  | _ => exact ho.elim

/-- The state with other flags. -/
def AttemptWorld.withFlags (flags : ℤ → List Flag) (w : AttemptWorld) : AttemptWorld :=
  { w with tables := { w.tables with flags := flags } }

/-- **The checks** do not read the flags. -/
theorem checked_withFlags (flags : ℤ → List Flag) (w : AttemptWorld) :
    (checked cfg req).eval calmExec (w.withFlags flags) =
      (((checked cfg req).eval calmExec w).1,
        ((checked cfg req).eval calmExec w).2.withFlags flags) := by
  refine throughout_checked.eval_comm (fun o w' ho => ?_) w
  cases o with
  | redis o => rfl
  | findUser id => rfl
  | findContestsChallenge id contestId => rfl
  | captainId t => rfl
  | contestChallengeIds c => rfl
  | solvedBankIds ids t => rfl
  | allBankIds c => rfl
  | isSolved id t => rfl
  | countIncorrect id t => rfl
  | _ => exact ho.elim

/-! ### The wrong guesses of a minute -/

/-- The counter of a user's minute stands at `n`, and stays at least until `x`. -/
def CountsMinute (key : String) (n x : ℤ) (db : Db ChallengeDeploymentCacheDTO ℤ) : Prop :=
  n = 0 ∧ db.lookupNum key = none ∨
    ∃ e, db.lookupNum key = some e ∧ e.value = n ∧ ∀ t, e.expireAt = some t → x ≤ t

theorem CountsMinute.getD {key : String} {n x : ℤ} {db : Db ChallengeDeploymentCacheDTO ℤ}
    (h : CountsMinute key n x db) : (db.getNum key).getD 0 = n := by
  obtain ⟨rfl, hnone⟩ | ⟨e, he, rfl, -⟩ := h
  · rw [Db.getNum, hnone]
    rfl
  · rw [Db.getNum, he]
    rfl

/-- One more wrong guess. -/
theorem CountsMinute.incrby {key : String} {n x : ℤ}
    {db : Db ChallengeDeploymentCacheDTO ℤ} (h : CountsMinute key n x db) :
    CountsMinute key (n + 1) x (db.incrby key 1) := by
  refine .inr ⟨_, db.lookupNum_incrby_same key 1, by rw [h.getD], fun t ht => ?_⟩
  obtain ⟨rfl, hnone⟩ | ⟨e, he, rfl, hx⟩ := h
  · rw [hnone] at ht
    cases ht
  · rw [he] at ht
    exact hx t ht

/-- A new time to live that is long enough. -/
theorem CountsMinute.expireNum {key : String} {n x ttl : ℤ}
    {db : Db ChallengeDeploymentCacheDTO ℤ} (h : CountsMinute key n x db) (hpos : 0 < ttl)
    (hx : x ≤ db.clock + ttl) : CountsMinute key n x (db.expireNum key ttl) := by
  rw [CountsMinute, db.lookupNum_expireNum_same hpos]
  obtain ⟨rfl, hnone⟩ | ⟨e, he, rfl, -⟩ := h
  · exact .inl ⟨rfl, by rw [hnone]; rfl⟩
  · refine .inr ⟨{ e with expireAt := some (db.clock + ttl) }, by rw [he]; rfl, rfl,
      fun t ht => ?_⟩
    obtain rfl := Option.some.inj ht
    exact hx

/-- Other counters do not matter. -/
theorem CountsMinute.frame {key : String} {n x : ℤ} {db db' : Db ChallengeDeploymentCacheDTO ℤ}
    (h : CountsMinute key n x db) (hkey : db'.lookupNum key = db.lookupNum key) :
    CountsMinute key n x db' := by
  rw [CountsMinute, hkey]
  exact h

/-- Nor does time, up to then. -/
theorem CountsMinute.tick {key : String} {n x : ℤ} {db : Db ChallengeDeploymentCacheDTO ℤ}
    (h : CountsMinute key n x db) {d : ℕ} (hx : (db.tick d).clock < x) :
    CountsMinute key n x (db.tick d) := by
  obtain ⟨rfl, hnone⟩ | ⟨e, he, rfl, hle⟩ := h
  · refine .inl ⟨rfl, ?_⟩
    cases hl : (db.tick d).lookupNum key with
    | none => rfl
    | some e =>
        have he : db.lookupNum key = some e := Store.find_of_find_le (db.clock_le_tick d) hl
        rw [hnone] at he
        cases he
  · exact .inr ⟨e, db.lookupNum_tick he fun t ht => hx.trans_le (hle t ht), rfl, hle⟩

/-- The counter of a minute gets a time to live, or has one. -/
theorem keepForMinute_eval (key : String) (w : AttemptWorld) :
    ∃ db, (keepForMinute key).eval calmExec w =
        (.ok (), { w with redis := db }) ∧
      (db = w.redis ∨ db = w.redis.expireNum key 90) := by
  let ttl := (w.redis.lookupNum key).bind fun e => e.expireAt.map (· - w.redis.clock)
  have heval : (keepForMinute key).eval calmExec w =
      (if ttl.all (· < 0) then do
        let _ : Bool ← query (.redis (.expire key 90))
        pure ()
      else pure () : Prog attemptI Exn Unit).eval calmExec w := rfl
  rw [heval]
  split
  · exact ⟨_, rfl, .inr rfl⟩
  · exact ⟨_, rfl, .inl rfl⟩

/-- **The limit of the minute**: whether it is exceeded, and what is counted. -/
theorem kpm_spec {userId limit n x : ℤ} {w : AttemptWorld} (hlimit : 0 < limit)
    (h : CountsMinute (kpmKey userId (w.redis.clock / 60)) n x w.redis)
    (hx : x ≤ w.redis.clock + 90) :
    ∃ db, (checkAndIncrementKpmAsync userId limit).eval calmExec w =
        (.ok (decide (limit < n + 1), n + 1), { w with redis := db }) ∧
      SameBut (kpmKey userId (w.redis.clock / 60)) w.redis db ∧
      CountsMinute (kpmKey userId (w.redis.clock / 60)) (n + 1) x db := by
  let key := kpmKey userId (w.redis.clock / 60)
  have hcount : CountsMinute key (n + 1) x (w.redis.incrby key 1) := h.incrby
  have hframe := sameBut_incrby key 1 w.redis
  have heval : (checkAndIncrementKpmAsync userId limit).eval calmExec w =
      (keepForMinute key >>= fun _ =>
        pure (decide (limit < (w.redis.getNum key).getD 0 + 1),
          (w.redis.getNum key).getD 0 + 1)).eval calmExec
        { w with redis := w.redis.incrby key 1 } := by
    rw [checkAndIncrementKpmAsync, if_neg (by omega)]
    rfl
  obtain ⟨db, hkeep, hdb⟩ := keepForMinute_eval key { w with redis := w.redis.incrby key 1 }
  refine ⟨db, ?_, ?_, ?_⟩
  · rw [heval, Prog.eval_bind, hkeep, h.getD]
    rfl
  · rcases hdb with rfl | rfl
    · exact hframe
    · exact hframe.trans (sameBut_expireNum key 90 _)
  · rcases hdb with rfl | rfl
    · exact hcount
    · exact hcount.expireNum (by decide) hx

/-- Without a limit nothing is counted. -/
theorem kpm_spec_of_no_limit {userId limit : ℤ} {w : AttemptWorld} (hlimit : limit ≤ 0) :
    (checkAndIncrementKpmAsync userId limit).eval calmExec w =
      (.ok (false, 0), w) := by
  rw [checkAndIncrementKpmAsync, if_pos hlimit]
  rfl

/-! ### A wrong guess that is not over the limit -/

/-- The counter of the team's wrong answers, or what it would be restored from. -/
def attemptsCounted (req : ChallengeAttemptRequest) (w : AttemptWorld) : ℤ :=
  (w.redis.getNum (attemptKey req.contestId req.challengeId req.teamId)).getD
    (w.incorrectCount req.challengeId req.teamId)

/-- The guess is stored, or counted against `MaxAttempts`. -/
def Kept (req : ChallengeAttemptRequest) (w w' : AttemptWorld) : Prop :=
  w'.incorrectCount req.challengeId req.teamId =
      w.incorrectCount req.challengeId req.teamId + 1 ∨
    w'.redis.getNum (attemptKey req.contestId req.challengeId req.teamId) =
      some (attemptsCounted req w + 1)

/-- What is done after a wrong answer was stored changes nothing of this. -/
theorem answerFail_eval (cc : ContestsChallenge) (user : Option User) (attempt : AttemptDTO)
    (fails : ℤ) (w : AttemptWorld) :
    ((answerFail req cc user attempt fails).eval calmExec w).2 = w := by
  refine (throughout_answerFail req cc user attempt fails).eval (J := fun w' => w' = w) rfl fun o w' ho hw => ?_
  subst hw
  cases o with
  | redis o =>
      cases o with
      | keyExists key => rfl
      | _ => exact ho.elim
  | forceStop cc t => rfl
  | saveActionLogs a u cc => rfl
  | _ => exact ho.elim

/-- The attempts counted, after the counter's script. -/
theorem countAttempt_eval (cc : ContestsChallenge) (n : ℤ) (w : AttemptWorld) (counted : ℤ)
    (hcounted : (w.redis.getNum (attemptKey req.contestId cc.id req.teamId)).getD
      (w.incorrectCount cc.id req.teamId) = counted) :
    ∃ r db, (countAttempt cc req.contestId req.teamId n).eval calmExec w =
        (.ok r, { w with redis := db }) ∧
      SameBut (attemptKey req.contestId cc.id req.teamId) w.redis db ∧
      (n ≤ counted ∧ r = none ∧
          db.getNum (attemptKey req.contestId cc.id req.teamId) = some counted ∨
        counted < n ∧
          db.getNum (attemptKey req.contestId cc.id req.teamId) = some (counted + 1)) := by
  let key := attemptKey req.contestId cc.id req.teamId
  have httl : (0 : ℤ) < 86400 := by decide
  let script := checkAndIncrementScript key n (n * 3 / 2)
    (w.incorrectCount cc.id req.teamId : ℤ) 86400 w.redis
  have hframe : SameBut key w.redis script.2 :=
    checkAndIncrementScript_frame key n _ _ w.redis httl
  have heval : (countAttempt cc req.contestId req.teamId n).eval calmExec w =
      (Prog.ret script.1 >>= fun result : ℤ =>
        if result = -1 then pure none else pure (some result)).eval calmExec
        { w with redis := script.2 } := rfl
  rw [heval]
  obtain ⟨hle, hr, hc⟩ | ⟨hlt, hr, hc⟩ := checkAndIncrementScript_cases key n (n * 3 / 2)
    (w.incorrectCount cc.id req.teamId : ℤ) w.redis httl
  · rw [hcounted] at hle hc
    exact ⟨none, script.2, by rw [show script.1 = .ok (-1) from hr]; rfl, hframe,
      .inl ⟨hle, rfl, hc⟩⟩
  · rw [hcounted] at hlt hr hc
    refine ⟨if counted + 1 = -1 then none else some (counted + 1), script.2, ?_, hframe,
      .inr ⟨hlt, hc⟩⟩
    rw [show script.1 = .ok (counted + 1) from hr, Prog.ret_ok_bind]
    split <;> rfl

/-- What is done with a wrong answer that was counted. -/
def storeCounted (req : ChallengeAttemptRequest) (cc : ContestsChallenge) (user : Option User) :
    Option ℤ → Prog attemptI Exn (Option ℤ)
  | none => pure none
  | some fails => do
      query (.addFail (req.row cc user))
      pure (some fails)

/-- Where a wrong guess is kept, once it is not over the limit of the minute. -/
theorem saveFail_spec (cc : ContestsChallenge) (user : Option User) (w : AttemptWorld)
    (hid : cc.id = req.challengeId) :
    let w' := ((saveFail req cc user).eval calmExec w).2
    SameBut (attemptKey req.contestId req.challengeId req.teamId) w.redis w'.redis ∧
      (Kept req w w' ↔ ∀ n, attemptLimit cc = some n → attemptsCounted req w < n) := by
  cases hlimit : attemptLimit cc with
  | none =>
      have heval : (saveFail req cc user).eval calmExec w =
          (.ok (some 0), w.insertFail (req.row cc user)) := by
        rw [saveFail, countedFails, hlimit]
        rfl
      rw [heval]
      refine ⟨.refl _ _, iff_of_true (.inl ?_) fun n hn => by cases hn⟩
      have hrows := incorrectCount_exec calmAttempt (.addFail (req.row cc user)) w
        req.challengeId req.teamId
      exact hrows.trans (if_pos ⟨by decide, hid, rfl⟩)
  | some n =>
      obtain ⟨r, db, hcount, hframe, hcases⟩ := countAttempt_eval cc n w (attemptsCounted req w)
        (show (w.redis.getNum (attemptKey req.contestId cc.id req.teamId)).getD _ = _ by
          rw [hid]; rfl)
      have heval : (saveFail req cc user).eval calmExec w =
          (Prog.ret (.ok r) >>= storeCounted req cc user).eval calmExec
            { w with redis := db } := by
        rw [saveFail, countedFails, hlimit, Prog.eval_bind, hcount]
        rfl
      rw [hid] at hframe hcases
      have hredis : ((saveFail req cc user).eval calmExec w).2.redis = db := by
        rw [heval]
        cases r <;> rfl
      refine ⟨hredis ▸ hframe, ?_⟩
      obtain ⟨hle, rfl, hc⟩ | ⟨hlt, hc⟩ := hcases
      · refine iff_of_false ?_ fun hall => by have := hall n rfl; omega
        rintro (hrows | hcounter)
        · rw [heval] at hrows
          exact absurd hrows (by simp [storeCounted, AttemptWorld.incorrectCount])
        · rw [hredis, hc] at hcounter
          have := Option.some.inj hcounter
          omega
      · refine iff_of_true (.inr ?_) fun m hm => ?_
        · rw [hredis, hc]
        · obtain rfl := Option.some.inj hm
          exact hlt

/-! ### After the comparison -/

/-- Where a text found to be right can lead to. -/
def Phase.settled (q : Phase) : Prop :=
  q.right = true ∨ (∃ cc, q = .solved cc) ∨ q = .failed

theorem Phase.settled_next {q : Phase} (h : q.settled) {o : AttemptOp}
    (ho : q.allows req o) (r : Except Exn o.Reply) : (q.next cfg req o r).settled := by
  rcases h with h | ⟨cc, rfl⟩ | rfl
  · exact Phase.right_next h o r
  · exact ho.elim
  · exact ho.elim

/-- A right guess leaves Redis alone, and is not answered to be too fast. -/
theorem creditSolve_eval (cc : ContestsChallenge) (bank : Challenge) (user : Option User)
    (attempt : AttemptDTO) (w : AttemptWorld) :
    ((creditSolve cfg req cc bank user attempt).eval calmExec w).2.redis = w.redis ∧
      ∀ a, ((creditSolve cfg req cc bank user attempt).eval calmExec w).1 = .ok a →
        a.status ≠ some .ratelimited := by
  have heval : ∃ q : Phase,
      (q.settled ∧ ((creditSolve cfg req cc bank user attempt).eval calmExec w).2.redis =
        w.redis) ∧
      q.answers ((creditSolve cfg req cc bank user attempt).eval calmExec w).1 := by
    refine (follows_creditSolve user attempt).eval
      (J := fun q (w' : AttemptWorld) => q.settled ∧ w'.redis = w.redis) ⟨.inl rfl, rfl⟩ ?_
    rintro q o w' ho ⟨hq, hredis⟩
    refine ⟨Phase.settled_next hq ho _, ?_⟩
    have hexec := AttemptOp.exec_redis calmAttempt o w'
    cases o with
    | redis o =>
        have hkeep : (o.execFaulty calmAttempt.fault w'.redis).2 = w'.redis := by
          cases o with
          | keyExists key => rfl
          | _ =>
              rcases hq with hq | ⟨cc, rfl⟩ | rfl
              · cases q with
                | credited cc => exact (ho.elim id id).elim
                | matched cc | waiting cc | broken cc | uncredited cc => exact ho.elim
                | _ => cases hq
              · exact ho.elim
              · exact ho.elim
        exact (hexec.trans hkeep).trans hredis
    | _ => exact hexec.trans hredis
  obtain ⟨q, ⟨hq, hredis⟩, hans⟩ := heval
  refine ⟨hredis, fun a ha => ?_⟩
  rw [ha] at hans
  rcases hq with hq | ⟨cc, rfl⟩ | rfl
  · cases q with
    | matched cc => exact hans.elim
    | credited cc =>
        obtain ⟨a', ha', -, hstatus⟩ := hans
        obtain rfl := Except.ok.inj ha'
        rw [hstatus]
        decide
    | waiting cc | broken cc => exact nomatch hans
    | uncredited cc =>
        obtain rfl := Except.ok.inj hans
        decide
    | _ => cases hq
  · obtain rfl := Except.ok.inj hans
    decide
  · exact nomatch hans

/-- The incorrect branch, once the limit of the minute is asked for. -/
def keepGuess (req : ChallengeAttemptRequest) (cc : ContestsChallenge) (user : Option User)
    (attempt : AttemptDTO) : Prog attemptI Exn AttemptResponse := do
  match ← saveFail req cc user with
  | none => return .noTries
  | some fails => answerFail req cc user attempt fails

theorem keepGuess_eval (cc : ContestsChallenge) (user : Option User) (attempt : AttemptDTO)
    (w : AttemptWorld) :
    ((keepGuess req cc user attempt).eval calmExec w).2 =
      ((saveFail req cc user).eval calmExec w).2 := by
  refine Prog.eval_bind_snd fun fails w' => ?_
  cases fails with
  | none => rfl
  | some fails => exact answerFail_eval cc user attempt fails w'

/-- The answer to a wrong guess over the limit. -/
def tooFast (limit count : ℤ) : AttemptResponse :=
  .wait 429 .ratelimited
    ("You're submitting flags too fast. Slow down. (" ++ toString count ++ "/" ++
      toString limit ++ " attempts in last minute)") 0

/-- **The incorrect branch** answers by the limit first. -/
theorem recordFail_spec {n x : ℤ} {w : AttemptWorld} (cc : ContestsChallenge)
    (user : Option User) (attempt : AttemptDTO)
    (h : 0 < cfg.incorrectSubmissionsPerMin →
      CountsMinute (kpmKey req.userId (w.redis.clock / 60)) n x w.redis)
    (hx : x ≤ w.redis.clock + 90) :
    ∃ db, SameBut (kpmKey req.userId (w.redis.clock / 60)) w.redis db ∧
      (0 < cfg.incorrectSubmissionsPerMin →
        CountsMinute (kpmKey req.userId (w.redis.clock / 60)) (n + 1) x db) ∧
      (recordFail cfg req cc user attempt).eval calmExec w =
        if 0 < cfg.incorrectSubmissionsPerMin ∧ cfg.incorrectSubmissionsPerMin ≤ n then
          (.ok (tooFast cfg.incorrectSubmissionsPerMin (n + 1)), { w with redis := db })
        else (keepGuess req cc user attempt).eval calmExec { w with redis := db } := by
  by_cases hlimit : 0 < cfg.incorrectSubmissionsPerMin
  · obtain ⟨db, heval, hframe, hcount⟩ := kpm_spec hlimit (h hlimit) hx
    refine ⟨db, hframe, fun _ => hcount, ?_⟩
    rw [recordFail, Prog.eval_bind, heval]
    by_cases hle : cfg.incorrectSubmissionsPerMin ≤ n
    · rw [if_pos ⟨hlimit, hle⟩]
      simp only [decide_eq_true (show cfg.incorrectSubmissionsPerMin < n + 1 by omega)]
      rfl
    · rw [if_neg fun hall => hle hall.2]
      simp only [decide_eq_false (show ¬cfg.incorrectSubmissionsPerMin < n + 1 by omega)]
      rfl
  · refine ⟨w.redis, .refl _ _, fun hall => absurd hall hlimit, ?_⟩
    rw [recordFail, Prog.eval_bind, kpm_spec_of_no_limit (not_lt.mp hlimit),
      if_neg fun hall => hlimit hall.1]
    rfl

/-! ### One guess -/

/-- The checks let the challenge pass that was found. -/
theorem checkedFound_eval {user user' : Option User} {found : Option ContestsChallenge}
    {cc : ContestsChallenge} {bank : Challenge} {w w' : AttemptWorld}
    (h : (checkedFound cfg req user found).eval calmExec w = (.ok (.ok (user', cc, bank)), w')) :
    found = some cc := by
  rcases found with _ | cc'
  · cases h
  · simp only [checkedFound] at h
    split at h
    · cases h
    · rw [Prog.eval_bind] at h
      split at h
      · next refusal w₁ _ =>
          cases refusal with
          | some refusal => cases h
          | none =>
              have hfound := Except.ok.inj (Except.ok.inj (Prod.mk.inj h).1)
              exact congrArg some (Prod.mk.inj (Prod.mk.inj hfound).2).1
      · cases h

/-- What is compared is the challenge that was asked for. -/
theorem reached_id {w w' : AttemptWorld} {user : Option User} {cc : ContestsChallenge}
    {bank : Challenge} (h : reached cfg req w = some ((user, cc, bank), w')) :
    cc.id = req.challengeId := by
  rw [reached] at h
  split at h
  case h_2 => cases h
  case h_1 found w₁ hchecked =>
    obtain ⟨rfl, -⟩ := Prod.mk.inj (Option.some.inj h)
    by_cases hid : req.challengeId = 0
    · simp only [checked, if_pos hid] at hchecked
      cases hchecked
    · simp only [checked, if_neg hid] at hchecked
      have hfind : w.tables.contestsChallenges.find? (fun c =>
          c.id = req.challengeId ∧ c.contestId = req.contestId) = some cc :=
        checkedFound_eval hchecked
      have hp := List.find?_some hfind
      exact (decide_eq_true_iff.mp hp).1

/-- What the comparison of a reached challenge leads to. -/
def outcome (cfg : AttemptConfig) (req : ChallengeAttemptRequest) (user : Option User)
    (cc : ContestsChallenge) (bank : Challenge) :
    Except Exn AttemptDTO → AttemptWorld → Except Exn AttemptResponse × AttemptWorld
  | .error e, w => (.error e, w)
  | .ok attempt, w =>
      (if attempt.status then creditSolve cfg req cc bank user attempt
        else recordFail cfg req cc user attempt).eval calmExec w

theorem judged_eval (user : Option User) (cc : ContestsChallenge) (bank : Challenge)
    (w : AttemptWorld) :
    (judged cfg req (.ok (user, cc, bank))).eval calmExec w =
      outcome cfg req user cc bank
        (ChallengeHelper.attempt cfg.runtime req.submitted (w.tables.flags bank.id)) w := by
  have heval : (judged cfg req (.ok (user, cc, bank))).eval calmExec w =
      ((match ChallengeHelper.attempt cfg.runtime req.submitted (w.tables.flags bank.id) with
          | .ok attempt => pure attempt
          | .error e => throw e : Prog attemptI Exn AttemptDTO) >>= fun attempt =>
        if attempt.status then creditSolve cfg req cc bank user attempt
        else recordFail cfg req cc user attempt).eval calmExec w := rfl
  rw [heval]
  cases ChallengeHelper.attempt cfg.runtime req.submitted (w.tables.flags bank.id) <;> rfl

/-- A guess that is refused by the checks. -/
theorem serve_of_not_reached {w : AttemptWorld} (h : reached cfg req w = none) :
    ∃ r, ∀ flags, serve cfg req (w.withFlags flags) =
      (r, ((checked cfg req).eval calmExec w).2.withFlags flags) := by
  rw [reached] at h
  cases hchecked : (checked cfg req).eval calmExec w with
  | mk r w' =>
      rw [hchecked] at h
      rcases r with e | refusal | found
      · refine ⟨.error e, fun flags => ?_⟩
        rw [serve_eq, checked_withFlags, hchecked]
      · refine ⟨.ok refusal, fun flags => ?_⟩
        rw [serve_eq, checked_withFlags, hchecked]
        rfl
      · cases h

/-- A guess that is compared. -/
theorem serve_of_reached {w w' : AttemptWorld} {user : Option User} {cc : ContestsChallenge}
    {bank : Challenge} (h : reached cfg req w = some ((user, cc, bank), w'))
    (flags : ℤ → List Flag) :
    serve cfg req (w.withFlags flags) =
      outcome cfg req user cc bank
        (ChallengeHelper.attempt cfg.runtime req.submitted (flags bank.id))
        (w'.withFlags flags) := by
  rw [reached] at h
  split at h
  case h_2 => cases h
  case h_1 found w₁ hchecked =>
    obtain ⟨rfl, rfl⟩ := Prod.mk.inj (Option.some.inj h)
    rw [serve_eq, checked_withFlags, hchecked]
    exact judged_eval user cc bank (w₁.withFlags flags)

/-- The state the comparison is made in. -/
theorem passed_reached {w w' : AttemptWorld} {found : Option User × ContestsChallenge × Challenge}
    (h : reached cfg req w = some (found, w')) : Passed w w' := by
  have hpass := @passed_checked cfg req w
  rw [reached] at h
  split at h
  case h_2 => cases h
  case h_1 found w₁ hchecked =>
    obtain ⟨rfl, rfl⟩ := Prod.mk.inj (Option.some.inj h)
    rw [hchecked] at hpass
    exact hpass

/-- The same with the flags that are there. -/
theorem serve_of_reached_self {w w' : AttemptWorld} {user : Option User}
    {cc : ContestsChallenge} {bank : Challenge}
    (h : reached cfg req w = some ((user, cc, bank), w')) :
    serve cfg req w =
      outcome cfg req user cc bank
        (ChallengeHelper.attempt cfg.runtime req.submitted (w'.tables.flags bank.id)) w' := by
  have hpass := passed_reached h
  have hserve := serve_of_reached h w'.tables.flags
  rw [hpass.tables] at hserve ⊢
  refine hserve.trans (congrArg (outcome cfg req user cc bank _) ?_)
  rw [← hpass.tables]
  rfl

theorem told_of_reached {w w' : AttemptWorld} {user : Option User} {cc : ContestsChallenge}
    {bank : Challenge} (h : reached cfg req w = some ((user, cc, bank), w')) :
    told cfg req w =
      (ChallengeHelper.attempt cfg.runtime req.submitted
        (w'.tables.flags bank.id)).toOption.map (·.status) := by
  rw [told, h]
  dsimp only
  cases ChallengeHelper.attempt cfg.runtime req.submitted (w'.tables.flags bank.id) <;> rfl

/-- The minute's counter after the checks. -/
theorem CountsMinute.of_passed {u m n x : ℤ} {w w' : AttemptWorld}
    (h : CountsMinute (kpmKey u m) n x w.redis) (hpass : Passed w w') :
    CountsMinute (kpmKey u m) n x w'.redis :=
  h.frame (hpass.lookupNum _ fun contestId cc t => kpmKey_ne_cooldownKey u m contestId cc t)

/-- **One guess** and the counter of the minute. -/
theorem countsMinute_serve {n x : ℤ} {w : AttemptWorld}
    (hlimit : 0 < cfg.incorrectSubmissionsPerMin)
    (h : CountsMinute (kpmKey req.userId (w.redis.clock / 60)) n x w.redis)
    (hx : x ≤ w.redis.clock + 90) :
    CountsMinute (kpmKey req.userId (w.redis.clock / 60))
      (n + if told cfg req w = some false then 1 else 0) x (serve cfg req w).2.redis := by
  cases hreached : reached cfg req w with
  | none =>
      obtain ⟨r, hserve⟩ := serve_of_not_reached hreached
      have hstate : (serve cfg req w).2.redis =
          ((checked cfg req).eval calmExec w).2.redis :=
        congrArg (·.2.redis) (hserve w.tables.flags)
      rw [hstate, told, hreached, if_neg (by simp), add_zero]
      exact h.of_passed (passed_checked w)
  | some found =>
      obtain ⟨⟨user, cc, bank⟩, w'⟩ := found
      have hpass := passed_reached hreached
      have hcount := h.of_passed hpass
      rw [serve_of_reached_self hreached, told_of_reached hreached]
      generalize ChallengeHelper.attempt cfg.runtime req.submitted
        (w'.tables.flags bank.id) = result
      cases result with
      | error e => exact (add_zero n).symm ▸ hcount
      | ok attempt =>
          cases hstatus : attempt.status with
          | true =>
              simp only [outcome, Except.toOption, Option.map_some, hstatus, if_true,
                (creditSolve_eval cc bank user attempt w').1]
              exact (add_zero n).symm ▸ hcount
          | false =>
              rw [← hpass.clock] at hcount hx
              obtain ⟨db, hframe, hdb, heval⟩ :=
                @recordFail_spec cfg req n x w' cc user attempt (fun _ => hcount) hx
              rw [hpass.clock] at hdb
              simp only [outcome, Except.toOption, Option.map_some, hstatus,
                Bool.false_eq_true, if_false, if_true, heval]
              split
              · exact hdb hlimit
              · rw [keepGuess_eval]
                have hkeep := (saveFail_spec cc user { w' with redis := db }
                  (reached_id hreached)).1
                exact (hdb hlimit).frame
                  (hkeep.lookupNum_of_ne _ (attemptKey_ne_kpmKey _ _ _ _ _).symm)

end Serve

/-! ### The guesses of a minute -/

section Minute

variable (cfg : AttemptConfig)

/-- The state after guesses that come one after the other, each followed by a move of the
surroundings. -/
def afterGuesses : List (ChallengeAttemptRequest × AttemptMove) → AttemptWorld → AttemptWorld
  | [], w => w
  | (req, m) :: rest, w => afterGuesses rest (m.apply (serve cfg req w).2)

/-- How many of them were found to be wrong. -/
def wrongGuesses : List (ChallengeAttemptRequest × AttemptMove) → AttemptWorld → ℕ
  | [], _ => 0
  | (req, m) :: rest, w =>
      (if told cfg req w = some false then 1 else 0) +
        wrongGuesses rest (m.apply (serve cfg req w).2)

/-- The guesses are those of a user within one minute, from the user's first one on, and the
counter of the minute is not evicted. -/
structure OfMinute (userId : ℤ) (guesses : List (ChallengeAttemptRequest × AttemptMove))
    (w : AttemptWorld) : Prop where
  /-- They are the user's. -/
  own : ∀ p ∈ guesses, p.1.userId = userId
  /-- None was counted before. -/
  fresh : w.redis.lookupNum (kpmKey userId (w.redis.clock / 60)) = none
  /-- The counter stays. -/
  stays : ∀ p ∈ guesses, p.2 ≠ .evict (kpmKey userId (w.redis.clock / 60))
  /-- The minute is not over. -/
  minute : (afterGuesses cfg guesses w).redis.clock / 60 = w.redis.clock / 60

/-- The limit of the minute is used up after `n` wrong guesses. -/
def UsedUp (n : ℕ) : Prop :=
  0 < cfg.incorrectSubmissionsPerMin ∧ cfg.incorrectSubmissionsPerMin ≤ n

instance (n : ℕ) : Decidable (UsedUp cfg n) := inferInstanceAs (Decidable (_ ∧ _))

/-- What the limit asks of a guess after `n` wrong ones. -/
structure OracleFree (req : ChallengeAttemptRequest) (n : ℕ) (w : AttemptWorld) : Prop where
  /-- Once the limit is used up, the answer does not depend on the flags. -/
  silent : UsedUp cfg n → ∀ flags,
    (serve cfg req (w.withFlags flags)).1 = (serve cfg req w).1
  /-- A guess found to be wrong is stored, or counted. -/
  kept : told cfg req w = some false → Kept req w (serve cfg req w).2

variable {cfg : AttemptConfig}

/-- No time passes during a request. -/
theorem clock_serve (req : ChallengeAttemptRequest) (w : AttemptWorld) :
    (serve cfg req w).2.redis.clock = w.redis.clock := by
  refine (Prog.Throughout.of_forall (φ := fun _ => True) (fun _ => trivial)
    (attempt cfg req)).eval
    (J := fun w' : AttemptWorld => w'.redis.clock = w.redis.clock) rfl fun o w' _ hw => ?_
  have hexec := AttemptOp.exec_redis calmAttempt o w'
  refine (congrArg Db.clock hexec).trans ?_
  cases o with
  | redis o => exact (RedisOp.clock_execFaulty _ o w'.redis).trans hw
  | _ => exact hw

theorem clock_le_move (m : AttemptMove) (w : AttemptWorld) :
    w.redis.clock ≤ (m.apply w).redis.clock := by
  cases m with
  | tick d => exact w.redis.clock_le_tick d
  | evict key => exact le_refl _
  | tables tables => exact le_refl _
  | deployments strings zsets => exact le_refl _

theorem clock_le_afterGuesses (guesses : List (ChallengeAttemptRequest × AttemptMove))
    (w : AttemptWorld) : w.redis.clock ≤ (afterGuesses cfg guesses w).redis.clock := by
  induction guesses generalizing w with
  | nil => exact le_refl _
  | cons p rest ih =>
      obtain ⟨req, m⟩ := p
      calc w.redis.clock
          = (serve cfg req w).2.redis.clock := (clock_serve req w).symm
        _ ≤ (m.apply (serve cfg req w).2).redis.clock := clock_le_move m _
        _ ≤ (afterGuesses cfg ((req, m) :: rest) w).redis.clock := ih _

/-- The surroundings leave the minute's counter alone, unless they evict it. -/
theorem CountsMinute.move {key : String} {n x : ℤ} {w : AttemptWorld} {m : AttemptMove}
    (h : CountsMinute key n x w.redis) (hm : m ≠ .evict key)
    (hx : (m.apply w).redis.clock < x) : CountsMinute key n x (m.apply w).redis := by
  cases m with
  | tick d => exact h.tick hx
  | evict key' =>
      have hk : key ≠ key' := fun hk => hm (congrArg AttemptMove.evict hk.symm)
      exact h.frame (w.redis.lookupNum_delNum_of_ne hk)
  | tables tables => exact h
  | deployments strings zsets => exact h

/-- **The counter of the minute** counts the wrong guesses. -/
theorem countsMinute_afterGuesses {userId m n : ℤ} (hlimit : 0 < cfg.incorrectSubmissionsPerMin)
    (guesses : List (ChallengeAttemptRequest × AttemptMove)) {w : AttemptWorld}
    (h : CountsMinute (kpmKey userId m) n (60 * (m + 1)) w.redis)
    (hfrom : 60 * m ≤ w.redis.clock)
    (hto : (afterGuesses cfg guesses w).redis.clock < 60 * (m + 1))
    (hown : ∀ p ∈ guesses, p.1.userId = userId)
    (hstays : ∀ p ∈ guesses, p.2 ≠ .evict (kpmKey userId m)) :
    CountsMinute (kpmKey userId m) (n + wrongGuesses cfg guesses w) (60 * (m + 1))
      (afterGuesses cfg guesses w).redis := by
  induction guesses generalizing w n with
  | nil => exact (add_zero n).symm ▸ h
  | cons p rest ih =>
      obtain ⟨req, mv⟩ := p
      obtain ⟨hreq, hown⟩ := List.forall_mem_cons.mp hown
      obtain ⟨hmv, hstays⟩ := List.forall_mem_cons.mp hstays
      have hclock := @clock_serve cfg req w
      have hmove := clock_le_move mv (serve cfg req w).2
      have hrest := @clock_le_afterGuesses cfg rest (mv.apply (serve cfg req w).2)
      have hlt : (mv.apply (serve cfg req w).2).redis.clock < 60 * (m + 1) :=
        hrest.trans_lt hto
      have hminute : w.redis.clock / 60 = m := by omega
      have hserved : CountsMinute (kpmKey userId m)
          (n + if told cfg req w = some false then 1 else 0) (60 * (m + 1))
          (serve cfg req w).2.redis := by
        rw [← hreq, ← hminute] at h ⊢
        exact countsMinute_serve hlimit h (by omega)
      have hlater : 60 * m ≤ (mv.apply (serve cfg req w).2).redis.clock := by omega
      have hnext := ih (hserved.move hmv hlt) hlater hto hown hstays
      rw [wrongGuesses, afterGuesses, Nat.cast_add, ← add_assoc, Nat.cast_ite, Nat.cast_one,
        Nat.cast_zero]
      exact hnext

/-! ### The limit of the minute as an oracle -/

/-- The flags a text meets. -/
def flagOf (submitted : Utf16) : Flag := ⟨.static, some submitted, false⟩

theorem attempt_flagOf (rt : Runtime) (submitted : Utf16) :
    ChallengeHelper.attempt rt submitted [flagOf submitted] = .ok ⟨true, "Correct"⟩ := by
  have hcompare : ChallengeHelper.compare rt (flagOf submitted) submitted = .ok true :=
    congrArg Except.ok ((ChallengeHelper.compareStatic_iff rt _ _).mpr rfl)
  rw [ChallengeHelper.attempt, hcompare]

section Oracle

variable {cfg : AttemptConfig} {req : ChallengeAttemptRequest} {n : ℕ} {w w' : AttemptWorld}
  {user : Option User} {cc : ContestsChallenge} {bank : Challenge}

/-- The minute's counter in the state the comparison is made in. -/
theorem recordFail_of_reached (h : reached cfg req w = some ((user, cc, bank), w'))
    (hcount : 0 < cfg.incorrectSubmissionsPerMin →
      CountsMinute (kpmKey req.userId (w.redis.clock / 60)) n
        (60 * (w.redis.clock / 60 + 1)) w.redis)
    (flags : ℤ → List Flag) (attempt : AttemptDTO) :
    ∃ db, SameBut (kpmKey req.userId (w.redis.clock / 60)) w'.redis db ∧
      (recordFail cfg req cc user attempt).eval calmExec (w'.withFlags flags) =
        if UsedUp cfg n then
          (.ok (tooFast cfg.incorrectSubmissionsPerMin (n + 1)),
            { w'.withFlags flags with redis := db })
        else (keepGuess req cc user attempt).eval calmExec
          { w'.withFlags flags with redis := db } := by
  have hpass := passed_reached h
  have hcounted : 0 < cfg.incorrectSubmissionsPerMin →
      CountsMinute (kpmKey req.userId (w'.redis.clock / 60)) n
        (60 * (w'.redis.clock / 60 + 1)) w'.redis := by
    rw [hpass.clock]
    exact fun hlimit => (hcount hlimit).of_passed hpass
  have hx : 60 * (w'.redis.clock / 60 + 1) ≤ w'.redis.clock + 90 := by omega
  obtain ⟨db, hframe, -, heval⟩ :=
    @recordFail_spec cfg req n _ (w'.withFlags flags) cc user attempt hcounted hx
  rw [← hpass.clock]
  exact ⟨db, hframe, heval⟩

/-- **Once the limit is used up**, a guess that is compared is an oracle. -/
theorem silent_iff
    (hcount : 0 < cfg.incorrectSubmissionsPerMin →
      CountsMinute (kpmKey req.userId (w.redis.clock / 60)) n
        (60 * (w.redis.clock / 60 + 1)) w.redis) :
    (UsedUp cfg n → ∀ flags, (serve cfg req (w.withFlags flags)).1 = (serve cfg req w).1) ↔
      ((reached cfg req w).isSome → ¬UsedUp cfg n) := by
  constructor
  · intro hsilent hsome hused
    obtain ⟨⟨⟨user, cc, bank⟩, w'⟩, hreached⟩ := Option.isSome_iff_exists.mp hsome
    -- a guess that meets no flag is answered to be too fast
    have hwrong : (serve cfg req (w.withFlags fun _ => [])).1 =
        .ok (tooFast cfg.incorrectSubmissionsPerMin (n + 1)) := by
      obtain ⟨db, -, heval⟩ := recordFail_of_reached hreached hcount (fun _ => [])
        ⟨false, "Incorrect"⟩
      rw [if_pos hused] at heval
      rw [serve_of_reached hreached]
      exact congrArg Prod.fst heval
    -- one that meets the flag is not
    have hright := serve_of_reached hreached fun _ => [flagOf req.submitted]
    rw [attempt_flagOf] at hright
    have hsame := (hsilent hused fun _ => [flagOf req.submitted]).trans
      (hsilent hused fun _ => []).symm
    rw [hright, hwrong] at hsame
    exact (creditSolve_eval cc bank user ⟨true, "Correct"⟩
      (w'.withFlags fun _ => [flagOf req.submitted])).2 _ hsame rfl
  · intro hnot hused flags
    cases hreached : reached cfg req w with
    | none =>
        obtain ⟨r, hserve⟩ := serve_of_not_reached hreached
        exact (congrArg Prod.fst (hserve flags)).trans
          (congrArg Prod.fst (hserve w.tables.flags)).symm
    | some found => exact absurd hused (hnot (by rw [hreached]; rfl))

/-- What is counted and stored before the guess, in a state that agrees on it. -/
theorem kept_congr {v s : AttemptWorld} (hrows : v.submissions = w.submissions)
    (hcounter : v.redis.getNum (attemptKey req.contestId req.challengeId req.teamId) =
      w.redis.getNum (attemptKey req.contestId req.challengeId req.teamId)) :
    attemptsCounted req v = attemptsCounted req w ∧ (Kept req v s ↔ Kept req w s) := by
  have hcount : v.incorrectCount req.challengeId req.teamId =
      w.incorrectCount req.challengeId req.teamId := by
    rw [AttemptWorld.incorrectCount, hrows, AttemptWorld.incorrectCount]
  have hattempts : attemptsCounted req v = attemptsCounted req w := by
    rw [attemptsCounted, hcounter, hcount, attemptsCounted]
  exact ⟨hattempts, by rw [Kept, hcount, hattempts, Kept]⟩

/-- A guess that leaves the stored and the counted ones as they are is not kept. -/
theorem not_kept_self : ¬Kept req w w := by
  rintro (hrows | hcounter)
  · exact absurd hrows (by omega)
  · rw [attemptsCounted, hcounter, Option.getD_some] at hcounter
    have := Option.some.inj hcounter
    omega

/-- **A wrong guess** is kept if neither limit is used up. -/
theorem kept_iff (hreached : reached cfg req w = some ((user, cc, bank), w'))
    (hcount : 0 < cfg.incorrectSubmissionsPerMin →
      CountsMinute (kpmKey req.userId (w.redis.clock / 60)) n
        (60 * (w.redis.clock / 60 + 1)) w.redis)
    (hwrong : told cfg req w = some false) :
    Kept req w (serve cfg req w).2 ↔
      ¬UsedUp cfg n ∧ ∀ m, attemptLimit cc = some m → attemptsCounted req w < m := by
  have hpass := passed_reached hreached
  obtain ⟨attempt, hattempt, hstatus⟩ : ∃ attempt, ChallengeHelper.attempt cfg.runtime
      req.submitted (w'.tables.flags bank.id) = .ok attempt ∧ attempt.status = false := by
    rw [told_of_reached hreached] at hwrong
    cases hattempt : ChallengeHelper.attempt cfg.runtime req.submitted
        (w'.tables.flags bank.id) with
    | error e => rw [hattempt] at hwrong; cases hwrong
    | ok attempt =>
        rw [hattempt] at hwrong
        exact ⟨attempt, rfl, Option.some.inj hwrong⟩
  obtain ⟨db, hframe, heval⟩ :=
    recordFail_of_reached hreached hcount w'.tables.flags attempt
  have hserve : serve cfg req w = (recordFail cfg req cc user attempt).eval calmExec w' := by
    rw [serve_of_reached_self hreached, hattempt, outcome, hstatus]
    rfl
  -- the state the wrong guess is to be kept in counts and stores what the first one does
  have hkey := attemptKey_ne_kpmKey req.contestId req.challengeId req.teamId req.userId
    (w.redis.clock / 60)
  have hcounter : db.getNum (attemptKey req.contestId req.challengeId req.teamId) =
      w.redis.getNum (attemptKey req.contestId req.challengeId req.teamId) := by
    rw [hframe.getNum_of_ne hkey, Db.getNum, hpass.lookupNum _ fun contestId cc t =>
      attemptKey_ne_cooldownKey _ _ _ contestId cc t, Db.getNum]
  rw [hserve, show (recordFail cfg req cc user attempt).eval calmExec w' = _ from heval]
  obtain ⟨hattempts, hkept⟩ := @kept_congr req w { w' with redis := db }
    ((if UsedUp cfg n then
        (.ok (tooFast cfg.incorrectSubmissionsPerMin (n + 1)), { w' with redis := db })
      else (keepGuess req cc user attempt).eval calmExec { w' with redis := db } :
        Except Exn AttemptResponse × AttemptWorld).2) hpass.submissions hcounter
  refine hkept.symm.trans ?_
  by_cases hused : UsedUp cfg n
  · rw [if_pos hused]
    exact iff_of_false not_kept_self fun h => h.1 hused
  · rw [if_neg hused, keepGuess_eval]
    refine (saveFail_spec cc user { w' with redis := db } (reached_id hreached)).2.trans ?_
    rw [hattempts]
    exact (and_iff_right hused).symm

end Oracle

/-- **The limit of a minute is no oracle** for a guess if and only if the guess is not
compared, or the limit is not used up and the team has tries left should it be wrong. -/
theorem oracleFree_iff (userId : ℤ)
    (guesses : List (ChallengeAttemptRequest × AttemptMove)) (w : AttemptWorld)
    (h : OfMinute cfg userId guesses w) (req : ChallengeAttemptRequest)
    (hreq : req.userId = userId) :
    let n := wrongGuesses cfg guesses w
    let w' := afterGuesses cfg guesses w
    OracleFree cfg req n w' ↔
      ∀ user cc bank w'', reached cfg req w' = some ((user, cc, bank), w'') →
        ¬UsedUp cfg n ∧
          (told cfg req w' = some false →
            ∀ m, attemptLimit cc = some m → attemptsCounted req w' < m) := by
  intro n w'
  have hcount : 0 < cfg.incorrectSubmissionsPerMin →
      CountsMinute (kpmKey req.userId (w'.redis.clock / 60)) n
        (60 * (w'.redis.clock / 60 + 1)) w'.redis := by
    intro hlimit
    have hfresh : CountsMinute (kpmKey userId (w.redis.clock / 60)) 0
        (60 * (w.redis.clock / 60 + 1)) w.redis := .inl ⟨rfl, h.fresh⟩
    have hminute : w'.redis.clock / 60 = w.redis.clock / 60 := h.minute
    have hcounted := countsMinute_afterGuesses hlimit guesses hfresh (by omega)
      (show w'.redis.clock < _ by omega) h.own h.stays
    rw [zero_add] at hcounted
    rw [hreq, hminute]
    exact hcounted
  constructor
  · intro hfree user cc bank w'' hreached
    have hused : ¬UsedUp cfg n :=
      (silent_iff hcount).mp hfree.silent (by rw [hreached]; rfl)
    exact ⟨hused, fun hwrong =>
      ((kept_iff hreached hcount hwrong).mp (hfree.kept hwrong)).2⟩
  · intro hall
    refine ⟨(silent_iff hcount).mpr fun hsome => ?_, fun hwrong => ?_⟩
    · obtain ⟨⟨⟨user, cc, bank⟩, w''⟩, hreached⟩ := Option.isSome_iff_exists.mp hsome
      exact (hall user cc bank w'' hreached).1
    · cases hreached : reached cfg req w' with
      | none => rw [told, hreached] at hwrong; cases hwrong
      | some found =>
          obtain ⟨⟨user, cc, bank⟩, w''⟩ := found
          obtain ⟨hused, htries⟩ := hall user cc bank w'' hreached
          exact (kept_iff hreached hcount hwrong).mpr ⟨hused, htries hwrong⟩

/-- The configuration with a limit of one wrong guess. -/
def oneGuessConfig : AttemptConfig := { defaultAttemptConfig with incorrectSubmissionsPerMin := 1 }

/-- A challenge without a limit. -/
def openChallenge : ContestsChallenge := { oneTryChallenge with maxAttempts := none }

/-- A wrong guess of user 9. -/
def wrongGuess : ChallengeAttemptRequest := ⟨9, 5, 1, 7, some [0x78#16]⟩

/-- It is user 9's, and within a minute. -/
theorem ofMinute_wrongGuess :
    OfMinute oneGuessConfig 9 [(wrongGuess, .tick 1)] (attemptWorld openChallenge) := by
  refine ⟨fun p hp => ?_, by decide +kernel, fun p hp => ?_, by decide +kernel⟩
  · obtain rfl := List.mem_singleton.mp hp
    rfl
  · obtain rfl := List.mem_singleton.mp hp
    exact fun hevict => nomatch hevict

/-- The first wrong guess of a minute is answered as the limit asks. -/
theorem oracleFree_example :
    OracleFree oneGuessConfig wrongGuess 0 (attemptWorld openChallenge) := by
  refine (oracleFree_iff 9 [] (attemptWorld openChallenge)
    ⟨nofun, by decide +kernel, nofun, rfl⟩ wrongGuess rfl).mpr ?_
  intro user cc bank w'' hreached
  refine ⟨by decide, fun _ m hm => ?_⟩
  have hcc : (reached oneGuessConfig wrongGuess (attemptWorld openChallenge)).map
      (fun found => attemptLimit found.1.2.1) = some none := by decide +kernel
  rw [show afterGuesses oneGuessConfig [] (attemptWorld openChallenge) =
    attemptWorld openChallenge from rfl] at hreached
  rw [hreached] at hcc
  rw [show attemptLimit cc = none from Option.some.inj hcc] at hm
  cases hm

/-- **An oracle.** With a limit of one wrong guess a minute, the second guess of the minute is
compared all the same: a wrong one is neither stored nor counted. -/
theorem not_oracleFree :
    ∃ guesses : List (ChallengeAttemptRequest × AttemptMove), ∃ w,
      OfMinute oneGuessConfig 9 guesses w ∧
      UsedUp oneGuessConfig (wrongGuesses oneGuessConfig guesses w) ∧
      ¬OracleFree oneGuessConfig wrongGuess (wrongGuesses oneGuessConfig guesses w)
        (afterGuesses oneGuessConfig guesses w) := by
  refine ⟨[(wrongGuess, .tick 1)], attemptWorld openChallenge, ofMinute_wrongGuess,
    by decide +kernel, fun hfree => ?_⟩
  have hkept := hfree.kept (by decide +kernel)
  exact absurd hkept (by unfold Kept; decide +kernel)

end Minute

end Fctf
