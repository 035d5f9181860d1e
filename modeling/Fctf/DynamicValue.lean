import Fctf.RateLimit

/-!
# The Recalculation of a Decaying Value

After a correct answer to a dynamic challenge the request takes a lock, counts the solves
and stores the new value. What it stores is the whole row, as the request loaded it at its
start: whatever an administrator has written into the row since then is lost.

As the code stands the count names a column that is not mapped and is refused, so that
nothing is stored at all. The service here is given what the count answers, if it does.

## Main results

* `follows_attempt`, `follows_call`: what a request that recalculates has loaded, counted and
  stored, stage by stage.
-/

open Concurrent RedisDb

namespace Fctf

namespace DynamicValue

/-! ### The service -/

/-- How many solves of a challenge count: those of visible accounts. -/
def solveCount (visible : ℤ → Bool) (w : AttemptWorld) (contestChallengeId : ℤ) : ℕ :=
  w.solves.countP fun s => s.contestChallengeId = contestChallengeId ∧ s.userId.any visible

/-- What one operation answers and does if `GetSolveCount` answers for the accounts given.
Without them the count is refused. -/
def exec (visible : Option (ℤ → Bool)) (e : AttemptEnv) :
    (o : AttemptOp) → AttemptWorld → Except Exn o.Reply × AttemptWorld
  | .getSolveCount cc contestId, w =>
      match visible with
      | some visible => e.read (fun w => (solveCount visible w cc : ℤ)) w
      | none => AttemptOp.exec e (.getSolveCount cc contestId) w
  | o, w => AttemptOp.exec e o w

/-- The shared state, with what was last written by an administrator. -/
structure World where
  /-- The state. -/
  world : AttemptWorld
  /-- The tables as they were last written. -/
  written : AttemptTables
  /-- How often they were. -/
  updates : ℕ

/-- What a move of the surroundings does: a change of the tables is an update. -/
def ambient : AttemptMove → World → World
  | .tables tables, s => ⟨{ s.world with tables := tables }, tables, s.updates + 1⟩
  | m, s => { s with world := m.apply s.world }

/-- The service. -/
def service (cfg : AttemptConfig) (visible : Option (ℤ → Bool)) :
    Service attemptI Exn AttemptResponse World where
  Call := AttemptCall
  Env := AttemptEnv
  Ext := AttemptMove
  program := AttemptCall.program cfg
  exec e o s := ((exec visible e o s.world).1, { s with world := (exec visible e o s.world).2 })
  ambient := ambient

/-- The state before any update. -/
def World.of (world : AttemptWorld) : World := ⟨world, world.tables, 0⟩

/-! ### Where a recalculation stands -/

/-- Does its value decay? -/
def dynamic (cc : ContestsChallenge) : Bool := cc.bankChallenge.any (·.dynamic)

/-- Where a request stands. -/
inductive Stage where
  /-- The challenge is not known yet. -/
  | start
  /-- The row was loaded. -/
  | found (cc : ContestsChallenge)
  /-- The solve was stored, and the recalculation is due. -/
  | owing (cc : ContestsChallenge)
  /-- The lock was got. -/
  | locked (cc : ContestsChallenge)
  /-- The settings were loaded. -/
  | loaded (cc : ContestsChallenge) (d : DynamicChallenge)
  /-- The solves were counted. -/
  | counted (cc : ContestsChallenge) (d : DynamicChallenge) (count : ℤ)
  /-- The row was stored, or there is none to be stored. -/
  | done (cc : ContestsChallenge)
  /-- An operation of the recalculation has raised. -/
  | failed (cc : ContestsChallenge)

/-- The challenge of a request, as it was loaded. -/
def Stage.challenge : Stage → Option ContestsChallenge
  | .start => none
  | .found cc | .owing cc | .locked cc | .loaded cc _ | .counted cc _ _ | .done cc
  | .failed cc => some cc

/-- The stage after an operation. -/
def Stage.next : Stage → (o : AttemptOp) → Except Exn o.Reply → Stage
  | .start, .findContestsChallenge _ _, .ok (some cc) => .found cc
  | .found cc, .addSolve _, .ok _ => if dynamic cc then .owing cc else .done cc
  | .owing cc, .acquireLock _, .ok true => .locked cc
  | .owing cc, .acquireLock _, .error _ => .failed cc
  | .locked cc, .findDynamicChallenge _, .ok (some d) => .loaded cc d
  | .locked cc, .findDynamicChallenge _, .ok none => .done cc
  | .locked cc, .findDynamicChallenge _, .error _ => .failed cc
  | .loaded cc d, .getSolveCount _ _, .ok count => .counted cc d count
  | .loaded cc _, .getSolveCount _ _, .error _ => .failed cc
  | .counted cc _ _, .saveChallenge _, .ok _ => .done cc
  | .counted cc _ _, .saveChallenge _, .error _ => .failed cc
  | q, _, _ => q

/-- An operation that has nothing to do with a recalculation. -/
def Aside : AttemptOp → Prop
  | .findContestsChallenge _ _ => False
  | .addSolve _ => False
  | .resetSubmissions => False
  | o => ¬recalculationOp o

/-- The operations allowed in a stage. -/
def Stage.allows (cfg : AttemptConfig) (req : ChallengeAttemptRequest) :
    Stage → AttemptOp → Prop
  | .start, .findContestsChallenge id contestId =>
      id = req.challengeId ∧ contestId = req.contestId
  | .found cc, .addSolve s => s.contestChallengeId = cc.id
  | .start, o => Aside o
  | .found _, o => Aside o
  | .owing cc, o => o = .acquireLock (recalculationKey req.contestId cc.id)
  | .locked cc, o => o = .findDynamicChallenge cc.id
  | .loaded cc _, o => o = .getSolveCount cc.id req.contestId
  | .counted cc d count, o => o = .saveChallenge { cc with value := some (d.decayed cfg count) }
  | .done cc, o => o = .releaseLock (recalculationKey req.contestId cc.id) ∨ Aside o
  | .failed cc, o => o = .releaseLock (recalculationKey req.contestId cc.id)

/-- Where a request may end: not in the middle of a recalculation, and without the lock only
if it has given up. -/
def Stage.ends {α : Type} : Stage → Except Exn α → Prop
  | .owing _, r => r = .error .canceled
  | .locked _, _ => False
  | .loaded _ _, _ => False
  | .counted _ _ _, _ => False
  | _, _ => True

/-- The protocol of a call. The other calls store no challenge. -/
def protocol (cfg : AttemptConfig) : AttemptCall → Protocol attemptI Exn Stage
  | .attempt req => ⟨Stage.allows cfg req, Stage.next⟩
  | .editSubmission id => ⟨fun _ o => o = .findSubmission id, fun q _ _ => q⟩
  | .reset => ⟨fun _ o => o = .resetSubmissions, fun q _ _ => q⟩

/-! ### The endpoint, stage by stage -/

theorem aside_of_followUpOp {o : AttemptOp} (h : followUpOp o) : Aside o := by
  cases o with
  | redis o => exact fun h => h
  | forceStop cc t => exact fun h => h
  | saveActionLogs a u cc => exact fun h => h
  | _ => exact h.elim

theorem aside_of_ofFoundChecks {o : AttemptOp} (h : o.OfFoundChecks) : Aside o := by
  cases o with
  | findContestsChallenge id contestId => exact h.2 id contestId rfl
  | addSolve s => exact h.1
  | resetSubmissions => exact h.1
  | acquireLock key => exact h.1.elim
  | releaseLock key => exact h.1.elim
  | findDynamicChallenge cc => exact h.1.elim
  | getSolveCount cc contestId => exact h.1.elim
  | saveChallenge row => exact h.1.elim
  | _ => exact fun h => h

/-- No recalculation is under way. -/
def Stage.Idle : Stage → Prop
  | .start => True
  | .found _ => True
  | .done _ => True
  | _ => False

/-- An operation that has nothing to do with it is allowed, and changes no stage. -/
theorem stay_of_aside {cfg : AttemptConfig} {req : ChallengeAttemptRequest} {o : AttemptOp}
    (h : Aside o) {q : Stage} (hq : q.Idle) :
    q.allows cfg req o ∧ ∀ r, q.next o r = q := by
  cases o with
  | findContestsChallenge id contestId => exact h.elim
  | addSolve s => exact h.elim
  | _ =>
      cases q with
      | start => exact ⟨h, fun r => rfl⟩
      | found cc => exact ⟨h, fun r => rfl⟩
      | done cc => exact ⟨.inr h, fun r => rfl⟩
      | _ => exact hq.elim

theorem throughout_recordFail {cfg : AttemptConfig} {req : ChallengeAttemptRequest}
    (cc : ContestsChallenge) (user : Option User) (attempt : AttemptDTO) :
    (recordFail cfg req cc user attempt).Throughout Aside := by
  have hkpm : (checkAndIncrementKpmAsync req.userId cfg.incorrectSubmissionsPerMin).Throughout
      Aside := by
    rw [checkAndIncrementKpmAsync]
    split
    · trivial
    refine .bind (throughout_query fun h => h) fun now => ?_
    refine .bind (throughout_query fun h => h) fun newCount => ?_
    refine .bind (.bind (throughout_query fun h => h) fun ttl => ?_) fun _ => trivial
    split
    · exact .bind (throughout_query fun h => h) fun _ => trivial
    · trivial
  have hcount : (countedFails req cc).Throughout Aside := by
    rw [countedFails]
    split
    · trivial
    refine .bind (throughout_query fun h => h) fun actualDbCount => ?_
    refine .bind (throughout_query fun h => h) fun result => ?_
    split <;> trivial
  have hsave : (saveFail req cc user).Throughout Aside := by
    refine .bind hcount fun fails => ?_
    split
    · trivial
    · exact .bind (throughout_query fun h => h) fun _ => trivial
  refine .bind hkpm fun kpm => ?_
  obtain ⟨kpmExceeded, kpmCount⟩ := kpm
  dsimp only
  split
  · trivial
  refine .bind hsave fun fails => ?_
  split
  · trivial
  · exact (throughout_answerFail _ _ _ _ _).mono fun _ => aside_of_followUpOp

section Walk

variable {α : Type} {cfg : AttemptConfig} {req : ChallengeAttemptRequest}
  {cc : ContestsChallenge}

/-- A program that has nothing to do with it. -/
theorem follows_of_aside {p : Prog attemptI Exn α} {q : Stage} (hq : q.Idle)
    (h : p.Throughout Aside) :
    p.Follows (protocol cfg (.attempt req)) (fun q' _ => q' = q) q :=
  Prog.Follows.of_throughout (h.mono fun _ ho => stay_of_aside ho hq) fun _ => rfl

/-- Where the wait for the lock ends. -/
def Waited (cc : ContestsChallenge) (q : Stage) : Except Exn Unit → Prop
  | .ok _ => q = .locked cc
  | .error e => q = .owing cc ∧ e = .canceled ∨ q = .failed cc

theorem follows_awaitLock (moreTries : ℕ) :
    (awaitLock (recalculationKey req.contestId cc.id) moreTries).Follows
      (protocol cfg (.attempt req)) (Waited cc) (.owing cc) := by
  induction moreTries with
  | zero =>
      refine ⟨rfl, fun r => ?_⟩
      rcases r with e | _ | _
      · exact Or.inr rfl
      · exact Or.inl ⟨rfl, rfl⟩
      · rfl
  | succ n ih =>
      refine ⟨rfl, fun r => ?_⟩
      rcases r with e | _ | _
      · exact Or.inr rfl
      · exact ih
      · rfl

/-- The body of the recalculation. -/
theorem follows_newValue :
    (newValue cfg cc req.contestId).Follows (protocol cfg (.attempt req))
      (fun q r =>
        match r with
        | .ok _ => q = .done cc
        | .error _ => q = .failed cc) (.locked cc) := by
  refine ⟨rfl, fun r => ?_⟩
  rcases r with e | _ | d
  · rfl
  · rfl
  · refine ⟨rfl, fun r => ?_⟩
    rcases r with e | count
    · rfl
    · refine ⟨rfl, fun r => ?_⟩
      rcases r with e | _
      · rfl
      · rfl

/-- Where the recalculation ends. -/
def Recalculated (cc : ContestsChallenge) (q : Stage) : Except Exn α → Prop
  | .ok _ => q = .done cc
  | .error e => q = .owing cc ∧ e = .canceled ∨ q = .failed cc ∨ q = .done cc

/-- **The recalculation.** -/
theorem follows_recalculate :
    (recalculateDynamicChallengeValue cfg cc req.contestId).Follows
      (protocol cfg (.attempt req)) (Recalculated cc) (.owing cc) := by
  refine Prog.Follows.bind ((follows_awaitLock _).mono fun q r hq => ?_)
  cases r with
  | error e => exact hq.imp id .inl
  | ok _ =>
      subst hq
      refine Prog.Follows.bind (Prog.Follows.handle (follows_newValue.mono fun q r hq => ?_))
      cases r with
      | error e =>
          subst hq
          refine ⟨rfl, fun r => ?_⟩
          rcases r with e' | _
          · exact Or.inr (.inl rfl)
          · exact Or.inr (.inl rfl)
      | ok value =>
          subst hq
          refine ⟨.inl rfl, fun r => ?_⟩
          rcases r with e' | _
          · exact Or.inr (.inr rfl)
          · rfl

/-- What is answered once the solve is stored. -/
theorem follows_answerSolve {bank : Challenge} (hbank : cc.bankChallenge = some bank)
    (user : Option User) (attempt : AttemptDTO) :
    (answerSolve cfg req cc bank user attempt).Follows (protocol cfg (.attempt req)) Stage.ends
      (if dynamic cc then .owing cc else .done cc) := by
  have hrecalculated : (recalculated cfg cc bank req.contestId).Follows
      (protocol cfg (.attempt req)) (Recalculated cc)
      (if dynamic cc then .owing cc else .done cc) := by
    rw [recalculated, dynamic, hbank, Option.any_some]
    split
    · exact follows_recalculate
    · rfl
  refine Prog.Follows.bind (hrecalculated.mono fun q r hq => ?_)
  cases r with
  | error e =>
      obtain ⟨rfl, rfl⟩ | rfl | rfl := hq
      · rfl
      · trivial
      · trivial
  | ok value =>
      subst hq
      have haside : (do
          stopDeployment cc req.contestId req.teamId
          logAction 3 cc ((user.map User.id).getD req.userId)
          return (⟨200, some true,
            some ⟨.correct, attempt.message, none, value.or cc.value⟩, none⟩ :
              AttemptResponse)).Throughout Aside :=
        .bind ((throughout_stopDeployment _ _ _).mono fun _ => aside_of_followUpOp) fun _ =>
          .bind ((throughout_logAction _ _ _).mono fun _ => aside_of_followUpOp) fun _ => trivial
      refine (follows_of_aside (q := .done cc) trivial haside).mono fun q r hq => ?_
      subst hq
      trivial

/-- **The correct branch.** -/
theorem follows_creditSolve {bank : Challenge} (hbank : cc.bankChallenge = some bank)
    (user : Option User) (attempt : AttemptDTO) :
    (creditSolve cfg req cc bank user attempt).Follows (protocol cfg (.attempt req)) Stage.ends
      (.found cc) := by
  refine ⟨fun h => h, fun r => ?_⟩
  rcases r with e | _ | _
  · trivial
  · refine Prog.Follows.bind ⟨rfl, fun r => ?_⟩
    rcases r with e | _
    · cases e <;> trivial
    · exact follows_answerSolve hbank user attempt
  · trivial

/-- Where the checks end. -/
def CheckedIn (q : Stage) : Except Exn Checked → Prop
  | .ok (.ok (_, cc, bank)) => q = .found cc ∧ cc.bankChallenge = some bank
  | _ => q = .start ∨ ∃ cc, q = .found cc

theorem follows_checkedFound (user : Option User) (found : Option ContestsChallenge) :
    (checkedFound cfg req user found).Follows (protocol cfg (.attempt req)) CheckedIn
      ((Stage.start).next (.findContestsChallenge req.challengeId req.contestId)
        (.ok found)) := by
  rcases found with _ | cc
  · exact Or.inl rfl
  · simp only [checkedFound]
    split
    · exact Or.inr ⟨cc, rfl⟩
    · next bank hbank =>
        have haside : (checkedChallenge cfg req cc bank).Throughout Aside :=
          (throughout_checkedChallenge cc bank).mono fun _ => aside_of_ofFoundChecks
        refine Prog.Follows.bind
          ((follows_of_aside (q := .found cc) trivial haside).mono fun q r hq => ?_)
        subst hq
        rcases r with e | _ | refusal
        · exact Or.inr ⟨cc, rfl⟩
        · exact ⟨rfl, hbank⟩
        · exact Or.inr ⟨cc, rfl⟩

/-- The checks. -/
theorem follows_checked :
    (checked cfg req).Follows (protocol cfg (.attempt req)) CheckedIn .start := by
  refine Prog.Follows.bind
    ((follows_of_aside (q := .start) trivial (throughout_query fun h => h)).mono fun q r hq => ?_)
  subst hq
  rcases r with e | user
  · exact Or.inl rfl
  · dsimp only
    split
    · exact Or.inl rfl
    · refine ⟨⟨rfl, rfl⟩, fun r => ?_⟩
      rcases r with e | found
      · exact Or.inl rfl
      · exact follows_checkedFound user found

/-- **The endpoint** keeps to the stages. -/
theorem follows_attempt :
    (attempt cfg req).Follows (protocol cfg (.attempt req)) Stage.ends .start := by
  rw [attempt_eq]
  refine Prog.Follows.bind (follows_checked.mono fun q r hq => ?_)
  rcases r with e | refusal | ⟨user, cc, bank⟩
  · obtain rfl | ⟨cc, rfl⟩ := hq <;> trivial
  · obtain rfl | ⟨cc, rfl⟩ := hq <;> trivial
  · obtain ⟨rfl, hbank⟩ := hq
    have hcompare : (compareFlags cfg bank req.submitted).Throughout Aside :=
      .bind (throughout_query fun h => h) fun flags => by split <;> trivial
    refine Prog.Follows.bind ((follows_of_aside (q := .found cc) trivial hcompare).mono fun q r hq => ?_)
    subst hq
    rcases r with e | attempt
    · trivial
    · dsimp only
      split
      · exact follows_creditSolve hbank user attempt
      · refine (follows_of_aside (q := .found cc) trivial
          (throughout_recordFail cc user attempt)).mono fun q r hq => ?_
        subst hq
        trivial

end Walk

/-- **Every call keeps to its stages.** -/
theorem follows_call (cfg : AttemptConfig) (c : AttemptCall) :
    (c.program cfg).Follows (protocol cfg c) Stage.ends .start := by
  cases c with
  | attempt req => exact follows_attempt
  | editSubmission id =>
      refine ⟨rfl, fun r => ?_⟩
      rcases r with e | _ | _ <;> trivial
  | reset =>
      refine ⟨rfl, fun r => ?_⟩
      cases r <;> trivial

end DynamicValue

end Fctf
