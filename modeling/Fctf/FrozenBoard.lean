import Fctf.RateLimit
import Fctf.Scoreboard

/-!
# The Freeze

From the freeze on the public standings stand still: whatever is submitted, solved, awarded
or paid for later is dated later, and the values of the challenges do not change either. A
solve of a dynamic challenge does set out to recalculate its value, but the number of its
solves cannot be had, so that nothing is ever written.

## Main results

* `tables_of_reaches`: no run of the submissions changes a challenge.
* `agreeBefore_apply`: what happens after the freeze leaves everything before it alone.
* `frozen_of_agreeBefore`: the public standings and the scoreboard of two histories that
  agree on everything dated before the freeze.
-/

open Concurrent RedisDb

namespace Fctf

/-! ### No value is ever written -/

/-- The operation stores no challenge, and does not reset the platform. -/
def AttemptOp.KeepsChallenges : AttemptOp → Prop
  | .saveChallenge _ => False
  | .resetSubmissions => False
  | _ => True

/-- The number of solves is never had. -/
def AttemptOp.NoSolveCount : (o : AttemptOp) → Except Exn o.Reply → Prop
  | .getSolveCount _ _, r => r.isOk = false
  | _, _ => True

theorem AttemptOp.noSolveCount_exec (e : AttemptEnv) (o : AttemptOp) (w : AttemptWorld) :
    o.NoSolveCount (o.exec e w).1 := by
  cases o with
  | getSolveCount cc contestId =>
      show (e.fault.apply e.exn _ w).1.isOk = false
      cases e.fault <;> rfl
  | _ => trivial

/-- Whatever the replies, as long as the number of solves is not had: the program writes no
value. -/
abbrev WritesNoValue {α : Type} (p : Prog attemptI Exn α) : Prop :=
  p.Guarded (T := Unit) (fun _ => AttemptOp.KeepsChallenges)
    (fun _ => AttemptOp.NoSolveCount) ()

section Values

variable {cfg : AttemptConfig} {req : ChallengeAttemptRequest}

theorem writesNoValue_of_throughout {α : Type} {p : Prog attemptI Exn α}
    (h : p.Throughout AttemptOp.KeepsChallenges) : WritesNoValue p :=
  h.guarded (fun _ _ ho => ho) ()

theorem writesNoValue_newValue (cc : ContestsChallenge) (contestId : ℤ) :
    WritesNoValue (newValue cfg cc contestId) := by
  refine fun _ _ => ⟨trivial, fun r _ => ?_⟩
  rcases r with e | _ | d
  · trivial
  · trivial
  · refine fun _ _ => ⟨trivial, fun r hr => ?_⟩
    cases r with
    | error e => trivial
    | ok solveCount => cases hr

theorem throughout_awaitLock (lockKey : String) (moreTries : ℕ) :
    (awaitLock lockKey moreTries).Throughout AttemptOp.KeepsChallenges := by
  induction moreTries with
  | zero =>
      refine .bind (throughout_query trivial) fun lockAcquired => ?_
      split <;> trivial
  | succ n ih =>
      refine .bind (throughout_query trivial) fun lockAcquired => ?_
      split
      · trivial
      · exact ih

/-- **The recalculation** writes nothing. -/
theorem writesNoValue_recalculate (cc : ContestsChallenge) (contestId : ℤ) :
    WritesNoValue (recalculateDynamicChallengeValue cfg cc contestId) := by
  refine (writesNoValue_of_throughout (throughout_awaitLock _ _)).bind fun _ _ _ => ?_
  refine .bind (.handle (writesNoValue_newValue _ _) fun e _ _ => ?_) fun value _ _ => ?_
  · exact writesNoValue_of_throughout (.bind (throughout_query trivial) fun _ => trivial)
  · exact writesNoValue_of_throughout (.bind (throughout_query trivial) fun _ => trivial)

theorem keepsChallenges_of_followUp (o : AttemptOp) (h : followUpOp o) : o.KeepsChallenges := by
  cases o with
  | redis o => trivial
  | forceStop cc t => trivial
  | saveActionLogs a u cc => trivial
  | _ => exact h.elim

theorem keepsChallenges_of_ofChecks (o : AttemptOp) (h : o.OfChecks) : o.KeepsChallenges := by
  cases o with
  | saveChallenge row => exact h.elim
  | resetSubmissions => exact h.elim
  | _ => trivial

theorem writesNoValue_creditSolve (cc : ContestsChallenge) (bank : Challenge)
    (user : Option User) (attempt : AttemptDTO) :
    WritesNoValue (creditSolve cfg req cc bank user attempt) := by
  have hanswer : WritesNoValue (answerSolve cfg req cc bank user attempt) := by
    have hrecalculated : WritesNoValue (recalculated cfg cc bank req.contestId) := by
      rw [recalculated]
      split
      · exact writesNoValue_recalculate _ _
      · trivial
    refine hrecalculated.bind fun _ _ _ => ?_
    refine (writesNoValue_of_throughout
      ((throughout_stopDeployment _ _ _).mono keepsChallenges_of_followUp)).bind fun _ _ _ => ?_
    exact (writesNoValue_of_throughout
      ((throughout_logAction _ _ _).mono keepsChallenges_of_followUp)).bind fun _ _ _ => trivial
  refine .bind (writesNoValue_of_throughout (throughout_query trivial)) fun solved _ _ => ?_
  split
  · trivial
  · refine .bind (.handle (writesNoValue_of_throughout
      (.bind (throughout_query trivial) fun _ => trivial)) fun e _ _ => ?_) fun refusal _ _ => ?_
    · split <;> trivial
    · cases refusal with
      | some refusal => trivial
      | none => exact hanswer

theorem throughout_recordFail (cc : ContestsChallenge) (user : Option User)
    (attempt : AttemptDTO) :
    (recordFail cfg req cc user attempt).Throughout AttemptOp.KeepsChallenges := by
  have hkpm : (checkAndIncrementKpmAsync req.userId cfg.incorrectSubmissionsPerMin).Throughout
      AttemptOp.KeepsChallenges := by
    rw [checkAndIncrementKpmAsync]
    split
    · trivial
    refine .bind (throughout_query trivial) fun now => ?_
    refine .bind (throughout_query trivial) fun newCount => ?_
    refine .bind (.bind (throughout_query trivial) fun ttl => ?_) fun _ => trivial
    split
    · exact .bind (throughout_query trivial) fun _ => trivial
    · trivial
  have hcount : (countedFails req cc).Throughout AttemptOp.KeepsChallenges := by
    rw [countedFails]
    split
    · trivial
    refine .bind (throughout_query trivial) fun actualDbCount => ?_
    refine .bind (throughout_query trivial) fun result => ?_
    split <;> trivial
  have hsave : (saveFail req cc user).Throughout AttemptOp.KeepsChallenges := by
    refine .bind hcount fun fails => ?_
    split
    · trivial
    · exact .bind (throughout_query trivial) fun _ => trivial
  refine .bind hkpm fun kpm => ?_
  obtain ⟨kpmExceeded, kpmCount⟩ := kpm
  dsimp only
  split
  · trivial
  refine .bind hsave fun fails => ?_
  split
  · trivial
  · exact (throughout_answerFail _ _ _ _ _).mono keepsChallenges_of_followUp

/-- **The endpoint** writes no value. -/
theorem writesNoValue_attempt (cfg : AttemptConfig) (req : ChallengeAttemptRequest) :
    WritesNoValue (attempt cfg req) := by
  rw [attempt_eq]
  refine (writesNoValue_of_throughout
    (throughout_checked.mono keepsChallenges_of_ofChecks)).bind fun found _ _ => ?_
  rcases found with refusal | ⟨user, cc, bank⟩
  · trivial
  · refine .bind (.bind (writesNoValue_of_throughout (throughout_query trivial))
      fun flags _ _ => ?_) fun attempt _ _ => ?_
    · split <;> trivial
    · split
      · exact writesNoValue_creditSolve cc bank user attempt
      · exact writesNoValue_of_throughout (throughout_recordFail cc user attempt)

/-- What the operations of a recalculation leave alone. -/
theorem tables_exec (e : AttemptEnv) (o : AttemptOp) (w : AttemptWorld)
    (ho : o.KeepsChallenges) : (o.exec e w).2.tables = w.tables := by
  refine AttemptOp.exec_tables e o w ?_
  rintro row rfl
  exact ho.elim

/-- The challenges after a recalculation. -/
theorem tables_recalculate (e : AttemptEnv) (cc : ContestsChallenge) (contestId : ℤ)
    (w : AttemptWorld) :
    ((recalculateDynamicChallengeValue cfg cc contestId).eval
      (AttemptOp.exec e) w).2.tables = w.tables :=
  (writesNoValue_recalculate cc contestId).eval
    (J := fun w' : AttemptWorld => w'.tables = w.tables) rfl (AttemptOp.noSolveCount_exec e)
    fun o w' ho hw => (tables_exec e o w' ho).trans hw

/-- The moves of a run of submissions: requests, and surroundings that do not edit the
challenges. -/
def Submitting (_ : (attempts cfg).Pool) : (attempts cfg).Move → Prop
  | .spawn (.attempt _) => True
  | .spawn _ => False
  | .ambient (.tables _) => False
  | _ => True

/-- **No run of submissions** changes a challenge. -/
theorem tables_of_reaches {w₀ : AttemptWorld} {w : (attempts cfg).Pool}
    (h : Service.Reaches Submitting ((attempts cfg).start w₀) w) :
    w.shared.tables = w₀.tables := by
  refine (h.local_invariant (P := fun s : AttemptWorld => s.tables = w₀.tables)
    (L := fun _ _ p => WritesNoValue p) rfl ?_ ?_ ?_ ?_ ?_).1
  · intro p hp
    cases hp
  · rintro w (req | id | _) _ hg
    · exact writesNoValue_attempt cfg req
    · exact hg.elim
    · exact hg.elim
  · intro w pid e c o k hP _ _ hL
    obtain ⟨ho, hk⟩ := hL () (le_refl _)
    exact ⟨(tables_exec e o w.shared ho).trans hP, hk _ (AttemptOp.noSolveCount_exec e o _)⟩
  · exact fun _ _ _ _ _ _ _ _ _ _ _ _ _ hq => hq
  · rintro w (d | key | tables | ⟨strings, zsets⟩) hP hg
    · exact ⟨hP, fun _ _ hq => hq⟩
    · exact ⟨hP, fun _ _ hq => hq⟩
    · exact hg.elim
    · exact ⟨hP, fun _ _ hq => hq⟩

end Values

/-! ### What happens to the scores -/

/-- What happens to the tables scores are computed from, while a contest runs. -/
inductive ScoreEvent where
  /-- A submission is stored. -/
  | submission (row : Submission)
  /-- A correct submission is stored with its solve. -/
  | solve (row : Submission)
  /-- The value of a challenge is recalculated, in some state of everything else. -/
  | recalculation (cfg : AttemptConfig) (e : AttemptEnv) (w : AttemptWorld)
      (cc : ContestsChallenge) (contestId : ℤ)
  /-- An award is given, or a hint is paid for. -/
  | award (row : Award)

/-- Is an id of a submission taken? -/
def ScoreDb.hasSubmission (db : ScoreDb) (id : ℤ) : Bool := db.submissions.any (·.id = id)

/-- Do the indexes of `solves` stand against a solve? -/
def ScoreDb.violatesUnique (db : ScoreDb) (row : Submission) : Bool :=
  db.solves.any fun s =>
    s.contestChallengeId = row.contestChallengeId ∧
      (s.teamId.isSome ∧ s.teamId = row.teamId ∨ s.userId.isSome ∧ s.userId = row.userId)

/-- The solve of a submission. -/
def Submission.solf (row : Submission) : Solf :=
  ⟨row.id, row.contestChallengeId, row.userId, row.teamId⟩

/-- The tables as a recalculation finds them. -/
def ScoreDb.world (db : ScoreDb) (w : AttemptWorld) : AttemptWorld :=
  { w with
    submissions := db.submissions
    solves := db.solves
    tables := { w.tables with contestsChallenges := db.contestsChallenges } }

/-- The tables after an event. What a key or an index stands against is not stored. -/
def ScoreEvent.apply : ScoreEvent → ScoreDb → ScoreDb
  | .submission row, db =>
      if db.hasSubmission row.id then db
      else { db with submissions := db.submissions ++ [row] }
  | .solve row, db =>
      if db.hasSubmission row.id || db.violatesUnique row then db
      else
        { db with
          submissions := db.submissions ++ [row]
          solves := db.solves ++ [row.solf] }
  | .recalculation cfg e w cc contestId, db =>
      let w' := ((recalculateDynamicChallengeValue cfg cc contestId).eval
        (AttemptOp.exec e) (db.world w)).2
      { db with contestsChallenges := w'.tables.contestsChallenges }
  | .award row, db =>
      if db.awards.any (·.id = row.id) then db else { db with awards := db.awards ++ [row] }

/-- Is it dated at `t` or later? -/
def ScoreEvent.DatedFrom (t : ℤ) : ScoreEvent → Prop
  | .submission row => ∃ d, row.date = some d ∧ t ≤ d
  | .solve row => ∃ d, row.date = some d ∧ t ≤ d
  | .recalculation _ _ _ _ _ => True
  | .award row => ∃ d, row.date = some d ∧ t ≤ d

/-- The tables after some events. -/
def ScoreDb.after (db : ScoreDb) (events : List ScoreEvent) : ScoreDb :=
  events.foldl (fun db e => e.apply db) db

section History

variable {t : ℤ} {db : ScoreDb}

theorem not_before_of_datedFrom {date : Option ℤ} (h : ∃ d, date = some d ∧ t ≤ d) :
    date.any (· < t) = false := by
  obtain ⟨d, rfl, hd⟩ := h
  simpa using hd

/-- The submission of a solve, if it is dated before `t`. -/
def submittedBefore (t : ℤ) (submissions : List Submission) (s : Solf) :
    Option (Solf × Submission) :=
  ((submissions.find? fun x => x.id = s.id).map fun x => (s, x)).filter
    fun x => x.2.date.any (· < t)

theorem filter_submittedSolves (t : ℤ) (db : ScoreDb) :
    (submittedSolves db).filter (fun s => s.2.date.any (· < t)) =
      db.solves.filterMap (submittedBefore t db.submissions) :=
  List.filter_filterMap

/-- A later submission does not change which solves were submitted before. -/
theorem submittedBefore_append (submissions : List Submission) {row : Submission}
    (hrow : row.date.any (· < t) = false) (s : Solf) :
    submittedBefore t (submissions ++ [row]) s = submittedBefore t submissions s := by
  rw [submittedBefore, List.find?_append, submittedBefore]
  cases submissions.find? fun x => x.id = s.id with
  | some x => rfl
  | none =>
      by_cases hid : row.id = s.id
      · simp [hid, hrow]
      · simp [hid]

/-- **An event after the freeze** leaves everything before it alone. -/
theorem agreeBefore_apply {e : ScoreEvent} (h : e.DatedFrom t) :
    db.AgreeBefore t (e.apply db) := by
  cases e with
  | submission row =>
      simp only [ScoreEvent.apply]
      split
      · exact .refl t db
      · refine ⟨rfl, rfl, rfl, rfl, ?_, rfl⟩
        rw [filter_submittedSolves, filter_submittedSolves]
        exact List.filterMap_congr fun s _ =>
          submittedBefore_append _ (not_before_of_datedFrom h) s
  | solve row =>
      simp only [ScoreEvent.apply]
      split
      · exact .refl t db
      · next hnew =>
          have hfree : ¬db.hasSubmission row.id = true := fun hid => hnew (by simp [hid])
          refine ⟨rfl, rfl, rfl, rfl, ?_, rfl⟩
          rw [filter_submittedSolves, filter_submittedSolves, List.filterMap_append,
            List.filterMap_congr fun s _ =>
              submittedBefore_append _ (not_before_of_datedFrom h) s]
          -- the new solve has no submission but the new one
          have hown : submittedBefore t db.submissions row.solf = none := by
            have hnone : db.submissions.find? (fun x => x.id = row.solf.id) = none :=
              List.find?_eq_none.mpr fun x hx hid => hfree (List.any_eq_true.mpr ⟨x, hx, hid⟩)
            rw [submittedBefore, hnone]
            rfl
          rw [List.filterMap_cons_none
            ((submittedBefore_append _ (not_before_of_datedFrom h) _).trans hown),
            List.filterMap_nil, List.append_nil]
  | recalculation cfg e w cc contestId =>
      refine ⟨rfl, rfl, rfl, ?_, rfl, rfl⟩
      have htables :=
        @tables_recalculate cfg e cc contestId (db.world w)
      exact congrArg AttemptTables.contestsChallenges htables
  | award row =>
      simp only [ScoreEvent.apply]
      split
      · exact .refl t db
      · refine ⟨rfl, rfl, rfl, rfl, rfl, ?_⟩
        rw [List.filter_append, List.filter_singleton, not_before_of_datedFrom h]
        exact List.append_nil _

/-- **Any number of events** after the freeze leave everything before it alone. -/
theorem agreeBefore_after {events : List ScoreEvent} (h : ∀ e ∈ events, e.DatedFrom t) :
    db.AgreeBefore t (db.after events) := by
  induction events generalizing db with
  | nil => exact .refl t db
  | cons e events ih =>
      obtain ⟨he, hrest⟩ := List.forall_mem_cons.mp h
      exact (agreeBefore_apply he).trans (ih hrest)

end History

/-- **The freeze holds.** The public standings of teams and the scoreboard are the same after
two histories that agree on everything dated before the freeze, whatever happens after it. -/
theorem frozen_of_agreeBefore (cfg : ScoreConfig) (t : ℤ)
    (hfreeze : ScoreHelper.freezeUtc cfg = .ok (some t)) (db db' : ScoreDb)
    (hagree : db.AgreeBefore t db') (events events' : List ScoreEvent)
    (hevents : ∀ e ∈ events, e.DatedFrom t) (hevents' : ∀ e ∈ events', e.DatedFrom t)
    (bracketId : Option ℤ) :
    (∀ count, ScoreHelper.getTeamStandings (db'.after events') count bracketId false (some t) =
      ScoreHelper.getTeamStandings (db.after events) count bracketId false (some t)) ∧
    ∀ count, ScoreboardService.getTopStandings cfg (db'.after events') count bracketId =
      ScoreboardService.getTopStandings cfg (db.after events) count bracketId := by
  have hafter : (db.after events).AgreeBefore t (db'.after events') :=
    ((agreeBefore_after hevents).symm.trans hagree).trans (agreeBefore_after hevents')
  exact ⟨fun count => getTeamStandings_congr hafter count bracketId,
    fun count => getTopStandings_congr hafter hfreeze count bracketId⟩

/-- A team with a challenge it can solve. -/
def oneTeamDb : ScoreDb where
  teams := [⟨5, none, some "five", none, some false, some false, some 1⟩]
  users := []
  userTeams := []
  contestsChallenges := [oneTryChallenge]
  submissions := []
  solves := []
  awards := [⟨1, some 1, some 9, some 5, some 10, some 50⟩]
  brackets := []
  participants := []

/-- A solve after the freeze, the recalculation it asks for, and a hint. -/
def lateEvents : List ScoreEvent :=
  [.solve ⟨1, 1, 7, some 9, some 5, [], .correct, some 4000000⟩,
    .recalculation defaultAttemptConfig calmAttempt (attemptWorld oneTryChallenge) oneTryChallenge 1,
    .award ⟨2, none, some 9, some 5, some 5000000, some (-20)⟩]

/-- A team that solves a challenge after the freeze keeps its place. -/
theorem frozen_example :
    (∀ count, ScoreHelper.getTeamStandings (oneTeamDb.after lateEvents) count none false
      (some 3000000) =
        ScoreHelper.getTeamStandings (oneTeamDb.after []) count none false (some 3000000)) ∧
    ∀ count, ScoreboardService.getTopStandings ⟨some 3, some "teams"⟩
        (oneTeamDb.after lateEvents) count none =
      ScoreboardService.getTopStandings ⟨some 3, some "teams"⟩ (oneTeamDb.after []) count
        none := by
  refine frozen_of_agreeBefore ⟨some 3, some "teams"⟩ 3000000 (by decide) oneTeamDb oneTeamDb
    (.refl _ _) [] lateEvents (List.forall_mem_nil _) ?_ none
  simp only [lateEvents, List.forall_mem_cons]
  exact ⟨⟨4000000, rfl, by norm_num⟩, trivial, ⟨5000000, rfl, by norm_num⟩, List.forall_mem_nil _⟩

end Fctf
