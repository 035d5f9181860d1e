import Fctf.AttemptCount

/-!
# The Answer and What Was Stored

A solve is stored before its request is done: the value of a decaying challenge is
computed anew, the deployment is stopped, the action is logged. Only the last two are
guarded. What an attempt answers therefore agrees with what it has stored exactly when the
insertion's reply is not lost and the recalculation does not raise, and for a challenge
with decay settings the recalculation always raises.

## Main results

* `answerAgrees_iff`: in every run, the answer of a finished attempt agrees with what it
  has stored if and only if what it did after the insertion was clean.
* `not_answerAgrees`: a solve of a decaying challenge, stored and answered with an exception.
-/

open Concurrent RedisDb

namespace Fctf

/-! ### What an operation stores -/

/-- The operation stores a solve of the challenge for the team. -/
def AttemptOp.storesSolve (id t : ℤ) (e : AttemptEnv) (w : AttemptWorld) : AttemptOp → Bool
  | .addSolve s =>
      decide (s.contestChallengeId = id ∧ s.teamId = t ∧ e.fault ≠ .before) &&
        !w.violatesUnique s
  | _ => false

/-- The operation stores a wrong answer of the team to the challenge. -/
def AttemptOp.storesFail (id t : ℤ) (e : AttemptEnv) : AttemptOp → Bool
  | .addFail s => decide (s.contestChallengeId = id ∧ s.teamId = t ∧ e.fault ≠ .before)
  | _ => false

/-- The operation deletes all submissions and solves. -/
def AttemptOp.deletesRows (e : AttemptEnv) : AttemptOp → Bool
  | .resetSubmissions => decide (e.fault ≠ .before)
  | _ => false

/-- The team's solves and its correct answers, after an operation. -/
theorem solveCount_exec (e : AttemptEnv) (o : AttemptOp) (w : AttemptWorld) (id t : ℤ) :
    ((o.exec e w).2.solveCount id t, (o.exec e w).2.correctCount id t) =
      if o.deletesRows e then (0, 0)
      else (w.solveCount id t + (o.storesSolve id t e w).toNat,
        w.correctCount id t + (o.storesSolve id t e w).toNat) := by
  rw [AttemptWorld.solveCount, AttemptOp.exec_solves, AttemptWorld.correctCount,
    AttemptOp.exec_submissions]
  cases o with
  | addSolve s =>
      dsimp only [AttemptOp.deletesRows]
      by_cases hstored : e.fault = .before ∨ w.violatesUnique s = true
      · have hno : AttemptOp.storesSolve id t e w (.addSolve s) = false := by
          rcases hstored with hf | hv <;> simp [AttemptOp.storesSolve, *]
        rw [if_pos hstored, if_pos hstored, hno]
        rfl
      · rw [if_neg hstored, if_neg hstored, List.countP_append, List.countP_append,
          List.countP_singleton, List.countP_singleton]
        obtain ⟨hf, hv⟩ := not_or.mp hstored
        by_cases hs : s.contestChallengeId = id ∧ s.teamId = t
        · simp [AttemptOp.storesSolve, hf, hv, hs, AttemptWorld.solveCount,
            AttemptWorld.correctCount, NewSubmission.row, NewSubmission.solf]
        · have hno : AttemptOp.storesSolve id t e w (.addSolve s) = false := by
            have hs' : ¬(s.contestChallengeId = id ∧ s.teamId = t ∧ e.fault ≠ .before) :=
              fun h => hs ⟨h.1, h.2.1⟩
            rw [AttemptOp.storesSolve, decide_eq_false hs', Bool.false_and]
          rw [hno, if_neg (by simpa [NewSubmission.solf] using hs),
            if_neg (by simpa [NewSubmission.row] using hs)]
          rfl
  | addFail s =>
      dsimp only [AttemptOp.deletesRows]
      split
      · rfl
      · rw [List.countP_append, List.countP_singleton, if_neg (by simp [NewSubmission.row])]
        rfl
  | resetSubmissions =>
      by_cases hf : e.fault = .before
      · simp [hf, AttemptOp.deletesRows, AttemptOp.storesSolve, AttemptWorld.solveCount,
          AttemptWorld.correctCount]
      · simp [hf, AttemptOp.deletesRows]
  | _ => rfl

/-! ### What a request has done -/

section Own

variable {cfg : AttemptConfig}

/-- The entry stores a solve of the challenge for the team. -/
def storesSolve (id t : ℤ) (n : (attempts cfg).Entry) : Bool :=
  AttemptOp.storesSolve id t n.env n.before n.op

/-- The entry stores a wrong answer of the team to the challenge. -/
def storesFail (id t : ℤ) (n : (attempts cfg).Entry) : Bool :=
  AttemptOp.storesFail id t n.env n.op

/-- The entry is of the recalculation. -/
def recalculates (n : (attempts cfg).Entry) : Prop := recalculationOp n.op

/-- The operation asks for the lock. -/
def AttemptOp.asksLock : AttemptOp → Bool
  | .acquireLock _ => true
  | _ => false

/-- The operation asks for the solve count. -/
def AttemptOp.asksSolveCount : AttemptOp → Bool
  | .getSolveCount _ _ => true
  | _ => false

/-- The entry asks for the lock. -/
def asksLock (n : (attempts cfg).Entry) : Bool := AttemptOp.asksLock n.op

/-- A solve was stored, and its reply was lost. -/
def replyLost (id t : ℤ) (n : (attempts cfg).Entry) : Prop :=
  storesSolve id t n = true ∧ AttemptEnv.fault n.env = .after

/-- An operation of the recalculation was lost, or it is the one that always raises. -/
def recalculationFails (n : (attempts cfg).Entry) : Prop :=
  recalculates n ∧ (AttemptEnv.fault n.env ≠ .none ∨ AttemptOp.asksSolveCount n.op = true)

/-- The last time a request has asked for the lock. -/
def lastAsk (log : List (attempts cfg).Entry) : Option (attempts cfg).Entry :=
  (log.filter asksLock).getLast?

/-- What a request has done is clean: no reply to its insertion was lost, its
recalculation did not fail, and it got the lock at last. -/
structure Clean (id t : ℤ) (own : List (attempts cfg).Entry) : Prop where
  /-- The insertion's reply arrives. -/
  reply : ∀ n ∈ own, ¬replyLost id t n
  /-- The recalculation does not fail. -/
  recalculation : ∀ n ∈ own, ¬recalculationFails n
  /-- The lock was free at last. -/
  lock : ∀ n, lastAsk own = some n → AttemptEnv.lockFree n.env = true

/-- **The answer agrees with what was stored.** -/
structure AnswerAgrees (id t : ℤ) (own : List (attempts cfg).Entry)
    (r : Except Exn AttemptResponse) : Prop where
  /-- It is 'correct' if and only if a solve was stored. -/
  credited : Credited r ↔ ∃ n ∈ own, storesSolve id t n = true
  /-- It is 'incorrect' only if one wrong answer was stored. -/
  accepted : Accepted r → own.countP (storesFail id t) = 1
  /-- It tells that there are no tries only if no wrong answer was stored. -/
  refused : Refused r → own.countP (storesFail id t) = 0

/-! ### What each phase has done -/

/-- Nothing that matters was done. -/
structure NothingDone (id t : ℤ) (own : List (attempts cfg).Entry) : Prop where
  /-- No solve was stored, and nothing calculated anew. -/
  solves : ∀ n ∈ own, storesSolve id t n = false ∧ ¬recalculates n
  /-- No wrong answer was stored. -/
  fails : own.countP (storesFail id t) = 0

/-- What a request has done, in a phase. -/
def Phase.Done (id t : ℤ) (own : List (attempts cfg).Entry) : Phase → Prop
  | .solved _ | .uncredited _ =>
      ∀ n ∈ own, (storesSolve id t n = true → replyLost id t n) ∧ ¬recalculates n
  | .credited _ => (∃ n ∈ own, storesSolve id t n = true) ∧ Clean id t own
  | .waiting _ =>
      (∃ n ∈ own, storesSolve id t n = true) ∧
        (∀ n ∈ own, ¬replyLost id t n ∧ ¬recalculationFails n) ∧
        ∃ n, lastAsk own = some n ∧ AttemptEnv.lockFree n.env = false
  | .broken _ =>
      (∃ n ∈ own, storesSolve id t n = true) ∧ ∃ n ∈ own, recalculationFails n
  | .stored _ =>
      (∀ n ∈ own, storesSolve id t n = false ∧ ¬recalculates n) ∧
        own.countP (storesFail id t) = 1
  | .failed => ∀ n ∈ own, storesSolve id t n = false ∧ ¬recalculates n
  | _ => NothingDone id t own

/-- An operation that stores nothing and is not of the recalculation. -/
def AttemptOp.Plain (o : AttemptOp) : Prop :=
  ¬recalculationOp o ∧ (∀ s, o ≠ .addSolve s) ∧ ∀ s, o ≠ .addFail s

section Next

variable {id t : ℤ} {own : List (attempts cfg).Entry} {n : (attempts cfg).Entry}

theorem storesSolve_of_plain (h : AttemptOp.Plain n.op) : storesSolve id t n = false := by
  obtain ⟨-, hsolve, -⟩ := h
  unfold storesSolve
  cases ho : (n.op : AttemptOp) with
  | addSolve s => exact absurd ho (hsolve s)
  | _ => rfl

theorem storesFail_of_plain (h : AttemptOp.Plain n.op) : storesFail id t n = false := by
  obtain ⟨-, -, hfail⟩ := h
  unfold storesFail
  cases ho : (n.op : AttemptOp) with
  | addFail s => exact absurd ho (hfail s)
  | _ => rfl

theorem asksLock_of_not_recalculates (h : ¬recalculates n) :
    asksLock n = false := by
  unfold recalculates at h
  unfold asksLock
  cases ho : (n.op : AttemptOp) with
  | acquireLock key => exact absurd (by rw [ho]; trivial) h
  | _ => rfl

theorem lastAsk_mem (h : lastAsk own = some n) : n ∈ own ∧ asksLock n = true :=
  List.mem_filter.mp (List.mem_of_getLast? h)

theorem lastAsk_append_of_asks (h : asksLock n = true) :
    lastAsk (own ++ [n]) = some n := by
  rw [lastAsk, List.filter_append, List.filter_cons_of_pos h, List.filter_nil,
    List.getLast?_append, List.getLast?_singleton, Option.some_or]

theorem lastAsk_append_of_not (h : asksLock n = false) :
    lastAsk (own ++ [n]) = lastAsk own := by
  rw [lastAsk, List.filter_append, List.filter_cons_of_neg (by simp [h]), List.filter_nil,
    List.append_nil, lastAsk]

theorem forall_mem_concat {P : (attempts cfg).Entry → Prop} (h : ∀ m ∈ own, P m) (hn : P n) :
    ∀ m ∈ own ++ [n], P m := by
  intro m hm
  rcases List.mem_append.mp hm with hm | hm
  · exact h m hm
  · exact List.mem_singleton.mp hm ▸ hn

theorem exists_mem_concat {P : (attempts cfg).Entry → Prop} (h : ∃ m ∈ own, P m) :
    ∃ m ∈ own ++ [n], P m := by
  obtain ⟨m, hm, hP⟩ := h
  exact ⟨m, List.mem_append_left _ hm, hP⟩

/-- A request that has done nothing is clean. -/
theorem clean_of_nothingDone (h : ∀ n ∈ own, storesSolve id t n = false ∧ ¬recalculates n) :
    Clean id t own where
  reply n hn hlost := absurd hlost.1 (by simp [(h n hn).1])
  recalculation n hn hfails := (h n hn).2 hfails.1
  lock n hn := by
    obtain ⟨hmem, hasks⟩ := lastAsk_mem hn
    rw [asksLock_of_not_recalculates (h n hmem).2] at hasks
    cases hasks

/-- One more operation of a clean request. -/
theorem Clean.concat (h : Clean id t own) (hreply : ¬replyLost id t n)
    (hrecalculation : ¬recalculationFails n)
    (hlock : asksLock n = true → AttemptEnv.lockFree n.env = true) :
    Clean id t (own ++ [n]) where
  reply := forall_mem_concat h.reply hreply
  recalculation := forall_mem_concat h.recalculation hrecalculation
  lock m hm := by
    cases hasks : asksLock n with
    | true =>
        rw [lastAsk_append_of_asks hasks] at hm
        obtain rfl := Option.some.inj hm
        exact hlock hasks
    | false =>
        rw [lastAsk_append_of_not hasks] at hm
        exact h.lock m hm

/-- A plain operation changes nothing in what was done. -/
theorem Phase.Done.concat {q : Phase} (h : q.Done id t own) (hn : AttemptOp.Plain n.op) :
    q.Done id t (own ++ [n]) := by
  have hsolve : storesSolve id t n = false := storesSolve_of_plain hn
  have hfail : (own ++ [n]).countP (storesFail id t) = own.countP (storesFail id t) := by
    rw [List.countP_append, List.countP_singleton, storesFail_of_plain hn]
    rfl
  have hlost : ¬replyLost id t n := fun h => absurd h.1 (by simp [hsolve])
  have hnothing : (∀ m ∈ own, storesSolve id t m = false ∧ ¬recalculates m) →
      ∀ m ∈ own ++ [n], storesSolve id t m = false ∧ ¬recalculates m :=
    fun h => forall_mem_concat h ⟨hsolve, hn.1⟩
  have hasks := asksLock_of_not_recalculates (n := n) hn.1
  cases q with
  | solved cc | uncredited cc =>
      exact forall_mem_concat h ⟨fun hs => absurd hs (by simp [hsolve]), hn.1⟩
  | credited cc =>
      exact ⟨exists_mem_concat h.1, h.2.concat hlost (fun hf => hn.1 hf.1)
        fun ha => absurd ha (by simp [hasks])⟩
  | waiting cc =>
      refine ⟨exists_mem_concat h.1,
        forall_mem_concat h.2.1 ⟨hlost, fun hf => hn.1 hf.1⟩, ?_⟩
      rw [lastAsk_append_of_not hasks]
      exact h.2.2
  | broken cc => exact ⟨exists_mem_concat h.1, exists_mem_concat h.2⟩
  | stored cc => exact ⟨hnothing h.1, hfail.trans h.2⟩
  | failed => exact hnothing h
  | _ => exact ⟨hnothing h.solves, hfail.trans h.fails⟩

/-- A plain operation may move a request on, but not past what it has done. -/
theorem Phase.Done.next_of_plain {req : ChallengeAttemptRequest} {q : Phase}
    (h : q.Done id t own) (hn : AttemptOp.Plain n.op) (r : Except Exn (AttemptOp.Reply n.op)) :
    (q.next cfg req n.op r).Done id t (own ++ [n]) := by
  have h' := h.concat hn
  obtain ⟨hrecalculation, hsolve, hfail⟩ := hn
  have hstep := Phase.step_next cfg req q n.op r
  generalize q.next cfg req n.op r = q' at hstep
  -- nothing was done yet where the phase changes
  have hsolved : NothingDone id t (own ++ [n]) → ∀ m ∈ own ++ [n],
      (storesSolve id t m = true → replyLost id t m) ∧ ¬recalculates m :=
    fun hu m hm => ⟨fun hs => absurd hs (by simp [(hu.solves m hm).1]), (hu.solves m hm).2⟩
  cases hstep with
  | stay => exact h'
  | find cc => exact h'
  | findSolved cc q hq ho => rcases hq with rfl | rfl <;> exact hsolved h'
  | precheck cc fails ho => exact h'
  | compare cc q b hq ho => rcases hq with rfl | ⟨fails, rfl⟩ <;> cases b <;> exact h'
  | unread cc id t ho hr => exact NothingDone.solves h'
  | duplicate cc s ho hr => exact absurd ho (hsolve s)
  | insertSolve cc s ho hr => exact absurd ho (hsolve s)
  | lock cc q key lockFree hq ho hr => exact absurd (by rw [ho]; trivial) hrecalculation
  | breaks cc q hq ho hr => exact absurd ho hrecalculation
  | recount cc fails ho => exact h'
  | count cc fails result ho =>
      rw [Phase.afterCount]
      split <;> exact h'
  | insertFail cc q s hq ho => exact absurd ho (hfail s)

end Next

/-- Only a request that has found its text to be right stores a solve. -/
theorem matched_of_addSolve {req : ChallengeAttemptRequest} {q : Phase} {s : NewSubmission}
    (ho : q.allows req (.addSolve s)) : ∃ cc, q = .matched cc ∧ ownRow req cc s := by
  cases q with
  | matched cc => exact ⟨cc, rfl, ho⟩
  | credited cc => rcases ho with ho | ho <;> exact ho.elim
  | _ => exact ho.elim

/-- Only a request that has found its text to be wrong stores a wrong answer. -/
theorem missed_of_addFail {req : ChallengeAttemptRequest} {q : Phase} {s : NewSubmission}
    (ho : q.allows req (.addFail s)) :
    ∃ cc, (q = .missed cc ∨ q = .counted cc) ∧ ownRow req cc s := by
  cases q with
  | missed cc => exact ⟨cc, .inl rfl, ho.2⟩
  | counted cc => exact ⟨cc, .inr rfl, ho⟩
  | credited cc => rcases ho with ho | ho <;> exact ho.elim
  | _ => exact ho.elim

/-- Only a request that has stored a solve calculates anew. -/
theorem credited_of_recalculationOp {req : ChallengeAttemptRequest} {q : Phase}
    {o : AttemptOp} (ho : q.allows req o) (h : recalculationOp o) :
    ∃ cc, q = .credited cc ∨ q = .waiting cc ∧ (∃ key, o = .acquireLock key) ∨
      q = .broken cc ∧ ∃ key, o = .releaseLock key := by
  cases q with
  | credited cc => exact ⟨cc, .inl rfl⟩
  | waiting cc =>
      cases o with
      | acquireLock key => exact ⟨cc, .inr (.inl ⟨rfl, key, rfl⟩)⟩
      | _ => exact ho.elim
  | broken cc =>
      cases o with
      | releaseLock key => exact ⟨cc, .inr (.inr ⟨rfl, key, rfl⟩)⟩
      | _ => exact ho.elim
  | _ =>
      cases o with
      | acquireLock key => exact ho.elim
      | findDynamicChallenge cc => exact ho.elim
      | getSolveCount cc contestId => exact ho.elim
      | saveChallenge row => exact ho.elim
      | releaseLock key => exact ho.elim
      | _ => exact h.elim

section Effects

variable {req : ChallengeAttemptRequest} {cc : ContestsChallenge} {id t : ℤ}
  {own : List (attempts cfg).Entry} {pid : ℕ} {c : AttemptCall} {e : AttemptEnv}
  {w : AttemptWorld}

/-- The insertion of a solve. -/
theorem done_addSolve (h : NothingDone id t own) {s : NewSubmission}
    (hs : s.contestChallengeId = id ∧ s.teamId = t) :
    (Phase.next cfg req (.matched cc) (.addSolve s)
        (AttemptOp.exec e (.addSolve s) w).1).Done id t
      (own ++ [⟨pid, c, e, .addSolve s, w⟩]) := by
  obtain ⟨fault, exn, lockFree⟩ := e
  -- an insertion that raises leaves no solve, or its reply was lost
  have hraised : ∀ x, (storesSolve id t (⟨pid, c, ⟨fault, exn, lockFree⟩, .addSolve s, w⟩ :
        (attempts cfg).Entry) = true → fault = .after) →
      (Phase.next cfg req (.matched cc) (.addSolve s) (.error x)).Done id t
        (own ++ [⟨pid, c, ⟨fault, exn, lockFree⟩, .addSolve s, w⟩]) := by
    intro x hlost
    have hall : ∀ m ∈ own ++ [(⟨pid, c, ⟨fault, exn, lockFree⟩, .addSolve s, w⟩ :
          (attempts cfg).Entry)],
        (storesSolve id t m = true → replyLost id t m) ∧ ¬recalculates m :=
      forall_mem_concat
        (fun m hm => ⟨fun hm' => absurd hm' (by simp [(h.solves m hm).1]), (h.solves m hm).2⟩)
        ⟨fun hn => ⟨hn, hlost hn⟩, fun hn => hn⟩
    cases x <;> exact hall
  cases fault with
  | none =>
      by_cases hv : w.violatesUnique s = true
      · simp only [AttemptOp.exec, Fault.apply, AttemptWorld.insertSolve, if_pos hv]
        refine hraised _ fun hn => ?_
        simp [storesSolve, AttemptOp.storesSolve, hv] at hn
      · simp only [AttemptOp.exec, Fault.apply, AttemptWorld.insertSolve, if_neg hv]
        have hstores : storesSolve id t (⟨pid, c, ⟨.none, exn, lockFree⟩, .addSolve s, w⟩ :
            (attempts cfg).Entry) = true := by
          simp [storesSolve, AttemptOp.storesSolve, hv, hs]
        refine ⟨⟨_, List.mem_append_right _ (List.mem_singleton_self _), hstores⟩, ?_⟩
        exact (clean_of_nothingDone h.solves).concat (fun hl => by cases hl.2)
          (fun hf => hf.1.elim) fun hl => by cases hl
  | before =>
      refine hraised exn fun hn => ?_
      simp [storesSolve, AttemptOp.storesSolve] at hn
  | after => exact hraised exn fun _ => rfl

/-- The insertion of a wrong answer. -/
theorem done_addFail {q : Phase} (hq : q = .missed cc ∨ q = .counted cc)
    (h : NothingDone id t own) {s : NewSubmission}
    (hs : s.contestChallengeId = id ∧ s.teamId = t) :
    (Phase.next cfg req q (.addFail s) (AttemptOp.exec e (.addFail s) w).1).Done id t
      (own ++ [⟨pid, c, e, .addFail s, w⟩]) := by
  obtain ⟨fault, exn, lockFree⟩ := e
  have hsolves := forall_mem_concat
    (n := (⟨pid, c, ⟨fault, exn, lockFree⟩, .addFail s, w⟩ : (attempts cfg).Entry))
    h.solves ⟨rfl, fun hn => hn⟩
  cases fault with
  | none =>
      have hcount : (own ++ [(⟨pid, c, ⟨.none, exn, lockFree⟩, .addFail s, w⟩ :
          (attempts cfg).Entry)]).countP (storesFail id t) = 1 := by
        rw [List.countP_append, List.countP_singleton, h.fails,
          if_pos (by simp [storesFail, AttemptOp.storesFail, hs])]
      rcases hq with rfl | rfl <;> exact ⟨hsolves, hcount⟩
  | before => rcases hq with rfl | rfl <;> exact hsolves
  | after => rcases hq with rfl | rfl <;> exact hsolves

/-- A try to get the lock. -/
theorem done_acquireLock {q : Phase} (hq : q = .credited cc ∨ q = .waiting cc) {key : String}
    (hstores : ∃ n ∈ own, storesSolve id t n = true)
    (hclean : ∀ n ∈ own, ¬replyLost id t n ∧ ¬recalculationFails n) :
    (Phase.next cfg req q (.acquireLock key)
        (AttemptOp.exec e (.acquireLock key) w).1).Done id t
      (own ++ [⟨pid, c, e, .acquireLock key, w⟩]) := by
  obtain ⟨fault, exn, lockFree⟩ := e
  let n : (attempts cfg).Entry := ⟨pid, c, ⟨fault, exn, lockFree⟩, .acquireLock key, w⟩
  have hask : lastAsk (own ++ [n]) = some n := lastAsk_append_of_asks rfl
  have hstores' := exists_mem_concat (n := n) hstores
  have hbroken : fault ≠ .none → (Phase.broken cc).Done id t (own ++ [n]) := fun hf =>
    ⟨hstores', n, List.mem_append_right _ (List.mem_singleton_self _), trivial, .inl hf⟩
  cases fault with
  | none =>
      have hclean' : ∀ m ∈ own ++ [n], ¬replyLost id t m ∧ ¬recalculationFails m :=
        forall_mem_concat hclean ⟨fun hl => (nomatch hl.1), fun hf => hf.2.elim (fun h => h rfl)
          fun h => nomatch h⟩
      cases lockFree with
      | true =>
          have hcredited : (Phase.credited cc).Done id t (own ++ [n]) := by
            refine ⟨hstores', fun m hm => (hclean' m hm).1, fun m hm => (hclean' m hm).2, ?_⟩
            intro m hm
            obtain rfl := Option.some.inj (hask.symm.trans hm)
            rfl
          rcases hq with rfl | rfl <;> exact hcredited
      | false => rcases hq with rfl | rfl <;> exact ⟨hstores', hclean', n, hask, rfl⟩
  | before => rcases hq with rfl | rfl <;> exact hbroken (by decide)
  | after => rcases hq with rfl | rfl <;> exact hbroken (by decide)

/-- An operation of the recalculation. -/
theorem done_recalculationOp {q : Phase} {o : AttemptOp} (ho : q.allows req o)
    (hop : recalculationOp o) (h : q.Done id t own) :
    (q.next cfg req o (o.exec e w).1).Done id t (own ++ [⟨pid, c, e, o, w⟩]) := by
  obtain ⟨cc, rfl | ⟨rfl, key, rfl⟩ | ⟨rfl, key, rfl⟩⟩ := credited_of_recalculationOp ho hop
  · obtain ⟨fault, exn, lockFree⟩ := e
    let n : (attempts cfg).Entry := ⟨pid, c, ⟨fault, exn, lockFree⟩, o, w⟩
    have hstores := exists_mem_concat (n := n) h.1
    have hbroken : fault ≠ .none ∨ AttemptOp.asksSolveCount o = true →
        (Phase.broken cc).Done id t (own ++ [n]) := fun hfails =>
      ⟨hstores, n, List.mem_append_right _ (List.mem_singleton_self _), hop, hfails⟩
    have hcredited : fault = .none → ¬AttemptOp.asksSolveCount o = true →
        AttemptOp.asksLock o = false → (Phase.credited cc).Done id t (own ++ [n]) := by
      rintro rfl hcount hlock
      have hasks : asksLock n = false := hlock
      refine ⟨hstores, h.2.concat (fun hl => nomatch hl.2) (fun hfails => ?_)
        fun hasks' => absurd hasks' (by simp [hasks])⟩
      exact hfails.2.elim (fun hf => hf rfl) hcount
    cases o with
    | acquireLock key =>
        exact done_acquireLock (.inl rfl) h.1
          fun n hn => ⟨h.2.reply n hn, h.2.recalculation n hn⟩
    | getSolveCount cc' contestId => cases fault <;> exact hbroken (.inr rfl)
    | findDynamicChallenge cc' | saveChallenge row | releaseLock key =>
        cases fault with
        | none => exact hcredited rfl (fun hc => nomatch hc) rfl
        | before => exact hbroken (.inl (by decide))
        | after => exact hbroken (.inl (by decide))
    | _ => exact hop.elim
  · exact done_acquireLock (.inr rfl) h.1 h.2.1
  · exact ⟨exists_mem_concat h.1, exists_mem_concat h.2⟩

/-- **One operation** of a request: what it has done is what its phase says. -/
theorem Phase.Done.next {q : Phase} {o : AttemptOp} (h : q.Done id t own)
    (ho : q.allows req o) (hid : ∀ cc, q.challenge = some cc → cc.id = id)
    (ht : req.teamId = t) :
    (q.next cfg req o (o.exec e w).1).Done id t (own ++ [⟨pid, c, e, o, w⟩]) := by
  by_cases hplain : o.Plain
  · exact h.next_of_plain (n := ⟨pid, c, e, o, w⟩) hplain _
  · by_cases hop : recalculationOp o
    · exact done_recalculationOp ho hop h
    · cases o with
      | addSolve s =>
          obtain ⟨cc, rfl, hs⟩ := matched_of_addSolve ho
          exact done_addSolve h ⟨hs.1.trans (hid cc rfl), hs.2.trans ht⟩
      | addFail s =>
          obtain ⟨cc, hq, hs⟩ := missed_of_addFail ho
          have hcc : cc.id = id := by rcases hq with rfl | rfl <;> exact hid cc rfl
          refine done_addFail hq ?_ ⟨hs.1.trans hcc, hs.2.trans ht⟩
          rcases hq with rfl | rfl <;> exact h
      | _ => exact absurd ⟨hop, fun _ hs => (nomatch hs), fun _ hs => (nomatch hs)⟩ hplain

end Effects

/-! ### Runs -/

/-- A clean request's answer agrees with what it has stored, and no other's does. -/
theorem answerAgrees_iff_clean {id t : ℤ} {own : List (attempts cfg).Entry} {q : Phase}
    {r : Except Exn AttemptResponse} (h : q.Done id t own) (hr : q.answers r) :
    AnswerAgrees id t own r ↔ Clean id t own := by
  have hnot : (¬∃ cc, q = .credited cc) → ¬Credited r :=
    fun hq hc => hq (credited_of_answers hr hc)
  have hlock : (∀ n ∈ own, ¬recalculates n) →
      ∀ n, lastAsk own = some n → AttemptEnv.lockFree n.env = true := by
    intro hnone n hn
    obtain ⟨hmem, hasks⟩ := lastAsk_mem hn
    exact absurd hasks (by simp [asksLock_of_not_recalculates (hnone n hmem)])
  constructor
  · intro hagrees
    have hstored : (¬∃ cc, q = .credited cc) → ∀ n ∈ own, ¬storesSolve id t n = true :=
      fun hq n hn hs => hnot hq (hagrees.credited.mpr ⟨n, hn, hs⟩)
    cases q with
    | credited cc => exact h.2
    | waiting cc | broken cc =>
        obtain ⟨n, hn, hs⟩ := h.1
        exact absurd hs (hstored (fun ⟨_, hq⟩ => nomatch hq) n hn)
    | solved cc | uncredited cc =>
        have hnone := hstored fun ⟨_, hq⟩ => nomatch hq
        exact ⟨fun n hn hl => hnone n hn hl.1, fun n hn hf => (h n hn).2 hf.1,
          hlock fun n hn => (h n hn).2⟩
    | stored cc => exact clean_of_nothingDone h.1
    | failed => exact clean_of_nothingDone h
    | _ => exact clean_of_nothingDone h.solves
  · intro hclean
    refine ⟨⟨fun hc => ?_, fun ⟨n, hn, hs⟩ => ?_⟩, fun ha => ?_, fun href => ?_⟩
    · obtain ⟨cc, rfl⟩ := credited_of_answers hr hc
      exact h.1
    · cases q with
      | credited cc =>
          obtain ⟨a, rfl, -, hstatus⟩ := hr
          exact ⟨a, rfl, hstatus⟩
      | waiting cc =>
          obtain ⟨-, -, m, hm, hfree⟩ := h
          exact absurd (hclean.lock m hm) (by simp [hfree])
      | broken cc =>
          obtain ⟨-, m, hm, hfails⟩ := h
          exact absurd hfails (hclean.recalculation m hm)
      | solved cc | uncredited cc => exact absurd ((h n hn).1 hs) (hclean.reply n hn)
      | stored cc => exact absurd hs (by simp [(h.1 n hn).1])
      | failed => exact absurd hs (by simp [(h n hn).1])
      | _ => exact absurd hs (by simp [(h.solves n hn).1])
    · obtain ⟨cc, rfl⟩ := stored_of_accepted hr ha
      exact h.2
    · obtain ⟨cc, fails, n, rfl, -, -⟩ | ⟨cc, rfl⟩ := limited_of_refused hr href
      · exact h.fails
      · exact h.fails

/-- What a request has done by now is what its phase says. -/
def Did (log : List (attempts cfg).Entry) (pid : ℕ) (c : AttemptCall) (q : Phase) : Prop :=
  ∀ req, c = .attempt req → (∀ cc, q.challenge = some cc → cc.id = req.challengeId) ∧
    q.Done req.challengeId req.teamId (Service.own log pid)

theorem did_start {log : List (attempts cfg).Entry} {pid : ℕ} {c : AttemptCall}
    (h : ∀ n ∈ log, n.pid ≠ pid) : Did log pid c .start := by
  intro req _
  rw [Service.own_eq_nil h]
  exact ⟨fun cc hcc => (nomatch hcc), ⟨fun n hn => (nomatch hn), rfl⟩⟩

theorem Did.next {log : List (attempts cfg).Entry} {pid : ℕ} {c : AttemptCall} {q : Phase}
    (h : Did log pid c q) {o : AttemptOp} (ho : (callProtocol cfg c).allows q o)
    (e : AttemptEnv) (w : AttemptWorld) :
    Did (log ++ [⟨pid, c, e, o, w⟩]) pid c
      ((callProtocol cfg c).next q o (o.exec e w).1) := by
  rintro req rfl
  obtain ⟨hid, hdone⟩ := h req rfl
  refine ⟨fun cc hcc => ?_, ?_⟩
  · obtain hcc | ⟨-, hcc, -⟩ := challenge_of_next ho hcc
    · exact hid cc hcc
    · exact hcc
  · let n : (attempts cfg).Entry := ⟨pid, AttemptCall.attempt req, e, o, w⟩
    have hown : Service.own (log ++ [n]) pid = Service.own log pid ++ [n] :=
      Service.own_append_self
    exact hown ▸ hdone.next ho hid rfl

theorem Did.append {log : List (attempts cfg).Entry} {pid : ℕ} {c : AttemptCall} {q : Phase}
    (h : Did log pid c q) {n : (attempts cfg).Entry} (hn : n.pid ≠ pid) :
    Did (log ++ [n]) pid c q := by
  intro req hc
  rw [Service.own_append_of_ne hn]
  exact h req hc

/-- **What the requests of a run have done.** -/
theorem did_of_records {s₀ : AttemptWorld} {log : List (attempts cfg).Entry}
    {w : (attempts cfg).Pool}
    (h : Service.Records Service.anyLogged ((attempts cfg).start s₀) log w) :
    ∃ qs, Service.Standings (callProtocol cfg) callAnswers w qs ∧
      ∀ pid c p q, w.procs[pid]? = some (c, p) → qs[pid]? = some q → Did log pid c q := by
  have hinv : True ∧ ∃ qs, Service.Standings (callProtocol cfg) callAnswers w qs ∧
      ∀ pid c p q, w.procs[pid]? = some (c, p) → qs[pid]? = some q → Did log pid c q := by
    refine h.local_invariant (A := fun _ _ => True) (fun _ => .start)
      (fun c => follows_call cfg c) trivial (fun log pid c => did_start) ?_
      (fun log n pid c q hne hL => hL.append hne) fun _ _ _ _ _ => trivial
    exact fun log w pid e c o k q _ hL _ _ hf => ⟨trivial, hL.next hf.1 e w.shared⟩
  exact hinv.2

/-- **The answer agrees with what was stored**, in every run and whatever fails in it, if
and only if what the request did was clean: no reply to its insertion was lost, its
recalculation did not fail, and it got the lock at last. -/
theorem answerAgrees_iff (cfg : AttemptConfig) (s₀ : AttemptWorld)
    (log : List (attempts cfg).Entry) (w : (attempts cfg).Pool)
    (h : Service.Records Service.anyLogged ((attempts cfg).start s₀) log w) (pid : ℕ)
    (req : ChallengeAttemptRequest) (r : Except Exn AttemptResponse)
    (hr : Service.Finished w pid (AttemptCall.attempt req) r) :
    AnswerAgrees req.challengeId req.teamId (Service.own log pid) r ↔
      Clean req.challengeId req.teamId (Service.own log pid) := by
  obtain ⟨qs, hst, hdid⟩ := did_of_records h
  obtain ⟨q, hq, hf⟩ := hst.get hr
  exact answerAgrees_iff_clean (hdid pid _ _ q hr hq req rfl).2 hf

end Own

/-! ### A challenge whose value decays -/

/-- The challenge of the concrete runs, with a value that decays. -/
def decayingChallenge : ContestsChallenge :=
  { oneTryChallenge with bankChallenge := some ⟨3, "web", false, none, true⟩ }

theorem not_accepted_of_credited {r : Except Exn AttemptResponse} (h : Credited r) :
    ¬Accepted r ∧ ¬Refused r := by
  obtain ⟨a, rfl, hstatus⟩ := h
  refine ⟨fun ⟨b, hb, _, hincorrect⟩ => ?_, fun hrefused => ?_⟩
  · obtain rfl := Except.ok.inj hb
    rw [hstatus] at hincorrect
    cases hincorrect
  · obtain rfl := Except.ok.inj hrefused
    cases hstatus

/-- A right answer whose value does not decay agrees with what was stored. -/
theorem answerAgrees_example :
    ∃ log w, Service.runLogged Service.anyLogged []
        ((attempts defaultAttemptConfig).start (attemptWorld oneTryChallenge))
        (Service.callNow 0 rightAnswer calmAttempt 8) = some (log, w) ∧
      Credited rightReply ∧ AnswerAgrees 7 5 (Service.own log 0) rightReply ∧
      Clean 7 5 (Service.own log 0) := by
  have hrun : (Service.runLogged Service.anyLogged []
      ((attempts defaultAttemptConfig).start (attemptWorld oneTryChallenge))
      (Service.callNow 0 rightAnswer calmAttempt 8)).any
      (fun p => decide (Service.answer p.2 0 = some ⟨rightAnswer, rightReply⟩) &&
        (Service.own p.1 0).any (storesSolve 7 5)) = true := by
    decide +kernel
  obtain ⟨⟨log, w⟩, hw, hboth⟩ := (Option.any_eq_true _ _).mp hrun
  obtain ⟨hanswer, hstores⟩ := Bool.and_eq_true_iff.mp hboth
  have hcredited : Credited rightReply := ⟨_, rfl, rfl⟩
  have hagrees : AnswerAgrees 7 5 (Service.own log 0) rightReply :=
    ⟨iff_of_true hcredited (List.any_eq_true.mp hstores),
      fun ha => absurd ha (not_accepted_of_credited hcredited).1,
      fun hr => absurd hr (not_accepted_of_credited hcredited).2⟩
  exact ⟨log, w, hw, hcredited, hagrees,
    (answerAgrees_iff defaultAttemptConfig (attemptWorld oneTryChallenge) log w
      (Service.records_of_runLogged .refl hw) 0 _ _
      (Service.finished_of_answer (of_decide_eq_true hanswer))).mp hagrees⟩

/-- **The solve is stored, the answer is an exception.** The value of the challenge decays,
so the recalculation asks for the solve count; the query of `GetSolveCount` raises, nothing
catches it, and the team never hears of its solve. -/
theorem not_answerAgrees :
    ∃ log w, Service.Records Service.anyLogged
        ((attempts defaultAttemptConfig).start (attemptWorld decayingChallenge)) log w ∧
      Service.Finished w 0 rightAnswer (.error .invalidOperation) ∧
      w.shared.solveCount 7 5 = 1 ∧
      ¬AnswerAgrees 7 5 (Service.own log 0) (.error .invalidOperation) := by
  have hrun : (Service.runLogged Service.anyLogged []
      ((attempts defaultAttemptConfig).start (attemptWorld decayingChallenge))
      (Service.callNow 0 rightAnswer calmAttempt 11)).any
      (fun p => decide (Service.answer p.2 0 = some ⟨rightAnswer, .error .invalidOperation⟩) &&
        decide (p.2.shared.solveCount 7 5 = 1) &&
        (Service.own p.1 0).any (storesSolve 7 5)) = true := by
    decide +kernel
  obtain ⟨⟨log, w⟩, hw, hall⟩ := (Option.any_eq_true _ _).mp hrun
  obtain ⟨hboth, hstores⟩ := Bool.and_eq_true_iff.mp hall
  obtain ⟨hanswer, hcount⟩ := Bool.and_eq_true_iff.mp hboth
  refine ⟨log, w, Service.records_of_runLogged .refl hw,
    Service.finished_of_answer (of_decide_eq_true hanswer), of_decide_eq_true hcount,
    fun h => ?_⟩
  obtain ⟨a, ha, -⟩ := h.credited.mpr (List.any_eq_true.mp hstores)
  cases ha

end Fctf
