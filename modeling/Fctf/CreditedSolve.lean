import Fctf.AnswerAgrees
import Fctf.BoundedGuessing

/-!
# At Most One Credited Solve

Several members of a team can submit the right flag at the same time. Each request looks
for a solve before and after the comparison, and the unique indexes of `solves` decide
between those that find none. The tables always end with at most one solve and one correct
submission for a team and a challenge; that exactly one request is answered to be correct
needs a run in which no reply of the correct branch is lost and no recalculation raises.

## Main results

* `solveCount_le_one`: in every run the team has at most one solve, and as many correct
  submissions.
* `creditedOnce_of_cleanRun`: in every run whose steps are clean, one solve is stored and
  one request is answered to be correct.
* `not_creditedOnce`: a run in which the only right submission is stored and answered with
  an exception.
-/

open Concurrent RedisDb

namespace Fctf

section Runs

variable {cfg : AttemptConfig} {id t : ℤ}

/-! ### The tables -/

/-- A stored solve is the first one of its team. -/
theorem solveCount_eq_zero_of_stores {e : AttemptEnv} {o : AttemptOp} {w : AttemptWorld}
    (h : o.storesSolve id t e w = true) : w.solveCount id t = 0 := by
  cases o with
  | addSolve s =>
      obtain ⟨hs, hv⟩ := Bool.and_eq_true_iff.mp h
      obtain ⟨hid, ht, -⟩ := of_decide_eq_true hs
      refine List.countP_eq_zero.mpr fun x hx hsolved => ?_
      obtain ⟨hxid, hxt⟩ := of_decide_eq_true hsolved
      have hany : w.violatesUnique s = true :=
        List.any_eq_true.mpr ⟨x, hx, decide_eq_true ⟨hxid.trans hid.symm, .inl (ht ▸ hxt)⟩⟩
      rw [hany] at hv
      cases hv
  | _ => cases h

/-- The team has at most one solve, and as many correct submissions. -/
def CreditsOnce (id t : ℤ) (w : AttemptWorld) : Prop :=
  w.solveCount id t ≤ 1 ∧ w.correctCount id t = w.solveCount id t

theorem CreditsOnce.exec {w : AttemptWorld} (h : CreditsOnce id t w) (e : AttemptEnv)
    (o : AttemptOp) : CreditsOnce id t (o.exec e w).2 := by
  obtain ⟨hle, hrows⟩ := h
  have hexec := solveCount_exec e o w id t
  split at hexec
  · obtain ⟨hs, hc⟩ := Prod.mk.inj hexec
    rw [CreditsOnce, hs, hc]
    exact ⟨Nat.zero_le _, rfl⟩
  · obtain ⟨hs, hc⟩ := Prod.mk.inj hexec
    rw [CreditsOnce, hs, hc, hrows]
    refine ⟨?_, rfl⟩
    cases hstores : o.storesSolve id t e w with
    | true =>
        rw [solveCount_eq_zero_of_stores hstores]
        exact le_refl _
    | false => exact hle

/-! ### What the requests of the team were told -/

/-- The call is a submission of the team to the challenge. -/
def OwnCall (id t : ℤ) (c : AttemptCall) : Prop :=
  ∃ req, c = .attempt req ∧ req.challengeId = id ∧ req.teamId = t

/-- The operations that lead from a right text to a solve. -/
def AttemptOp.credits : AttemptOp → Bool
  | .isSolved _ _ => true
  | .addSolve _ => true
  | _ => false

/-- The insertion of a solve by a user who has the challenge solved with another team. -/
def AttemptOp.solvedElsewhere (w : AttemptWorld) : AttemptOp → Bool
  | .addSolve s =>
      w.solves.any fun x =>
        x.contestChallengeId = s.contestChallengeId ∧ x.userId.isSome ∧ x.userId = s.userId ∧
          x.teamId ≠ some s.teamId
  | _ => false

/-- An operation of the correct branch was lost. -/
def creditLost (n : (attempts cfg).Entry) : Prop :=
  AttemptOp.credits n.op = true ∧ AttemptEnv.fault n.env ≠ .none

/-- The user has the challenge solved with another team. -/
def solvedElsewhere (n : (attempts cfg).Entry) : Prop :=
  AttemptOp.solvedElsewhere n.before n.op = true

/-- Why a request may have found the challenge to be solved. -/
def FoundSolved (id t : ℤ) (n : (attempts cfg).Entry) : Prop :=
  1 ≤ n.before.solveCount id t ∨ creditLost n ∨ solvedElsewhere n

/-- What the comparison told a request, by its phase. -/
def Phase.Told (id t : ℤ) (own : List (attempts cfg).Entry) : Phase → Prop
  | .start | .found _ | .prechecked _ _ => ∀ n ∈ own, verdict cfg id t n = none
  | .matched _ | .credited _ | .waiting _ | .broken _ =>
      ∀ n ∈ own, verdict cfg id t n ≠ some false
  | .solved _ =>
      (∀ n ∈ own, verdict cfg id t n ≠ some false) ∧ ∃ n ∈ own, FoundSolved id t n
  | .uncredited _ => (∀ n ∈ own, verdict cfg id t n ≠ some false) ∧ ∃ n ∈ own, creditLost n
  | .missed _ | .recounted _ _ | .counted _ | .refused _ | .stored _ =>
      (∃ n ∈ own, verdict cfg id t n = some false) ∧ ∀ n ∈ own, verdict cfg id t n ≠ some true
  | .failed =>
      ((∃ n ∈ own, verdict cfg id t n = some false) ∧
          ∀ n ∈ own, verdict cfg id t n ≠ some true) ∨
        (∀ n ∈ own, verdict cfg id t n ≠ some false) ∧ ∃ n ∈ own, creditLost n

/-- The phase after a comparison. -/
theorem next_of_comparison {req : ChallengeAttemptRequest} {q : Phase} {o : AttemptOp}
    {r : Except Exn o.Reply} {b : Bool} (ho : q.allows req o)
    (h : comparison cfg req o r = some b) :
    (∃ cc, q = .found cc ∨ ∃ fails, q = .prechecked cc fails) ∧
      ∃ cc, q.next cfg req o r = if b then .matched cc else .missed cc := by
  obtain ⟨bankId, rfl⟩ := comparison_eq_some h
  cases r with
  | error e => cases h
  | ok flags =>
      have hafter : ∀ cc q', ∃ cc', Phase.afterCompare cfg req cc q' flags =
          if b then .matched cc' else .missed cc' := by
        intro cc q'
        refine ⟨cc, ?_⟩
        unfold comparison at h
        unfold Phase.afterCompare
        cases hattempt : ChallengeHelper.attempt cfg.runtime req.submitted flags with
        | error e => simp [hattempt] at h
        | ok attempt =>
            obtain rfl : attempt.status = b := by simpa [hattempt] using h
            rfl
      cases q with
      | found cc => exact ⟨⟨cc, .inl rfl⟩, hafter cc _⟩
      | prechecked cc fails => exact ⟨⟨cc, .inr ⟨fails, rfl⟩⟩, hafter cc _⟩
      | credited cc => rcases ho with ho | ho <;> exact ho.elim
      | _ => exact ho.elim

/-- A comparison tells its request's phase. -/
theorem told_of_comparison {own : List (attempts cfg).Entry} {n : (attempts cfg).Entry}
    {b : Bool} (h : ∀ m ∈ own, verdict cfg id t m = none) (hn : verdict cfg id t n = some b)
    (cc : ContestsChallenge) :
    Phase.Told id t (own ++ [n]) (if b then .matched cc else .missed cc) := by
  have hall : ∀ m ∈ own ++ [n], verdict cfg id t m ≠ some !b := by
    refine forall_mem_concat (fun m hm => ?_) ?_
    · rw [h m hm]
      exact fun h => nomatch h
    · rw [hn]
      cases b <;> exact fun h => nomatch h
  cases b with
  | true => exact hall
  | false => exact ⟨⟨n, List.mem_append_right _ (List.mem_singleton_self _), hn⟩, hall⟩

/-- An operation that compares nothing leaves what was told. -/
theorem Phase.Told.concat {own : List (attempts cfg).Entry} {n : (attempts cfg).Entry}
    {q : Phase} (h : q.Told id t own) (hn : verdict cfg id t n = none) :
    q.Told id t (own ++ [n]) := by
  have hnot : ∀ b, (∀ m ∈ own, verdict cfg id t m ≠ some b) →
      ∀ m ∈ own ++ [n], verdict cfg id t m ≠ some b :=
    fun b h => forall_mem_concat h (by rw [hn]; exact fun h => nomatch h)
  cases q with
  | start | found cc | prechecked cc fails => exact forall_mem_concat h hn
  | matched cc | credited cc | waiting cc | broken cc => exact hnot _ h
  | solved cc | uncredited cc => exact ⟨hnot _ h.1, exists_mem_concat h.2⟩
  | missed cc | recounted cc fails | counted cc | refused cc | stored cc =>
      exact ⟨exists_mem_concat h.1, hnot _ h.2⟩
  | failed =>
      rcases h with h | h
      · exact .inl ⟨exists_mem_concat h.1, hnot _ h.2⟩
      · exact .inr ⟨hnot _ h.1, exists_mem_concat h.2⟩

/-- A challenge found to be solved is solved. -/
theorem solvedRead_exec {e : AttemptEnv} {o : AttemptOp} {w : AttemptWorld}
    (h : solvedRead o (o.exec e w).1 = some true) :
    ∃ id t, o = .isSolved id t ∧ 1 ≤ w.solveCount id t := by
  cases o with
  | isSolved id t =>
      obtain ⟨fault, exn, lockFree⟩ := e
      cases fault with
      | none =>
          have hsolved : w.isSolved id t = true := Option.some.inj h
          obtain ⟨x, hx, hsolve⟩ := List.any_eq_true.mp hsolved
          exact ⟨id, t, rfl, List.countP_pos_iff.mpr ⟨x, hx, hsolve⟩⟩
      | _ => cases h
  | _ => cases h

/-- A solve that stands against an insertion is the team's, or the user's with another
team. -/
theorem solved_of_violatesUnique {w : AttemptWorld} {s : NewSubmission}
    (h : w.violatesUnique s = true) :
    1 ≤ w.solveCount s.contestChallengeId s.teamId ∨
      AttemptOp.solvedElsewhere w (.addSolve s) = true := by
  obtain ⟨x, hx, hviolates⟩ := List.any_eq_true.mp h
  obtain ⟨hid, hwho⟩ := of_decide_eq_true hviolates
  by_cases hteam : x.teamId = some s.teamId
  · exact .inl (List.countP_pos_iff.mpr ⟨x, hx, decide_eq_true ⟨hid, hteam⟩⟩)
  · obtain ⟨hsome, huser⟩ := hwho.resolve_left hteam
    exact .inr (List.any_eq_true.mpr ⟨x, hx, decide_eq_true ⟨hid, hsome, huser, hteam⟩⟩)

/-- What an insertion that raised says. -/
theorem foundSolved_of_addSolve {s : NewSubmission} {e : AttemptEnv} {w : AttemptWorld}
    (hs : s.contestChallengeId = id ∧ s.teamId = t) {x : Exn}
    (h : (AttemptOp.exec e (.addSolve s) w).1 = .error x) :
    e.fault ≠ .none ∨ x = .duplicateKey ∧ (1 ≤ w.solveCount id t ∨
      AttemptOp.solvedElsewhere w (.addSolve s) = true) := by
  obtain ⟨fault, exn, lockFree⟩ := e
  cases fault with
  | none =>
      by_cases hv : w.violatesUnique s = true
      · simp only [AttemptOp.exec, Fault.apply, AttemptWorld.insertSolve, if_pos hv] at h
        obtain rfl := Except.error.inj h
        obtain ⟨rfl, rfl⟩ := hs
        exact .inr ⟨rfl, solved_of_violatesUnique hv⟩
      · simp only [AttemptOp.exec, Fault.apply, AttemptWorld.insertSolve, if_neg hv] at h
        cases h
  | before => exact .inl fun h => by cases h
  | after => exact .inl fun h => by cases h

/-- **One operation** of a request: what it was told is what its phase says. -/
theorem Phase.Told.next {req : ChallengeAttemptRequest} {q : Phase} {o : AttemptOp}
    {own : List (attempts cfg).Entry} (h : q.Told id t own) (ho : q.allows req o)
    (hcc : ∀ cc, q.challenge = some cc → cc.id = id) (hid : req.challengeId = id)
    (ht : req.teamId = t) (pid : ℕ) (e : AttemptEnv) (w : AttemptWorld) :
    (q.next cfg req o (o.exec e w).1).Told id t
      (own ++ [⟨pid, AttemptCall.attempt req, e, o, w⟩]) := by
  let n : (attempts cfg).Entry := ⟨pid, AttemptCall.attempt req, e, o, w⟩
  have hmem : n ∈ own ++ [n] := List.mem_append_right _ (List.mem_singleton_self _)
  have hverdict : verdict cfg id t n = comparison cfg req o (o.exec e w).1 :=
    if_pos ⟨hid, ht⟩
  cases hc : comparison cfg req o (o.exec e w).1 with
  | some b =>
      obtain ⟨⟨cc, hq⟩, cc', hnext⟩ := next_of_comparison ho hc
      have hnone : ∀ m ∈ own, verdict cfg id t m = none := by
        rcases hq with rfl | ⟨fails, rfl⟩ <;> exact h
      rw [hnext]
      exact told_of_comparison hnone (hverdict.trans hc) cc'
  | none =>
      have h' : q.Told id t (own ++ [n]) := h.concat (hverdict.trans hc)
      have hright : (∀ m ∈ own ++ [n], verdict cfg id t m = none) →
          ∀ m ∈ own ++ [n], verdict cfg id t m ≠ some false :=
        fun hnone m hm => by rw [hnone m hm]; exact fun h => nomatch h
      have hstep := Phase.step_next cfg req q o (o.exec e w).1
      generalize q.next cfg req o (o.exec e w).1 = q' at hstep
      cases hstep with
      | stay => exact h'
      | find cc => exact h'
      | findSolved cc q hq hr =>
          obtain ⟨id', t', rfl, hsolved⟩ := solvedRead_exec hr
          have hfound : ∃ m ∈ own ++ [n], FoundSolved id t m := by
            refine ⟨n, hmem, .inl ?_⟩
            rcases hq with rfl | rfl <;>
            · obtain ⟨rfl, rfl⟩ := ho
              rw [hcc cc rfl, ht] at hsolved
              exact hsolved
          rcases hq with rfl | rfl
          · exact ⟨hright h', hfound⟩
          · exact ⟨h', hfound⟩
      | precheck cc fails hr => exact h'
      | compare cc q b hq hr => rw [hc] at hr; cases hr
      | unread cc id' t' hop hr =>
          subst hop
          refine .inr ⟨h', n, hmem, rfl, fun hf => ?_⟩
          simp only [AttemptOp.exec, AttemptEnv.read, show e.fault = .none from hf,
            Fault.apply] at hr
          cases hr
      | duplicate cc s hop hr =>
          subst hop
          refine ⟨h', n, hmem, ?_⟩
          rcases foundSolved_of_addSolve ⟨ho.1.trans (hcc cc rfl), ho.2.trans ht⟩ hr with
            hf | ⟨-, hfound⟩
          · exact .inr (.inl ⟨rfl, hf⟩)
          · exact hfound.imp_right .inr
      | insertSolve cc s hop hr =>
          subst hop
          cases hreply : (AttemptOp.exec e (.addSolve s) w).1 with
          | ok _ => exact h'
          | error x =>
              refine ⟨h', n, hmem, rfl, ?_⟩
              rcases foundSolved_of_addSolve ⟨ho.1.trans (hcc cc rfl), ho.2.trans ht⟩ hreply
                with hf | ⟨rfl, -⟩
              · exact hf
              · exact absurd hreply hr
      | lock cc q key lockFree hq hop hr =>
          rcases hq with rfl | rfl <;> cases lockFree <;> exact h'
      | breaks cc q hq hop hr => rcases hq with rfl | rfl <;> exact h'
      | recount cc fails hr => exact h'
      | count cc fails result hr =>
          rw [Phase.afterCount]
          split <;> exact h'
      | insertFail cc q s hq hop =>
          rcases hq with rfl | rfl <;> split <;> first | exact h' | exact .inl h'

/-! ### The run as a whole -/

/-- The entry deletes all submissions and solves. -/
def deletesRows (n : (attempts cfg).Entry) : Bool := AttemptOp.deletesRows n.env n.op

/-- What the log of a run says about the team's solves. -/
structure SolveLog (id t : ℤ) (s₀ : AttemptWorld) (log : List (attempts cfg).Entry)
    (s : AttemptWorld) : Prop where
  /-- There is at most one. -/
  once : CreditsOnce id t s
  /-- It is one that was stored. -/
  stored : (∀ n ∈ log, deletesRows n = false) →
    s.solveCount id t = s₀.solveCount id t + log.countP (storesSolve id t)
  /-- It stays. -/
  grows : (∀ n ∈ log, deletesRows n = false) →
    ∀ n ∈ log, n.before.solveCount id t ≤ s.solveCount id t
  /-- It was stored by a submission of the team. -/
  owner : ∀ n ∈ log, storesSolve id t n = true → OwnCall id t n.call

/-- A solve is stored by a submission of its team. -/
theorem ownCall_of_storesSolve {log : List (attempts cfg).Entry} {pid : ℕ} {c : AttemptCall}
    {q : Phase} {o : AttemptOp} (hdid : Did log pid c q)
    (ho : (callProtocol cfg c).allows q o) {e : AttemptEnv} {w : AttemptWorld}
    (h : o.storesSolve id t e w = true) : OwnCall id t c := by
  cases o with
  | addSolve s =>
      obtain ⟨hs, -⟩ := Bool.and_eq_true_iff.mp h
      obtain ⟨hid, ht, -⟩ := of_decide_eq_true hs
      cases c with
      | attempt req =>
          obtain ⟨cc, rfl, hrow⟩ := matched_of_addSolve ho
          have hcc := (hdid req rfl).1 cc rfl
          exact ⟨req, rfl, hcc.symm.trans (hrow.1.symm.trans hid), hrow.2.symm.trans ht⟩
      | editSubmission id => cases ho
      | reset => cases ho
  | _ => cases h

/-- One more operation. -/
theorem SolveLog.concat {s₀ : AttemptWorld} {log : List (attempts cfg).Entry}
    {s : AttemptWorld} (h : SolveLog id t s₀ log s) (pid : ℕ) (c : AttemptCall)
    (e : AttemptEnv) (o : AttemptOp)
    (howner : o.storesSolve id t e s = true → OwnCall id t c) :
    SolveLog id t s₀ (log ++ [⟨pid, c, e, o, s⟩]) (o.exec e s).2 := by
  let n : (attempts cfg).Entry := ⟨pid, c, e, o, s⟩
  have hexec := solveCount_exec e o s id t
  -- the team's solves, where nothing is deleted
  have hcount : deletesRows n = false → (o.exec e s).2.solveCount id t =
      s.solveCount id t + (storesSolve id t n).toNat := by
    intro hn
    rw [if_neg (by rw [show o.deletesRows e = false from hn]; decide)] at hexec
    exact (Prod.mk.inj hexec).1
  have hlast : ∀ {P : (attempts cfg).Entry → Prop}, (∀ m ∈ log ++ [n], P m) →
      (∀ m ∈ log, P m) ∧ P n := fun hall =>
    ⟨fun m hm => hall m (List.mem_append_left _ hm),
      hall n (List.mem_append_right _ (List.mem_singleton_self _))⟩
  refine ⟨h.once.exec e o, fun hkept => ?_, fun hkept => ?_, ?_⟩
  · obtain ⟨hkept, hn⟩ := hlast hkept
    rw [hcount hn, h.stored hkept, List.countP_append, List.countP_singleton, Nat.add_assoc]
    cases storesSolve id t n <;> rfl
  · obtain ⟨hkept, hn⟩ := hlast hkept
    rw [hcount hn]
    exact forall_mem_concat (fun m hm => (h.grows hkept m hm).trans (Nat.le_add_right _ _))
      (Nat.le_add_right _ _)
  · exact forall_mem_concat h.owner howner

/-- A submission of the team that was found to be right. -/
def ToldRight (cfg : AttemptConfig) (id t : ℤ) (log : List (attempts cfg).Entry) (pid : ℕ) :
    Prop :=
  ∃ n ∈ Service.own log pid, verdict cfg id t n = some true

/-- The request failed. -/
def Fails (r : Except Exn AttemptResponse) : Prop :=
  Raised r ∨ ∃ a, r = .ok a ∧ 400 ≤ a.httpStatus

/-- The call has ended with the answer that the submission is correct. -/
def CreditedAt (id t : ℤ) (w : (attempts cfg).Pool) (pid : ℕ) : Prop :=
  ∃ c r, Service.Finished w pid c r ∧ OwnCall id t c ∧ Credited r

/-- **One credited solve**: of a team that had not solved the challenge. -/
structure CreditedOnce (id t : ℤ) (log : List (attempts cfg).Entry) (w : (attempts cfg).Pool) :
    Prop where
  /-- There is at most one solve, and as many correct submissions. -/
  rows : CreditsOnce id t w.shared
  /-- At the end there is exactly one, and one request was answered to be correct. -/
  one : Service.Quiescent w → (∃ pid, ToldRight cfg id t log pid) →
    w.shared.solveCount id t = 1 ∧ ∃! pid, CreditedAt id t w pid
  /-- Every other one that was not found to be wrong is answered 'already solved', or
  failed. -/
  others : ∀ pid c r, Service.Finished w pid c r → OwnCall id t c →
    (∀ n ∈ Service.own log pid, verdict cfg id t n ≠ some false) →
    Credited r ∨ r = .ok .alreadySolved ∨ Fails r

/-- The condition on a run: nothing is deleted; of the team's submissions no operation of
the correct branch is lost, no user has solved the challenge with another team, no
recalculation fails, and the lock is free at last. -/
structure CleanRun (id t : ℤ) (log : List (attempts cfg).Entry) : Prop where
  /-- Nothing is deleted. -/
  kept : ∀ n ∈ log, deletesRows n = false
  /-- Nothing is lost on the way to the solve. -/
  arrives : ∀ n ∈ log, OwnCall id t n.call → ¬creditLost n
  /-- The team's users have solved the challenge with no other team. -/
  single : ∀ n ∈ log, OwnCall id t n.call → ¬solvedElsewhere n
  /-- No recalculation fails. -/
  recalculation : ∀ n ∈ log, OwnCall id t n.call → ¬recalculationFails n
  /-- The lock is free at last. -/
  lock : ∀ pid n, lastAsk (Service.own log pid) = some n → OwnCall id t n.call →
    AttemptEnv.lockFree n.env = true

theorem ownCall_of_verdict {n : (attempts cfg).Entry} {b : Bool}
    (h : verdict cfg id t n = some b) : OwnCall id t n.call := by
  unfold verdict at h
  cases hc : (n.call : AttemptCall) with
  | attempt req =>
      simp only [hc] at h
      split at h
      · next hown => exact ⟨req, rfl, hown⟩
      · cases h
  | editSubmission id => rw [hc] at h; cases h
  | reset => rw [hc] at h; cases h

theorem creditLost_of_replyLost {n : (attempts cfg).Entry} (h : replyLost id t n) :
    creditLost n := by
  obtain ⟨hstores, hfault⟩ := h
  refine ⟨?_, by rw [hfault]; decide⟩
  unfold storesSolve at hstores
  cases ho : (n.op : AttemptOp) with
  | addSolve s => rfl
  | _ => rw [ho] at hstores; cases hstores

/-- What a request of the team was told, and what it has done. -/
def Stands (id t : ℤ) (log : List (attempts cfg).Entry) (pid : ℕ) (c : AttemptCall)
    (q : Phase) : Prop :=
  Did log pid c q ∧ (OwnCall id t c → q.Told id t (Service.own log pid))

/-- **Every run** has such a log, and its requests stand where their phases say. -/
theorem solveLog_of_records {s₀ : AttemptWorld} (h₀ : CreditsOnce id t s₀)
    {log : List (attempts cfg).Entry} {w : (attempts cfg).Pool}
    (h : Service.Records Service.anyLogged ((attempts cfg).start s₀) log w) :
    SolveLog id t s₀ log w.shared ∧
      ∃ qs, Service.Standings (callProtocol cfg) callAnswers w qs ∧
        ∀ pid c p q, w.procs[pid]? = some (c, p) → qs[pid]? = some q →
          Stands id t log pid c q := by
  refine h.local_invariant (A := SolveLog id t s₀) (fun _ => .start)
    (fun c => follows_call cfg c) ?_ ?_ ?_ ?_ ?_
  · exact ⟨h₀, fun _ => rfl, fun _ n hn => (nomatch hn), fun n hn => (nomatch hn)⟩
  · intro log pid c hnone
    refine ⟨did_start hnone, fun _ => ?_⟩
    rw [Service.own_eq_nil hnone]
    exact fun n hn => nomatch hn
  · rintro log w pid e c o k q hA ⟨hdid, htold⟩ hp - hf
    refine ⟨hA.concat pid c e o (ownCall_of_storesSolve hdid hf.1), hdid.next hf.1 e w.shared,
      ?_⟩
    rintro ⟨req, rfl, hid, ht⟩
    let n : (attempts cfg).Entry := ⟨pid, AttemptCall.attempt req, e, o, w.shared⟩
    have hown : Service.own (log ++ [n]) pid = Service.own log pid ++ [n] :=
      Service.own_append_self
    have hcc : ∀ cc, q.challenge = some cc → cc.id = id :=
      fun cc hq => ((hdid req rfl).1 cc hq).trans hid
    exact hown ▸ (htold ⟨req, rfl, hid, ht⟩).next hf.1 hcc hid ht pid e w.shared
  · rintro log n pid c q hne ⟨hdid, htold⟩
    refine ⟨hdid.append hne, fun hown => ?_⟩
    rw [Service.own_append_of_ne hne]
    exact htold hown
  · rintro log w x hA -
    cases x <;> exact ⟨hA.once, hA.stored, hA.grows, hA.owner⟩

/-- The tables alone, without any condition. -/
theorem solveCount_le_one (cfg : AttemptConfig) (id t : ℤ) (s₀ : AttemptWorld)
    (h₀ : CreditsOnce id t s₀) (log : List (attempts cfg).Entry) (w : (attempts cfg).Pool)
    (h : Service.Records Service.anyLogged ((attempts cfg).start s₀) log w) :
    CreditsOnce id t w.shared :=
  (solveLog_of_records h₀ h).1.once

/-- The answers to the submissions that were not found to be wrong. -/
theorem answers_of_not_wrong {own : List (attempts cfg).Entry} {q : Phase}
    {r : Except Exn AttemptResponse} (h : q.Told id t own) (hr : q.answers r)
    (hwrong : ∀ n ∈ own, verdict cfg id t n ≠ some false) :
    Credited r ∨ r = .ok .alreadySolved ∨ Fails r := by
  have hfalse : ¬∃ n ∈ own, verdict cfg id t n = some false :=
    fun ⟨n, hn, hv⟩ => hwrong n hn hv
  cases q with
  | start | found cc =>
      rcases hr with hr | ⟨a, rfl, hr⟩
      · exact .inr (.inr (.inl hr))
      · exact .inr (.inr (.inr ⟨a, rfl, hr.1⟩))
  | prechecked cc fails =>
      rcases hr with hr | ⟨-, rfl⟩
      · exact .inr (.inr (.inl hr))
      · exact .inr (.inr (.inr ⟨_, rfl, by decide⟩))
  | solved cc => exact .inr (.inl hr)
  | matched cc => exact hr.elim
  | credited cc =>
      obtain ⟨a, rfl, -, hstatus⟩ := hr
      exact .inl ⟨a, rfl, hstatus⟩
  | waiting cc | broken cc | failed => exact .inr (.inr (.inl hr))
  | uncredited cc => exact .inr (.inr (.inr ⟨_, hr, by decide⟩))
  | missed cc | recounted cc fails | counted cc | refused cc | stored cc =>
      exact absurd h.1 hfalse

section Clean

variable {s₀ : AttemptWorld} {log : List (attempts cfg).Entry} {w : (attempts cfg).Pool}
  {pid : ℕ} {c : AttemptCall} {r : Except Exn AttemptResponse}

/-- In a clean run a submission of the team is credited if and only if it stored the
solve. -/
theorem credited_iff (h : Service.Records Service.anyLogged ((attempts cfg).start s₀) log w)
    (hclean : CleanRun id t log) (hr : Service.Finished w pid c r) (hown : OwnCall id t c) :
    Credited r ↔ ∃ n ∈ Service.own log pid, storesSolve id t n = true := by
  have hcall : ∀ n ∈ Service.own log pid, n ∈ log ∧ OwnCall id t n.call := by
    intro n hn
    obtain ⟨hmem, rfl⟩ := Service.mem_own.mp hn
    obtain ⟨p, hp⟩ := h.exists_of_mem n hmem
    obtain ⟨hc, -⟩ := Prod.mk.inj (Option.some.inj (hr.symm.trans hp))
    exact ⟨hmem, hc ▸ hown⟩
  have hcleanOwn : Clean id t (Service.own log pid) :=
    ⟨fun n hn hlost => hclean.arrives n (hcall n hn).1 (hcall n hn).2 (creditLost_of_replyLost hlost),
      fun n hn => hclean.recalculation n (hcall n hn).1 (hcall n hn).2,
      fun n hn => hclean.lock pid n hn (hcall n (lastAsk_mem hn).1).2⟩
  obtain ⟨req, rfl, rfl, rfl⟩ := hown
  exact ((answerAgrees_iff cfg s₀ log w h pid req r hr).mpr hcleanOwn).credited

/-- In a clean run a submission that was found to be right leaves a solve. -/
theorem one_le_solveCount (hlog : SolveLog id t s₀ log w.shared) (hclean : CleanRun id t log)
    {q : Phase} (hcall : ∀ n ∈ Service.own log pid, n ∈ log ∧ OwnCall id t n.call)
    (htold : q.Told id t (Service.own log pid)) (hdone : q.Done id t (Service.own log pid))
    (hr : q.answers r) (hright : ToldRight cfg id t log pid) :
    1 ≤ w.shared.solveCount id t := by
  obtain ⟨n, hn, hv⟩ := hright
  have harrives : ¬∃ m ∈ Service.own log pid, creditLost m :=
    fun ⟨m, hm, hl⟩ => hclean.arrives m (hcall m hm).1 (hcall m hm).2 hl
  have hstored : (∃ m ∈ Service.own log pid, storesSolve id t m = true) →
      1 ≤ w.shared.solveCount id t := by
    rintro ⟨m, hm, hs⟩
    rw [hlog.stored hclean.kept]
    have hpos : 0 < log.countP (storesSolve id t) :=
      List.countP_pos_iff.mpr ⟨m, (hcall m hm).1, hs⟩
    omega
  cases q with
  | start | found cc | prechecked cc fails => rw [htold n hn] at hv; cases hv
  | matched cc => exact hr.elim
  | credited cc | waiting cc | broken cc => exact hstored hdone.1
  | uncredited cc => exact absurd htold.2 harrives
  | solved cc =>
      obtain ⟨m, hm, hsolved | hlost | helse⟩ := htold.2
      · exact hsolved.trans (hlog.grows hclean.kept m (hcall m hm).1)
      · exact absurd ⟨m, hm, hlost⟩ harrives
      · exact absurd helse (hclean.single m (hcall m hm).1 (hcall m hm).2)
  | missed cc | recounted cc fails | counted cc | refused cc | stored cc =>
      exact absurd hv (htold.2 n hn)
  | failed =>
      rcases htold with htold | htold
      · exact absurd hv (htold.2 n hn)
      · exact absurd htold.2 harrives

end Clean

/-- **At most one credited solve.** In every clean run of a team that had not solved the
challenge the tables end with one solve, one request is answered to be correct, and every
other one that was not found to be wrong is answered 'already solved', or failed. -/
theorem creditedOnce_of_cleanRun (cfg : AttemptConfig) (id t : ℤ) (s₀ : AttemptWorld)
    (hs₀ : s₀.solveCount id t = 0) (hc₀ : s₀.correctCount id t = 0)
    (log : List (attempts cfg).Entry) (w : (attempts cfg).Pool)
    (h : Service.Records Service.anyLogged ((attempts cfg).start s₀) log w)
    (hclean : CleanRun id t log) : CreditedOnce id t log w := by
  have h₀ : CreditsOnce id t s₀ := ⟨by omega, by omega⟩
  obtain ⟨hlog, qs, hst, hstands⟩ := solveLog_of_records h₀ h
  refine ⟨hlog.once, fun hquiet => ?_, fun pid c r hr hown hwrong => ?_⟩
  · rintro ⟨pid, hright⟩
    -- the request that was told right
    obtain ⟨n, hn, hv⟩ := hright
    obtain ⟨hmem, rfl⟩ := Service.mem_own.mp hn
    obtain ⟨p, hp⟩ := h.exists_of_mem n hmem
    have hown : OwnCall id t n.call := ownCall_of_verdict hv
    obtain ⟨r, rfl⟩ := hquiet _ (List.mem_of_getElem? hp)
    obtain ⟨q, hq, hf⟩ := hst.get hp
    obtain ⟨hdid, htold⟩ := hstands _ _ _ _ hp hq
    have hcall : ∀ m ∈ Service.own log n.pid, m ∈ log ∧ OwnCall id t m.call := by
      intro m hm
      obtain ⟨hm', hpid⟩ := Service.mem_own.mp hm
      obtain ⟨p, hp'⟩ := h.exists_of_mem m hm'
      rw [hpid, hp] at hp'
      exact ⟨hm', (Prod.mk.inj (Option.some.inj hp')).1 ▸ hown⟩
    have hone : w.shared.solveCount id t = 1 := by
      refine le_antisymm hlog.once.1 ?_
      obtain ⟨req, hc, rfl, rfl⟩ := hown
      rw [hc] at hf
      exact one_le_solveCount hlog hclean hcall (htold ⟨req, hc, rfl, rfl⟩) (hdid req hc).2 hf
        ⟨n, hn, hv⟩
    refine ⟨hone, ?_⟩
    -- the solve was stored once
    have hcount : log.countP (storesSolve id t) = 1 := by
      rw [hlog.stored hclean.kept, hs₀, Nat.zero_add] at hone
      exact hone
    rw [List.countP_eq_length_filter] at hcount
    obtain ⟨m, hm⟩ := List.length_eq_one_iff.mp hcount
    have hunique : ∀ m' ∈ log, storesSolve id t m' = true → m' = m := fun m' hm' hs =>
      List.mem_singleton.mp (hm ▸ List.mem_filter.mpr ⟨hm', hs⟩)
    obtain ⟨hmem', hstores⟩ := List.mem_filter.mp (hm ▸ List.mem_singleton_self m)
    have hown' := hlog.owner m hmem' hstores
    obtain ⟨p', hp'⟩ := h.exists_of_mem m hmem'
    obtain ⟨r', rfl⟩ := hquiet _ (List.mem_of_getElem? hp')
    refine ⟨m.pid, ⟨m.call, r', hp', hown', ?_⟩, ?_⟩
    · exact (credited_iff h hclean hp' hown').mpr ⟨m, Service.mem_own.mpr ⟨hmem', rfl⟩, hstores⟩
    · rintro pid ⟨c, r, hr, hown, hcredited⟩
      obtain ⟨m', hm', hs⟩ := (credited_iff h hclean hr hown).mp hcredited
      obtain ⟨hmem'', rfl⟩ := Service.mem_own.mp hm'
      rw [hunique m' hmem'' hs]
  · obtain ⟨q, hq, hf⟩ := hst.get hr
    have htold := (hstands pid c _ q hr hq).2 hown
    obtain ⟨req, rfl, -⟩ := hown
    exact answers_of_not_wrong htold hf hwrong

end Runs

/-! ### Two requests at the same time -/

/-- Nothing in the way of a solve, as far as one operation shows. -/
def AttemptOp.smooth (e : AttemptEnv) (w : AttemptWorld) (o : AttemptOp) : Bool :=
  decide (e.fault = .none) && !o.deletesRows e && !o.solvedElsewhere w && !o.asksLock &&
    !o.asksSolveCount

/-- A log of such operations is clean. -/
theorem cleanRun_of_smooth {cfg : AttemptConfig} {id t : ℤ}
    {log : List (attempts cfg).Entry}
    (h : (log.all fun n => AttemptOp.smooth n.env n.before n.op) = true) :
    CleanRun id t log := by
  have hsmooth : ∀ n ∈ log, AttemptEnv.fault n.env = .none ∧ deletesRows n = false ∧
      AttemptOp.solvedElsewhere n.before n.op = false ∧ asksLock n = false ∧
      AttemptOp.asksSolveCount n.op = false := by
    intro n hn
    have hn' := List.all_eq_true.mp h n hn
    simp only [AttemptOp.smooth, Bool.and_eq_true, decide_eq_true_iff,
      Bool.not_eq_true'] at hn'
    obtain ⟨⟨⟨⟨h₁, h₂⟩, h₃⟩, h₄⟩, h₅⟩ := hn'
    exact ⟨h₁, h₂, h₃, h₄, h₅⟩
  refine ⟨fun n hn => (hsmooth n hn).2.1, fun n hn _ hlost => hlost.2 (hsmooth n hn).1,
    fun n hn _ helse => ?_, fun n hn _ hfails => ?_, fun pid n hn => ?_⟩
  · rw [solvedElsewhere, (hsmooth n hn).2.2.1] at helse
    cases helse
  · rcases hfails.2 with hf | hf
    · exact hf (hsmooth n hn).1
    · rw [(hsmooth n hn).2.2.2.2] at hf
      cases hf
  · obtain ⟨hmem, hasks⟩ := lastAsk_mem hn
    rw [(hsmooth n (Service.mem_own.mp hmem).1).2.2.2.1] at hasks
    cases hasks

/-- Two right answers at the same time: both find no solve, one is stored, and the other is
answered 'already solved'. -/
theorem creditedOnce_example :
    ∃ log w, Service.runLogged Service.anyLogged []
        ((attempts defaultAttemptConfig).start (attemptWorld oneTryChallenge))
        (Service.callNow 0 rightAnswer calmAttempt 6 ++
          Service.callNow 1 rightAnswer calmAttempt 6 ++
          [.act 0 calmAttempt, .act 1 calmAttempt, .act 0 calmAttempt]) = some (log, w) ∧
      Service.Finished w 0 rightAnswer rightReply ∧
      Service.Finished w 1 rightAnswer (.ok .alreadySolved) ∧ CreditedOnce 7 5 log w := by
  have hrun : (Service.runLogged Service.anyLogged []
      ((attempts defaultAttemptConfig).start (attemptWorld oneTryChallenge))
      (Service.callNow 0 rightAnswer calmAttempt 6 ++
        Service.callNow 1 rightAnswer calmAttempt 6 ++
        [.act 0 calmAttempt, .act 1 calmAttempt, .act 0 calmAttempt])).any
      (fun p => decide (Service.answer p.2 0 = some ⟨rightAnswer, rightReply⟩) &&
        decide (Service.answer p.2 1 = some ⟨rightAnswer, .ok .alreadySolved⟩) &&
        p.1.all fun n => AttemptOp.smooth n.env n.before n.op) = true := by
    decide +kernel
  obtain ⟨⟨log, w⟩, hw, hall⟩ := (Option.any_eq_true _ _).mp hrun
  obtain ⟨hboth, hsmooth⟩ := Bool.and_eq_true_iff.mp hall
  obtain ⟨hfirst, hsecond⟩ := Bool.and_eq_true_iff.mp hboth
  exact ⟨log, w, hw, Service.finished_of_answer (of_decide_eq_true hfirst),
    Service.finished_of_answer (of_decide_eq_true hsecond),
    creditedOnce_of_cleanRun defaultAttemptConfig 7 5 (attemptWorld oneTryChallenge) rfl rfl
      log w (Service.records_of_runLogged .refl hw) (cleanRun_of_smooth hsmooth)⟩

/-- **Nobody is told.** The only right answer to a challenge whose value decays is stored,
and its request raises: the team has a solve, and no request was answered to be correct. -/
theorem not_creditedOnce :
    ∃ log w, Service.Records Service.anyLogged
        ((attempts defaultAttemptConfig).start (attemptWorld decayingChallenge)) log w ∧
      Service.Quiescent w ∧ w.shared.solveCount 7 5 = 1 ∧ ¬CreditedOnce 7 5 log w := by
  have hrun : (Service.runLogged Service.anyLogged []
      ((attempts defaultAttemptConfig).start (attemptWorld decayingChallenge))
      (Service.callNow 0 rightAnswer calmAttempt 11)).any
      (fun p => decide (Service.answer p.2 0 = some ⟨rightAnswer, .error .invalidOperation⟩) &&
        decide (p.2.procs.length = 1) && decide (p.2.shared.solveCount 7 5 = 1) &&
        Service.atRest p.2 &&
        (Service.own p.1 0).any fun n => verdict defaultAttemptConfig 7 5 n = some true) =
          true := by
    decide +kernel
  obtain ⟨⟨log, w⟩, hw, hall⟩ := (Option.any_eq_true _ _).mp hrun
  simp only [Bool.and_eq_true, decide_eq_true_iff] at hall
  obtain ⟨⟨⟨⟨hanswer, hlength⟩, hcount⟩, hrest⟩, htold⟩ := hall
  have hfinished := Service.finished_of_answer hanswer
  have hquiet := Service.quiescent_of_atRest hrest
  refine ⟨log, w, Service.records_of_runLogged .refl hw, hquiet, hcount, fun h => ?_⟩
  obtain ⟨n, hn, hv⟩ := List.any_eq_true.mp htold
  obtain ⟨-, pid, ⟨c, r, hr, -, hcredited⟩, -⟩ :=
    h.one hquiet ⟨0, n, hn, of_decide_eq_true hv⟩
  -- there is only this request
  have hlt : pid < w.procs.length := (List.getElem?_eq_some_iff.mp hr).1
  obtain rfl : pid = 0 := by omega
  obtain ⟨-, hret⟩ := Prod.mk.inj (Option.some.inj (hr.symm.trans hfinished))
  obtain ⟨a, rfl, -⟩ := hcredited
  cases hret

end Fctf
