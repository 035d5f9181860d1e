import Fctf.AttemptCap

/-!
# The Tries a Team Has Left

A team with `k` wrong answers stored has `n - k` tries left for a challenge with
`MaxAttempts` of `n`. The endpoint refuses a wrong answer when either the stored answers or
the counter in Redis reach `n`, so the team has all its tries only as long as the counter
does not exceed the stored answers. Nothing ever lowers the counter: an answer counted and
then not stored is lost to the team, and so are those an administrator deletes.

## Main results

* `serve_spec`: what one wrong answer does to the account of a team at rest.
* `hasTries_of_keepsBacked`: in every run that keeps the counter backed the team has
  exactly the tries that are left.
* `not_hasTries`: a run after which it has not.
-/

open Concurrent RedisDb

namespace Fctf

/-! ### Requests one after the other -/

/-- A request served while no other is in flight. -/
def serve (cfg : AttemptConfig) (req : ChallengeAttemptRequest) (w : AttemptWorld) :
    Except Exn AttemptResponse × AttemptWorld :=
  (attempt cfg req).eval (AttemptOp.exec calmAttempt) w

/-- The answers to requests that come one after the other, each after a move of the
surroundings. -/
def serveAll (cfg : AttemptConfig) :
    List (AttemptMove × ChallengeAttemptRequest) → AttemptWorld →
      List (Except Exn AttemptResponse)
  | [], _ => []
  | (m, req) :: rest, w =>
      (serve cfg req (m.apply w)).1 :: serveAll cfg rest (serve cfg req (m.apply w)).2

/-- The team has `tries` tries left: of wrong answers that come one after the other, as
many are accepted, and the others are refused. -/
def HasTries (cfg : AttemptConfig) (contestId id t n tries : ℤ) (w : AttemptWorld) : Prop :=
  ∀ reqs : List (AttemptMove × ChallengeAttemptRequest),
    (∀ p ∈ reqs, p.2.challengeId = id ∧ p.2.teamId = t) →
    (∀ p ∈ reqs, ∀ tables, p.1 = .tables tables →
      tables.Fixes contestId id fun cc => attemptLimit cc = some n) →
    (∀ r ∈ serveAll cfg reqs w, Accepted r ∨ Refused r) →
    ∀ (i : ℕ) r, (serveAll cfg reqs w)[i]? = some r → (Accepted r ↔ (i : ℤ) < tries)

/-! ### One request -/

section Serve

variable {cfg : AttemptConfig} {contestId id t n : ℤ} {req : ChallengeAttemptRequest}

/-- The counter, if there is one, is a count of at most `k` answers. -/
def CountsUpTo (counter : Option ℤ) (k : ℤ) : Prop := ∀ c, counter = some c → 0 ≤ c ∧ c ≤ k

/-- What is known of the account while a request of the team is served alone: `k` answers
were stored before it. -/
def Phase.owes (n : ℤ) (k : ℕ) (rows : ℕ) (counter : Option ℤ) : Phase → Prop
  | .start | .found _ => rows = k ∧ CountsUpTo counter k
  | .prechecked _ fails => rows = k ∧ CountsUpTo counter k ∧ fails = k
  | .missed _ => rows = k ∧ CountsUpTo counter k ∧ k < n
  | .recounted _ fails => rows = k ∧ CountsUpTo counter k ∧ k < n ∧ fails = k
  | .counted _ => rows = k ∧ CountsUpTo counter (k + 1) ∧ k < n
  | .stored _ => rows = k + 1 ∧ CountsUpTo counter (k + 1) ∧ k < n
  | .refused _ => False
  | _ => True

/-- Once a request has found the text to be right, it owes nothing. -/
theorem Phase.owes_next_of_right {q : Phase} (h : q.right = true) (o : AttemptOp)
    (r : Except Exn o.Reply) (k rows : ℕ) (counter : Option ℤ) :
    (q.next cfg req o r).owes n k rows counter := by
  have hright := @Phase.right_next cfg req q h o r
  generalize q.next cfg req o r = q' at hright
  rcases hright with hright | ⟨cc, rfl⟩ | rfl
  · cases q' with
    | matched cc | credited cc | waiting cc | broken cc | uncredited cc => trivial
    | _ => cases hright
  · trivial
  · trivial

/-- The phase after the comparison, as far as a wrong answer is counted. -/
theorem Phase.owes_afterCompare {cc : ContestsChallenge} {q : Phase} {k rows : ℕ}
    {counter : Option ℤ} (hq : q.owes n k rows counter) (hrows : rows = k)
    (hcounter : CountsUpTo counter k) (hlt : k < n) (flags : List Flag) :
    (Phase.afterCompare cfg req cc q flags).owes n k rows counter := by
  rw [Phase.afterCompare]
  split
  · split
    · trivial
    · exact ⟨hrows, hcounter, hlt⟩
  · exact hq

/-- The counter's script, in a request of the team that is served alone. -/
theorem Phase.owes_count {cc : ContestsChallenge} {w : AttemptWorld} {k : ℕ}
    {th fails : ℤ}
    (h : (Phase.recounted cc fails).owes n k (w.incorrectCount id t)
      (w.redis.getNum (attemptKey contestId id t))) :
    (Phase.next cfg req (.recounted cc fails) (countOp contestId id t n th fails)
        ((countOp contestId id t n th fails).exec calmAttempt w).1).owes n k
      (((countOp contestId id t n th fails).exec calmAttempt w).2.incorrectCount id t)
      (((countOp contestId id t n th fails).exec calmAttempt w).2.redis.getNum
        (attemptKey contestId id t)) := by
  obtain ⟨hrows, hcounter, hlt, rfl⟩ := h
  rw [exec_countOp]
  -- the script works with a count of at most `k`
  have hcurrent : 0 ≤ (w.redis.getNum (attemptKey contestId id t)).getD k ∧
      (w.redis.getNum (attemptKey contestId id t)).getD k ≤ k := by
    cases hc : w.redis.getNum (attemptKey contestId id t) with
    | none => exact ⟨Int.natCast_nonneg k, le_refl _⟩
    | some c => exact hcounter c hc
  have httl : (0 : ℤ) < 86400 := by decide
  obtain ⟨hle, -, -⟩ | ⟨-, hr, hc⟩ := checkAndIncrementScript_cases
    (attemptKey contestId id t) n th (k : ℤ) w.redis httl
  · omega
  · dsimp only [calmAttempt]
    rw [hr, hc]
    generalize (w.redis.getNum (attemptKey contestId id t)).getD k = current at hcurrent ⊢
    show (Phase.afterCount cc (current + 1)).owes n k _ _
    rw [Phase.afterCount, if_neg (by omega)]
    refine ⟨hrows, fun c hcc => ?_, hlt⟩
    obtain rfl := Option.some.inj hcc
    omega

/-- **One operation** of a request of the team that is served alone. -/
theorem Phase.owes_next {q : Phase} {o : AttemptOp} {w : AttemptWorld} {k : ℕ}
    (ho : Phase.allows req q o)
    (hk : Knows contestId id (fun cc => attemptLimit cc = some n) (.attempt req) q)
    (hid : req.challengeId = id) (ht : req.teamId = t)
    (h : q.owes n k (w.incorrectCount id t)
      (w.redis.getNum (attemptKey contestId id t))) :
    (q.next cfg req o (o.exec calmAttempt w).1).owes n k
      ((o.exec calmAttempt w).2.incorrectCount id t)
      ((o.exec calmAttempt w).2.redis.getNum (attemptKey contestId id t)) := by
  have hrows := incorrectCount_exec calmAttempt o w id t
  have hcounter := @getNum_exec cfg (.attempt req) q o ho calmAttempt w contestId id t
  -- the account of an operation that is about something else
  have hkeep : ∀ {q' : Phase},
      (o.exec calmAttempt w).2.incorrectCount id t = w.incorrectCount id t →
      (o.exec calmAttempt w).2.redis.getNum (attemptKey contestId id t) =
        w.redis.getNum (attemptKey contestId id t) →
      q'.owes n k (w.incorrectCount id t) (w.redis.getNum (attemptKey contestId id t)) →
      q'.owes n k ((o.exec calmAttempt w).2.incorrectCount id t)
        ((o.exec calmAttempt w).2.redis.getNum (attemptKey contestId id t)) := by
    intro q' h₁ h₂ hq'
    rw [h₁, h₂]
    exact hq'
  -- the challenge is the one the account is about
  have hchallenge : ∀ {cc : ContestsChallenge}, q.challenge = some cc →
      cc.id = id ∧ cc.contestId = req.contestId ∧ cc.contestId = contestId ∧
        attemptLimit cc = some n := by
    intro cc hcc
    obtain ⟨⟨h₁, h₂⟩, h₃⟩ := hk req cc rfl hcc
    exact ⟨h₁.trans hid, h₂, h₃ (h₁.trans hid)⟩
  cases q with
  | start =>
      cases o with
      | findUser u => exact h
      | findContestsChallenge id' contestId' =>
          obtain ⟨found, hfound⟩ : ∃ found,
              (AttemptOp.exec calmAttempt (.findContestsChallenge id' contestId') w).1 =
                .ok found := ⟨_, rfl⟩
          rw [hfound]
          cases found <;> exact h
      | _ => exact ho.elim
  | found cc =>
      obtain ⟨hcc, -, -, hlimit⟩ := hchallenge rfl
      cases o with
      | countIncorrect id' t' =>
          obtain ⟨rfl, rfl⟩ := ho
          refine ⟨h.1, h.2, ?_⟩
          rw [hcc, ht]
          exact congrArg Nat.cast h.1
      | findFlags bank =>
          have hnone : attemptLimit cc = none := ho
          rw [hlimit] at hnone
          cases hnone
      | redis o =>
          cases o with
          | utcNow => exact h
          | checkCooldown key now cooldown ttl => exact hkeep hrows hcounter h
          | _ => exact ho.elim
      | captainId u => exact h
      | contestChallengeIds c => exact h
      | solvedBankIds ids u => exact h
      | allBankIds c => exact h
      | isSolved id' t' =>
          obtain ⟨solved, hsolved⟩ : ∃ solved,
              (AttemptOp.exec calmAttempt (.isSolved id' t') w).1 = .ok solved := ⟨_, rfl⟩
          rw [hsolved]
          cases solved with
          | true => trivial
          | false => exact h
      | _ => exact ho.elim
  | prechecked cc fails =>
      obtain ⟨-, -, -, hlimit⟩ := hchallenge rfl
      cases o with
      | findFlags bank =>
          obtain ⟨m, hm, hlt⟩ := ho
          obtain rfl := Option.some.inj (hlimit.symm.trans hm)
          obtain ⟨hr, hc, rfl⟩ := h
          exact Phase.owes_afterCompare (q := .prechecked cc k) ⟨hr, hc, rfl⟩ hr hc hlt _
      | _ => exact ho.elim
  | missed cc =>
      obtain ⟨hcc, -, -, hlimit⟩ := hchallenge rfl
      cases o with
      | countIncorrect id' t' =>
          obtain ⟨rfl, rfl⟩ := ho
          refine ⟨h.1, h.2.1, h.2.2, ?_⟩
          rw [hcc, ht]
          exact congrArg Nat.cast h.1
      | addFail s =>
          have hnone : attemptLimit cc = none := ho.1
          rw [hlimit] at hnone
          cases hnone
      | redis o =>
          cases o with
          | utcNow => exact h
          | incr key => exact hkeep hrows hcounter h
          | timeToLive key => exact h
          | expire key ttl => exact hkeep hrows hcounter h
          | _ => exact ho.elim
      | _ => exact ho.elim
  | recounted cc fails =>
      obtain ⟨hcc, hreq, hcontest, hlimit⟩ := hchallenge rfl
      cases o with
      | redis o =>
          cases o with
          | checkAndIncrement key m th seed ttl =>
              obtain ⟨rfl, hm, rfl, rfl⟩ := ho
              obtain rfl := Option.some.inj (hlimit.symm.trans hm)
              obtain rfl := hcc
              obtain rfl := ht
              obtain rfl := hcontest
              rw [← hreq]
              exact Phase.owes_count h
          | _ => exact ho.elim
      | _ => exact ho.elim
  | counted cc =>
      obtain ⟨hcc, -, -, -⟩ := hchallenge rfl
      cases o with
      | addFail s =>
          obtain ⟨hs, hteam⟩ := ho
          refine ⟨?_, h.2⟩
          dsimp only at hrows
          rw [hrows, if_pos ⟨by decide, hs.trans hcc, hteam.trans ht⟩, h.1]
      | _ => exact ho.elim
  | stored cc =>
      cases o with
      | redis o =>
          cases o with
          | keyExists key => exact h
          | _ => exact ho.elim
      | forceStop id' t' => exact h
      | saveActionLogs a u id' => exact h
      | _ => exact ho.elim
  | refused cc => exact h.elim
  | failed => cases o <;> exact ho.elim
  | solved cc => cases o <;> exact ho.elim
  | _ => exact Phase.owes_next_of_right rfl o _ _ _ _

/-- **A request of the team that is served alone**, when the counter does not exceed the
answers stored: a wrong answer is accepted and stored if they are less than the limit, and
refused if not. -/
theorem serve_spec {w : AttemptWorld} {k : ℕ} (hid : req.challengeId = id)
    (ht : req.teamId = t)
    (hfix : w.tables.Fixes contestId id fun cc => attemptLimit cc = some n)
    (hrows : w.incorrectCount id t = k)
    (hcounter : CountsUpTo (w.redis.getNum (attemptKey contestId id t)) k) :
    let w' := (serve cfg req w).2
    (w'.tables.Fixes contestId id fun cc => attemptLimit cc = some n) ∧
      (Accepted (serve cfg req w).1 → k < n ∧ w'.incorrectCount id t = k + 1 ∧
        CountsUpTo (w'.redis.getNum (attemptKey contestId id t)) (k + 1)) ∧
      (Refused (serve cfg req w).1 → n ≤ k ∧ w'.incorrectCount id t = k ∧
        CountsUpTo (w'.redis.getNum (attemptKey contestId id t)) k) := by
  let J := fun (q : Phase) (w : AttemptWorld) =>
    (w.tables.Fixes contestId id fun cc => attemptLimit cc = some n) ∧
      Knows contestId id (fun cc => attemptLimit cc = some n) (.attempt req) q ∧
      q.owes n k (w.incorrectCount id t) (w.redis.getNum (attemptKey contestId id t))
  have hstep : ∀ q o w, (attemptProtocol cfg req).allows q o → J q w →
      J ((attemptProtocol cfg req).next q o (o.exec calmAttempt w).1)
        (o.exec calmAttempt w).2 := by
    rintro q o w ho ⟨hfix, hk, howes⟩
    exact ⟨@AttemptTables.Fixes.exec _ _ _ cfg (.attempt req) q w hfix hk (fun _ _ h => h) _ o ho,
      @Knows.next _ _ _ cfg (.attempt req) q o hk w hfix ho calmAttempt,
      Phase.owes_next ho hk hid ht howes⟩
  obtain ⟨q, ⟨hfix', hk, howes⟩, hanswers⟩ := (follows_attempt cfg req).eval
    (J := J) ⟨hfix, knows_start _, hrows, hcounter⟩ hstep
  refine ⟨hfix', fun haccepted => ?_, fun hrefused => ?_⟩
  · obtain ⟨cc, rfl⟩ := stored_of_accepted hanswers haccepted
    exact ⟨howes.2.2, howes.1, howes.2.1⟩
  · obtain ⟨cc, fails, m, rfl, hm, hle⟩ | ⟨cc, rfl⟩ := limited_of_refused hanswers hrefused
    · obtain ⟨hcc, hlimit⟩ := hk req cc rfl rfl
      obtain rfl := Option.some.inj (hm.symm.trans (hlimit (hcc.1.trans hid)).2)
      obtain ⟨hr, hc, rfl⟩ := howes
      exact ⟨hle, hr, hc⟩
    · exact howes.elim

/-- **The tries of a team at rest**, when the counter does not exceed the answers stored. -/
theorem hasTries {w : AttemptWorld} {k : ℕ}
    (hfix : w.tables.Fixes contestId id fun cc => attemptLimit cc = some n)
    (hrows : w.incorrectCount id t = k)
    (hcounter : CountsUpTo (w.redis.getNum (attemptKey contestId id t)) k) :
    HasTries cfg contestId id t n (n - k) w := by
  intro reqs hown htables hanswers i r hr
  induction reqs generalizing w k i with
  | nil => cases hr
  | cons p rest ih =>
      obtain ⟨m, req⟩ := p
      obtain ⟨⟨hid, ht⟩, hown⟩ := List.forall_mem_cons.mp hown
      obtain ⟨hm, htables⟩ := List.forall_mem_cons.mp htables
      obtain ⟨hfirst, hanswers⟩ := List.forall_mem_cons.mp hanswers
      have hfix₁ : (m.apply w).tables.Fixes contestId id fun cc => attemptLimit cc = some n := by
        cases m with
        | tables tables => exact hm tables rfl
        | _ => exact hfix
      have hcounter₁ : CountsUpTo ((m.apply w).redis.getNum (attemptKey contestId id t)) k := by
        rcases getNum_ambient m w (attemptKey contestId id t) with hn | hn <;> rw [hn]
        · exact fun c hc => nomatch hc
        · exact hcounter
      obtain ⟨hfix', haccepted, hrefused⟩ := @serve_spec cfg _ _ _ _ _ _ _ hid ht hfix₁
        ((incorrectCount_ambient m w id t).trans hrows) hcounter₁
      rcases hfirst with hfirst | hfirst
      · obtain ⟨hlt, hrows', hcounter'⟩ := haccepted hfirst
        cases i with
        | zero =>
            obtain rfl := Option.some.inj hr
            exact iff_of_true hfirst (by omega)
        | succ i =>
            have hrest := ih hfix' hrows' hcounter' hown htables hanswers i hr
            rw [hrest]
            omega
      · obtain ⟨hle, hrows', hcounter'⟩ := hrefused hfirst
        cases i with
        | zero =>
            obtain rfl := Option.some.inj hr
            refine iff_of_false ?_ (by omega)
            rintro ⟨a, ha, hhttp, -⟩
            obtain rfl := Except.ok.inj (hfirst.symm.trans ha)
            cases hhttp
        | succ i =>
            have hrest := ih hfix' hrows' hcounter' hown htables hanswers i hr
            rw [hrest]
            omega

end Serve

/-! ### Runs -/

variable {cfg : AttemptConfig} {contestId id t n : ℤ}

/-- The condition on a step: a wrong answer that is counted is stored, a missing counter is
restored from answers that are stored, answers are deleted only if none is counted, and the
limit of the challenge is not changed. -/
def KeepsBacked (contestId id t n : ℤ) (w : (attempts cfg).Pool) : (attempts cfg).Move → Prop
  | .spawn _ => True
  | .act pid e =>
      match w.procs[pid]? with
      | some (_, .call o _) => (account contestId id t w).Returns (accountMove contestId id t e o)
      | _ => True
  | .ambient (.tables tables) =>
      tables.Fixes contestId id fun cc => attemptLimit cc = some n
  | .ambient _ => True

instance decidableReturns (a : Account) (m : AccountMove) : Decidable (a.Returns m) :=
  match m with
  | .count _ => inferInstanceAs (Decidable (_ → _))
  | .reset => inferInstanceAs (Decidable (_ ≤ _))
  | .drop | .countLost _ => .isFalse fun h => h
  | .stay | .store => .isTrue trivial

instance (w : (attempts cfg).Pool) (m : (attempts cfg).Move) :
    Decidable (KeepsBacked contestId id t n w m) := by
  unfold KeepsBacked
  induction m using Service.Move.casesOn with
  | spawn c => dsimp only; infer_instance
  | act pid e =>
      dsimp only
      generalize w.procs[pid]? = found
      rcases found with _ | ⟨c, _ | ⟨o, k⟩⟩ <;> dsimp only <;> infer_instance
  | ambient x => induction x using AttemptMove.casesOn <;> dsimp only <;> infer_instance

/-- **The tries a team has left.** In every run that keeps the counter backed, whenever no
request is in flight, the team has as many tries left as its stored answers leave. -/
theorem hasTries_of_keepsBacked (cfg : AttemptConfig) (contestId id t n : ℤ)
    (s₀ : AttemptWorld)
    (hlimit : s₀.tables.Fixes contestId id fun cc => attemptLimit cc = some n)
    (hcounter : CountsUpTo (s₀.redis.getNum (attemptKey contestId id t))
      (s₀.incorrectCount id t))
    (w : (attempts cfg).Pool)
    (h : Service.Reaches (KeepsBacked contestId id t n) ((attempts cfg).start s₀) w)
    (hrest : Service.Quiescent w) :
    HasTries cfg contestId id t n (n - w.shared.incorrectCount id t) w.shared := by
  have hinv : (w.shared.tables.Fixes contestId id fun cc => attemptLimit cc = some n) ∧
      (account contestId id t w).Backed := by
    refine account_invariant h hlimit ?_ (fun _ _ hg => hg) ?_
      fun a counter ha hc => ha.expire hc
    · intro c hc
      have hle := hcounter c hc
      have hheld : (account contestId id t ((attempts cfg).start s₀)).held = 0 := rfl
      rw [hheld]
      exact ⟨hle.1, hle.2.trans (le_of_eq (Int.add_zero _).symm)⟩
    · intro w pid e c o k ha hp hg
      refine ha.apply ?_ (held_pos hp)
      have hp' : w.procs[pid]? = some (c, .call o k) := hp
      simpa only [KeepsBacked, hp'] using hg
  obtain ⟨hfix, hbacked⟩ := hinv
  refine hasTries hfix rfl fun c hc => ?_
  have hle := hbacked c hc
  rw [held_eq_zero hrest] at hle
  exact ⟨hle.1, hle.2.trans (le_of_eq (Int.add_zero _))⟩

/-- After one wrong answer to a challenge with one try there are no tries left. -/
theorem hasTries_example :
    ∃ w, Service.runIf (KeepsBacked 1 7 5 1)
        ((attempts defaultAttemptConfig).start (attemptWorld oneTryChallenge))
        (Service.callNow 0 wrongAnswer calmAttempt 13) = some w ∧
      w.shared.incorrectCount 7 5 = 1 ∧
      HasTries defaultAttemptConfig 1 7 5 1 (1 - w.shared.incorrectCount 7 5) w.shared := by
  have hrun : (Service.runIf (KeepsBacked 1 7 5 1)
      ((attempts defaultAttemptConfig).start (attemptWorld oneTryChallenge))
      (Service.callNow 0 wrongAnswer calmAttempt 13)).any
      (fun w => decide (w.shared.incorrectCount 7 5 = 1) && Service.atRest w) = true := by
    decide +kernel
  obtain ⟨w, hw, hboth⟩ := (Option.any_eq_true _ _).mp hrun
  obtain ⟨hone, hrest⟩ := Bool.and_eq_true_iff.mp hboth
  refine ⟨w, hw, of_decide_eq_true hone, ?_⟩
  exact hasTries_of_keepsBacked defaultAttemptConfig 1 7 5 1 _ (by decide)
    (fun c hc => by cases hc) w (Service.reaches_of_runIf hw) (Service.quiescent_of_atRest hrest)

/-- **The counter is never lowered.** A wrong answer is stored and then deleted with all the
others; the team has no wrong answer stored, and its next one is refused. -/
theorem not_hasTries :
    ∃ w, Service.Reaches Service.anyMove
        ((attempts defaultAttemptConfig).start (attemptWorld oneTryChallenge)) w ∧
      Service.Quiescent w ∧ w.shared.incorrectCount 7 5 = 0 ∧
      ¬HasTries defaultAttemptConfig 1 7 5 1 (1 - w.shared.incorrectCount 7 5) w.shared := by
  have hrun : (Service.run
      ((attempts defaultAttemptConfig).start (attemptWorld oneTryChallenge))
      (Service.callNow 0 wrongAnswer calmAttempt 13 ++
        Service.callNow 1 AttemptCall.reset calmAttempt 1)).any
      (fun w => decide (w.shared.incorrectCount 7 5 = 0) && Service.atRest w &&
        decide (serveAll defaultAttemptConfig
          [(.tick 0, ⟨9, 5, 1, 7, some [0x78#16]⟩)] w.shared = [.ok .noTries])) = true := by
    decide +kernel
  obtain ⟨w, hw, hall⟩ := (Option.any_eq_true _ _).mp hrun
  obtain ⟨hboth, hanswer⟩ := Bool.and_eq_true_iff.mp hall
  obtain ⟨hzero, hrest⟩ := Bool.and_eq_true_iff.mp hboth
  refine ⟨w, Service.reaches_of_run hw, Service.quiescent_of_atRest hrest, of_decide_eq_true hzero, ?_⟩
  intro htries
  rw [of_decide_eq_true hzero] at htries
  have hanswers := of_decide_eq_true hanswer
  have hiff := htries [(.tick 0, ⟨9, 5, 1, 7, some [0x78#16]⟩)] (by simp) (by simp)
    (by rw [hanswers]; exact fun r hr => .inr (List.mem_singleton.mp hr)) 0 (.ok .noTries)
    (by rw [hanswers]; rfl)
  obtain ⟨a, ha, hhttp, -⟩ := hiff.mpr (by decide)
  obtain rfl := Except.ok.inj ha
  cases hhttp

end Fctf
