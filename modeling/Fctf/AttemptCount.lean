import Fctf.AttemptService

/-!
# The Account of Wrong Answers

What a team's limit of wrong answers to a challenge rests on are three numbers: the wrong
answers stored, the counter in Redis, and the requests that have counted a wrong answer and
not stored it yet. `Account` is the abstract machine of these numbers. Each operation of
the service is one of its moves.

## Main results

* `Account.Covered.apply`, `Account.Backed.apply`: what a move preserves.
* `account_act`, `account_ambient`: each step of the service moves the account as
  `accountMove` says.
-/

open Concurrent RedisDb

namespace Fctf

/-! ### The abstract machine -/

/-- A team's wrong answers to a challenge. -/
structure Account where
  /-- How many are stored. -/
  rows : ℕ
  /-- How many are counted and will be stored. -/
  held : ℕ
  /-- The counter. -/
  counter : Option ℤ
  deriving DecidableEq, Repr

attribute [ext] Account

/-- What can happen to an account. -/
inductive AccountMove where
  /-- Nothing. -/
  | stay
  /-- A wrong answer that was counted is stored. -/
  | store
  /-- It is lost. -/
  | drop
  /-- A wrong answer is counted; a missing counter starts from `seed`. -/
  | count (seed : ℤ)
  /-- It is counted, but its request does not learn of it. -/
  | countLost (seed : ℤ)
  /-- The stored answers are deleted. -/
  | reset
  deriving DecidableEq

/-- The account after a move, under the limit `n`. -/
def AccountMove.apply (n : ℤ) (a : Account) : AccountMove → Account
  | .stay => a
  | .store => { a with rows := a.rows + 1, held := a.held - 1 }
  | .drop => { a with held := a.held - 1 }
  | .count seed =>
      if n ≤ a.counter.getD seed then { a with counter := some (a.counter.getD seed) }
      else
        { a with
          -- the script's answer -1 means that the answer was not counted
          held := if a.counter.getD seed + 1 = -1 then a.held else a.held + 1
          counter := some (a.counter.getD seed + 1) }
  | .countLost seed =>
      if n ≤ a.counter.getD seed then { a with counter := some (a.counter.getD seed) }
      else { a with counter := some (a.counter.getD seed + 1) }
  | .reset => { a with rows := 0 }

namespace Account

/-- The counter covers the answers stored and to be stored, and the limit does. -/
structure Covered (n : ℤ) (a : Account) : Prop where
  /-- The limit is kept. -/
  limit : (a.rows + a.held : ℤ) ≤ n
  /-- The counter is not too low. -/
  counter : ∀ c, a.counter = some c → (a.rows + a.held : ℤ) ≤ c

/-- The counter is backed by answers stored or to be stored. -/
def Backed (a : Account) : Prop :=
  ∀ c, a.counter = some c → 0 ≤ c ∧ c ≤ a.rows + a.held

variable {n : ℤ} {a : Account}

/-- A counter that is missing is restored from a count that covers the answers. -/
def SeedCovers (a : Account) : AccountMove → Prop
  | .count seed => a.counter = none → (a.rows + a.held : ℤ) ≤ seed
  | .countLost seed => a.counter = none → (a.rows + a.held : ℤ) ≤ seed
  | _ => True

/-- What the counter is taken to be covers the answers. -/
theorem Covered.le_getD (h : a.Covered n) {seed : ℤ}
    (hs : a.counter = none → (a.rows + a.held : ℤ) ≤ seed) :
    (a.rows + a.held : ℤ) ≤ a.counter.getD seed := by
  cases hc : a.counter with
  | none => exact hs hc
  | some c => exact h.counter c hc

/-- An account is covered by another counter that covers it. -/
theorem Covered.with_counter (h : a.Covered n) {c : ℤ} (hc : (a.rows + a.held : ℤ) ≤ c) :
    Covered n { a with counter := some c } := by
  refine ⟨h.limit, fun c' hc' => ?_⟩
  obtain rfl := Option.some.inj hc'
  exact hc

/-- **A move keeps the limit**, if a missing counter is restored from a count that covers
the answers. -/
theorem Covered.apply (h : a.Covered n) {m : AccountMove} (hs : a.SeedCovers m)
    (hheld : m = .store → 0 < a.held) : Covered n (m.apply n a) := by
  cases m with
  | stay => exact h
  | store =>
      have hpos := hheld rfl
      have hlimit := h.limit
      refine ⟨?_, fun c hc => ?_⟩
      · simp only [AccountMove.apply]
        omega
      · have hle := h.counter c hc
        simp only [AccountMove.apply]
        omega
  | drop =>
      have hlimit := h.limit
      refine ⟨?_, fun c hc => ?_⟩
      · simp only [AccountMove.apply]
        omega
      · have hle := h.counter c hc
        simp only [AccountMove.apply]
        omega
  | count seed =>
      have hle := h.le_getD hs
      have hlimit := h.limit
      simp only [AccountMove.apply]
      by_cases hn : n ≤ a.counter.getD seed
      · rw [if_pos hn]
        exact h.with_counter hle
      · rw [if_neg hn]
        refine ⟨?_, fun c hc => ?_⟩
        · dsimp only
          split <;> omega
        · obtain rfl := Option.some.inj hc
          dsimp only
          split <;> omega
  | countLost seed =>
      have hle := h.le_getD hs
      simp only [AccountMove.apply]
      split
      · exact h.with_counter hle
      · exact h.with_counter (by omega)
  | reset =>
      have hlimit := h.limit
      refine ⟨?_, fun c hc => ?_⟩
      · simp only [AccountMove.apply]
        omega
      · have hle := h.counter c hc
        simp only [AccountMove.apply]
        omega

/-- The loss of the counter keeps the limit. -/
theorem Covered.expire (h : a.Covered n) {counter : Option ℤ}
    (hc : counter = none ∨ counter = a.counter) : Covered n { a with counter := counter } := by
  refine ⟨h.limit, fun c hcc => ?_⟩
  rcases hc with rfl | rfl
  · cases hcc
  · exact h.counter c hcc

/-- What is counted is stored, and a counter is restored from answers that are stored. -/
def Returns (a : Account) : AccountMove → Prop
  | .drop => False
  | .count seed => a.counter = none → 0 ≤ seed ∧ seed ≤ a.rows + a.held
  | .countLost _ => False
  | .reset => a.counter.getD 0 ≤ a.held
  | _ => True

/-- **A move keeps the counter backed**, if what is counted is stored. -/
theorem Backed.apply (h : a.Backed) {m : AccountMove} (hm : a.Returns m)
    (hheld : m = .store → 0 < a.held) : (m.apply n a).Backed := by
  cases m with
  | stay => exact h
  | store =>
      intro c hc
      have hpos := hheld rfl
      have hle := h c hc
      simp only [AccountMove.apply]
      omega
  | drop => exact hm.elim
  | count seed =>
      have hle : 0 ≤ a.counter.getD seed ∧ a.counter.getD seed ≤ a.rows + a.held := by
        cases hc : a.counter with
        | none => exact hm hc
        | some c => exact h c hc
      simp only [AccountMove.apply]
      by_cases hn : n ≤ a.counter.getD seed
      · rw [if_pos hn]
        rintro c hc
        obtain rfl := Option.some.inj hc
        exact hle
      · rw [if_neg hn]
        rintro c hc
        obtain rfl := Option.some.inj hc
        dsimp only
        split <;> omega
  | countLost seed => exact hm.elim
  | reset =>
      intro c hc
      have hle : a.counter.getD 0 ≤ a.held := hm
      have hc' : a.counter = some c := hc
      have hpos := h c hc
      rw [hc', Option.getD_some] at hle
      simp only [AccountMove.apply]
      omega

/-- The loss of the counter leaves nothing to back. -/
theorem Backed.expire (h : a.Backed) {counter : Option ℤ}
    (hc : counter = none ∨ counter = a.counter) : Backed { a with counter := counter } := by
  rintro c hcc
  rcases hc with rfl | rfl
  · cases hcc
  · exact h c hcc

end Account

/-! ### The service's account -/

section Service

variable {cfg : AttemptConfig}

/-- A request that stores a wrong answer of the team to the challenge next. -/
def ownFail (id t : ℤ) (p : AttemptCall × Prog attemptI Exn AttemptResponse) : Bool :=
  match p.2 with
  | .call (.addFail s) _ => decide (s.contestChallengeId = id ∧ s.teamId = t)
  | _ => false

/-- The account of a team and a challenge. -/
def account (contestId id t : ℤ) (w : (attempts cfg).Pool) : Account where
  rows := w.shared.incorrectCount id t
  held := Service.count (ownFail id t) w
  counter := w.shared.redis.getNum (attemptKey contestId id t)

/-- What an operation is for the account. -/
def accountMove (contestId id t : ℤ) (e : AttemptEnv) : AttemptOp → AccountMove
  | .addFail s =>
      if s.contestChallengeId = id ∧ s.teamId = t then
        if e.fault = .before then .drop else .store
      else .stay
  | .redis (.checkAndIncrement key _ _ seed _) =>
      if key = attemptKey contestId id t then
        match e.fault with
        | .before => .stay
        | .after => .countLost seed
        | .none => .count seed
      else .stay
  | .resetSubmissions => if e.fault = .before then .stay else .reset
  | _ => .stay

/-- The wrong answers stored after an operation. -/
theorem incorrectCount_exec (e : AttemptEnv) (o : AttemptOp) (w : AttemptWorld) (id t : ℤ) :
    (o.exec e w).2.incorrectCount id t =
      match o with
      | .addFail s =>
          if e.fault ≠ .before ∧ s.contestChallengeId = id ∧ s.teamId = t then
            w.incorrectCount id t + 1
          else w.incorrectCount id t
      | .resetSubmissions => if e.fault = .before then w.incorrectCount id t else 0
      | _ => w.incorrectCount id t := by
  rw [AttemptWorld.incorrectCount, AttemptOp.exec_submissions]
  cases o with
  | addFail s =>
      dsimp only
      by_cases hf : e.fault = .before
      · rw [if_pos hf, if_neg fun h => h.1 hf]
        rfl
      · rw [if_neg hf, List.countP_append, List.countP_singleton]
        by_cases hs : s.contestChallengeId = id ∧ s.teamId = t
        · rw [if_pos (And.intro hf hs), if_pos (by simp [NewSubmission.row, hs])]
          rfl
        · rw [if_neg (fun h => hs h.2 : ¬(_ ∧ _)), if_neg (by simpa [NewSubmission.row] using hs)]
          rfl
  | addSolve s =>
      dsimp only
      split
      · rfl
      · rw [List.countP_append, List.countP_singleton, if_neg (by simp [NewSubmission.row])]
        rfl
  | resetSubmissions =>
      dsimp only
      split
      · rfl
      · rfl
  | _ => rfl

section Step

variable {contestId id t n : ℤ}

/-- Only a request that has counted its wrong answer stores one for a challenge with a
limit. -/
theorem ownFail_iff {c : AttemptCall} {q : Phase} {p : Prog attemptI Exn AttemptResponse}
    (h : p.Follows (callProtocol cfg c) (callAnswers c) q)
    (hk : Knows contestId id (fun cc => attemptLimit cc = some n) c q) :
    ownFail id t (c, p) = true ↔
      ∃ req cc, c = .attempt req ∧ q = .counted cc ∧ cc.id = id ∧ req.teamId = t := by
  constructor
  · intro hown
    unfold ownFail at hown
    split at hown
    · next s k heq =>
        obtain rfl : p = .call (.addFail s) k := heq
        obtain ⟨hid, ht⟩ := of_decide_eq_true hown
        have ho := h.1
        cases c with
        | editSubmission id => cases ho
        | reset => cases ho
        | attempt req =>
            cases q with
            | missed cc =>
                obtain ⟨hlimit, hrow, -⟩ := ho
                obtain ⟨-, hcc⟩ := hk req cc rfl rfl
                obtain ⟨-, hn⟩ := hcc (hrow.symm.trans hid)
                rw [hn] at hlimit
                cases hlimit
            | counted cc =>
                obtain ⟨hrow, hteam⟩ := ho
                exact ⟨req, cc, rfl, rfl, hrow.symm.trans hid, hteam.symm.trans ht⟩
            | credited cc => rcases ho with ho | ho <;> exact ho.elim
            | _ => exact ho.elim
    · cases hown
  · rintro ⟨req, cc, rfl, rfl, hid, ht⟩
    cases p with
    | ret r => exact h.elim
    | call o k =>
        have ho := h.1
        cases o with
        | addFail s =>
            obtain ⟨hrow, hteam⟩ := ho
            exact decide_eq_true ⟨hrow.trans hid, hteam.trans ht⟩
        | _ => exact ho.elim

/-- A request has counted its wrong answer after the counter's script only. -/
theorem recounted_of_next {req : ChallengeAttemptRequest} {q : Phase} {o : AttemptOp}
    {r : Except Exn o.Reply} {cc : ContestsChallenge} (ho : Phase.allows req q o)
    (h : Phase.next cfg req q o r = .counted cc) :
    ∃ fails result, q = .recounted cc fails ∧ countResult o r = some result ∧
      result ≠ -1 := by
  have hstep := Phase.step_next cfg req q o r
  rw [h] at hstep
  generalize hq' : Phase.counted cc = q' at hstep
  cases hstep with
  | stay =>
      -- nothing but the insertion follows a count
      subst hq'
      cases o with
      | addFail s => cases r <;> cases h
      | _ => exact ho.elim
  | count cc' fails result ho' =>
      rw [Phase.afterCount] at hq'
      split at hq'
      · cases hq'
      · next hr =>
          obtain rfl := Phase.counted.inj hq'
          exact ⟨fails, result, rfl, ho', hr⟩
  | lock cc q key lockFree hq ho hr => cases lockFree <;> cases hq'
  | compare cc q b hq ho => cases b <;> cases hq'
  | insertSolve cc s ho hr => split at hq' <;> cases hq'
  | insertFail cc q s hq ho => split at hq' <;> cases hq'
  | _ => cases hq'

/-- The requests that hold a count, after one of them took a step. -/
theorem held_act (id t : ℤ) {w : (attempts cfg).Pool} {pid : ℕ} {c : AttemptCall} {o : AttemptOp}
    {k : Except Exn o.Reply → Prog attemptI Exn AttemptResponse}
    (hp : Service.Pending w pid c o k) (s : AttemptWorld) (r : Except Exn o.Reply) :
    Service.count (ownFail id t) ⟨s, w.procs.set pid (c, k r)⟩ +
        (ownFail id t (c, .call o k)).toNat =
      Service.count (ownFail id t) w + (ownFail id t (c, k r)).toNat :=
  Service.count_set hp

section Act

variable {e : AttemptEnv} {c : AttemptCall} {o : AttemptOp}
  {k : Except Exn o.Reply → Prog attemptI Exn AttemptResponse} {q : Phase} {w : AttemptWorld}

/-- After which answers of the counter's script a request holds a count. -/
theorem ownFail_act_iff
    (hf : (Prog.call o k).Follows (callProtocol cfg c) (callAnswers c) q)
    (hfix : w.tables.Fixes contestId id fun cc => attemptLimit cc = some n)
    (hk : Knows contestId id (fun cc => attemptLimit cc = some n) c q) :
    ownFail id t (c, k (o.exec e w).1) = true ↔
      ∃ req cc fails result, c = .attempt req ∧ q = .recounted cc fails ∧ cc.id = id ∧
        req.teamId = t ∧ countResult o (o.exec e w).1 = some result ∧ result ≠ -1 := by
  rw [ownFail_iff (hf.2 _) (hk.next hfix hf.1 e)]
  constructor
  · rintro ⟨req, cc, rfl, hq, hid, ht⟩
    obtain ⟨fails, result, rfl, hr, hne⟩ := recounted_of_next hf.1 hq
    exact ⟨req, cc, fails, result, rfl, rfl, hid, ht, hr, hne⟩
  · rintro ⟨req, cc, fails, result, rfl, rfl, hid, ht, hr, hne⟩
    refine ⟨req, cc, rfl, ?_, hid, ht⟩
    have ho := hf.1
    cases o with
    | redis o =>
        cases o with
        | checkAndIncrement key m th seed ttl =>
            show Phase.next cfg req (.recounted cc fails) _ _ = _
            generalize (AttemptOp.exec e _ w).1 = r at hr
            cases r with
            | error e => cases hr
            | ok result' =>
                obtain rfl := Option.some.inj hr
                exact if_neg hne
        | _ => exact ho.elim
    | _ => exact ho.elim

/-- No other operation gets a request to hold a count. -/
theorem ownFail_act_eq_false
    (hf : (Prog.call o k).Follows (callProtocol cfg c) (callAnswers c) q)
    (hfix : w.tables.Fixes contestId id fun cc => attemptLimit cc = some n)
    (hk : Knows contestId id (fun cc => attemptLimit cc = some n) c q)
    (ho : countResult o (o.exec e w).1 = none) :
    ownFail id t (c, k (o.exec e w).1) = false := by
  rw [Bool.eq_false_iff]
  intro h
  obtain ⟨_, _, _, _, _, _, _, _, hr, _⟩ := (ownFail_act_iff hf hfix hk).mp h
  rw [ho] at hr
  cases hr

end Act

/-- A wrong answer to the challenge is stored, or lost. -/
theorem account_addFail {w : (attempts cfg).Pool} {pid : ℕ} {e : AttemptEnv}
    {c : AttemptCall} {s : NewSubmission}
    {k : Except Exn Unit → Prog attemptI Exn AttemptResponse}
    (hp : Service.Pending w pid c (.addFail s) k)
    (hs : s.contestChallengeId = id ∧ s.teamId = t)
    (hown : ownFail id t (c, k (AttemptOp.exec e (.addFail s) w.shared).1) = false) :
    @account cfg contestId id t
        ⟨(AttemptOp.exec e (.addFail s) w.shared).2,
          w.procs.set pid (c, k (AttemptOp.exec e (.addFail s) w.shared).1)⟩ =
      (accountMove contestId id t e (.addFail s)).apply n (account contestId id t w) := by
  have hheld := held_act id t hp (AttemptOp.exec e (.addFail s) w.shared).2
    (AttemptOp.exec e (.addFail s) w.shared).1
  rw [hown, show ownFail id t (c, .call (.addFail s) k) = true from decide_eq_true hs] at hheld
  have hheld' : Service.count (ownFail id t) w - 1 = _ := Nat.sub_eq_of_eq_add hheld.symm
  have hrows := incorrectCount_exec e (.addFail s) w.shared id t
  have hcounter : (AttemptOp.exec e (.addFail s) w.shared).2.redis = w.shared.redis :=
    AttemptOp.exec_redis e (.addFail s) w.shared
  simp only [accountMove, if_pos hs]
  dsimp only at hrows
  by_cases hfault : e.fault = .before
  · rw [if_neg fun h => h.1 hfault] at hrows
    rw [if_pos hfault]
    exact Account.ext hrows hheld'.symm (by rw [account, hcounter]; rfl)
  · rw [if_pos ⟨hfault, hs⟩] at hrows
    rw [if_neg hfault]
    exact Account.ext hrows hheld'.symm (by rw [account, hcounter]; rfl)

/-- The counter's script for the challenge and the team. -/
abbrev countOp (contestId id t n th seed : ℤ) : AttemptOp :=
  .redis (.checkAndIncrement (attemptKey contestId id t) n th seed 86400)

/-- Who runs the counter's script. -/
theorem countOp_of_allows {c : AttemptCall} {q : Phase} {key : String} {m th seed ttl : ℤ}
    (ho : (callProtocol cfg c).allows q (.redis (.checkAndIncrement key m th seed ttl))) :
    ∃ req cc, c = .attempt req ∧ q = .recounted cc seed ∧
      key = attemptKey req.contestId cc.id req.teamId ∧ attemptLimit cc = some m ∧
        ttl = 86400 := by
  cases c with
  | editSubmission id => cases ho
  | reset => cases ho
  | attempt req =>
      cases q with
      | recounted cc fails =>
          obtain ⟨hkey, hlimit, rfl, httl⟩ := ho
          exact ⟨req, cc, rfl, rfl, hkey, hlimit, httl⟩
      | credited cc => rcases ho with ho | ho <;> exact ho.elim
      | _ => exact ho.elim

/-- What the script answers and does, as far as it gets through. -/
theorem exec_countOp (contestId id t n th seed : ℤ) (e : AttemptEnv) (w : AttemptWorld) :
    (countOp contestId id t n th seed).exec e w =
      match e.fault with
      | .none =>
          let r := checkAndIncrementScript (attemptKey contestId id t) n th seed 86400 w.redis
          (r.1, { w with redis := r.2 })
      | .before => (.error .redis, w)
      | .after =>
          let r := checkAndIncrementScript (attemptKey contestId id t) n th seed 86400 w.redis
          (.error .redis, { w with redis := r.2 }) := by
  cases hfault : e.fault <;> simp only [AttemptOp.exec, hfault] <;> rfl

/-- A wrong answer to the challenge is counted, or the limit is used up. -/
theorem account_count {w : (attempts cfg).Pool} {pid : ℕ} {e : AttemptEnv}
    {c : AttemptCall} {th seed : ℤ} {k : Except Exn ℤ → Prog attemptI Exn AttemptResponse}
    (hp : Service.Pending w pid c (countOp contestId id t n th seed) k)
    (hown : ownFail id t (c, k ((countOp contestId id t n th seed).exec e w.shared).1) = true ↔
      ∃ result, countResult _ ((countOp contestId id t n th seed).exec e w.shared).1 =
        some result ∧ result ≠ -1) :
    @account cfg contestId id t
        ⟨((countOp contestId id t n th seed).exec e w.shared).2,
          w.procs.set pid (c, k ((countOp contestId id t n th seed).exec e w.shared).1)⟩ =
      (accountMove contestId id t e (countOp contestId id t n th seed)).apply n
        (account contestId id t w) := by
  have hexec := exec_countOp contestId id t n th seed e w.shared
  generalize (countOp contestId id t n th seed).exec e w.shared = out at hexec hown
  obtain ⟨r, s⟩ := out
  dsimp only at hown
  have haccount : ∀ {b : Bool}, ownFail id t (c, k r) = b →
      @account cfg contestId id t ⟨s, w.procs.set pid (c, k r)⟩ =
        ⟨s.incorrectCount id t, Service.count (ownFail id t) w + b.toNat,
          s.redis.getNum (attemptKey contestId id t)⟩ := by
    rintro b rfl
    exact Account.ext rfl (held_act id t hp s r) rfl
  have hlost : ∀ {ex : Exn}, r = .error ex → ownFail id t (c, k r) = false := by
    rintro ex rfl
    rw [Bool.eq_false_iff]
    intro h
    obtain ⟨result, hr, -⟩ := hown.mp h
    cases hr
  have hcounted : ∀ {result : ℤ}, r = .ok result →
      ownFail id t (c, k r) = decide (result ≠ -1) := by
    rintro result rfl
    rw [Bool.eq_iff_iff, hown, decide_eq_true_iff]
    exact ⟨fun ⟨_, hr, hne⟩ => Option.some.inj hr ▸ hne, fun hne => ⟨result, rfl, hne⟩⟩
  have httl : (0 : ℤ) < 86400 := by decide
  have hcases := checkAndIncrementScript_cases (attemptKey contestId id t) n th seed
    w.shared.redis httl
  cases hfault : e.fault with
  | before =>
      rw [hfault] at hexec
      obtain ⟨rfl, rfl⟩ := Prod.mk.inj hexec
      refine (haccount (hlost rfl)).trans ?_
      simp only [accountMove, hfault, if_true]
      rfl
  | after =>
      rw [hfault] at hexec
      obtain ⟨rfl, rfl⟩ := Prod.mk.inj hexec
      refine (haccount (hlost rfl)).trans ?_
      simp only [accountMove, hfault, if_true, AccountMove.apply]
      obtain ⟨hle, -, hc⟩ | ⟨hlt, -, hc⟩ := hcases
      · rw [if_pos (show n ≤ (account contestId id t w).counter.getD seed from hle)]
        exact Account.ext rfl rfl hc
      · rw [if_neg (show ¬n ≤ (account contestId id t w).counter.getD seed from not_le.mpr hlt)]
        exact Account.ext rfl rfl hc
  | none =>
      rw [hfault] at hexec
      obtain ⟨rfl, rfl⟩ := Prod.mk.inj hexec
      simp only [accountMove, hfault, if_true, AccountMove.apply]
      obtain ⟨hle, hr, hc⟩ | ⟨hlt, hr, hc⟩ := hcases
      · refine (haccount (hcounted hr)).trans ?_
        rw [if_pos (show n ≤ (account contestId id t w).counter.getD seed from hle)]
        exact Account.ext rfl rfl hc
      · refine (haccount (hcounted hr)).trans ?_
        rw [if_neg (show ¬n ≤ (account contestId id t w).counter.getD seed from not_le.mpr hlt)]
        refine Account.ext rfl ?_ hc
        by_cases hminus : (account contestId id t w).counter.getD seed + 1 = -1
        · rw [if_pos hminus]
          exact congrArg (fun b => Service.count (ownFail id t) w + Bool.toNat b)
            (decide_eq_false (not_not.mpr hminus))
        · rw [if_neg hminus]
          exact congrArg (fun b => Service.count (ownFail id t) w + Bool.toNat b)
            (decide_eq_true hminus)

/-- **Every step of a request is a move of the account.** -/
theorem account_act {w : (attempts cfg).Pool} {pid : ℕ} {e : AttemptEnv} {c : AttemptCall}
    {o : AttemptOp} {k : Except Exn o.Reply → Prog attemptI Exn AttemptResponse} {q : Phase}
    (hp : Service.Pending w pid c o k)
    (hf : (Prog.call o k).Follows (callProtocol cfg c) (callAnswers c) q)
    (hfix : w.shared.tables.Fixes contestId id fun cc => attemptLimit cc = some n)
    (hk : Knows contestId id (fun cc => attemptLimit cc = some n) c q) :
    @account cfg contestId id t
        ⟨(o.exec e w.shared).2, w.procs.set pid (c, k (o.exec e w.shared).1)⟩ =
      (accountMove contestId id t e o).apply n (account contestId id t w) := by
  have hheld := held_act id t hp (o.exec e w.shared).2 (o.exec e w.shared).1
  have hrows := incorrectCount_exec e o w.shared id t
  have hcounter := getNum_exec hf.1 e w.shared contestId id t
  have hgain := ownFail_act_eq_false (e := e) (t := t) hf hfix hk
  -- an operation that is not about this account
  have hstay : accountMove contestId id t e o = .stay →
      (o.exec e w.shared).2.incorrectCount id t = w.shared.incorrectCount id t →
      (o.exec e w.shared).2.redis.getNum (attemptKey contestId id t) =
        w.shared.redis.getNum (attemptKey contestId id t) →
      ownFail id t (c, .call o k) = false →
      ownFail id t (c, k (o.exec e w.shared).1) = false →
      @account cfg contestId id t
          ⟨(o.exec e w.shared).2, w.procs.set pid (c, k (o.exec e w.shared).1)⟩ =
        (accountMove contestId id t e o).apply n (account contestId id t w) := by
    intro hm hr hc hown hown'
    rw [hown, hown'] at hheld
    rw [hm]
    exact Account.ext hr hheld hc
  cases o with
  | addFail s =>
      by_cases hs : s.contestChallengeId = id ∧ s.teamId = t
      · exact account_addFail hp hs (hgain rfl)
      · dsimp only at hrows
        rw [if_neg fun h => hs h.2] at hrows
        exact hstay (if_neg hs) hrows hcounter (decide_eq_false hs) (hgain rfl)
  | resetSubmissions =>
      dsimp only at hrows
      by_cases hfault : e.fault = .before
      · rw [if_pos hfault] at hrows
        exact hstay (if_pos hfault) hrows hcounter rfl (hgain rfl)
      · rw [if_neg hfault] at hrows
        rw [hgain rfl, show ownFail id t (c, .call .resetSubmissions k) = false from rfl]
          at hheld
        simp only [accountMove, if_neg hfault]
        exact Account.ext hrows hheld hcounter
  | redis o =>
      cases o with
      | checkAndIncrement key m th seed ttl =>
          have hact := ownFail_act_iff (e := e) (t := t) hf hfix hk
          obtain ⟨req, cc, rfl, rfl, rfl, hlimit, rfl⟩ := countOp_of_allows hf.1
          by_cases hkey : req.contestId = contestId ∧ cc.id = id ∧ req.teamId = t
          · obtain ⟨rfl, rfl, rfl⟩ := hkey
            obtain rfl : m = n :=
              Option.some.inj (hlimit.symm.trans ((hk req cc rfl rfl).2 rfl).2)
            refine account_count hp (hact.trans ?_)
            constructor
            · rintro ⟨_, _, _, result, _, _, _, _, hr, hne⟩
              exact ⟨result, hr, hne⟩
            · rintro ⟨result, hr, hne⟩
              exact ⟨req, cc, seed, result, rfl, rfl, rfl, rfl, hr, hne⟩
          · -- the script for another team or challenge
            have hne : attemptKey req.contestId cc.id req.teamId ≠ attemptKey contestId id t :=
              fun h => hkey (attemptKey_inj h)
            refine hstay (if_neg hne) hrows ?_ rfl ?_
            · dsimp only at hcounter
              rw [hcounter]
              split
              · rfl
              · exact (checkAndIncrementScript_frame _ m th seed w.shared.redis
                  (by decide)).getNum_of_ne hne.symm
            · rw [Bool.eq_false_iff]
              intro h
              obtain ⟨req', cc', fails, result, hc, hq, hid, ht, -⟩ := hact.mp h
              obtain rfl := AttemptCall.attempt.inj hc
              obtain ⟨rfl, rfl⟩ := Phase.recounted.inj hq
              obtain ⟨⟨-, hcontest⟩, hcc⟩ := hk req cc rfl rfl
              exact hkey ⟨hcontest.symm.trans (hcc hid).1, hid, ht⟩
      | _ => exact hstay rfl hrows hcounter rfl (hgain rfl)
  | _ => exact hstay rfl hrows hcounter rfl (hgain rfl)

/-- A request that arrives leaves the account alone. -/
theorem account_spawn (w : (attempts cfg).Pool) (c : (attempts cfg).Call) :
    account contestId id t ⟨w.shared, w.procs ++ [(c, (attempts cfg).program c)]⟩ =
      account contestId id t w := by
  have hnew : ownFail id t (c, (attempts cfg).program c) = false := by cases c <;> rfl
  have hheld : Service.count (ownFail id t) (S := attempts cfg)
      ⟨w.shared, w.procs ++ [(c, (attempts cfg).program c)]⟩ = Service.count (ownFail id t) w :=
    (Service.count_append _ _ _).trans
      (congrArg (fun b => List.countP (ownFail id t) w.procs + Bool.toNat b) hnew)
  exact Account.ext rfl hheld rfl

/-- The surroundings can make the counter disappear. -/
theorem getNum_ambient (m : AttemptMove) (w : AttemptWorld) (key : String) :
    (m.apply w).redis.getNum key = none ∨
      (m.apply w).redis.getNum key = w.redis.getNum key := by
  cases m with
  | tick d =>
      show (w.redis.tick d).getNum _ = _ ∨ (w.redis.tick d).getNum _ = _
      cases hc : (w.redis.tick d).getNum key with
      | none => exact .inl rfl
      | some c => exact .inr (Db.getNum_of_tick _ hc).symm
  | evict key' =>
      show (w.redis.delNum key').getNum _ = _ ∨ (w.redis.delNum key').getNum _ = _
      by_cases hk : key = key'
      · subst hk
        exact .inl (Db.getNum_delNum_same _ _)
      · exact .inr (Db.getNum_delNum_of_ne _ hk)
  | tables tables => exact .inr rfl
  | deployments strings zsets => exact .inr rfl

/-- They store and delete no answers. -/
theorem incorrectCount_ambient (m : AttemptMove) (w : AttemptWorld) (id t : ℤ) :
    (m.apply w).incorrectCount id t = w.incorrectCount id t := by
  cases m <;> rfl

/-- The surroundings can make the counter disappear, and nothing else. -/
theorem account_ambient (w : (attempts cfg).Pool) (m : AttemptMove) :
    ∃ counter, (counter = none ∨ counter = (account contestId id t w).counter) ∧
      @account cfg contestId id t ⟨m.apply w.shared, w.procs⟩ =
        { account contestId id t w with counter := counter } :=
  ⟨_, getNum_ambient m w.shared _, Account.ext (incorrectCount_ambient m w.shared id t) rfl rfl⟩

/-- An operation that stores a wrong answer is one of a request that holds a count. -/
theorem held_pos {w : (attempts cfg).Pool} {pid : ℕ} {e : AttemptEnv} {c : AttemptCall}
    {o : AttemptOp} {k : Except Exn o.Reply → Prog attemptI Exn AttemptResponse}
    (hp : Service.Pending w pid c o k) (h : accountMove contestId id t e o = .store) :
    0 < (account contestId id t w).held := by
  refine List.countP_pos_iff.mpr ⟨_, hp.mem, ?_⟩
  cases o with
  | addFail s =>
      simp only [accountMove] at h
      split at h
      · next hs => exact decide_eq_true hs
      · cases h
  | redis o =>
      cases o with
      | checkAndIncrement key m th seed ttl =>
          simp only [accountMove] at h
          split at h
          · split at h <;> cases h
          · cases h
      | _ => cases h
  | resetSubmissions =>
      simp only [accountMove] at h
      split at h <;> cases h
  | _ => cases h

/-- No request at rest holds a count. -/
theorem held_eq_zero {w : (attempts cfg).Pool} (h : Service.Quiescent w) :
    (account contestId id t w).held = 0 := by
  refine List.countP_eq_zero.mpr fun p hp hown => ?_
  obtain ⟨c, q⟩ := p
  obtain ⟨r, rfl⟩ := h _ hp
  cases hown

/-- **Induction over a run, with the account.** What every move of the account keeps, as
the condition on the steps allows it, and the loss of the counter too. -/
theorem account_invariant {G : (attempts cfg).Pool → (attempts cfg).Move → Prop}
    {C : Account → Prop} {s₀ : AttemptWorld} {w : (attempts cfg).Pool}
    (h : Service.Reaches G ((attempts cfg).start s₀) w)
    (hfix : s₀.tables.Fixes contestId id fun cc => attemptLimit cc = some n)
    (h₀ : C (account contestId id t ((attempts cfg).start s₀)))
    (htables : ∀ w tables, G w (.ambient (.tables tables)) →
      tables.Fixes contestId id fun cc => attemptLimit cc = some n)
    (hact : ∀ (w : (attempts cfg).Pool) pid e c o k, C (account contestId id t w) →
      Service.Pending w pid c o k → G w (.act pid e) →
      C ((accountMove contestId id t e o).apply n (account contestId id t w)))
    (hexpire : ∀ (a : Account) counter, C a → counter = none ∨ counter = a.counter →
      C { a with counter := counter }) :
    (w.shared.tables.Fixes contestId id fun cc => attemptLimit cc = some n) ∧
      C (account contestId id t w) := by
  let P := fun cc => attemptLimit cc = some n
  let J := fun (w : (attempts cfg).Pool) (qs : List Phase) =>
    w.shared.tables.Fixes contestId id P ∧
      List.Forall₂ (fun p q => Knows contestId id P p.1 q) w.procs qs ∧
      C (account contestId id t w)
  suffices hJ : ∃ qs, J w qs ∧ Service.Standings (callProtocol cfg) callAnswers w qs by
    obtain ⟨qs, ⟨hfix, -, hC⟩, -⟩ := hJ
    exact ⟨hfix, hC⟩
  refine h.protocol_invariant (fun _ => .start) ⟨hfix, .nil, h₀⟩
    (fun _ c _ => follows_call cfg c) ?_ ?_ ?_
  · rintro w qs c ⟨hfix, hk, hC⟩ - -
    refine ⟨hfix, List.rel_append hk (.cons (knows_start c) .nil), ?_⟩
    exact (congrArg C (account_spawn w c)).mpr hC
  · rintro w qs pid e c o k q ⟨hfix, hk, hC⟩ - hp hq hg hf
    have hown : Knows contestId id P c q := Service.forall₂_getElem? hk hp hq
    refine ⟨hfix.exec hown (fun _ _ h => h) e hf.1,
      Service.forall₂_set hk (hown.next hfix hf.1 e) pid, ?_⟩
    exact (congrArg C (account_act hp hf hfix hown)).mpr (hact w pid e c o k hC hp hg)
  · rintro w qs x ⟨hfix, hk, hC⟩ hg
    obtain ⟨counter, hcounter, haccount⟩ :=
      @account_ambient cfg contestId id t w x
    refine ⟨?_, hk, ?_⟩
    · cases x with
      | tables tables => exact htables w tables hg
      | _ => exact hfix
    · exact (congrArg C haccount).mpr (hexpire _ counter hC hcounter)

end Step

end Service

end Fctf
