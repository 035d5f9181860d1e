import Fctf.AttemptsGivenBack

/-!
# Bounded Guessing

`MaxAttempts` of `n` is to bound how often a team's guesses are compared with the flag. A
request counts the stored wrong answers before it compares its guess, and stores a wrong
guess after that. Guesses of other members that are compared in between go unnoticed.

## Main results

* `boundedGuessing_of_freshCounts`: the bound holds in every run in which each comparison
  comes after a count of all wrong guesses compared so far.
* `not_boundedGuessing`: two requests at the same time that break it.
-/

open Concurrent RedisDb

namespace Fctf

/-! ### What was compared -/

/-- A comparison with the flags, as a step of a request of the team, and what it told. -/
def verdict (cfg : AttemptConfig) (id t : ℤ) (n : (attempts cfg).Entry) : Option Bool :=
  match n.call with
  | .attempt req =>
      if req.challengeId = id ∧ req.teamId = t then comparison cfg req n.op n.reply else none
  | _ => none

/-- What the comparisons of a run told the team, in their order. -/
def verdicts (cfg : AttemptConfig) (id t : ℤ) (log : List (attempts cfg).Entry) : List Bool :=
  log.filterMap (verdict cfg id t)

/-- The operation counts the stored wrong answers of the team. -/
def countsWrong (id t : ℤ) : AttemptOp → Bool
  | .countIncorrect id' t' => decide (id' = id ∧ t' = t)
  | _ => false

/-- Guesses told wrong come before each guess told right in numbers that leave it one of
`n`, and are at most `n` in all; `k` were told wrong before. -/
structure BoundedGuessing (k : ℕ) (n : ℤ) (told : List Bool) : Prop where
  /-- Few enough wrong guesses come before a right one. -/
  right : ∀ before after, told = before ++ true :: after →
    ((k + before.count false : ℕ) : ℤ) ≤ n - 1
  /-- There are at most `n` wrong guesses. -/
  wrong : ((k + told.count false : ℕ) : ℤ) ≤ n

theorem BoundedGuessing.nil {k : ℕ} {n : ℤ} (h : (k : ℤ) ≤ n) : BoundedGuessing k n [] :=
  ⟨fun before after heq => absurd heq.symm (by simp), h⟩

/-- One more guess is told something. -/
theorem BoundedGuessing.concat {k : ℕ} {n : ℤ} {told : List Bool}
    (h : BoundedGuessing k n told) (hlt : ((k + told.count false : ℕ) : ℤ) < n) (b : Bool) :
    BoundedGuessing k n (told ++ [b]) := by
  refine ⟨fun before after heq => ?_, ?_⟩
  · rcases List.eq_nil_or_concat after with rfl | ⟨after, c, rfl⟩
    · obtain ⟨rfl, -⟩ := List.append_inj' heq rfl
      omega
    · rw [List.concat_eq_append, ← List.cons_append, ← List.append_assoc] at heq
      exact h.right before after (List.append_inj' heq rfl).1
  · rw [List.count_append]
    cases b <;> simp <;> omega

/-- The guesses told anything up to the first right one are at most `n`. -/
theorem BoundedGuessing.length_le {k : ℕ} {n : ℤ} {before after : List Bool}
    (h : BoundedGuessing k n (before ++ true :: after)) (hfirst : true ∉ before) :
    ((k + (before ++ [true]).length : ℕ) : ℤ) ≤ n := by
  have hle := h.right before after rfl
  have hcount : before.count false = before.length := by
    rw [List.count_eq_length]
    intro b hb
    cases b with
    | true => exact absurd hb hfirst
    | false => rfl
  rw [hcount] at hle
  rw [List.length_append, List.length_singleton]
  omega

/-! ### Runs -/

section Runs

variable {cfg : AttemptConfig} {contestId id t n : ℤ} {k : ℕ}

/-- The condition on a step: before a request of the team compares its text, it has counted
all wrong guesses compared so far among the stored wrong answers; and the limit of the
challenge is not changed. -/
def FreshCounts (contestId id t n : ℤ) (k : ℕ) (log : List (attempts cfg).Entry)
    (w : (attempts cfg).Pool) : (attempts cfg).Move → Prop
  | .spawn _ => True
  | .act pid _ =>
      match w.procs[pid]? with
      | some (.attempt req, .call (.findFlags _) _) =>
          req.challengeId = id ∧ req.teamId = t → ∀ m ∈ log, m.pid = pid →
            countsWrong id t m.op = true →
            k + (verdicts cfg id t log).count false ≤ m.before.incorrectCount id t
      | _ => True
  | .ambient (.tables tables) =>
      tables.Fixes contestId id fun cc => attemptLimit cc = some n
  | .ambient _ => True

/-- What a request of the team remembers of its part of the run. -/
def Remembers (cfg : AttemptConfig) (contestId id t n : ℤ) (log : List (attempts cfg).Entry)
    (pid : ℕ) (c : AttemptCall) (q : Phase) : Prop :=
  Knows contestId id (fun cc => attemptLimit cc = some n) c q ∧
    ∀ req, c = .attempt req → req.challengeId = id ∧ req.teamId = t →
      (∀ cc fails, q = .prechecked cc fails → ∃ m ∈ log, m.pid = pid ∧
        countsWrong id t m.op = true ∧ (m.before.incorrectCount id t : ℤ) = fails) ∧
      (q.right = true → ∃ m ∈ log, m.pid = pid ∧ verdict cfg id t m = some true)

theorem Remembers.append {log : List (attempts cfg).Entry} {pid : ℕ} {c : AttemptCall}
    {q : Phase} (h : Remembers cfg contestId id t n log pid c q) (m : (attempts cfg).Entry) :
    Remembers cfg contestId id t n (log ++ [m]) pid c q := by
  refine ⟨h.1, fun req hc hown => ⟨fun cc fails hq => ?_, fun hq => ?_⟩⟩
  · obtain ⟨m', hm', hrest⟩ := (h.2 req hc hown).1 cc fails hq
    exact ⟨m', List.mem_append_left _ hm', hrest⟩
  · obtain ⟨m', hm', hrest⟩ := (h.2 req hc hown).2 hq
    exact ⟨m', List.mem_append_left _ hm', hrest⟩

theorem verdicts_append (log : List (attempts cfg).Entry) (m : (attempts cfg).Entry) :
    verdicts cfg id t (log ++ [m]) = verdicts cfg id t log ++ (verdict cfg id t m).toList := by
  rw [verdicts, List.filterMap_append]
  cases h : verdict cfg id t m <;> simp [verdicts, h]

/-- A comparison of the team comes after a count of all wrong guesses. -/
theorem count_lt_of_comparison {log : List (attempts cfg).Entry} {w : (attempts cfg).Pool}
    {pid : ℕ} {e : AttemptEnv} {req : ChallengeAttemptRequest} {bankId : ℤ}
    {p : Except Exn (List Flag) → Prog attemptI Exn AttemptResponse} {q : Phase}
    (hp : Service.Pending w pid (.attempt req) (.findFlags bankId) p)
    (hg : FreshCounts contestId id t n k log w (.act pid e))
    (ho : Phase.allows req q (.findFlags bankId))
    (hL : Remembers cfg contestId id t n log pid (.attempt req) q)
    (hown : req.challengeId = id ∧ req.teamId = t) :
    ((k + (verdicts cfg id t log).count false : ℕ) : ℤ) < n := by
  obtain ⟨hk, hrest⟩ := hL
  have hp' : w.procs[pid]? = some (.attempt req, .call (.findFlags bankId) p) := hp
  simp only [FreshCounts, hp'] at hg
  -- the challenge has the limit `n`
  have hlimit : ∀ cc, q.challenge = some cc → attemptLimit cc = some n := by
    intro cc hcc
    obtain ⟨⟨hid, -⟩, hfix⟩ := hk req cc rfl hcc
    exact (hfix (hid.trans hown.1)).2
  cases q with
  | found cc =>
      have hnone : attemptLimit cc = none := ho
      rw [hlimit cc rfl] at hnone
      cases hnone
  | prechecked cc fails =>
      obtain ⟨m, hm, hlt⟩ := ho
      obtain rfl := Option.some.inj ((hlimit cc rfl).symm.trans hm)
      obtain ⟨m', hm', hpid, hcount, hfails⟩ := (hrest req rfl hown).1 cc fails rfl
      have hle := hg hown m' hm' hpid hcount
      omega
  | credited cc => rcases ho with ho | ho <;> exact ho.elim
  | _ => exact ho.elim

/-- What was told stays bounded. -/
theorem boundedGuessing_act {log : List (attempts cfg).Entry} {w : (attempts cfg).Pool}
    {pid : ℕ} {e : AttemptEnv} {c : AttemptCall} {o : AttemptOp}
    {p : Except Exn o.Reply → Prog attemptI Exn AttemptResponse} {q : Phase}
    (h : BoundedGuessing k n (verdicts cfg id t log)) (hp : Service.Pending w pid c o p)
    (hg : FreshCounts contestId id t n k log w (.act pid e))
    (ho : (callProtocol cfg c).allows q o)
    (hL : Remembers cfg contestId id t n log pid c q) :
    BoundedGuessing k n (verdicts cfg id t (log ++ [⟨pid, c, e, o, w.shared⟩])) := by
  rw [verdicts_append]
  cases hv : verdict cfg id t ⟨pid, c, e, o, w.shared⟩ with
  | none =>
      rw [Option.toList_none, List.append_nil]
      exact h
  | some b =>
      refine h.concat ?_ b
      cases c with
      | attempt req =>
          simp only [verdict] at hv
          split at hv
          · next hown =>
              obtain ⟨bankId, rfl⟩ := comparison_eq_some hv
              exact count_lt_of_comparison hp hg ho hL hown
          · cases hv
      | editSubmission id => cases hv
      | reset => cases hv

/-- What a request remembers stays true as it goes on. -/
theorem Remembers.next {log : List (attempts cfg).Entry} {w : (attempts cfg).Pool} {pid : ℕ}
    {e : AttemptEnv} {c : AttemptCall} {o : AttemptOp} {q : Phase}
    (hL : Remembers cfg contestId id t n log pid c q)
    (hfix : w.shared.tables.Fixes contestId id fun cc => attemptLimit cc = some n)
    (ho : (callProtocol cfg c).allows q o) :
    Remembers cfg contestId id t n (log ++ [⟨pid, c, e, o, w.shared⟩]) pid c
      ((callProtocol cfg c).next q o (o.exec e w.shared).1) := by
  refine ⟨hL.1.next hfix ho e, ?_⟩
  rintro req rfl hown
  obtain ⟨hcount, hright⟩ := (hL.append ⟨pid, .attempt req, e, o, w.shared⟩).2 req rfl hown
  refine ⟨fun cc fails hq => ?_, fun hq => ?_⟩
  · obtain rfl | ⟨rfl, hr⟩ := Phase.prechecked_of_next hq
    · exact hcount cc fails rfl
    · obtain ⟨id', t', rfl, hfails⟩ := countRead_exec hr
      obtain ⟨⟨hid, -⟩, -⟩ := hL.1 req cc rfl rfl
      obtain ⟨rfl, rfl⟩ := ho
      have hcc := hid.trans hown.1
      refine ⟨_, List.mem_append_right _ (List.mem_singleton_self _), rfl,
        decide_eq_true ⟨hcc, hown.2⟩, ?_⟩
      rw [← hfails, hcc, hown.2]
  · rcases Phase.right_of_next hq with hq | hr
    · exact hright hq
    · refine ⟨_, List.mem_append_right _ (List.mem_singleton_self _), rfl, ?_⟩
      simp only [verdict, if_pos hown]
      exact hr

/-- **Bounded guessing.** In every run in which each comparison comes after a count of all
wrong guesses compared so far, the team's guesses are bounded, those up to the first right
one are at most `n`, and a request that is answered to be correct has compared one. -/
theorem boundedGuessing_of_freshCounts (cfg : AttemptConfig) (contestId id t n : ℤ)
    (s₀ : AttemptWorld)
    (hlimit : s₀.tables.Fixes contestId id fun cc => attemptLimit cc = some n)
    (hstored : (s₀.incorrectCount id t : ℤ) ≤ n) (log : List (attempts cfg).Entry)
    (w : (attempts cfg).Pool)
    (h : Service.Records (FreshCounts contestId id t n (s₀.incorrectCount id t))
      ((attempts cfg).start s₀) log w) :
    BoundedGuessing (s₀.incorrectCount id t) n (verdicts cfg id t log) ∧
      (∀ before after, verdicts cfg id t log = before ++ true :: after → true ∉ before →
        ((s₀.incorrectCount id t + (before ++ [true]).length : ℕ) : ℤ) ≤ n) ∧
      ∀ pid req r, Service.Finished w pid (.attempt req) r → req.challengeId = id →
        req.teamId = t → Credited r →
        ∃ m ∈ log, m.pid = pid ∧ verdict cfg id t m = some true := by
  let A := fun (log : List (attempts cfg).Entry) (s : AttemptWorld) =>
    (s.tables.Fixes contestId id fun cc => attemptLimit cc = some n) ∧
      BoundedGuessing (s₀.incorrectCount id t) n (verdicts cfg id t log)
  have hinv : A log w.shared ∧ ∃ qs, Service.Standings (callProtocol cfg) callAnswers w qs ∧
      ∀ pid c p q, w.procs[pid]? = some (c, p) → qs[pid]? = some q →
        Remembers cfg contestId id t n log pid c q := by
    refine h.local_invariant (fun _ => .start) (fun c => follows_call cfg c)
      ⟨hlimit, BoundedGuessing.nil hstored⟩ ?_ ?_ (fun log m pid c q _ hL => hL.append m) ?_
    · exact fun log pid c _ => ⟨knows_start c, fun req _ _ =>
        ⟨fun cc fails hq => (nomatch hq), fun hq => (nomatch hq)⟩⟩
    · rintro log w pid e c o p q ⟨hfix, hbounded⟩ hL hp hg hf
      have hfix' := hfix.exec hL.1 (fun _ _ h => h) e hf.1
      exact ⟨⟨hfix', boundedGuessing_act hbounded hp hg hf.1 hL⟩, hL.next hfix hf.1⟩
    · rintro log w x ⟨hfix, hbounded⟩ hg
      cases x with
      | tables tables => exact ⟨hg, hbounded⟩
      | _ => exact ⟨hfix, hbounded⟩
  obtain ⟨⟨-, hbounded⟩, qs, hst, hL⟩ := hinv
  refine ⟨hbounded, fun before after heq => (heq ▸ hbounded).length_le,
    fun pid req r hfinished hid ht hr => ?_⟩
  obtain ⟨q, hq, hf⟩ := hst.get hfinished
  obtain ⟨cc, rfl⟩ := credited_of_answers hf hr
  exact ((hL pid _ _ _ hfinished hq).2 req rfl ⟨hid, ht⟩).2 rfl

end Runs

/-! ### Two requests at the same time -/

instance (cfg : AttemptConfig) (contestId id t n : ℤ) (k : ℕ)
    (log : List (attempts cfg).Entry) (w : (attempts cfg).Pool) (m : (attempts cfg).Move) :
    Decidable (FreshCounts contestId id t n k log w m) := by
  unfold FreshCounts
  induction m using Service.Move.casesOn with
  | spawn c => dsimp only; infer_instance
  | act pid e =>
      dsimp only
      generalize w.procs[pid]? = found
      rcases found with _ | ⟨_ | _, _ | ⟨o, k⟩⟩
      case some.attempt.call =>
        induction o using AttemptOp.casesOn <;> dsimp only <;> infer_instance
      all_goals dsimp only; infer_instance
  | ambient x => induction x using AttemptMove.casesOn <;> dsimp only <;> infer_instance

/-- A right guess of a team with one try is answered to be correct. -/
theorem boundedGuessing_example :
    ∃ log w, Service.runLogged (FreshCounts 1 7 5 1 0) []
        ((attempts defaultAttemptConfig).start (attemptWorld oneTryChallenge))
        (Service.callNow 0 rightAnswer calmAttempt 8) = some (log, w) ∧
      verdicts defaultAttemptConfig 7 5 log = [true] ∧
      BoundedGuessing 0 1 (verdicts defaultAttemptConfig 7 5 log) := by
  have hrun : (Service.runLogged (FreshCounts 1 7 5 1 0) []
      ((attempts defaultAttemptConfig).start (attemptWorld oneTryChallenge))
      (Service.callNow 0 rightAnswer calmAttempt 8)).any
      (fun p => decide (verdicts defaultAttemptConfig 7 5 p.1 = [true])) = true := by
    decide +kernel
  obtain ⟨⟨log, w⟩, hw, htold⟩ := (Option.any_eq_true _ _).mp hrun
  refine ⟨log, w, hw, of_decide_eq_true htold, ?_⟩
  exact (boundedGuessing_of_freshCounts defaultAttemptConfig 1 7 5 1
    (attemptWorld oneTryChallenge) (by decide) (by decide) log w
    (Service.records_of_runLogged .refl hw)).1

/-- **The count is taken too early.** Two members of a team with one try submit a wrong and
a right guess: both find no wrong answer stored, the wrong one is compared first, and the
right one is answered to be correct. -/
theorem not_boundedGuessing :
    ∃ log w, Service.Records Service.anyLogged
        ((attempts defaultAttemptConfig).start (attemptWorld oneTryChallenge)) log w ∧
      attemptLimit oneTryChallenge = some 1 ∧
      (∃ r, Service.Finished w 1 rightAnswer r ∧ Credited r) ∧
      ¬BoundedGuessing 0 1 (verdicts defaultAttemptConfig 7 5 log) := by
  have hrun : (Service.runLogged Service.anyLogged []
      ((attempts defaultAttemptConfig).start (attemptWorld oneTryChallenge))
      (Service.callNow 0 wrongAnswer calmAttempt 4 ++
        Service.callNow 1 rightAnswer calmAttempt 4 ++ [.act 0 calmAttempt] ++
        List.replicate 4 (.act 1 calmAttempt))).any
      (fun p => decide (verdicts defaultAttemptConfig 7 5 p.1 = [false, true]) &&
        decide (Service.answer p.2 1 = some ⟨rightAnswer, rightReply⟩)) = true := by
    decide +kernel
  obtain ⟨⟨log, w⟩, hw, hboth⟩ := (Option.any_eq_true _ _).mp hrun
  obtain ⟨htold, hanswer⟩ := Bool.and_eq_true_iff.mp hboth
  refine ⟨log, w, Service.records_of_runLogged .refl hw, rfl,
    ⟨_, Service.finished_of_answer (of_decide_eq_true hanswer), _, rfl, rfl⟩, ?_⟩
  rw [of_decide_eq_true htold]
  intro h
  have hle := h.right [false] [] rfl
  revert hle
  decide

end Fctf
