import Fctf.Entities
import Fctf.Lib.Grouping
import Mathlib.Algebra.Order.Field.Rat
import Mathlib.Data.Rat.Floor

/-!
# Challenge Analytics

The platform's analytics have one row for every challenge of a contest. Solves and attempts are
counted by that challenge; hints belong to the bank, and their unlocks are counted by the bank
challenge, joined with every solve of every instance of it.

## Main results

* `unsolvedAttempters_eq`: who tried and did not solve, whatever the tables hold.
* `solverHintUsage_own`: what the unlocks of the solvers of one challenge amount to.
* `right_iff_ownEvents`: when a row is about its own challenge.
-/

open Grouping

namespace Fctf.Analytics

/-! ### Tables -/

/-- A user or a team. -/
structure Account where
  id : ℤ
  banned : Option Bool
  hidden : Option Bool
  deriving DecidableEq, Repr

/-- A challenge of the bank. -/
structure Challenge where
  id : ℤ
  name : Option String
  category : Option String
  deriving DecidableEq, Repr

/-- A challenge of a contest. -/
structure ContestsChallenge where
  id : ℤ
  contestId : ℤ
  bankId : Option ℤ
  maxAttempts : Option ℤ
  state : String
  deriving DecidableEq, Repr

/-- A submission. Dates are in microseconds. -/
structure Submission where
  id : ℤ
  contestChallengeId : ℤ
  userId : Option ℤ
  teamId : Option ℤ
  type : SubmissionType
  date : Option ℤ
  deriving DecidableEq, Repr

/-- A hint of a bank challenge. -/
structure Hint where
  id : ℤ
  challengeId : Option ℤ
  deriving DecidableEq, Repr

/-- An unlock of a hint, in a contest. -/
structure HintUnlock where
  id : ℤ
  contestId : ℤ
  userId : Option ℤ
  teamId : Option ℤ
  target : Option ℤ
  date : Option ℤ
  deriving DecidableEq, Repr

/-- Two solves of one challenge are by different users and by different teams. -/
def DifferentSolvers (s s' : Submission) : Prop :=
  s.contestChallengeId = s'.contestChallengeId →
    (s.userId = s'.userId → s.userId = none) ∧ (s.teamId = s'.teamId → s.teamId = none)

/-- The tables. A solve is a submission that was correct, and there is one of a challenge for a
user and for a team. -/
structure Db where
  users : List Account
  teams : List Account
  challenges : List Challenge
  contestsChallenges : List ContestsChallenge
  submissions : List Submission
  solves : List Submission
  hints : List Hint
  hintUnlocks : List HintUnlock
  nodup : (contestsChallenges.map (·.id)).Nodup
  submitted : ∀ s ∈ solves, s ∈ submissions ∧ s.type = .correct
  unique : solves.Pairwise DifferentSolvers

/-- The settings: the window of the contest in seconds, 0 where it is open, and the mode. -/
structure Config where
  sql : Collation
  startTs : ℤ
  endTs : ℤ
  teamsMode : Bool

variable (db : Db) (cfg : Config)

/-! ### Rows that count -/

/-- `unix_time_to_utc`, if there is a time. -/
def bound (ts : ℤ) : Option ℤ := if ts = 0 then none else some (ts * 1000000)

/-- `time_filters`. -/
def inWindow (date : Option ℤ) : Bool :=
  (bound cfg.startTs).all (fun t => date.any (t ≤ ·)) &&
    (bound cfg.endTs).all fun t => date.any (· ≤ t)

/-- The account of a user in a team. -/
def account (userId teamId : Option ℤ) : Option ℤ := if cfg.teamsMode then teamId else userId

/-- Is an account joined, and neither banned nor hidden? -/
def isVisible (a : Option ℤ) : Bool :=
  (if cfg.teamsMode then db.teams else db.users).any fun x =>
    decide (a = some x.id) && decide (x.banned = some false) && decide (x.hidden = some false)

/-- The account of a submission. -/
def Submission.account (s : Submission) : Option ℤ := Analytics.account cfg s.userId s.teamId

/-- The account of an unlock. -/
def HintUnlock.account (u : HintUnlock) : Option ℤ := Analytics.account cfg u.userId u.teamId

/-- Does a submission count? -/
def counts (s : Submission) : Bool := isVisible db cfg (s.account cfg) && inWindow cfg s.date

/-- The solves that count. -/
def solveRows : List Submission := db.solves.filter (counts db cfg)

/-- The wrong attempts that count. -/
def failRows : List Submission :=
  db.submissions.filter fun s => decide (s.type = .incorrect) && counts db cfg s

/-- The attempts that count. -/
def attemptRows : List Submission :=
  db.submissions.filter fun s =>
    (decide (s.type = .correct) || decide (s.type = .incorrect)) && counts db cfg s

/-- The bank challenge that an unlocked hint belongs to. -/
def hintChallenge (u : HintUnlock) : Option ℤ :=
  (u.target.bind fun t => db.hints.find? (·.id = t)).bind (·.challengeId)

/-- The unlocks that count, with their bank challenges. -/
def unlockRows : List (HintUnlock × ℤ) :=
  (db.hintUnlocks.filter fun u => isVisible db cfg (u.account cfg) && inWindow cfg u.date).filterMap
    fun u => (hintChallenge db u).map (u, ·)

/-- The bank challenge of a solve. -/
def solveChallenge (s : Submission) : Option ℤ :=
  (db.contestsChallenges.find? (·.id = s.contestChallengeId)).bind (·.bankId)

/-- Is a solve joined with an unlock: by the account, and by the bank challenge? -/
def joined (u : HintUnlock × ℤ) (s : Submission) : Bool :=
  decide (s.account cfg = u.1.account cfg) && inWindow cfg s.date &&
    decide (solveChallenge db s = some u.2)

/-- The unlocks joined with solves. -/
def solverRows : List ((HintUnlock × ℤ) × Submission) :=
  (unlockRows db cfg).flatMap fun u => (db.solves.filter (joined db cfg u)).map (u, ·)

/-! ### The query -/

/-- A row of the query. What is not joined is counted as 0. -/
structure Row where
  id : ℤ
  name : Option String
  category : Option String
  maxAttempts : ℤ
  solveCount : ℕ
  avgSolveSeconds : Option ℚ
  wrongAttempts : ℕ
  totalAttempts : ℕ
  attempterCount : ℕ
  hintUsage : ℕ
  hintCount : ℕ
  solverHintUsage : ℕ
  solversUsedHints : ℕ
  firstSolveDate : Option ℤ
  deriving DecidableEq, Repr

/-- `AVG`: of what there is. -/
def average (values : List ℤ) : Option ℚ :=
  if values = [] then none else some (values.sum / values.length)

/-- The submissions of a challenge. -/
def ofChallenge (rows : List Submission) (cc : ContestsChallenge) : List Submission :=
  ofKey (·.contestChallengeId) rows cc.id

/-- The row of a challenge. -/
def row (c : Challenge) (cc : ContestsChallenge) : Row where
  id := c.id
  name := c.name
  category := c.category
  maxAttempts := cc.maxAttempts.getD 0
  solveCount := (ofChallenge (solveRows db cfg) cc).length
  avgSolveSeconds := (bound cfg.startTs).bind fun t =>
    average ((ofChallenge (solveRows db cfg) cc).filterMap fun s =>
      s.date.map fun d => (d - t).tdiv 1000000)
  wrongAttempts := (ofChallenge (failRows db cfg) cc).length
  totalAttempts := (ofChallenge (attemptRows db cfg) cc).length
  attempterCount := ((ofChallenge (attemptRows db cfg) cc).map (·.account cfg)).dedup.length
  hintUsage := (ofKey (·.2) (unlockRows db cfg) c.id).length
  hintCount := (ofKey (·.challengeId) db.hints (some c.id)).length
  solverHintUsage := (ofKey (·.1.2) (solverRows db cfg) c.id).length
  solversUsedHints :=
    ((ofKey (·.1.2) (solverRows db cfg) c.id).map (·.1.1.account cfg)).dedup.length
  firstSolveDate := ((ofChallenge (solveRows db cfg) cc).filterMap (·.date)).min?

/-- The rows, with the challenges that they are about. -/
def rows : List (ContestsChallenge × Row) :=
  (db.contestsChallenges.filter fun cc =>
    !cfg.sql.eq cc.state "hidden" && !cfg.sql.eq cc.state "locked").filterMap fun cc =>
      (cc.bankId.bind fun id => db.challenges.find? (·.id = id)).map fun c => (cc, row db cfg c cc)

/-- `pct_solvers_used_hints`, before it is rounded. -/
def Row.pctSolversUsedHints (r : Row) : Option ℚ :=
  if 0 < r.solveCount then some (r.solversUsedHints / r.solveCount * 100) else none

/-- `unsolved_attempters`. -/
def Row.unsolvedAttempters (r : Row) : ℕ := r.attempterCount - r.solveCount

/-! ### What is promised -/

/-- The accounts that have solved a challenge. -/
def solvers (cc : ContestsChallenge) : List (Option ℤ) :=
  ((ofChallenge (solveRows db cfg) cc).map (·.account cfg)).dedup

/-- The accounts that have attempted it. -/
def attempters (cc : ContestsChallenge) : List (Option ℤ) :=
  ((ofChallenge (attemptRows db cfg) cc).map (·.account cfg)).dedup

/-- The unlocks of its hints, in its contest. -/
def unlocksOf (cc : ContestsChallenge) : List (HintUnlock × ℤ) :=
  (unlockRows db cfg).filter fun u =>
    decide (cc.bankId = some u.2) && decide (u.1.contestId = cc.contestId)

/-- **A row counts the events of its challenge**, and no others. -/
structure Right (cc : ContestsChallenge) (r : Row) : Prop where
  /-- The solvers that unlocked a hint. -/
  solversUsedHints : r.solversUsedHints = ((solvers db cfg cc).filter fun a =>
    (unlocksOf db cfg cc).any fun u => decide (u.1.account cfg = a)).length
  /-- Their share is a percentage. -/
  percentage : ∀ p ∈ r.pctSolversUsedHints, 0 ≤ p ∧ p ≤ 100
  /-- The unlocks by solvers. -/
  solverHintUsage : r.solverHintUsage = ((unlocksOf db cfg cc).filter fun u =>
    decide (u.1.account cfg ∈ solvers db cfg cc)).length
  /-- The accounts with an attempt and no solve. -/
  unsolved : r.unsolvedAttempters = ((attempters db cfg cc).filter fun a =>
    decide (a ∉ solvers db cfg cc)).length

/-- Whoever has unlocked a hint of the bank challenge and solved an instance of it has unlocked
it in this contest and solved this instance. -/
def OwnEvents (cc : ContestsChallenge) : Prop :=
  ∀ u ∈ unlockRows db cfg, cc.bankId = some u.2 → ∀ s ∈ db.solves, joined db cfg u s = true →
    s.contestChallengeId = cc.id ∧ u.1.contestId = cc.contestId

/-! ### Solvers -/

section Solvers

variable {db cfg} {cc : ContestsChallenge} {u : HintUnlock × ℤ} {s : Submission}
  {a : Option ℤ}

/-- Only accounts are visible. -/
theorem ne_none_of_isVisible (h : isVisible db cfg a = true) : a ≠ none := by
  rintro rfl
  simp [isVisible] at h

/-- Two solves of a challenge by one account are not. -/
theorem not_differentSolvers {s' : Submission} (hcc : s.contestChallengeId = s'.contestChallengeId)
    (haccount : s.account cfg = s'.account cfg) (hne : s.account cfg ≠ none) :
    ¬DifferentSolvers s s' := by
  intro h
  obtain ⟨huser, hteam⟩ := h hcc
  rw [Submission.account, Submission.account, account, account] at haccount
  rw [Submission.account, account] at hne
  split at haccount
  next hmode => exact hne ((if_pos hmode).trans (hteam haccount))
  next hmode => exact hne ((if_neg hmode).trans (huser haccount))

/-- **The solvers of a challenge are as many as its solves.** -/
theorem nodup_accounts (db : Db) (cfg : Config) (cc : ContestsChallenge) :
    ((ofChallenge (solveRows db cfg) cc).map (·.account cfg)).Nodup := by
  refine List.pairwise_map.mpr ?_
  have hunique : (ofChallenge (solveRows db cfg) cc).Pairwise DifferentSolvers :=
    (db.unique.sublist List.filter_sublist).sublist List.filter_sublist
  refine hunique.imp_of_mem fun {s s'} hs hs' hdifferent haccount => ?_
  obtain ⟨hrow, hcc⟩ := mem_ofKey.mp hs
  have hvisible := (Bool.and_eq_true_iff.mp (List.mem_filter.mp hrow).2).1
  exact not_differentSolvers (hcc.trans (mem_ofKey.mp hs').2.symm) haccount
    (ne_none_of_isVisible hvisible) hdifferent

theorem length_solvers :
    (solvers db cfg cc).length = (ofChallenge (solveRows db cfg) cc).length := by
  rw [solvers, (nodup_accounts db cfg cc).dedup, List.length_map]

theorem mem_solvers :
    a ∈ solvers db cfg cc ↔
      ∃ s ∈ db.solves, counts db cfg s = true ∧ s.contestChallengeId = cc.id ∧
        s.account cfg = a := by
  simp only [solvers, List.mem_dedup, List.mem_map, ofChallenge, mem_ofKey, solveRows,
    List.mem_filter]
  constructor
  · rintro ⟨s, ⟨⟨hs, hcounts⟩, hcc⟩, haccount⟩
    exact ⟨s, hs, hcounts, hcc, haccount⟩
  · rintro ⟨s, hs, hcounts, hcc, haccount⟩
    exact ⟨s, ⟨⟨hs, hcounts⟩, hcc⟩, haccount⟩

/-- A solver has made an attempt. -/
theorem solvers_subset : solvers db cfg cc ⊆ attempters db cfg cc := by
  intro a ha
  obtain ⟨s, hs, hcounts, hcc, haccount⟩ := mem_solvers.mp ha
  obtain ⟨hsubmitted, htype⟩ := db.submitted s hs
  refine List.mem_dedup.mpr (List.mem_map.mpr ⟨s, mem_ofKey.mpr ⟨?_, hcc⟩, haccount⟩)
  exact List.mem_filter.mpr ⟨hsubmitted, by simp [htype, hcounts]⟩

/-- Of a list without repetitions, those that are not in a smaller one. -/
theorem length_filter_notMem {l l' : List (Option ℤ)} (hl : l.Nodup) (hl' : l'.Nodup)
    (hsub : l' ⊆ l) : (l.filter fun a => decide (a ∉ l')).length = l.length - l'.length := by
  have hin : (l.filter fun a => decide (a ∈ l')).Perm l' :=
    (List.perm_ext_iff_of_nodup (hl.filter _) hl').mpr fun a => by
      simpa using fun ha => hsub ha
  have hsplit := List.length_eq_length_filter_add (l := l) fun a => decide (a ∈ l')
  rw [hin.length_eq] at hsplit
  simp only [decide_not] at hsplit ⊢
  omega

/-- **Who tried and did not solve** is counted right, whatever the tables hold. -/
theorem unsolvedAttempters_eq (c : Challenge) :
    (row db cfg c cc).unsolvedAttempters = ((attempters db cfg cc).filter fun a =>
      decide (a ∉ solvers db cfg cc)).length := by
  have hsolvers : (solvers db cfg cc).Nodup := List.nodup_dedup _
  have hattempters : (attempters db cfg cc).Nodup := List.nodup_dedup _
  rw [length_filter_notMem hattempters hsolvers solvers_subset, length_solvers]
  rfl

end Solvers

/-! ### Unlocks of solvers -/

section Unlocks

variable {db cfg} {c : Challenge} {cc : ContestsChallenge} {u : HintUnlock × ℤ} {s : Submission}

/-- A flat map, counted: one for every element that has one. -/
theorem length_filter_flatMap {α β : Type} {f : α → List β} {p : β → Bool} {q : α → Bool}
    {l : List α} (h : ∀ x ∈ l, ((f x).filter p).length = if q x then 1 else 0) :
    ((l.flatMap f).filter p).length = (l.filter q).length := by
  induction l with
  | nil => rfl
  | cons x l ih =>
      rw [List.forall_mem_cons] at h
      rw [List.flatMap_cons, List.filter_append, List.length_append, ih h.2, h.1, List.filter_cons]
      split
      next => rw [List.length_cons, Nat.add_comm]
      next => rw [Nat.zero_add]

/-- Is a joined row about a challenge and its contest? -/
def ownRow (cc : ContestsChallenge) (x : (HintUnlock × ℤ) × Submission) : Bool :=
  decide (x.2.contestChallengeId = cc.id) && decide (x.1.1.contestId = cc.contestId)

theorem visible_of_mem_unlockRows (hu : u ∈ unlockRows db cfg) :
    isVisible db cfg (u.1.account cfg) = true := by
  obtain ⟨unlock, hunlock, hrow⟩ := List.mem_filterMap.mp hu
  obtain ⟨b, -, rfl⟩ := Option.map_eq_some_iff.mp hrow
  exact (Bool.and_eq_true_iff.mp (List.mem_filter.mp hunlock).2).1

/-- The bank challenge of a solve of a challenge. -/
theorem solveChallenge_eq (hcc : cc ∈ db.contestsChallenges)
    (hs : s.contestChallengeId = cc.id) : solveChallenge db s = cc.bankId := by
  rw [solveChallenge, hs, find?_key db.nodup hcc, Option.bind_some]

/-- A solve of a challenge is joined with the unlocks of its hints by its solver. -/
theorem joined_iff (hcc : cc ∈ db.contestsChallenges) (hs : s.contestChallengeId = cc.id) :
    joined db cfg u s = true ↔
      s.account cfg = u.1.account cfg ∧ inWindow cfg s.date = true ∧ cc.bankId = some u.2 := by
  rw [joined, Bool.and_eq_true, Bool.and_eq_true, decide_eq_true_eq, decide_eq_true_eq,
    solveChallenge_eq hcc hs, and_assoc]

/-- A list of which no two elements go together has at most one. -/
theorem length_le_one_of_pairwise {α : Type} {l : List α} (h : l.Pairwise fun _ _ => False) :
    l.length ≤ 1 := by
  match l with
  | [] => exact Nat.zero_le 1
  | [_] => exact le_rfl
  | x :: y :: l => exact ((List.pairwise_cons.mp h).1 y List.mem_cons_self).elim

/-- The solves of a challenge that an unlock of its hints is joined with: one if its account is a
solver. -/
theorem length_ownRows (hcc : cc ∈ db.contestsChallenges) (hbank : cc.bankId = some c.id)
    (hu : u ∈ unlockRows db cfg) :
    (((db.solves.filter (joined db cfg u)).map (u, ·)).filter fun x =>
        ownRow cc x && decide (x.1.2 = c.id)).length =
      if decide (u.1.account cfg ∈ solvers db cfg cc) &&
        (decide (cc.bankId = some u.2) && decide (u.1.contestId = cc.contestId)) then 1 else 0 := by
  rw [List.filter_map, List.length_map, List.filter_filter]
  have hmem : ∀ s, s ∈ db.solves.filter (fun s =>
        ((fun x => ownRow cc x && decide (x.1.2 = c.id)) ∘ fun s => (u, s)) s &&
          joined db cfg u s) ↔
      s ∈ db.solves ∧ s.contestChallengeId = cc.id ∧ u.1.contestId = cc.contestId ∧
        u.2 = c.id ∧ s.account cfg = u.1.account cfg ∧ inWindow cfg s.date = true := by
    intro s
    simp only [List.mem_filter, Function.comp, ownRow, Bool.and_eq_true, decide_eq_true_eq]
    constructor
    · rintro ⟨hs, ⟨⟨hid, hcontest⟩, hu2⟩, hjoined⟩
      obtain ⟨haccount, hdate, -⟩ := (joined_iff hcc hid).mp hjoined
      exact ⟨hs, hid, hcontest, hu2, haccount, hdate⟩
    · rintro ⟨hs, hid, hcontest, hu2, haccount, hdate⟩
      exact ⟨hs, ⟨⟨hid, hcontest⟩, hu2⟩,
        (joined_iff hcc hid).mpr ⟨haccount, hdate, by rw [hbank, hu2]⟩⟩
  have hvisible := visible_of_mem_unlockRows hu
  split
  next hown =>
    simp only [Bool.and_eq_true, decide_eq_true_eq] at hown
    obtain ⟨hsolver, hbank', hcontest⟩ := hown
    obtain ⟨s, hs, hcounts, hid, haccount⟩ := mem_solvers.mp hsolver
    have hdate := (Bool.and_eq_true_iff.mp hcounts).2
    have hu2 : u.2 = c.id := Option.some.inj (hbank'.symm.trans hbank)
    refine le_antisymm (length_le_one_of_pairwise ?_)
      (List.length_pos_of_mem ((hmem s).mpr ⟨hs, hid, hcontest, hu2, haccount, hdate⟩))
    refine (db.unique.sublist List.filter_sublist).imp_of_mem fun {s s'} hs hs' hdifferent => ?_
    obtain ⟨-, hid, -, -, haccount, -⟩ := (hmem s).mp hs
    obtain ⟨-, hid', -, -, haccount', -⟩ := (hmem s').mp hs'
    exact not_differentSolvers (hid.trans hid'.symm) (haccount.trans haccount'.symm)
      (haccount ▸ ne_none_of_isVisible hvisible) hdifferent
  next hown =>
    refine List.length_eq_zero_iff.mpr (List.eq_nil_iff_forall_not_mem.mpr fun s hs => hown ?_)
    obtain ⟨hs, hid, hcontest, hu2, haccount, hdate⟩ := (hmem s).mp hs
    have hcounts : counts db cfg s = true := by
      rw [counts, haccount, hvisible, hdate]
      rfl
    have hsolver := mem_solvers.mpr ⟨s, hs, hcounts, hid, haccount⟩
    simp [hsolver, hbank, hu2, hcontest]

/-- **What the unlocks of the solvers of one challenge amount to**: the joined rows that are about
it. -/
theorem solverHintUsage_own (hcc : cc ∈ db.contestsChallenges) (hbank : cc.bankId = some c.id) :
    ((ofKey (·.1.2) (solverRows db cfg) c.id).filter (ownRow cc)).length =
      ((unlocksOf db cfg cc).filter fun u =>
        decide (u.1.account cfg ∈ solvers db cfg cc)).length := by
  rw [ofKey, List.filter_filter, unlocksOf, List.filter_filter, solverRows]
  exact length_filter_flatMap fun u hu => length_ownRows hcc hbank hu

/-- **The unlocks are counted right** if every joined row is about the challenge. -/
theorem solverHintUsage_iff (hcc : cc ∈ db.contestsChallenges) (hbank : cc.bankId = some c.id) :
    (row db cfg c cc).solverHintUsage = ((unlocksOf db cfg cc).filter fun u =>
        decide (u.1.account cfg ∈ solvers db cfg cc)).length ↔ OwnEvents db cfg cc := by
  rw [← solverHintUsage_own hcc hbank, eq_comm]
  refine List.length_filter_eq_length_iff.trans ?_
  simp only [OwnEvents, mem_ofKey, solverRows, List.mem_flatMap, List.mem_map, List.mem_filter]
  constructor
  · intro h u hu hu2 s hs hjoined
    have hown := h (u, s) ⟨⟨u, hu, s, ⟨hs, hjoined⟩, rfl⟩,
      Option.some.inj (hu2.symm.trans hbank)⟩
    simpa [ownRow] using hown
  · rintro h x ⟨⟨u, hu, s, ⟨hs, hjoined⟩, rfl⟩, hu2⟩
    have hown := h u hu (by rw [hbank, hu2]) s hs hjoined
    simpa [ownRow] using hown

/-- The solvers that unlocked a hint, if every joined row is about the challenge. -/
theorem solversUsedHints_eq (hcc : cc ∈ db.contestsChallenges) (hbank : cc.bankId = some c.id)
    (hown : OwnEvents db cfg cc) :
    (row db cfg c cc).solversUsedHints = ((solvers db cfg cc).filter fun a =>
      (unlocksOf db cfg cc).any fun u => decide (u.1.account cfg = a)).length := by
  have hsolvers : (solvers db cfg cc).Nodup := List.nodup_dedup _
  refine List.Perm.length_eq ((List.perm_ext_iff_of_nodup (List.nodup_dedup _)
    (hsolvers.filter _)).mpr fun a => ?_)
  simp only [List.mem_dedup, List.mem_map, mem_ofKey, List.mem_filter, solverRows,
    List.mem_flatMap, List.any_eq_true, decide_eq_true_eq]
  constructor
  · rintro ⟨x, ⟨⟨u, hu, s, ⟨hs, hjoined⟩, rfl⟩, hu2⟩, rfl⟩
    have hbank' : cc.bankId = some u.2 := by rw [hbank, hu2]
    obtain ⟨hid, hcontest⟩ := hown u hu hbank' s hs hjoined
    obtain ⟨haccount, hdate, -⟩ := (joined_iff hcc hid).mp hjoined
    have hcounts : counts db cfg s = true := by
      rw [counts, haccount, visible_of_mem_unlockRows hu, hdate]
      rfl
    refine ⟨mem_solvers.mpr ⟨s, hs, hcounts, hid, haccount⟩, u, ?_, rfl⟩
    exact List.mem_filter.mpr ⟨hu, by simp [hbank', hcontest]⟩
  · rintro ⟨hsolver, u, hu, rfl⟩
    obtain ⟨hu, hbank', -⟩ : u ∈ unlockRows db cfg ∧ cc.bankId = some u.2 ∧
        u.1.contestId = cc.contestId := by simpa [unlocksOf] using hu
    obtain ⟨s, hs, hcounts, hid, haccount⟩ := mem_solvers.mp hsolver
    have hjoined := (joined_iff hcc hid).mpr
      ⟨haccount, (Bool.and_eq_true_iff.mp hcounts).2, hbank'⟩
    exact ⟨(u, s), ⟨⟨u, hu, s, ⟨hs, hjoined⟩, rfl⟩, Option.some.inj (hbank'.symm.trans hbank)⟩,
      rfl⟩

/-- A share of not more than all is a percentage. -/
theorem percentage_of_le {r : Row} (h : r.solversUsedHints ≤ r.solveCount) :
    ∀ p ∈ r.pctSolversUsedHints, 0 ≤ p ∧ p ≤ 100 := by
  intro p hp
  rw [Row.pctSolversUsedHints, Option.mem_def] at hp
  split at hp
  next hpos =>
    obtain rfl := Option.some.inj hp
    have hsolve : (0 : ℚ) < r.solveCount := by exact_mod_cast hpos
    have hshare : (r.solversUsedHints : ℚ) / r.solveCount ≤ 1 :=
      (div_le_one hsolve).mpr (by exact_mod_cast h)
    exact ⟨by positivity, by linarith⟩
  next => cases hp

end Unlocks

/-- **When a row is about its own challenge**: if whoever has unlocked a hint of its bank challenge
and solved an instance of that has unlocked it in this contest and solved this instance. -/
theorem right_iff_ownEvents {db : Db} {cfg : Config} {x : ContestsChallenge × Row}
    (h : x ∈ rows db cfg) :
    Right db cfg x.1 x.2 ↔ OwnEvents db cfg x.1 := by
  obtain ⟨cc, hcc, hrow⟩ := List.mem_filterMap.mp h
  obtain ⟨c, hjoin, rfl⟩ := Option.map_eq_some_iff.mp hrow
  obtain ⟨b, hb, hfind⟩ := Option.bind_eq_some_iff.mp hjoin
  have hid := List.find?_some (p := fun c : Challenge => decide (c.id = b)) hfind
  have hbank : cc.bankId = some c.id := by rw [hb, of_decide_eq_true hid]
  have hmem := (List.mem_filter.mp hcc).1
  refine ⟨fun hright => (solverHintUsage_iff hmem hbank).mp hright.solverHintUsage,
    fun hown => ?_⟩
  have hused := solversUsedHints_eq hmem hbank hown
  refine ⟨hused, percentage_of_le ?_, (solverHintUsage_iff hmem hbank).mpr hown,
    unsolvedAttempters_eq c⟩
  rw [hused]
  exact (List.length_filter_le _ _).trans length_solvers.le

/-- One bank challenge in two contests. In the first one users 1 and 2 unlock its hint and solve it,
in the second one user 3 solves it without. -/
def imported : Db where
  users := [⟨1, some false, some false⟩, ⟨2, some false, some false⟩, ⟨3, some false, some false⟩]
  teams := []
  challenges := [⟨7, some "a", none⟩]
  contestsChallenges := [⟨1, 1, some 7, none, "visible"⟩, ⟨2, 2, some 7, none, "visible"⟩]
  submissions := [⟨1, 1, some 1, none, .correct, some 5⟩, ⟨2, 1, some 2, none, .correct, some 6⟩,
    ⟨3, 2, some 3, none, .correct, some 7⟩]
  solves := [⟨1, 1, some 1, none, .correct, some 5⟩, ⟨2, 1, some 2, none, .correct, some 6⟩,
    ⟨3, 2, some 3, none, .correct, some 7⟩]
  hints := [⟨4, some 7⟩]
  hintUnlocks := [⟨1, 1, some 1, none, some 4, some 1⟩, ⟨2, 1, some 2, none, some 4, some 2⟩]
  nodup := by decide
  submitted := by decide
  unique := by
    unfold DifferentSolvers
    decide

/-- The mode of users, without a window. -/
def anyTime : Config := ⟨Collation.binary, 0, 0, false⟩

/-- The rows of the two contests. -/
def importedRow (cc : ContestsChallenge) : Row := row imported anyTime ⟨7, some "a", none⟩ cc

/-- The challenge of the first contest. -/
def first : ContestsChallenge := ⟨1, 1, some 7, none, "visible"⟩

/-- The challenge of the second one. -/
def second : ContestsChallenge := ⟨2, 2, some 7, none, "visible"⟩

theorem right_iff_ownEvents_imported :
    Right imported anyTime first (importedRow first) ↔ OwnEvents imported anyTime first :=
  @right_iff_ownEvents _ _ ⟨first, importedRow first⟩ (by decide +kernel)

theorem not_right_imported :
    (second, importedRow second) ∈ rows imported anyTime ∧
      (importedRow second).pctSolversUsedHints = some 200 ∧
      ¬Right imported anyTime second (importedRow second) := by
  have hpct : (importedRow second).pctSolversUsedHints = some 200 := by decide +kernel
  refine ⟨by decide +kernel, hpct, fun h => ?_⟩
  exact absurd (h.percentage 200 hpct).2 (by norm_num)

end Fctf.Analytics
