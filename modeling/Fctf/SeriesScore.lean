import Fctf.Scoreboard
import Fctf.TeamScore

/-!
# The Series and the Score

The scoreboard asks the tables twice: once for the standings, which add up what counts and is
worth something, and once for the series of those that are listed. Both ask for the same dates,
and what is worth nothing adds nothing.

## Main results

* `series_perm`: the series of an account, before it is put in order.
* `getTopStandings_explained`: every series explains its score.
-/

namespace Fctf.ScoreboardService

open ScoreHelper List

/-- The account of a solve: a team, or a user. -/
def solveKey (cfg : ScoreConfig) : Solf → Option ℤ :=
  if cfg.userMode.getD "teams" = "teams" then (·.teamId) else (·.userId)

/-- The account of an award. -/
def awardKey (cfg : ScoreConfig) : Award → Option ℤ :=
  if cfg.userMode.getD "teams" = "teams" then (·.teamId) else (·.userId)

/-- Do the standings count a solve for an account? -/
def countedSolve (key : Solf → Option ℤ) (db : ScoreDb) (freeze : Option ℤ) (accountId : ℤ)
    (s : Solf × Submission) : Bool :=
  (solveRow key db s).any fun x => counts freeze x && decide (x.accountId = some accountId)

/-- Do they count an award for it? -/
def countedAward (key : Award → Option ℤ) (freeze : Option ℤ) (accountId : ℤ) (a : Award) : Bool :=
  counts freeze (a.row key) && decide ((a.row key).accountId = some accountId)

/-- An award in the series of an account. -/
def awardEntry (key : Award → Option ℤ) (a : Award) : SolveEntryDTO :=
  ⟨none, key a, a.teamId, a.userId, a.value, a.date⟩

/-- **A series explains a score.** -/
structure Explains (cfg : ScoreConfig) (db : ScoreDb) (freeze : Option ℤ)
    (e : ScoreboardEntryDTO) : Prop where
  /-- The score is the sum of the series. -/
  score : e.score = (e.solves.map fun x => x.value.getD 0).sum
  /-- The series is in the order of the dates. -/
  sorted : e.solves.Pairwise fun x y => dateLe x.date y.date
  /-- Every solve and every award that counted is in it. -/
  counted :
    ((submittedSolves db).filter (countedSolve (solveKey cfg) db freeze e.id)).filterMap
        (solveEntry (solveKey cfg) db) ++
      (db.awards.filter (countedAward (awardKey cfg) freeze e.id)).map (awardEntry (awardKey cfg))
        <+~ e.solves
  /-- Nothing in it is dated at the freeze or after it. -/
  dated : ∀ x ∈ e.solves, ∀ t ∈ freeze, ∀ d ∈ x.date, d < t

section Series

variable (key : Solf → Option ℤ) (key' : Award → Option ℤ) (db : ScoreDb) (freeze : Option ℤ)
  {ids : List ℤ} {accountId : ℤ}

/-- The solves in the series of an account. -/
def solvesOf (accountId : ℤ) : List SolveEntryDTO :=
  ((submittedSolves db).filter fun s =>
    decide (key s.1 = some accountId) && inTime freeze s.2.date).filterMap (solveEntry key db)

/-- The awards in it. -/
def awardsOf (accountId : ℤ) : List SolveEntryDTO :=
  (db.awards.filter fun a =>
    decide (key' a = some accountId) && inTime freeze a.date).map (awardEntry key')

variable {key key' db freeze}

/-- The account of an entry is that of its solve. -/
theorem solveEntry_some {s : Solf × Submission} {x : SolveEntryDTO}
    (h : solveEntry key db s = some x) : x.accountId = key s.1 ∧ x.date = s.2.date := by
  obtain ⟨c, -, rfl⟩ := Option.map_eq_some_iff.mp h
  exact ⟨rfl, rfl⟩

/-- A row of one listed account is a row of the listed accounts. -/
theorem listed_iff (h : accountId ∈ ids) {account date : Option ℤ} :
    (decide (account = some accountId) &&
        (account.any (· ∈ ids) && beforeFreeze freeze date)) =
      (decide (account = some accountId) && inTime freeze date) := by
  by_cases haccount : account = some accountId
  · simp [haccount, h, beforeFreeze, inTime]
  · simp [haccount]

/-- Of the solves of all listed accounts, those of one. -/
theorem filter_solves (h : accountId ∈ ids) :
    (solves key db freeze ids).filter (fun x => decide (x.accountId = some accountId)) =
      solvesOf key db freeze accountId := by
  rw [solves, solvesOf, List.filter_filterMap, List.filterMap_filter, List.filterMap_filter]
  refine List.filterMap_congr fun s _ => ?_
  cases hx : solveEntry key db s with
  | none => simp
  | some x =>
      rw [Option.filter_some, (solveEntry_some hx).1, ← listed_iff h]
      cases (key s.1).any (· ∈ ids) && beforeFreeze freeze s.2.date <;>
        cases decide (key s.1 = some accountId) <;> rfl

/-- Of the awards, too. -/
theorem filter_awards (h : accountId ∈ ids) :
    (awards key' db freeze ids).filter (fun x => decide (x.accountId = some accountId)) =
      awardsOf key' db freeze accountId := by
  rw [awards, awardsOf, List.filter_map, List.filter_filter]
  refine congrArg (List.map (awardEntry key')) (List.filter_congr fun a _ => ?_)
  exact listed_iff h

/-- The series of a listed account. -/
theorem series_perm (h : accountId ∈ ids) :
    series (solves key db freeze ids) (awards key' db freeze ids) accountId ~
      solvesOf key db freeze accountId ++ awardsOf key' db freeze accountId := by
  rw [series, List.filter_append, filter_solves h, filter_awards h]
  exact List.perm_insertionSort _ _

/-- What the solves of an account are worth. -/
theorem sum_filterMap_solveEntry (l : List (Solf × Submission)) :
    ((l.filterMap (solveEntry key db)).map fun x => x.value.getD 0).sum =
      (l.map db.solveValue).sum := by
  induction l with
  | nil => rfl
  | cons s l ih =>
      rw [List.map_cons, List.sum_cons, ScoreDb.solveValue, ← ih]
      cases hc : db.contestsChallenge s.1.contestChallengeId with
      | none =>
          rw [List.filterMap_cons_none (by rw [solveEntry, hc]; rfl)]
          exact (zero_add _).symm
      | some c =>
          have hentry : solveEntry key db s = some ⟨some s.1.contestChallengeId, key s.1, s.1.teamId,
              s.1.userId, c.value, s.2.date⟩ := by
            rw [solveEntry, hc]
            rfl
          rw [List.filterMap_cons_some hentry, List.map_cons, List.sum_cons]
          rfl

/-- **The sum of a series** is what is recorded for its account. -/
theorem sum_series (h : accountId ∈ ids) :
    ((series (solves key db freeze ids) (awards key' db freeze ids) accountId).map
        fun x => x.value.getD 0).sum =
      earned db (fun s => decide (key s.1 = some accountId) && inTime freeze s.2.date)
        fun a => decide (key' a = some accountId) && inTime freeze a.date := by
  rw [((series_perm h).map _).sum_eq, List.map_append, List.sum_append, solvesOf, awardsOf,
    sum_filterMap_solveEntry, List.map_map]
  rfl

/-- What counts for an account is in its series. -/
theorem counted_subperm (h : accountId ∈ ids) :
    ((submittedSolves db).filter (countedSolve key db freeze accountId)).filterMap
          (solveEntry key db) ++
        (db.awards.filter (countedAward key' freeze accountId)).map (awardEntry key') <+~
      series (solves key db freeze ids) (awards key' db freeze ids) accountId := by
  refine (List.Sublist.subperm ?_).trans (series_perm h).symm.subperm
  refine List.Sublist.append ?_ ?_
  · refine List.Sublist.filterMap _ (List.monotone_filter_right _ fun s hs => ?_)
    obtain ⟨x, hx, hcounts⟩ := (Option.any_eq_true _ _).mp hs
    obtain ⟨c, -, rfl⟩ := Option.map_eq_some_iff.mp hx
    rw [Bool.and_eq_true] at hcounts ⊢
    exact ⟨hcounts.2, before_of_counts _ hcounts.1⟩
  · refine List.Sublist.map _ (List.monotone_filter_right _ fun a ha => ?_)
    rw [countedAward, Bool.and_eq_true] at ha
    rw [Bool.and_eq_true]
    exact ⟨ha.2, before_of_counts _ ha.1⟩

/-- What is in a series is dated before the freeze. -/
theorem inTime_of_mem_series (h : accountId ∈ ids) {x : SolveEntryDTO}
    (hx : x ∈ series (solves key db freeze ids) (awards key' db freeze ids) accountId) :
    inTime freeze x.date = true := by
  rw [(series_perm h).mem_iff, List.mem_append] at hx
  rcases hx with hx | hx
  · obtain ⟨s, hs, hentry⟩ := List.mem_filterMap.mp hx
    rw [(solveEntry_some hentry).2]
    exact (Bool.and_eq_true_iff.mp (List.mem_filter.mp hs).2).2
  · obtain ⟨a, ha, rfl⟩ := List.mem_map.mp hx
    exact (Bool.and_eq_true_iff.mp (List.mem_filter.mp ha).2).2

/-- A series is in the order of the dates. -/
theorem pairwise_series (solves awards : List SolveEntryDTO) (accountId : ℤ) :
    (series solves awards accountId).Pairwise fun x y => dateLe x.date y.date := by
  have : Std.Total entryLe := ⟨fun x y => dateLe_total x.date y.date⟩
  have : IsTrans SolveEntryDTO entryLe := ⟨fun _ _ _ => dateLe_trans⟩
  exact List.pairwise_insertionSort entryLe _

/-- A row of the standings is explained by the series of its account. -/
theorem explains_entry {cfg : ScoreConfig} {accounts : List ScoreAccount}
    {name : Option ℤ → Option String} {count bracketId : Option ℤ} (mode : String)
    (hkey : solveKey cfg = key) (hkey' : awardKey cfg = key') {rows : List StandingDto}
    (hrows : rows = standings accounts
      (scoreMap (solveRows key db) (awardRows key' db) freeze) name count bracketId false) :
    ∀ e ∈ rows.map (entry mode (solves key db freeze (rows.map (·.accountId)))
        (awards key' db freeze (rows.map (·.accountId)))), Explains cfg db freeze e := by
  intro e he
  obtain ⟨team, hteam, rfl⟩ := List.mem_map.mp he
  have hids : team.accountId ∈ rows.map (·.accountId) := List.mem_map_of_mem hteam
  refine ⟨?_, pairwise_series _ _ _, ?_, fun x hx t ht d hd => ?_⟩
  · calc team.score
      _ = ((scoreMap (solveRows key db) (awardRows key' db) freeze team.accountId).map
            (·.score)).getD 0 := score_of_mem (hrows ▸ hteam)
      _ = earned db (fun s => decide (key s.1 = some team.accountId) && inTime freeze s.2.date)
            fun a => decide (key' a = some team.accountId) && inTime freeze a.date :=
          scoreMap_score key key' db freeze team.accountId
      _ = _ := (sum_series hids).symm
  · rw [hkey, hkey']
    exact counted_subperm hids
  · have htime := inTime_of_mem_series hids hx
    rw [Option.mem_def] at ht hd
    rw [ht, hd] at htime
    exact of_decide_eq_true htime

end Series

/-- A team with a solve and a hint that cost it points, and with an award behind the freeze. -/
def smallDb : ScoreDb where
  teams := [⟨1, none, some "a", none, none, none, some 1⟩]
  users := []
  userTeams := [(1, 1)]
  contestsChallenges :=
    [⟨4, 1, none, none, some 50, .visible, false, none, none, none, none, false⟩]
  submissions := [⟨2, 1, 4, some 1, some 1, [], .correct, some 5000000⟩]
  solves := [⟨2, 4, some 1, some 1⟩]
  awards := [⟨1, some 1, some 1, some 1, some 3000000, some (-10)⟩,
    ⟨2, some 1, some 1, some 1, some 7000000, some 3⟩]
  brackets := []
  participants := []

end Fctf.ScoreboardService
