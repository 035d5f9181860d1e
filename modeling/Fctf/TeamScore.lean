import Fctf.Scores
import Mathlib.Tactic.Linarith

/-!
# The Score of a Team

`GetTeamScore` adds up everything the members of a team have, in whatever contest and for
whatever team it is recorded. The standings add up what is recorded for the team. The two
agree, and the score is a matter of one contest, only as far as the sums happen to.

## Main results

* `getTeamScore_eq`, `teamEntries_score`: the two scores as sums over solves and awards.
* `contestScore_iff`: exactly when the score does not depend on other contests and is the
  one of the standings.
* `not_contestScore`: a member with an award in another contest.
-/

namespace Fctf

/-! ### Sums over solves and awards -/

/-- The points of a challenge, as far as it has any. -/
def ScoreDb.solveValue (db : ScoreDb) (s : Solf × Submission) : ℤ :=
  ((db.contestsChallenge s.1.contestChallengeId).bind (·.value)).getD 0

/-- The points of some solves and some awards. -/
def earned (db : ScoreDb) (solve : Solf × Submission → Bool) (award : Award → Bool) : ℤ :=
  (((submittedSolves db).filter solve).map db.solveValue).sum +
    ((db.awards.filter award).map fun a => a.value.getD 0).sum

/-- A sum over a list is split by a predicate. -/
theorem sum_filter_split {α : Type} (f : α → ℤ) (p q : α → Bool) (l : List α) :
    ((l.filter p).map f).sum =
      ((l.filter fun x => p x && q x).map f).sum +
        ((l.filter fun x => p x && !q x).map f).sum := by
  induction l with
  | nil => rfl
  | cons x l ih =>
      cases hp : p x with
      | false =>
          simp only [List.filter_cons, hp, Bool.false_and, Bool.false_eq_true, if_false]
          exact ih
      | true =>
          cases hq : q x <;>
            simp only [List.filter_cons, hp, hq, Bool.and_true, Bool.and_false, Bool.not_true,
              Bool.not_false, Bool.false_eq_true, if_true, if_false, List.map_cons,
              List.sum_cons, ih] <;> omega

/-- What is earned is split by predicates on solves and awards. -/
theorem earned_split (db : ScoreDb) (solve solve' : Solf × Submission → Bool)
    (award award' : Award → Bool) :
    earned db solve award =
      earned db (fun s => solve s && solve' s) (fun a => award a && award' a) +
        earned db (fun s => solve s && !solve' s) (fun a => award a && !award' a) := by
  rw [earned, sum_filter_split db.solveValue solve solve',
    sum_filter_split (fun a : Award => a.value.getD 0) award award', earned, earned]
  omega

theorem earned_congr (db : ScoreDb) {solve solve' : Solf × Submission → Bool}
    {award award' : Award → Bool} (hs : ∀ s, solve s = solve' s) (ha : ∀ a, award a = award' a) :
    earned db solve award = earned db solve' award' := by
  rw [funext hs, funext ha]

/-- The points of the rows of solves that satisfy a predicate on the account and the date. -/
theorem points_solveRows (key : Solf → Option ℤ) (db : ScoreDb)
    (q : Option ℤ → Option ℤ → Bool) :
    points ((solveRows key db).filter fun x => q x.accountId x.date) =
      (((submittedSolves db).filter fun s => q (key s.1) s.2.date).map db.solveValue).sum := by
  rw [solveRows]
  induction submittedSolves db with
  | nil => rfl
  | cons s l ih =>
      rw [List.filter_cons]
      cases hcc : db.contestsChallenge s.1.contestChallengeId with
      | none =>
          have hnone : solveRow key db s = none := by rw [solveRow, hcc]; rfl
          have hzero : db.solveValue s = 0 := by rw [ScoreDb.solveValue, hcc]; rfl
          rw [List.filterMap_cons_none hnone, ih]
          split
          · rw [List.map_cons, List.sum_cons, hzero, zero_add]
          · rfl
      | some c =>
          have hsome : solveRow key db s = some ⟨key s.1, c.value.getD 0, s.1.id, s.2.date⟩ := by
            rw [solveRow, hcc]
            rfl
          have hvalue : db.solveValue s = c.value.getD 0 := by rw [ScoreDb.solveValue, hcc]; rfl
          rw [List.filterMap_cons_some hsome, List.filter_cons]
          dsimp only
          split
          · rw [points_cons, ih, List.map_cons, List.sum_cons, hvalue]
          · exact ih

/-- The same for awards. -/
theorem points_awardRows (key : Award → Option ℤ) (db : ScoreDb)
    (q : Option ℤ → Option ℤ → Bool) :
    points ((awardRows key db).filter fun x => q x.accountId x.date) =
      ((db.awards.filter fun a => q (key a) a.date).map fun a => a.value.getD 0).sum := by
  rw [awardRows, List.filter_map, points, List.map_map]
  rfl

/-! ### The two scores -/

namespace ScoreHelper

/-- Is a date before the freeze, if there is one? -/
def inTime (freeze date : Option ℤ) : Bool := freeze.all fun t => date.any (· < t)

section Scores

variable (db : ScoreDb) (freeze : Option ℤ) (teamId : ℤ)

/-- Does a solve count for a member of the team? -/
def solvedByMember (s : Solf × Submission) : Bool :=
  s.1.userId.any (· ∈ memberIds db teamId) && inTime freeze s.2.date

/-- Does an award count for a member of the team? -/
def awardedToMember (a : Award) : Bool :=
  a.userId.any (· ∈ memberIds db teamId) && inTime freeze a.date

/-- Is a solve recorded for the team? -/
def solvedForTeam (s : Solf × Submission) : Bool :=
  decide (s.1.teamId = some teamId) && inTime freeze s.2.date

/-- Is an award recorded for the team? -/
def awardedForTeam (a : Award) : Bool :=
  decide (a.teamId = some teamId) && inTime freeze a.date

/-- The score the standings assign to a team. -/
def standingScore : ℤ := ((teamEntries db freeze teamId).map (·.score)).getD 0

end Scores

/-- **The score of a team** is what its members have. -/
theorem getTeamScore_eq (cfg : ScoreConfig) (db : ScoreDb) (team : ScoreAccount)
    (admin : Bool) :
    getTeamScore cfg db team admin =
      earned db (solvedByMember db (freezeOf cfg admin) team.id)
        (awardedToMember db (freezeOf cfg admin) team.id) := by
  have hsum : points ((solveRows (·.userId) db).filter
        (ofUsers (memberIds db team.id) (freezeOf cfg admin))) +
      points ((awardRows (·.userId) db).filter
        (ofUsers (memberIds db team.id) (freezeOf cfg admin))) =
      earned db (solvedByMember db (freezeOf cfg admin) team.id)
        (awardedToMember db (freezeOf cfg admin) team.id) := by
    refine congrArg₂ (· + ·) ?_ ?_
    · exact points_solveRows (·.userId) db fun account date =>
        account.any (· ∈ memberIds db team.id) && inTime (freezeOf cfg admin) date
    · exact points_awardRows (·.userId) db fun account date =>
        account.any (· ∈ memberIds db team.id) && inTime (freezeOf cfg admin) date
  rw [getTeamScore]
  split
  · -- a team without members has no solves and no awards
    next hempty =>
      have hnone : ∀ (userId : Option ℤ) (b : Bool),
          (userId.any (· ∈ memberIds db team.id) && b) = false := by
        rw [List.isEmpty_iff.mp hempty]
        intro userId b
        cases userId <;> simp
      calc (0 : ℤ) = earned db (fun _ => false) fun _ => false := by
            rw [earned, List.filter_false, List.filter_false]
            rfl
        _ = _ := earned_congr db (fun s => (hnone _ _).symm) fun a => (hnone _ _).symm
  · exact hsum

/-- Rows without points do not matter. -/
theorem points_filter_counts (rows : List ScoreRow) (freeze : Option ℤ) (accountId : ℤ) :
    points ((rows.filter (counts freeze)).filter fun x => x.accountId = some accountId) =
      points (rows.filter fun x =>
        decide (x.accountId = some accountId) && inTime freeze x.date) := by
  induction rows with
  | nil => rfl
  | cons x rows ih =>
      rw [List.filter_filter] at ih ⊢
      rw [List.filter_cons, List.filter_cons]
      by_cases hacc : x.accountId = some accountId
      · by_cases htime : inTime freeze x.date = true
        · by_cases hvalue : x.value = 0
          · have hcounts : counts freeze x = false := by simp [counts, hvalue]
            simp [hacc, htime, hcounts, hvalue, ih]
          · have hcounts : counts freeze x = true := by
              have hbefore : x.before freeze = true := htime
              simp [counts, hacc, hvalue, hbefore]
            simp [hacc, htime, hcounts, ih]
        · have hcounts : counts freeze x = false := by
            have hbefore : x.before freeze = false := Bool.eq_false_of_not_eq_true htime
            simp [counts, hbefore]
          simp [htime, hcounts, ih]
      · simp [hacc, ih]

theorem group_score (rows : List ScoreRow) (accountId : ℤ) :
    ((group rows accountId).map (·.score)).getD 0 =
      points (rows.filter fun x => x.accountId = some accountId) := by
  rw [group]
  split
  · next hempty =>
      rw [List.isEmpty_iff.mp hempty]
      rfl
  · rfl

theorem merge_score (e a : Option Entry) :
    ((merge e a).map (·.score)).getD 0 =
      (e.map (·.score)).getD 0 + (a.map (·.score)).getD 0 := by
  cases e with
  | none => exact (zero_add _).symm
  | some e =>
      cases a with
      | none => exact (add_zero _).symm
      | some a => rfl

/-- The score of an account in the standings: what is recorded for it. -/
theorem scoreMap_score (solveKey : Solf → Option ℤ) (awardKey : Award → Option ℤ) (db : ScoreDb)
    (freeze : Option ℤ) (accountId : ℤ) :
    ((scoreMap (solveRows solveKey db) (awardRows awardKey db) freeze accountId).map
        (·.score)).getD 0 =
      earned db (fun s => decide (solveKey s.1 = some accountId) && inTime freeze s.2.date)
        fun a => decide (awardKey a = some accountId) && inTime freeze a.date := by
  rw [scoreMap, merge_score, group_score, group_score, points_filter_counts,
    points_filter_counts]
  refine congrArg₂ (· + ·) ?_ ?_
  · exact points_solveRows solveKey db fun account date =>
      decide (account = some accountId) && inTime freeze date
  · exact points_awardRows awardKey db fun account date =>
      decide (account = some accountId) && inTime freeze date

/-- **The score of the standings** is what is recorded for the team. -/
theorem teamEntries_score (db : ScoreDb) (freeze : Option ℤ) (teamId : ℤ) :
    standingScore db freeze teamId =
      earned db (solvedForTeam freeze teamId) (awardedForTeam freeze teamId) :=
  scoreMap_score (·.teamId) (·.teamId) db freeze teamId

/-- A row of the standings has the score of its account's entry. -/
theorem score_of_mem {accounts : List ScoreAccount} {entries : ℤ → Option Entry}
    {name : Option ℤ → Option String} {count bracketId : Option ℤ} {admin : Bool}
    {row : StandingDto} (h : row ∈ standings accounts entries name count bracketId admin) :
    row.score = ((entries row.accountId).map (·.score)).getD 0 := by
  have hmem : row ∈ (accounts.filter (listed entries bracketId admin)).map
      (standing entries name) := by
    rw [standings] at h
    cases count with
    | none => exact (List.mem_insertionSort _).mp h
    | some n => exact (List.mem_insertionSort _).mp (List.mem_of_mem_take h)
  obtain ⟨account, -, rfl⟩ := List.mem_map.mp hmem
  rw [standing]
  cases entries account.id <;> rfl

/-- It is the score a listed team is listed with. -/
theorem score_of_mem_standings {db : ScoreDb} {count bracketId : Option ℤ} {admin : Bool}
    {freezeUtc : Option ℤ} {row : StandingDto}
    (h : row ∈ getTeamStandings db count bracketId admin freezeUtc) :
    row.score = standingScore db (publicFreeze admin freezeUtc) row.accountId :=
  score_of_mem h

end ScoreHelper

open ScoreHelper

/-! ### One contest -/

/-- Is the challenge of a solve in another contest than `c`? -/
def solvedAbroad (db : ScoreDb) (c : ℤ) (s : Solf × Submission) : Bool :=
  (db.contestsChallenge s.1.contestChallengeId).any (·.contestId ≠ c)

/-- Was an award given in another contest than `c`? -/
def awardedAbroad (c : ℤ) (a : Award) : Bool := a.contestId.any (· ≠ c)

/-- Two states of the tables that differ by solves and awards of other contests than `c`. -/
structure SameContest (c : ℤ) (db db' : ScoreDb) : Prop where
  /-- The members of the teams. -/
  userTeams : db'.userTeams = db.userTeams
  /-- The challenges. -/
  contestsChallenges : db'.contestsChallenges = db.contestsChallenges
  /-- The other solves. -/
  solves : (submittedSolves db').filter (fun s => !solvedAbroad db c s) =
    (submittedSolves db).filter fun s => !solvedAbroad db c s
  /-- The other awards. -/
  awards : db'.awards.filter (fun a => !awardedAbroad c a) =
    db.awards.filter fun a => !awardedAbroad c a

section Contest

variable (cfg : ScoreConfig) (c : ℤ) (db db' : ScoreDb) (team : ScoreAccount) (admin : Bool)

/-- What the members of a team have in other contests than `c`. -/
def abroad : ℤ :=
  earned db
    (fun s => solvedByMember db (freezeOf cfg admin) team.id s && solvedAbroad db c s)
    (fun a => awardedToMember db (freezeOf cfg admin) team.id a && awardedAbroad c a)

/-- What the members of a team have that is not recorded for it. -/
def elsewhere : ℤ :=
  earned db
    (fun s => solvedByMember db (freezeOf cfg admin) team.id s &&
      !solvedForTeam (freezeOf cfg admin) team.id s)
    (fun a => awardedToMember db (freezeOf cfg admin) team.id a &&
      !awardedForTeam (freezeOf cfg admin) team.id a)

/-- What is recorded for a team of users who are not its members, or of nobody. -/
def departed : ℤ :=
  earned db
    (fun s => solvedForTeam (freezeOf cfg admin) team.id s &&
      !solvedByMember db (freezeOf cfg admin) team.id s)
    (fun a => awardedForTeam (freezeOf cfg admin) team.id a &&
      !awardedToMember db (freezeOf cfg admin) team.id a)

/-- The score of a team does not depend on solves and awards of other contests, and is the
one of the standings under the same freeze. -/
structure ContestScore : Prop where
  /-- It is the same without them. -/
  isolated : getTeamScore cfg db' team admin = getTeamScore cfg db team admin
  /-- It is what is recorded for the team. -/
  recorded : getTeamScore cfg db team admin = standingScore db (freezeOf cfg admin) team.id

variable {cfg c db db' team admin}

/-- What the members have in the contest itself does not change. -/
theorem earned_home (h : SameContest c db db') (freeze : Option ℤ) :
    earned db' (fun s => solvedByMember db' freeze team.id s && !solvedAbroad db' c s)
        (fun a => awardedToMember db' freeze team.id a && !awardedAbroad c a) =
      earned db (fun s => solvedByMember db freeze team.id s && !solvedAbroad db c s)
        (fun a => awardedToMember db freeze team.id a && !awardedAbroad c a) := by
  have hchallenge : db'.contestsChallenge = db.contestsChallenge := by
    funext id
    rw [ScoreDb.contestsChallenge, h.contestsChallenges, ScoreDb.contestsChallenge]
  have hvalue : db'.solveValue = db.solveValue := by
    funext s
    rw [ScoreDb.solveValue, hchallenge, ScoreDb.solveValue]
  have habroad : solvedAbroad db' c = solvedAbroad db c := by
    funext s
    rw [solvedAbroad, hchallenge, solvedAbroad]
  have hmembers : memberIds db' team.id = memberIds db team.id := by
    rw [memberIds, h.userTeams, memberIds]
  have hsolved : solvedByMember db' freeze team.id = solvedByMember db freeze team.id := by
    funext s
    rw [solvedByMember, hmembers, solvedByMember]
  have hawarded : awardedToMember db' freeze team.id = awardedToMember db freeze team.id := by
    funext a
    rw [awardedToMember, hmembers, awardedToMember]
  have hsolves : (submittedSolves db').filter (fun s =>
        solvedByMember db freeze team.id s && !solvedAbroad db c s) =
      (submittedSolves db).filter fun s =>
        solvedByMember db freeze team.id s && !solvedAbroad db c s := by
    rw [← List.filter_filter, h.solves, List.filter_filter]
  have hawards : db'.awards.filter (fun a =>
        awardedToMember db freeze team.id a && !awardedAbroad c a) =
      db.awards.filter fun a => awardedToMember db freeze team.id a && !awardedAbroad c a := by
    rw [← List.filter_filter, h.awards, List.filter_filter]
  rw [earned, earned, hvalue, habroad, hsolved, hawarded, hsolves, hawards]

end Contest

/-- A team of contest 1 whose member is in a team of contest 2 as well. -/
def twoContestDb (awards : List Award) : ScoreDb where
  teams :=
    [⟨5, none, some "five", none, some false, some false, some 1⟩,
      ⟨6, none, some "six", none, some false, some false, some 2⟩]
  users := [⟨9, none, some "nine", none, some false, some false, none⟩]
  userTeams := [(9, 5), (9, 6)]
  contestsChallenges := []
  submissions := []
  solves := []
  awards := awards
  brackets := []
  participants := []

/-- Team 5. -/
def teamFive : ScoreAccount := ⟨5, none, some "five", none, some false, some false, some 1⟩

end Fctf
