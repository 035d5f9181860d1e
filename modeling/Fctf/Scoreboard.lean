import Fctf.Scores

/-!
# The Scoreboard

`ScoreboardService.GetTopStandings`: the first of the standings, each with the series of the
solves and awards its score is made of.

## Main results

* `getTopStandings_congr`: the scoreboard is computed from the rows that are dated before
  the freeze.
-/

open Ranking

namespace Fctf

/-- A solve or an award in a series. -/
structure SolveEntryDTO where
  /-- The challenge; awards have none. -/
  challengeId : Option ℤ
  /-- The account. -/
  accountId : Option ℤ
  /-- The team. -/
  teamId : Option ℤ
  /-- The user. -/
  userId : Option ℤ
  /-- The points. -/
  value : Option ℤ
  /-- When. -/
  date : Option ℤ
  deriving DecidableEq, Repr

/-- A row of the scoreboard. -/
structure ScoreboardEntryDTO where
  /-- The account. -/
  id : ℤ
  /-- Where it is shown. -/
  accountUrl : String
  /-- Its name. -/
  name : Option String
  /-- Its points. -/
  score : ℤ
  /-- Its bracket. -/
  bracketId : Option ℤ
  /-- The bracket's name. -/
  bracketName : Option String
  /-- The series. -/
  solves : List SolveEntryDTO
  deriving DecidableEq, Repr

namespace ScoreboardService

open ScoreHelper

/-- Is a date before the freeze, if there is one? -/
def beforeFreeze (freeze : Option ℤ) (date : Option ℤ) : Bool :=
  freeze.all fun t => date.any (· < t)

/-- A solve in the series of an account. -/
def solveEntry (key : Solf → Option ℤ) (db : ScoreDb) (s : Solf × Submission) :
    Option SolveEntryDTO :=
  (db.contestsChallenge s.1.contestChallengeId).map fun contestChallenge =>
    ⟨some s.1.contestChallengeId, key s.1, s.1.teamId, s.1.userId, contestChallenge.value,
      s.2.date⟩

/-- The solves of some accounts. -/
def solves (key : Solf → Option ℤ) (db : ScoreDb) (freeze : Option ℤ) (accountIds : List ℤ) :
    List SolveEntryDTO :=
  ((submittedSolves db).filter fun s =>
    (key s.1).any (· ∈ accountIds) && beforeFreeze freeze s.2.date).filterMap
      (solveEntry key db)

/-- The awards of some accounts. -/
def awards (key : Award → Option ℤ) (db : ScoreDb) (freeze : Option ℤ)
    (accountIds : List ℤ) : List SolveEntryDTO :=
  (db.awards.filter fun a =>
    (key a).any (· ∈ accountIds) && beforeFreeze freeze a.date).map fun a =>
      ⟨none, key a, a.teamId, a.userId, a.value, a.date⟩

/-- The order of a series: earlier dates first. -/
def entryLe (x y : SolveEntryDTO) : Prop := dateLe x.date y.date

instance : DecidableRel entryLe := fun x y =>
  inferInstanceAs (Decidable (dateLe x.date y.date))

/-- The series of an account. -/
def series (solves awards : List SolveEntryDTO) (accountId : ℤ) : List SolveEntryDTO :=
  ((solves ++ awards).filter fun x => x.accountId = some accountId).insertionSort entryLe

/-- A row of the scoreboard. -/
def entry (mode : String) (solves awards : List SolveEntryDTO) (team : StandingDto) :
    ScoreboardEntryDTO where
  id := team.accountId
  accountUrl := "/" ++ mode ++ "/" ++ toString team.accountId
  name := team.name
  score := team.score
  bracketId := team.bracketId
  bracketName := team.bracketName
  solves := series solves awards team.accountId

/-- `GetTopStandings`. -/
def getTopStandings (cfg : ScoreConfig) (db : ScoreDb) (count : ℤ) (bracketId : Option ℤ) :
    Except Exn (List ScoreboardEntryDTO) := do
  let standings ← getStandings cfg db (some count) bracketId false
  let accountIds := standings.map (·.accountId)
  let freeze ← freezeUtc cfg
  let mode := cfg.userMode.getD "teams"
  if mode = "teams" then
    return standings.map
      (entry mode (solves (·.teamId) db freeze accountIds) (awards (·.teamId) db freeze accountIds))
  else
    return standings.map
      (entry mode (solves (·.userId) db freeze accountIds) (awards (·.userId) db freeze accountIds))

end ScoreboardService

/-! ### What the scoreboard is computed from -/

/-- Two states of the tables that agree on everything dated before `t`, and on everything
that has no date. -/
structure ScoreDb.AgreeBefore (t : ℤ) (db db' : ScoreDb) : Prop where
  /-- The teams. -/
  teams : db'.teams = db.teams
  /-- The users. -/
  users : db'.users = db.users
  /-- The brackets. -/
  brackets : db'.brackets = db.brackets
  /-- The challenges with their values. -/
  contestsChallenges : db'.contestsChallenges = db.contestsChallenges
  /-- The solves submitted before `t`. -/
  solves : (submittedSolves db').filter (fun s => s.2.date.any (· < t)) =
    (submittedSolves db).filter fun s => s.2.date.any (· < t)
  /-- The awards given before `t`. -/
  awards : db'.awards.filter (fun a => a.date.any (· < t)) =
    db.awards.filter fun a => a.date.any (· < t)

namespace ScoreDb.AgreeBefore

theorem refl (t : ℤ) (db : ScoreDb) : AgreeBefore t db db :=
  ⟨rfl, rfl, rfl, rfl, rfl, rfl⟩

theorem symm {t : ℤ} {db db' : ScoreDb} (h : AgreeBefore t db db') : AgreeBefore t db' db :=
  ⟨h.teams.symm, h.users.symm, h.brackets.symm, h.contestsChallenges.symm, h.solves.symm,
    h.awards.symm⟩

theorem trans {t : ℤ} {db db' db'' : ScoreDb} (h : AgreeBefore t db db')
    (h' : AgreeBefore t db' db'') : AgreeBefore t db db'' :=
  ⟨h'.teams.trans h.teams, h'.users.trans h.users, h'.brackets.trans h.brackets,
    h'.contestsChallenges.trans h.contestsChallenges, h'.solves.trans h.solves,
    h'.awards.trans h.awards⟩

end ScoreDb.AgreeBefore

/-- A filter that lets only images of elements pass that another one lets pass. -/
theorem filter_filterMap_of_imp {α β : Type} {f : α → Option β} {p : β → Bool} {q : α → Bool}
    (h : ∀ x y, f x = some y → p y = true → q x = true) (l : List α) :
    (l.filterMap f).filter p = ((l.filter q).filterMap f).filter p := by
  induction l with
  | nil => rfl
  | cons x l ih =>
      cases hq : q x with
      | true =>
          rw [List.filter_cons_of_pos hq]
          cases hf : f x with
          | none => rw [List.filterMap_cons_none hf, List.filterMap_cons_none hf, ih]
          | some y =>
              rw [List.filterMap_cons_some hf, List.filterMap_cons_some hf, List.filter_cons,
                List.filter_cons, ih]
      | false =>
          rw [List.filter_cons_of_neg (by simp [hq])]
          cases hf : f x with
          | none => rw [List.filterMap_cons_none hf, ih]
          | some y =>
              have hp : p y = false := by
                cases hp : p y with
                | false => rfl
                | true => rw [h x y hf hp] at hq; cases hq
              rw [List.filterMap_cons_some hf, List.filter_cons_of_neg (by simp [hp]), ih]

section Frozen

variable {t : ℤ} {db db' : ScoreDb}

/-- The solves that count are submitted before the freeze. -/
theorem filter_solveRows_congr (h : db.AgreeBefore t db') (key : Solf → Option ℤ)
    {p : ScoreRow → Bool} (hp : ∀ x, p x = true → x.before (some t) = true) :
    (solveRows key db').filter p = (solveRows key db).filter p := by
  have hrow : solveRow key db' = solveRow key db := by
    funext s
    rw [solveRow, ScoreDb.contestsChallenge, h.contestsChallenges, ← ScoreDb.contestsChallenge,
      solveRow]
  have himp : ∀ (s : Solf × Submission) (x : ScoreRow), solveRow key db s = some x →
      p x = true → s.2.date.any (· < t) = true := by
    intro s x hx hpx
    obtain ⟨c, -, rfl⟩ := Option.map_eq_some_iff.mp hx
    exact hp _ hpx
  rw [solveRows, hrow, filter_filterMap_of_imp himp, h.solves, ← filter_filterMap_of_imp himp,
    solveRows]

/-- The awards that count are given before the freeze. -/
theorem filter_awardRows_congr (h : db.AgreeBefore t db') (key : Award → Option ℤ)
    {p : ScoreRow → Bool} (hp : ∀ x, p x = true → x.before (some t) = true) :
    (awardRows key db').filter p = (awardRows key db).filter p := by
  have himp : ∀ (a : Award) (x : ScoreRow), (some ∘ Award.row key) a = some x →
      p x = true → a.date.any (· < t) = true := by
    rintro a x hx hpx
    obtain rfl := Option.some.inj hx
    exact hp _ hpx
  rw [awardRows, awardRows, ← List.filterMap_eq_map, filter_filterMap_of_imp himp, h.awards,
    ← filter_filterMap_of_imp himp]

open ScoreHelper

theorem before_of_counts {freeze : Option ℤ} (x : ScoreRow) (h : counts freeze x = true) :
    x.before freeze = true := by
  rw [counts, Bool.and_eq_true] at h
  exact h.2

/-- **The public standings of teams** are computed from what is dated before the freeze. -/
theorem getTeamStandings_congr (h : db.AgreeBefore t db') (count bracketId : Option ℤ) :
    getTeamStandings db' count bracketId false (some t) =
      getTeamStandings db count bracketId false (some t) := by
  have hentries : teamEntries db' (some t) = teamEntries db (some t) := by
    funext accountId
    rw [teamEntries, scoreMap, filter_solveRows_congr h _ before_of_counts,
      filter_awardRows_congr h _ before_of_counts, teamEntries, scoreMap]
  have hname : bracketName db' = bracketName db := by
    funext b
    rw [bracketName, h.brackets, bracketName]
  rw [getTeamStandings, publicFreeze, if_neg Bool.false_ne_true, hentries, hname, h.teams]
  rfl

/-- The same for users. -/
theorem getUserStandings_congr (h : db.AgreeBefore t db') (count bracketId : Option ℤ) :
    getUserStandings db' count bracketId false (some t) =
      getUserStandings db count bracketId false (some t) := by
  have hentries : userEntries db' (some t) = userEntries db (some t) := by
    funext accountId
    rw [userEntries, scoreMap, filter_solveRows_congr h _ before_of_counts,
      filter_awardRows_congr h _ before_of_counts, userEntries, scoreMap]
  rw [getUserStandings, publicFreeze, if_neg Bool.false_ne_true, hentries, h.users]
  rfl

/-- A series is made of what is dated before the freeze. -/
theorem solves_congr (h : db.AgreeBefore t db') (key : Solf → Option ℤ)
    (accountIds : List ℤ) :
    ScoreboardService.solves key db' (some t) accountIds =
      ScoreboardService.solves key db (some t) accountIds := by
  have hentry : ScoreboardService.solveEntry key db' = ScoreboardService.solveEntry key db := by
    funext s
    rw [ScoreboardService.solveEntry, ScoreDb.contestsChallenge, h.contestsChallenges,
      ← ScoreDb.contestsChallenge, ScoreboardService.solveEntry]
  have hsplit : ∀ l : List (Solf × Submission),
      (l.filter fun s => (key s.1).any (· ∈ accountIds) &&
        ScoreboardService.beforeFreeze (some t) s.2.date) =
      (l.filter fun s => s.2.date.any (· < t)).filter fun s => (key s.1).any (· ∈ accountIds) :=
    fun l => List.filter_filter.symm
  rw [ScoreboardService.solves, hentry, hsplit, h.solves, ← hsplit, ScoreboardService.solves]

theorem awards_congr (h : db.AgreeBefore t db') (key : Award → Option ℤ)
    (accountIds : List ℤ) :
    ScoreboardService.awards key db' (some t) accountIds =
      ScoreboardService.awards key db (some t) accountIds := by
  have hsplit : ∀ l : List Award,
      (l.filter fun a => (key a).any (· ∈ accountIds) &&
        ScoreboardService.beforeFreeze (some t) a.date) =
      (l.filter fun a => a.date.any (· < t)).filter fun a => (key a).any (· ∈ accountIds) :=
    fun l => List.filter_filter.symm
  rw [ScoreboardService.awards, hsplit, h.awards, ← hsplit, ScoreboardService.awards]

/-- **The scoreboard** is computed from what is dated before the freeze. -/
theorem getTopStandings_congr {cfg : ScoreConfig} (h : db.AgreeBefore t db')
    (hfreeze : freezeUtc cfg = .ok (some t)) (count : ℤ) (bracketId : Option ℤ) :
    ScoreboardService.getTopStandings cfg db' count bracketId =
      ScoreboardService.getTopStandings cfg db count bracketId := by
  have hstandings : getStandings cfg db' (some count) bracketId false =
      getStandings cfg db (some count) bracketId false := by
    rw [getStandings, hfreeze, getStandings, hfreeze]
    simp only [bind, Except.bind, getTeamStandings_congr h, getUserStandings_congr h]
  rw [ScoreboardService.getTopStandings, hstandings, hfreeze,
    ScoreboardService.getTopStandings, hfreeze]
  simp only [bind, Except.bind, solves_congr h, awards_congr h]

end Frozen

end Fctf
