import Fctf.Scoreboard
import Fctf.TeamScore
import Mathlib.Data.Finset.Basic

/-!
# The Scoreboard of One Contest

`ScoreboardController.GetTopTeams`. The standings behind it are made of all teams and of all
solves and awards, in whatever contest: nothing on the way asks for the contest of the token.
So one more team of another contest, with enough points, stands first.

## Main results

* `exists_score_le`: the first row of the standings has no less than any account listed.
* `contestOnly_iff`: when the scoreboard is a matter of one contest.
* `not_contestOnly`: a team of another contest.
-/

namespace Fctf

open ScoreHelper

/-! ### The controller -/

/-- The settings of the scoreboard. -/
structure BoardSettings where
  /-- `score_visibility`, or "public". -/
  scoreVisibility : String
  /-- `bracket_view_other`. -/
  bracketViewOther : Bool
  deriving DecidableEq, Repr

/-- The answers of the scoreboard. -/
inductive BoardAnswer
  /-- 401. -/
  | unauthorized (message : String)
  /-- 403. -/
  | forbidden (message : String)
  /-- The rows. -/
  | data (rows : List ScoreboardEntryDTO)
  deriving DecidableEq, Repr

namespace ScoreboardController

/-- The bracket that is shown: the own one, where others are not to be seen. -/
def shownBracket (view : BoardSettings) (db : ScoreDb) (teamId : ℤ) (bracketId : Option ℤ) :
    Option ℤ :=
  if view.scoreVisibility = "private" ∧ view.bracketViewOther = false then
    (db.teams.find? fun t => t.id = teamId).bind (·.bracketId)
  else bracketId

/-- `GetTopTeams`. `user` is the team of the token, if there is a token. -/
def getTopTeams (cfg : ScoreConfig) (view : BoardSettings) (db : ScoreDb) (user : Option ℤ)
    (count : ℤ) (bracketId : Option ℤ) : Except Exn BoardAnswer :=
  if view.scoreVisibility = "private" ∧ user = none then
    .ok (.unauthorized "Scores are private. Please log in to view the scoreboard.")
  else if view.scoreVisibility = "hidden" then
    .ok (.forbidden "Scores are currently hidden.")
  else
    (ScoreboardService.getTopStandings cfg db count
      (shownBracket view db (user.getD 0) bracketId)).map .data

end ScoreboardController

open ScoreboardController

/-! ### The first row -/

/-- The standings the scoreboard is made of. -/
def shownStandings (cfg : ScoreConfig) (db : ScoreDb) (count : ℤ) (bracketId freeze : Option ℤ) :
    List StandingDto :=
  if teamsMode cfg then getTeamStandings db (some count) bracketId false freeze
  else getUserStandings db (some count) bracketId false freeze

/-- The rows of the scoreboard are those of the standings. -/
theorem getTopStandings_rows {cfg : ScoreConfig} {freeze : Option ℤ}
    (hfreeze : freezeUtc cfg = .ok freeze) (db : ScoreDb) (count : ℤ) (bracketId : Option ℤ) :
    ∃ rows, ScoreboardService.getTopStandings cfg db count bracketId = .ok rows ∧
      rows.map (fun row => (row.id, row.score)) =
        (shownStandings cfg db count bracketId freeze).map fun x => (x.accountId, x.score) := by
  have hstandings : getStandings cfg db (some count) bracketId false =
      .ok (shownStandings cfg db count bracketId freeze) := by
    rw [getStandings, hfreeze, shownStandings]
    simp only [bind, Except.bind, pure, Except.pure]
    split <;> rfl
  rw [ScoreboardService.getTopStandings, hstandings, hfreeze]
  simp only [bind, Except.bind, pure, Except.pure]
  split <;>
  · refine ⟨_, rfl, ?_⟩
    rw [List.map_map]
    rfl

/-- The first of a list by `standingLe` has no less points than any of it. -/
theorem exists_score_le {l : List StandingDto} {x : StandingDto} (hx : x ∈ l) {n : ℤ}
    (hn : 0 < n) :
    ∃ y ∈ takeCount (some n) (l.insertionSort standingLe), x.score ≤ y.score := by
  have hmem : x ∈ l.insertionSort standingLe := (List.mem_insertionSort _).mpr hx
  have hsorted := List.pairwise_insertionSort standingLe l
  obtain ⟨k, hk⟩ : ∃ k, n.toNat = k + 1 := ⟨n.toNat - 1, by omega⟩
  rw [takeCount, hk]
  cases hl : l.insertionSort standingLe with
  | nil => rw [hl] at hmem; cases hmem
  | cons y rest =>
      rw [hl] at hmem hsorted
      refine ⟨y, List.mem_cons_self, ?_⟩
      obtain rfl | hrest := List.mem_cons.mp hmem
      · exact le_refl _
      · obtain h | ⟨h, -⟩ := List.rel_of_pairwise_cons hsorted hrest
        · exact h.le
        · exact h.ge

/-- Some number is greater than all scores. -/
theorem exists_score_lt (l : List StandingDto) : ∃ m : ℤ, 0 < m ∧ ∀ x ∈ l, x.score < m := by
  induction l with
  | nil => exact ⟨1, one_pos, List.forall_mem_nil _⟩
  | cons x l ih =>
      obtain ⟨m, hm, hl⟩ := ih
      refine ⟨max m (x.score + 1), lt_max_of_lt_left hm, List.forall_mem_cons.mpr ⟨?_, ?_⟩⟩
      · exact lt_max_of_lt_right (by omega)
      · exact fun y hy => lt_max_of_lt_left (hl y hy)

/-! ### One more award -/

section Award

variable (solves awards : List ScoreRow) (freeze : Option ℤ) (accountId : ℤ)

/-- What an account has in all. -/
def total : ℤ := ((scoreMap solves awards freeze accountId).map (·.score)).getD 0

theorem total_eq : total solves awards freeze accountId =
    points ((solves.filter (counts freeze)).filter fun x => x.accountId = some accountId) +
      points ((awards.filter (counts freeze)).filter fun x => x.accountId = some accountId) := by
  rw [total, scoreMap, merge_score, group_score, group_score]

variable {freeze accountId}

theorem total_append {x : ScoreRow} (hx : counts freeze x = true)
    (hid : x.accountId = some accountId) :
    total solves (awards ++ [x]) freeze accountId =
      total solves awards freeze accountId + x.value := by
  have hone : ([x].filter (counts freeze)).filter (fun y => y.accountId = some accountId) = [x] := by
    rw [List.filter_cons_of_pos hx, List.filter_nil, List.filter_cons_of_pos (by simpa using hid),
      List.filter_nil]
  rw [total_eq, List.filter_append, List.filter_append, hone, points_append, points_cons,
    points_nil, total_eq]
  omega

theorem scoreMap_append_isSome {x : ScoreRow} (hx : counts freeze x = true)
    (hid : x.accountId = some accountId) :
    (scoreMap solves (awards ++ [x]) freeze accountId).isSome = true := by
  have hmem : x ∈ ((awards ++ [x]).filter (counts freeze)).filter
      fun y => y.accountId = some accountId := by
    rw [List.mem_filter, List.mem_filter]
    exact ⟨⟨by simp, hx⟩, by simpa using hid⟩
  have hgroup : (group ((awards ++ [x]).filter (counts freeze)) accountId).isSome = true := by
    rw [group, if_neg fun h => List.ne_nil_of_mem hmem (List.isEmpty_iff.mp h)]
    rfl
  obtain ⟨e, he⟩ := Option.isSome_iff_exists.mp hgroup
  rw [scoreMap, he]
  cases group (solves.filter (counts freeze)) accountId <;> rfl

end Award

/-- **An account that is listed** is in the first row, or somebody with no less points is. -/
theorem exists_standing_ge {accounts : List ScoreAccount} {entries : ℤ → Option Entry}
    (name : Option ℤ → Option String) {bracketId : Option ℤ} {account : ScoreAccount}
    (hmem : account ∈ accounts) (hlisted : listed entries bracketId false account = true) {n : ℤ}
    (hn : 0 < n) :
    ∃ row ∈ standings accounts entries name (some n) bracketId false,
      ((entries account.id).map (·.score)).getD 0 ≤ row.score := by
  have hrow : standing entries name account ∈
      (accounts.filter (listed entries bracketId false)).map (standing entries name) :=
    List.mem_map_of_mem (List.mem_filter.mpr ⟨hmem, hlisted⟩)
  obtain ⟨row, hin, hle⟩ := exists_score_le hrow hn
  refine ⟨row, hin, le_trans (le_of_eq ?_) hle⟩
  rw [standing]
  cases entries account.id <;> rfl

/-! ### One contest -/

/-- Keys are unique. -/
structure ScoreDb.Keyed (db : ScoreDb) : Prop where
  /-- Of teams. -/
  teams : (db.teams.map (·.id)).Nodup
  /-- Of users. -/
  users : (db.users.map (·.id)).Nodup
  /-- Of challenges. -/
  contestsChallenges : (db.contestsChallenges.map (·.id)).Nodup
  /-- Of submissions. -/
  submissions : (db.submissions.map (·.id)).Nodup
  /-- Of solves. -/
  solves : (db.solves.map (·.id)).Nodup
  /-- Of awards. -/
  awards : (db.awards.map (·.id)).Nodup

/-- Two states of the tables that differ by teams, challenges, solves and awards of other
contests than `c`, which are not those of the token's team. -/
structure SameBoard (c teamId : ℤ) (db db' : ScoreDb) : Prop where
  /-- Keys stay unique. -/
  keyed : db.Keyed → db'.Keyed
  /-- The users. -/
  users : db'.users = db.users
  /-- The memberships. -/
  userTeams : db'.userTeams = db.userTeams
  /-- The brackets. -/
  brackets : db'.brackets = db.brackets
  /-- The participants. -/
  participants : db'.participants = db.participants
  /-- The teams of the contest. -/
  teams : db'.teams.filter (fun t => t.contestId = some c) =
    db.teams.filter fun t => t.contestId = some c
  /-- The team of the token. -/
  own : db'.teams.find? (fun t => t.id = teamId) = db.teams.find? fun t => t.id = teamId
  /-- The challenges of the contest. -/
  contestsChallenges : db'.contestsChallenges.filter (fun x => x.contestId = c) =
    db.contestsChallenges.filter fun x => x.contestId = c
  /-- Its solves. -/
  solves : (submittedSolves db').filter (fun s => !solvedAbroad db' c s) =
    (submittedSolves db).filter fun s => !solvedAbroad db c s
  /-- Its awards. -/
  awards : db'.awards.filter (fun a => !awardedAbroad c a) =
    db.awards.filter fun a => !awardedAbroad c a

/-- The scoreboard, as it is shown for a token of the team, is a matter of contest `c`. -/
structure ContestOnly (c : ℤ) (cfg : ScoreConfig) (view : BoardSettings) (db : ScoreDb)
    (teamId count : ℤ) (bracketId : Option ℤ) : Prop where
  /-- It does not depend on anything of other contests. -/
  isolated : ∀ db', SameBoard c teamId db db' →
    getTopTeams cfg view db' (some teamId) count bracketId =
      getTopTeams cfg view db (some teamId) count bracketId
  /-- It lists teams of the contest. -/
  belongs : teamsMode cfg = true → ∀ rows,
    getTopTeams cfg view db (some teamId) count bracketId = .ok (.data rows) →
      ∀ row ∈ rows, ∃ t ∈ db.teams, t.id = row.id ∧ t.contestId = some c

/-- An award of contest `c'`, before the freeze. -/
def earlyAward (id c' : ℤ) (userId teamId freeze : Option ℤ) (value : ℤ) : Award where
  id := id
  contestId := some c'
  userId := userId
  teamId := teamId
  date := some (freeze.getD 0 - 1)
  value := some value

theorem counts_earlyAward {id c' : ℤ} {userId teamId freeze : Option ℤ} {value : ℤ}
    (hvalue : 0 < value) {key : Award → Option ℤ}
    (hkey : (key (earlyAward id c' userId teamId freeze value)).isSome = true) :
    counts freeze ((earlyAward id c' userId teamId freeze value).row key) = true := by
  have hbefore : ((earlyAward id c' userId teamId freeze value).row key).before freeze = true := by
    cases freeze with
    | none => rfl
    | some t => exact decide_eq_true (show t - 1 < t by omega)
  have hne : ((earlyAward id c' userId teamId freeze value).row key).value ≠ 0 := hvalue.ne'
  rw [counts, hbefore, decide_eq_true hne]
  simpa [Award.row] using hkey

/-- A number no element of a list has for its id. -/
theorem exists_fresh (l : List ℤ) : ∃ n : ℤ, n ∉ l := by
  obtain ⟨n, hn⟩ := Infinite.exists_notMem_finset l.toFinset
  exact ⟨n, fun h => hn (List.mem_toFinset.mpr h)⟩

theorem nodup_append_fresh {l : List ℤ} (hl : l.Nodup) {n : ℤ} (hn : n ∉ l) :
    (l ++ [n]).Nodup := by
  rw [List.nodup_append]
  exact ⟨hl, List.nodup_singleton n, fun a ha b hb hab =>
    hn (List.mem_singleton.mp hb ▸ hab ▸ ha)⟩

/-- The tables with some more teams and one more award. -/
def ScoreDb.joined (db : ScoreDb) (teams : List ScoreAccount) (award : Award) : ScoreDb :=
  { db with teams := db.teams ++ teams, awards := db.awards ++ [award] }

theorem awardRows_joined (key : Award → Option ℤ) (db : ScoreDb) (teams : List ScoreAccount)
    (award : Award) :
    awardRows key (db.joined teams award) = awardRows key db ++ [award.row key] := by
  rw [awardRows, ScoreDb.joined, List.map_append, List.map_singleton, awardRows]

theorem sameBoard_joined {c teamId : ℤ} {db : ScoreDb} {teams : List ScoreAccount} {award : Award}
    (hids : db.Keyed → ((db.teams ++ teams).map (·.id)).Nodup)
    (hteams : ∀ t ∈ teams, t.contestId ≠ some c) (hown : ∀ t ∈ teams, t.id ≠ teamId) (hid : award.id ∉ db.awards.map (·.id))
    (haward : awardedAbroad c award = true) :
    SameBoard c teamId db (db.joined teams award) where
  keyed h :=
    { h with
      teams := hids h
      awards := by
        show ((db.awards ++ [award]).map (·.id)).Nodup
        rw [List.map_append]
        exact nodup_append_fresh h.awards hid }
  users := rfl
  userTeams := rfl
  brackets := rfl
  participants := rfl
  teams := by
    have hnone : teams.filter (fun t => t.contestId = some c) = [] :=
      List.filter_eq_nil_iff.mpr fun t ht => by simpa using hteams t ht
    rw [ScoreDb.joined, List.filter_append, hnone, List.append_nil]
  own := by
    have hnone : teams.find? (fun t => t.id = teamId) = none :=
      List.find?_eq_none.mpr fun t ht => by simpa using hown t ht
    rw [ScoreDb.joined, List.find?_append, hnone, Option.or_none]
  contestsChallenges := rfl
  solves := rfl
  awards := by
    have hnone : [award].filter (fun a => !awardedAbroad c a) = [] := by
      rw [List.filter_cons_of_neg (by simp [haward]), List.filter_nil]
    rw [ScoreDb.joined, List.filter_append, hnone, List.append_nil]

/-- A team of contest `c'` with nothing but its bracket. -/
def newTeam (id c' : ℤ) (bracketId : Option ℤ) : ScoreAccount :=
  ⟨id, none, none, bracketId, none, none, some c'⟩

theorem listed_of_visible {entries : ℤ → Option Entry} {bracketId : Option ℤ}
    {account : ScoreAccount} (hentry : (entries account.id).isSome = true)
    (hvisible : visible account = true) (hbracket : inBracket bracketId account = true) :
    listed entries bracketId false account = true := by
  rw [listed, hentry, hvisible, hbracket]
  rfl

/-- An account with an award that makes up for what it lacks is in the first row, or somebody
with no less points is. -/
theorem exists_standing_of_award {accounts : List ScoreAccount}
    (name : Option ℤ → Option String) {bracketId : Option ℤ} {account : ScoreAccount}
    (hmem : account ∈ accounts) (hvisible : visible account = true)
    (hbracket : inBracket bracketId account = true) {solves awards : List ScoreRow}
    {freeze : Option ℤ} {x : ScoreRow} (hcounts : counts freeze x = true)
    (hid : x.accountId = some account.id) {m : ℤ}
    (hm : m ≤ total solves awards freeze account.id + x.value) {n : ℤ} (hn : 0 < n) :
    ∃ row ∈ standings accounts (scoreMap solves (awards ++ [x]) freeze) name (some n) bracketId
      false, m ≤ row.score := by
  have hlisted : listed (scoreMap solves (awards ++ [x]) freeze) bracketId false account =
      true :=
    listed_of_visible (scoreMap_append_isSome solves awards hcounts hid) hvisible hbracket
  obtain ⟨row, hrow, hle⟩ := exists_standing_ge name hmem hlisted hn
  refine ⟨row, hrow, le_trans ?_ hle⟩
  rw [← total, total_append solves awards hcounts hid]
  exact hm

/-- **A team of another contest comes first** with enough points; where users are listed, one
of them does with an award of another contest. -/
theorem exists_joined_score {cfg : ScoreConfig} (c : ℤ) (db : ScoreDb) (teamId : ℤ) {count : ℤ}
    (bracketId freeze : Option ℤ) (m : ℤ) (hcount : 0 < count)
    (hlisted : teamsMode cfg = false →
      ∃ u ∈ db.users, visible u = true ∧ inBracket bracketId u = true) :
    ∃ db', SameBoard c teamId db db' ∧
      ∃ row ∈ shownStandings cfg db' count bracketId freeze, m ≤ row.score := by
  obtain ⟨a, ha⟩ := exists_fresh (db.awards.map (·.id))
  have habroad : ∀ userId teamId value,
      awardedAbroad c (earlyAward a (c + 1) userId teamId freeze value) = true := fun _ _ _ =>
    decide_eq_true (show c + 1 ≠ c by omega)
  cases hmode : teamsMode cfg with
  | true =>
      obtain ⟨n, hn⟩ := exists_fresh (teamId :: db.teams.map (·.id))
      rw [List.mem_cons, not_or] at hn
      let had := total (solveRows (·.teamId) db) (awardRows (·.teamId) db) freeze n
      let award := earlyAward a (c + 1) none (some n) freeze (max 1 (m - had))
      have hcounts : counts freeze (award.row (·.teamId)) = true :=
        counts_earlyAward (lt_max_of_lt_left one_pos) rfl
      have hentries : teamEntries (db.joined [newTeam n (c + 1) bracketId] award) freeze =
          scoreMap (solveRows (·.teamId) db) (awardRows (·.teamId) db ++ [award.row (·.teamId)])
            freeze := by
        rw [teamEntries, awardRows_joined]
        rfl
      refine ⟨db.joined [newTeam n (c + 1) bracketId] award,
        sameBoard_joined (fun h => ?_) (fun t ht => ?_) (fun t ht => ?_) ha (habroad _ _ _), ?_⟩
      · rw [List.map_append]
        exact nodup_append_fresh h.teams hn.2
      · rw [List.mem_singleton.mp ht]
        exact fun h => absurd (Option.some.inj h) (by omega)
      · rw [List.mem_singleton.mp ht]
        exact hn.1
      · have hbracket : inBracket bracketId (newTeam n (c + 1) bracketId) = true := by
          cases bracketId with
          | none => rfl
          | some b => exact decide_eq_true rfl
        rw [shownStandings, if_pos hmode, getTeamStandings]
        show ∃ row ∈ standings _ (teamEntries _ freeze) _ _ _ _, _
        rw [hentries]
        refine exists_standing_of_award _ (List.mem_append_right _ List.mem_cons_self) rfl
          hbracket hcounts rfl ?_ hcount
        show m ≤ had + max 1 (m - had)
        exact sub_le_iff_le_add'.mp (le_max_right _ _)
  | false =>
      obtain ⟨u, hu, hvisible, hbracket⟩ := hlisted hmode
      let had := total (solveRows (·.userId) db) (awardRows (·.userId) db) freeze u.id
      let award := earlyAward a (c + 1) (some u.id) none freeze (max 1 (m - had))
      have hcounts : counts freeze (award.row (·.userId)) = true :=
        counts_earlyAward (lt_max_of_lt_left one_pos) rfl
      have hentries : userEntries (db.joined [] award) freeze =
          scoreMap (solveRows (·.userId) db) (awardRows (·.userId) db ++ [award.row (·.userId)])
            freeze := by
        rw [userEntries, awardRows_joined]
        rfl
      refine ⟨db.joined [] award, sameBoard_joined (fun h => ?_) (List.forall_mem_nil _)
        (List.forall_mem_nil _) ha (habroad _ _ _), ?_⟩
      · rw [List.append_nil]
        exact h.teams
      · rw [shownStandings, if_neg (by simp [hmode]), getUserStandings]
        show ∃ row ∈ standings _ (userEntries _ freeze) _ _ _ _, _
        rw [hentries]
        refine exists_standing_of_award _ hu hvisible hbracket hcounts rfl ?_ hcount
        show m ≤ had + max 1 (m - had)
        exact sub_le_iff_le_add'.mp (le_max_right _ _)

/-! ### When it is a matter of one contest -/

/-- Nothing is shown, whatever there is. -/
structure ShowsNothing (cfg : ScoreConfig) (view : BoardSettings) (db : ScoreDb) (teamId : ℤ)
    (count : ℤ) (bracketId : Option ℤ) : Prop where
  /-- Scores are hidden, no row is asked for, the freeze is not a date, or users are listed
  and none of them is to be seen. -/
  reason : view.scoreVisibility = "hidden" ∨ count ≤ 0 ∨ (∃ e, freezeUtc cfg = .error e) ∨
    teamsMode cfg = false ∧ ∀ u ∈ db.users,
      ¬(visible u = true ∧ inBracket (shownBracket view db teamId bracketId) u = true)

theorem SameBoard.shownBracket {c teamId : ℤ} {db db' : ScoreDb} (h : SameBoard c teamId db db')
    (view : BoardSettings) (bracketId : Option ℤ) :
    ScoreboardController.shownBracket view db' teamId bracketId =
      ScoreboardController.shownBracket view db teamId bracketId := by
  rw [ScoreboardController.shownBracket, h.own, ScoreboardController.shownBracket]

section Shown

variable {c : ℤ} {cfg : ScoreConfig} {view : BoardSettings} {db : ScoreDb} {teamId count : ℤ}
  {bracketId : Option ℤ}

theorem getTopTeams_eq (h : view.scoreVisibility ≠ "hidden") :
    getTopTeams cfg view db (some teamId) count bracketId =
      (ScoreboardService.getTopStandings cfg db count
        (shownBracket view db teamId bracketId)).map .data := by
  rw [getTopTeams, if_neg fun hnone => absurd hnone.2 (by simp), if_neg h]
  rfl

/-- Nothing is shown of empty standings. -/
theorem getTopTeams_nil (h : view.scoreVisibility ≠ "hidden") {freeze : Option ℤ}
    (hfreeze : freezeUtc cfg = .ok freeze)
    (hnil : shownStandings cfg db count (shownBracket view db teamId bracketId) freeze = []) :
    getTopTeams cfg view db (some teamId) count bracketId = .ok (.data []) := by
  obtain ⟨rows, hrows, hmap⟩ :=
    getTopStandings_rows hfreeze db count (shownBracket view db teamId bracketId)
  rw [hnil, List.map_nil, List.map_eq_nil_iff] at hmap
  rw [getTopTeams_eq h, hrows, hmap]
  rfl

theorem standings_of_nonpos (hcount : count ≤ 0) (freeze : Option ℤ) :
    shownStandings cfg db count bracketId freeze = [] := by
  have hzero : count.toNat = 0 := Int.toNat_of_nonpos hcount
  rw [shownStandings, getTeamStandings, getUserStandings, standings, standings, takeCount,
    takeCount, hzero, List.take_zero, List.take_zero, ite_self]

theorem standings_of_unseen (hmode : teamsMode cfg = false)
    (hunseen : ∀ u ∈ db.users, ¬(visible u = true ∧ inBracket bracketId u = true))
    (freeze : Option ℤ) : shownStandings cfg db count bracketId freeze = [] := by
  have hnone : ∀ entries, db.users.filter (listed entries bracketId false) = [] := by
    refine fun entries => List.filter_eq_nil_iff.mpr fun u hu hlisted => hunseen u hu ?_
    rw [listed, Bool.false_or, Bool.and_eq_true, Bool.and_eq_true] at hlisted
    exact ⟨hlisted.1.2, hlisted.2⟩
  rw [shownStandings, if_neg (by simp [hmode]), getUserStandings, standings, hnone]
  exact List.take_nil

/-- **What shows nothing** shows nothing of other contests. -/
theorem ShowsNothing.contestOnly (h : ShowsNothing cfg view db teamId count bracketId) :
    ContestOnly c cfg view db teamId count bracketId := by
  by_cases hidden : view.scoreVisibility = "hidden"
  · have hforbidden : ∀ db, getTopTeams cfg view db (some teamId) count bracketId =
        .ok (.forbidden "Scores are currently hidden.") := by
      intro db
      rw [getTopTeams, if_neg fun hnone => absurd hnone.2 (by simp), if_pos hidden]
    refine ⟨fun db' _ => (hforbidden db').trans (hforbidden db).symm, fun _ rows hrows => ?_⟩
    rw [hforbidden] at hrows
    cases hrows
  · cases hfreeze : freezeUtc cfg with
    | error e =>
        have herror : ∀ db, getTopTeams cfg view db (some teamId) count bracketId = .error e := by
          intro db
          rw [getTopTeams_eq hidden, ScoreboardService.getTopStandings, getStandings, hfreeze]
          rfl
        refine ⟨fun db' _ => (herror db').trans (herror db).symm, fun _ rows hrows => ?_⟩
        rw [herror] at hrows
        cases hrows
    | ok freeze =>
        have hnil : ∀ db', SameBoard c teamId db db' ∨ db' = db → shownStandings cfg db' count
            (shownBracket view db' teamId bracketId) freeze = [] := by
          intro db' hdb'
          obtain h | hcount | ⟨e, he⟩ | ⟨hmode, hunseen⟩ := h.reason
          · exact absurd h hidden
          · exact standings_of_nonpos hcount freeze
          · rw [hfreeze] at he
            cases he
          · refine standings_of_unseen hmode ?_ freeze
            obtain hsame | rfl := hdb'
            · rw [hsame.users, hsame.shownBracket]
              exact hunseen
            · exact hunseen
        have hdata := getTopTeams_nil hidden hfreeze (hnil db (.inr rfl))
        refine ⟨fun db' hdb' => ?_, fun _ rows hrows => ?_⟩
        · rw [hdata, getTopTeams_nil hidden hfreeze (hnil db' (.inl hdb'))]
        · rw [hdata] at hrows
          injection hrows with hrows
          injection hrows with hrows
          subst hrows
          exact List.forall_mem_nil _

/-- **Whatever shows something** can show a team of another contest. -/
theorem ContestOnly.showsNothing (h : ContestOnly c cfg view db teamId count bracketId) :
    ShowsNothing cfg view db teamId count bracketId := by
  by_contra hcon
  have hreason := mt ShowsNothing.mk hcon
  rw [not_or, not_or, not_or] at hreason
  obtain ⟨hidden, hcount, hfreeze, hlisted⟩ := hreason
  cases hfreezeUtc : freezeUtc cfg with
  | error e => exact hfreeze ⟨e, hfreezeUtc⟩
  | ok freeze =>
      obtain ⟨m, -, hm⟩ := exists_score_lt
        (shownStandings cfg db count (shownBracket view db teamId bracketId) freeze)
      have hseen : teamsMode cfg = false → ∃ u ∈ db.users, visible u = true ∧
          inBracket (shownBracket view db teamId bracketId) u = true := by
        intro hmode
        by_contra hnone
        exact hlisted ⟨hmode, fun u hu hu' => hnone ⟨u, hu, hu'⟩⟩
      obtain ⟨db', hsame, row, hrow, hle⟩ := @exists_joined_score cfg c db teamId count
        (shownBracket view db teamId bracketId) freeze m (not_le.mp hcount) hseen
      obtain ⟨rows, hrows, hmap⟩ :=
        getTopStandings_rows hfreezeUtc db count (shownBracket view db teamId bracketId)
      obtain ⟨rows', hrows', hmap'⟩ :=
        getTopStandings_rows hfreezeUtc db' count (shownBracket view db teamId bracketId)
      have heq := h.isolated db' hsame
      rw [getTopTeams_eq hidden, getTopTeams_eq hidden, hsame.shownBracket, hrows, hrows'] at heq
      injection heq with heq
      injection heq with heq
      -- the first row of the other scoreboard has more than all of this one
      have hin : (row.accountId, row.score) ∈ (shownStandings cfg db count
          (shownBracket view db teamId bracketId) freeze).map fun x => (x.accountId, x.score) := by
        rw [← hmap, ← heq, hmap']
        exact List.mem_map_of_mem hrow
      obtain ⟨x, hx, heqx⟩ := List.mem_map.mp hin
      have hlt := hm x hx
      rw [(Prod.mk.inj heqx).2] at hlt
      omega

end Shown

/-- **The scoreboard is a matter of one contest** if and only if it shows nothing. -/
theorem contestOnly_iff (c : ℤ) (cfg : ScoreConfig) (view : BoardSettings) (db : ScoreDb)
    (teamId count : ℤ) (bracketId : Option ℤ) :
    ContestOnly c cfg view db teamId count bracketId ↔
      ShowsNothing cfg view db teamId count bracketId :=
  ⟨ContestOnly.showsNothing, ShowsNothing.contestOnly⟩

/-- **Another contest is listed.** The scoreboard of contest 1 shows a team of contest 2. -/
theorem not_contestOnly : ¬ContestOnly 1 ⟨none, none⟩ ⟨"public", false⟩
    (twoContestDb [⟨1, some 2, some 9, some 6, some 10, some 50⟩]) 5 10 none := by
  intro h
  have hother : ∀ t ∈ (twoContestDb []).teams, t.id = 6 → t.contestId ≠ some 1 := by decide
  obtain ⟨t, ht, hid, hcontest⟩ := h.belongs rfl _ rfl _ List.mem_cons_self
  exact hother t ht hid hcontest

end Fctf
