import Fctf.FrozenBoard
import Fctf.SqlStandings

/-!
# The Score of a Profile

`Users.get_score` and `Teams.get_score` of the management platform read the score of the
participants of the contest, which is 0 when a participant is created. Nothing that is done
to solves, awards or values ever writes it, so the profiles show 0 whatever the standings
list.

## Main results

* `unscored_after`: the score of every participant is 0 in every state reached.
* `profileAgrees_iff`: when the profiles agree with the standings.
* `not_profileAgrees`: a solve.
-/

namespace Fctf

open Scores

/-! ### Profiles -/

/-- A row of `get_user_standings`; its `team_id` is always NULL. -/
structure UserStanding where
  /-- The user. -/
  userId : ℤ
  /-- The id at the login provider. -/
  oauthId : Option ℤ
  /-- The name. -/
  name : Option String
  /-- Is the user hidden, or banned? Only for admins. -/
  flags : Option (Option Bool × Option Bool)
  /-- The points. -/
  score : ℤ
  deriving DecidableEq, Repr

namespace Scores

/-- `sumscores` of users. -/
def userSumscores (db : ScoreDb) (contestId freeze : Option ℤ) : ℤ → Option ScoreHelper.Entry :=
  sumsOf (·.userId) (·.userId) db contestId freeze

/-- The row of a user. -/
def userRow (entries : ℤ → Option ScoreHelper.Entry) (admin : Bool) (account : ScoreAccount) :
    UserStanding where
  userId := account.id
  oauthId := account.oauthId
  name := account.name
  flags := if admin then some (account.hidden, account.banned) else none
  score := (entryOf entries account).score

/-- `get_user_standings`. -/
def getUserStandings (freeze : ConfigValue) (db : ScoreDb) (count : Option ℕ)
    (bracketId : Option ℤ) (admin : Bool) (contestId : Option ℤ) :
    Except PyExn (List UserStanding) := do
  let date ← freezeDate freeze admin
  let entries := userSumscores db contestId date
  let standings := ((db.users.filter (selected entries bracketId admin)).insertionSort
    (byEntry entries)).map (userRow entries admin)
  return match count with
    | none => standings
    | some n => standings.take n

end Scores

/-- `Users.get_score`: in a contest, or in all of them if none or 0 is asked for. -/
def userGetScore (db : ScoreDb) (userId : ℤ) (contestId : Option ℤ) : ℤ :=
  match contestId.filter (· ≠ 0) with
  | some c =>
      ((db.participants.find? fun p => p.contestId = c ∧ p.userId = userId).map (·.score)).getD 0
  | none => ((db.participants.filter fun p => p.userId = userId).map (·.score)).sum

/-- `Teams._get_member_ids`. -/
def teamMemberIds (db : ScoreDb) (teamId : ℤ) (contestId : Option ℤ) : List ℤ :=
  (db.participants.filter fun p =>
    p.teamId = some teamId ∧ (contestId.filter (· ≠ 0)).all (p.contestId = ·)).map (·.userId)

/-- `Teams.get_score`: the sum over the members that are still there. -/
def teamGetScore (db : ScoreDb) (teamId : ℤ) (contestId : Option ℤ) : ℤ :=
  ((teamMemberIds db teamId contestId).map fun userId =>
    if db.users.any (·.id = userId) then userGetScore db userId contestId else 0).sum

/-- The profiles of all users and teams show what the standings of the contest list, or 0 for
those that are not listed. -/
structure ProfileAgrees (freeze : ConfigValue) (c : ℤ) (db : ScoreDb) : Prop where
  /-- The users. -/
  users : ∀ u ∈ db.users, ∃ rows, getUserStandings freeze db none none true (some c) = .ok rows ∧
    userGetScore db u.id (some c) = ((rows.find? (·.userId = u.id)).map (·.score)).getD 0
  /-- The teams. -/
  teams : ∀ t ∈ db.teams, ∃ rows, getTeamStandings freeze db none none true (some c) = .ok rows ∧
    teamGetScore db t.id (some c) = ((rows.find? (·.teamId = t.id)).map (·.score)).getD 0

/-! ### Runs -/

/-- What happens to the tables. -/
inductive ProfileEvent where
  /-- Something is solved, valued or awarded. -/
  | score (e : ScoreEvent)
  /-- A user is created. -/
  | user (row : ScoreAccount)
  /-- A team is created. -/
  | team (row : ScoreAccount)
  /-- A user becomes a participant, by either import. -/
  | participant (contestId userId : ℤ)
  /-- A user joins a team. -/
  | join (userId teamId : ℤ)
  /-- A user leaves a team. -/
  | leave (userId teamId : ℤ)

/-- The tables after an event. -/
def ProfileEvent.apply : ProfileEvent → ScoreDb → ScoreDb
  | .score e, db => e.apply db
  | .user row, db =>
      if db.users.any (·.id = row.id) then db else { db with users := db.users ++ [row] }
  | .team row, db =>
      if db.teams.any (·.id = row.id) then db else { db with teams := db.teams ++ [row] }
  | .participant contestId userId, db =>
      if db.participants.any (fun p => p.contestId = contestId && p.userId = userId) then db
      else { db with participants := db.participants ++ [⟨contestId, userId, none, 0⟩] }
  | .join userId teamId, db =>
      if (userId, teamId) ∈ db.userTeams then db
      else { db with userTeams := db.userTeams ++ [(userId, teamId)] }
  | .leave userId teamId, db =>
      { db with userTeams := db.userTeams.filter (· ≠ (userId, teamId)) }

/-- The tables after some events. -/
def ScoreDb.reached (db : ScoreDb) (events : List ProfileEvent) : ScoreDb :=
  events.foldl (fun db e => e.apply db) db

/-- Nobody's participation has a score, and keys are unique. -/
structure ScoreDb.Unscored (db : ScoreDb) : Prop where
  /-- The participants. -/
  participants : ∀ p ∈ db.participants, p.score = 0
  /-- The keys of users. -/
  users : (db.users.map (·.id)).Nodup
  /-- The keys of teams. -/
  teams : (db.teams.map (·.id)).Nodup

/-- What happens to solves, awards and values does not touch accounts. -/
theorem score_apply (e : ScoreEvent) (db : ScoreDb) :
    (e.apply db).participants = db.participants ∧ (e.apply db).users = db.users ∧
      (e.apply db).teams = db.teams := by
  cases e with
  | submission row =>
      simp only [ScoreEvent.apply]
      split <;> exact ⟨rfl, rfl, rfl⟩
  | solve row =>
      simp only [ScoreEvent.apply]
      split <;> exact ⟨rfl, rfl, rfl⟩
  | recalculation cfg e w cc contestId => exact ⟨rfl, rfl, rfl⟩
  | award row =>
      simp only [ScoreEvent.apply]
      split <;> exact ⟨rfl, rfl, rfl⟩

theorem nodup_append_new {accounts : List ScoreAccount} (h : (accounts.map (·.id)).Nodup)
    {row : ScoreAccount} (hnew : ¬accounts.any (·.id = row.id) = true) :
    ((accounts ++ [row]).map (·.id)).Nodup := by
  rw [List.map_append]
  refine nodup_append_fresh h fun hmem => hnew ?_
  obtain ⟨x, hx, hid⟩ := List.mem_map.mp hmem
  exact List.any_eq_true.mpr ⟨x, hx, decide_eq_true hid⟩

/-- **Nothing writes a score** to a participant. -/
theorem unscored_apply {db : ScoreDb} (h : db.Unscored) (e : ProfileEvent) :
    (e.apply db).Unscored := by
  cases e with
  | score e =>
      obtain ⟨hp, hu, ht⟩ := score_apply e db
      exact ⟨hp ▸ h.participants, hu ▸ h.users, ht ▸ h.teams⟩
  | user row =>
      simp only [ProfileEvent.apply]
      split
      · exact h
      · next hnew => exact { h with users := nodup_append_new h.users hnew }
  | team row =>
      simp only [ProfileEvent.apply]
      split
      · exact h
      · next hnew => exact { h with teams := nodup_append_new h.teams hnew }
  | participant contestId userId =>
      simp only [ProfileEvent.apply]
      split
      · exact h
      · refine { h with participants := fun p hp => ?_ }
        obtain hp | hp := List.mem_append.mp hp
        · exact h.participants p hp
        · rw [List.mem_singleton.mp hp]
  | join userId teamId =>
      simp only [ProfileEvent.apply]
      split
      · exact h
      · exact ⟨h.participants, h.users, h.teams⟩
  | leave userId teamId => exact ⟨h.participants, h.users, h.teams⟩

theorem unscored_reached {db : ScoreDb} (h : db.Unscored) (events : List ProfileEvent) :
    (db.reached events).Unscored := by
  induction events generalizing db with
  | nil => exact h
  | cons e events ih => exact ih (unscored_apply h e)

/-! ### What the profiles and the standings show -/

theorem userGetScore_eq {db : ScoreDb} (h : db.Unscored) (userId : ℤ) (contestId : Option ℤ) :
    userGetScore db userId contestId = 0 := by
  rw [userGetScore]
  split
  · next c _ =>
      cases hfind : db.participants.find? fun p => p.contestId = c ∧ p.userId = userId with
      | none => rfl
      | some p => exact h.participants p (List.mem_of_find?_eq_some hfind)
  · refine List.sum_eq_zero fun x hx => ?_
    obtain ⟨p, hp, rfl⟩ := List.mem_map.mp hx
    exact h.participants p (List.mem_of_mem_filter hp)

theorem teamGetScore_eq {db : ScoreDb} (h : db.Unscored) (teamId : ℤ) (contestId : Option ℤ) :
    teamGetScore db teamId contestId = 0 := by
  refine List.sum_eq_zero fun x hx => ?_
  obtain ⟨userId, -, rfl⟩ := List.mem_map.mp hx
  rw [userGetScore_eq h, ite_self]

/-- What is recorded for an account in a contest. -/
def recorded (solveKey : Solf → Option ℤ) (awardKey : Award → Option ℤ) (db : ScoreDb) (c : ℤ)
    (accountId : ℤ) : ℤ :=
  points ((solves solveKey db (some c)).filter fun x => x.accountId = some accountId) +
    points ((awards awardKey db (some c)).filter fun x => x.accountId = some accountId)

/-- Rows without points do not matter. -/
theorem points_filter_counted (l : List ScoreRow) (accountId : ℤ) :
    points ((l.filter (counted none)).filter fun x => x.accountId = some accountId) =
      points (l.filter fun x => x.accountId = some accountId) := by
  induction l with
  | nil => rfl
  | cons x l ih =>
      by_cases hvalue : x.value = 0
      · have hcounted : counted none x = false := by simp [counted, hvalue]
        rw [List.filter_cons_of_neg (by simp [hcounted]), ih, List.filter_cons]
        split
        · rw [points_cons, hvalue, zero_add]
        · rfl
      · have hcounted : counted none x = true := by simp [counted, hvalue, ScoreRow.before]
        rw [List.filter_cons_of_pos hcounted, List.filter_cons, List.filter_cons]
        split
        · rw [points_cons, points_cons, ih]
        · exact ih

/-- **An entry** has what is recorded for the account. -/
theorem score_sumsOf (solveKey : Solf → Option ℤ) (awardKey : Award → Option ℤ) (db : ScoreDb)
    (c : ℤ) (accountId : ℤ) :
    ((sumsOf solveKey awardKey db (some c) none accountId).map (·.score)).getD 0 =
      recorded solveKey awardKey db c accountId := by
  have hunion : ∀ e a : Option ScoreHelper.Entry, ((union e a).map (·.score)).getD 0 =
      (e.map (·.score)).getD 0 + (a.map (·.score)).getD 0 := by
    intro e a
    cases e with
    | none => exact (zero_add _).symm
    | some e =>
        cases a with
        | none => exact (add_zero _).symm
        | some a => rfl
  rw [sumsOf, hunion, ScoreHelper.group_score, ScoreHelper.group_score, points_filter_counted,
    points_filter_counted, recorded]

/-- What is listed for an account that is there once. -/
theorem listed_score {α : Type} {accounts : List ScoreAccount}
    (hnodup : (accounts.map (·.id)).Nodup) (entries : ℤ → Option ScoreHelper.Entry)
    {row : ScoreAccount → α} {id : α → ℤ} {score : α → ℤ} (hid : ∀ t, id (row t) = t.id)
    (hscore : ∀ t, score (row t) = (entryOf entries t).score) {t : ScoreAccount}
    (ht : t ∈ accounts) :
    ((((((accounts.filter (selected entries none true)).insertionSort (byEntry entries)).map
      row).find? fun x => id x = t.id).map score).getD 0) =
        ((entries t.id).map (·.score)).getD 0 := by
  have hmem : ∀ u, u ∈ (accounts.filter (selected entries none true)).insertionSort
      (byEntry entries) ↔ u ∈ accounts ∧ (entries u.id).isSome = true := by
    intro u
    rw [List.mem_insertionSort, List.mem_filter, selected, Bool.true_or, Bool.and_true,
      ScoreHelper.inBracket, Option.all_none, Bool.and_true]
  cases hfind : (((accounts.filter (selected entries none true)).insertionSort
      (byEntry entries)).map row).find? fun x => id x = t.id with
  | none =>
      have hnone : entries t.id = none := by
        by_contra hsome
        have hin := (hmem t).mpr ⟨ht, Option.isSome_iff_ne_none.mpr hsome⟩
        exact List.find?_eq_none.mp hfind (row t) (List.mem_map_of_mem hin)
          (decide_eq_true (hid t))
      rw [hnone]
      rfl
  | some x =>
      obtain ⟨u, hu, rfl⟩ := List.mem_map.mp (List.mem_of_find?_eq_some hfind)
      obtain ⟨hin, hsome⟩ := (hmem u).mp hu
      have hrow : id (row u) = t.id := by simpa using List.find?_some hfind
      have heq : u.id = t.id := (hid u).symm.trans hrow
      obtain rfl : u = t := List.inj_on_of_nodup_map hnodup hin ht heq
      obtain ⟨e, he⟩ := Option.isSome_iff_exists.mp hsome
      rw [Option.map_some, Option.getD_some, hscore, entryOf, he]
      rfl

/-- What is recorded in the contest adds up to nothing for every user and every team. -/
structure Scoreless (c : ℤ) (db : ScoreDb) : Prop where
  /-- For users. -/
  users : ∀ u ∈ db.users, recorded (·.userId) (·.userId) db c u.id = 0
  /-- For teams. -/
  teams : ∀ t ∈ db.teams, recorded (·.teamId) (·.teamId) db c t.id = 0

/-- The rows for an admin, whatever the freeze. -/
theorem getUserStandings_admin (freeze : ConfigValue) (db : ScoreDb) (c : ℤ) :
    getUserStandings freeze db none none true (some c) =
      .ok (((db.users.filter (selected (userSumscores db (some c) none) none true)).insertionSort
        (byEntry (userSumscores db (some c) none))).map
          (userRow (userSumscores db (some c) none) true)) := rfl

theorem getTeamStandings_admin (freeze : ConfigValue) (db : ScoreDb) (c : ℤ) :
    getTeamStandings freeze db none none true (some c) =
      .ok (((db.teams.filter (selected (sumscores db (some c) none) none true)).insertionSort
        (byEntry (sumscores db (some c) none))).map
          (teamRow (sumscores db (some c) none) true)) := rfl

/-- **The profiles agree with the standings**, in a state that is reached while no
participation has a score, if and only if nobody has scored. -/
theorem profileAgrees_iff (freeze : ConfigValue) (c : ℤ) (db : ScoreDb) (h : db.Unscored)
    (events : List ProfileEvent) :
    ProfileAgrees freeze c (db.reached events) ↔ Scoreless c (db.reached events) := by
  have hreached := unscored_reached h events
  generalize db.reached events = db' at hreached
  have husers : ∀ u ∈ db'.users, (∃ rows,
      getUserStandings freeze db' none none true (some c) = .ok rows ∧
        userGetScore db' u.id (some c) =
          ((rows.find? (·.userId = u.id)).map (·.score)).getD 0) ↔
      recorded (·.userId) (·.userId) db' c u.id = 0 := by
    intro u hu
    have hlisted := @listed_score _ db'.users hreached.users (userSumscores db' (some c) none)
      (userRow (userSumscores db' (some c) none) true) (·.userId) (·.score) (fun _ => rfl)
      (fun _ => rfl) u hu
    rw [userSumscores, score_sumsOf] at hlisted
    rw [getUserStandings_admin, userGetScore_eq hreached]
    constructor
    · rintro ⟨rows, hrows, hzero⟩
      obtain rfl := Except.ok.inj hrows
      exact hlisted.symm.trans hzero.symm
    · exact fun hzero => ⟨_, rfl, (hlisted.trans hzero).symm⟩
  have hteams : ∀ t ∈ db'.teams, (∃ rows,
      getTeamStandings freeze db' none none true (some c) = .ok rows ∧
        teamGetScore db' t.id (some c) =
          ((rows.find? (·.teamId = t.id)).map (·.score)).getD 0) ↔
      recorded (·.teamId) (·.teamId) db' c t.id = 0 := by
    intro t ht
    have hlisted := @listed_score _ db'.teams hreached.teams (sumscores db' (some c) none)
      (teamRow (sumscores db' (some c) none) true) (·.teamId) (·.score) (fun _ => rfl)
      (fun _ => rfl) t ht
    rw [sumscores, score_sumsOf] at hlisted
    rw [getTeamStandings_admin, teamGetScore_eq hreached]
    constructor
    · rintro ⟨rows, hrows, hzero⟩
      obtain rfl := Except.ok.inj hrows
      exact hlisted.symm.trans hzero.symm
    · exact fun hzero => ⟨_, rfl, (hlisted.trans hzero).symm⟩
  exact ⟨fun hagrees => ⟨fun u hu => (husers u hu).mp (hagrees.users u hu),
      fun t ht => (hteams t ht).mp (hagrees.teams t ht)⟩,
    fun hzero => ⟨fun u hu => (husers u hu).mpr (hzero.users u hu),
      fun t ht => (hteams t ht).mpr (hzero.teams t ht)⟩⟩

/-- A user and a team in contest 1, and one challenge. -/
def freshDb : ScoreDb where
  teams := [⟨5, none, some "five", none, some false, some false, some 1⟩]
  users := [⟨9, none, some "nine", none, some false, some false, none⟩]
  userTeams := [(9, 5)]
  contestsChallenges := [oneTryChallenge]
  submissions := []
  solves := []
  awards := []
  brackets := []
  participants := []

theorem freshDb_unscored : freshDb.Unscored :=
  ⟨List.forall_mem_nil _, by simp [freshDb], by simp [freshDb]⟩

/-- The user becomes a participant and submits something wrong. -/
theorem profileAgrees_example : ProfileAgrees .absent 1 (freshDb.reached
    [.participant 1 9, .score (.submission ⟨1, 1, 7, some 9, some 5, [], .incorrect, some 5⟩)]) :=
  (profileAgrees_iff .absent 1 freshDb freshDb_unscored _).mpr
    ⟨by decide, by decide⟩

/-- **A solve** is listed with 100 points, and the profile shows 0. -/
theorem not_profileAgrees : ¬ProfileAgrees .absent 1 (freshDb.reached
    [.participant 1 9, .score (.solve ⟨1, 1, 7, some 9, some 5, flagText, .correct, some 5⟩)]) := by
  intro h
  obtain ⟨rows, hrows, hscore⟩ := h.users _ List.mem_cons_self
  obtain rfl := Except.ok.inj hrows
  revert hscore
  decide

end Fctf
