import Fctf.Lib.Grouping
import Fctf.Lib.Ranking
import Fctf.Scores

/-!
# Cleared Topics

The platform's list of the teams that have cleared a topic: every bank challenge of it that is
visible in some contest. A team counts as one that has if the number of its solves is the number
of those challenges; but solves are counted by the instance, so a bank challenge with two
instances counts twice.

## Main results

* `mem_challengeIds`: which bank challenges are asked for.
* `right_iff`: when `CLEARED` means cleared, and the ranking is one.
-/

open Grouping

namespace Fctf.ClearedTopics

/-! ### Tables -/

/-- A team. -/
structure Team where
  id : ℤ
  name : Option String
  country : Option String
  hidden : Option Bool
  banned : Option Bool
  deriving DecidableEq, Repr

/-- A challenge of the bank. -/
structure Challenge where
  id : ℤ
  category : Option String
  deriving DecidableEq, Repr

/-- A challenge of a contest. -/
structure ContestsChallenge where
  id : ℤ
  contestId : ℤ
  bankId : Option ℤ
  state : String
  deriving DecidableEq, Repr

/-- A solve. -/
structure Solve where
  contestChallengeId : ℤ
  teamId : Option ℤ
  type : String
  date : Option ℤ
  deriving DecidableEq, Repr

/-- What the query looks at. -/
structure World where
  sql : Collation
  /-- `ILIKE`: does a text contain another, as a pattern? -/
  ilike : String → String → Bool
  teams : List Team
  challenges : List Challenge
  contestsChallenges : List ContestsChallenge
  solves : List Solve

/-- The filters of the caller. -/
structure Filters where
  teamName : Option String
  country : Option String
  userIsAdmin : Bool
  deriving DecidableEq, Repr

variable (w : World)

/-! ### The query -/

/-- `Challenges.category == topic_name`. -/
def ofTopic (topic : Option String) (c : Challenge) : Bool :=
  c.category.map w.sql.sortKey = topic.map w.sql.sortKey

/-- Is the bank challenge of a challenge of the topic? -/
def inTopic (topic : Option String) (cc : ContestsChallenge) : Bool :=
  (cc.bankId.bind fun id => w.challenges.find? (·.id = id)).any (ofTopic w topic)

/-- `challenge_ids`: the bank challenges of a topic that are visible in some contest. -/
def challengeIds (topic : Option String) : List ℤ :=
  ((w.contestsChallenges.filter fun cc =>
    inTopic w topic cc && !w.sql.eq cc.state "hidden").filterMap (·.bankId)).dedup

/-- The bank challenge of a solve, if it is one of these. -/
def solvedBank (ids : List ℤ) (s : Solve) : Option ℤ :=
  ((w.contestsChallenges.find? (·.id = s.contestChallengeId)).bind (·.bankId)).filter
    (ids.contains ·)

/-- The solves of a team on these bank challenges. -/
def solvesOf (ids : List ℤ) (teamId : ℤ) : List Solve :=
  w.solves.filter fun s =>
    decide (s.teamId = some teamId) && w.sql.eq s.type "correct" && (solvedBank w ids s).isSome

/-- The bank challenges of these solves, one for each. -/
def solvedBanks (ids : List ℤ) (teamId : ℤ) : List ℤ :=
  (solvesOf w ids teamId).filterMap (solvedBank w ids)

/-- A filter that is not given lets every text pass, and no text none. -/
def passes (pattern text : Option String) : Bool :=
  match pattern with
  | none => true
  | some p => p.isEmpty || text.any (w.ilike p)

/-- Do the filters let a team pass? -/
def isAdmitted (f : Filters) (team : Team) : Bool :=
  (f.userIsAdmin || decide (team.hidden = some false) && decide (team.banned = some false)) &&
    passes w f.teamName team.name && passes w f.country team.country

/-- A row of `teams_query`. -/
structure Row where
  teamId : ℤ
  teamName : Option String
  solvedCount : ℕ
  lastSubmissionTime : Option ℤ
  deriving DecidableEq, Repr

/-- The row of a team, if it has solves. -/
def row (ids : List ℤ) (team : Team) : Option Row :=
  if (solvesOf w ids team.id).isEmpty then none
  else
    some ⟨team.id, team.name, (solvesOf w ids team.id).length,
      ((solvesOf w ids team.id).filterMap (·.date)).max?⟩

/-- `teams_query`. -/
def teamsQuery (f : Filters) (ids : List ℤ) : List Row :=
  (w.teams.filter (isAdmitted w f)).filterMap (row w ids)

/-- The order of the ranking: more solves first, then the earlier last one. -/
def rowLe (a b : Row) : Prop :=
  b.solvedCount < a.solvedCount ∨
    a.solvedCount = b.solvedCount ∧ ScoreHelper.dateLe a.lastSubmissionTime b.lastSubmissionTime

instance : DecidableRel rowLe := fun _ _ =>
  inferInstanceAs (Decidable (_ < _ ∨ _ = _ ∧ ScoreHelper.dateLe _ _))

/-- The status of a team. -/
inductive Status where
  /-- `CLEARED`. -/
  | cleared
  /-- `{solved_count} solved`. -/
  | solved (solvedCount : ℕ)
  deriving DecidableEq, Repr

/-- What is reported of a team. -/
structure Entry where
  teamId : ℤ
  teamName : Option String
  status : Status
  lastSubmissionTime : Option ℤ
  deriving DecidableEq, Repr

/-- A row, reported. -/
def Row.entry (status : Status) (r : Row) : Entry :=
  ⟨r.teamId, r.teamName, status, r.lastSubmissionTime⟩

/-- What is made of the rows: those that have as many solves as there are challenges; if there is
none, all of them in order. -/
def report (n : ℕ) (rows : List Row) : List Entry :=
  let allClearedTeams := rows.filter fun r => r.solvedCount = n
  if allClearedTeams ≠ [] then allClearedTeams.map (Row.entry .cleared)
  else (rows.insertionSort rowLe).map fun r => r.entry (.solved r.solvedCount)

/-- The topics: the categories of the bank. -/
def topics : List (Option String) :=
  (groupBy (Option.map w.sql.sortKey) (w.challenges.map (·.category))).map fun g =>
    g.1.map fun _ => w.sql.pick (g.2.filterMap id)

/-- `get_teams_cleared_all_challenges_by_topic`. `yield` is the order in which the database has
its rows. -/
def getTeamsClearedAllChallengesByTopic (yield : List Row → List Row) (f : Filters) :
    List (Option String × List Entry) :=
  (topics w).filterMap fun topic =>
    let ids := challengeIds w topic
    if ids.isEmpty then none else some (topic, report ids.length (yield (teamsQuery w f ids)))

/-! ### What is promised -/

/-- A bank challenge of a topic that is visible in some contest. -/
def Required (topic : Option String) (bankId : ℤ) : Prop :=
  ∃ cc ∈ w.contestsChallenges, cc.bankId = some bankId ∧ inTopic w topic cc = true ∧
    w.sql.eq cc.state "hidden" = false

/-- A team has solved a bank challenge: some instance of it. -/
def HasSolved (teamId bankId : ℤ) : Prop :=
  ∃ s ∈ w.solves, s.teamId = some teamId ∧ w.sql.eq s.type "correct" = true ∧
    (w.contestsChallenges.find? (·.id = s.contestChallengeId)).bind (·.bankId) = some bankId

/-- **A team has cleared a topic.** -/
def HasCleared (topic : Option String) (teamId : ℤ) : Prop :=
  ∀ bankId, Required w topic bankId → HasSolved w teamId bankId

/-- The number of the challenges that a team has solved. -/
def distinctSolved (topic : Option String) (teamId : ℤ) : ℕ :=
  (solvedBanks w (challengeIds w topic) teamId).dedup.length

/-- **A report of a topic is right.** -/
structure Right (f : Filters) (topic : Option String) (entries : List Entry) : Prop where
  /-- Who is reported as cleared has cleared it, and the other way round. -/
  cleared : ∀ team ∈ w.teams, isAdmitted w f team = true →
    ((∃ e ∈ entries, e.teamId = team.id ∧ e.status = .cleared) ↔ HasCleared w topic team.id)
  /-- If nobody has, the teams are ranked by what they have solved. -/
  ranked : (∀ team ∈ w.teams, isAdmitted w f team = true → ¬HasCleared w topic team.id) →
    (entries.map (·.teamId)).Perm
        ((teamsQuery w f (challengeIds w topic)).map (·.teamId)) ∧
      entries.Pairwise fun a b =>
        distinctSolved w topic b.teamId ≤ distinctSolved w topic a.teamId

/-- No team that has as many solves as there are challenges, or has cleared the topic, has solved
two instances of one challenge. -/
def SolvedOnce (f : Filters) (topic : Option String) : Prop :=
  ∀ team ∈ w.teams, isAdmitted w f team = true →
    (solvedBanks w (challengeIds w topic) team.id).length = (challengeIds w topic).length ∨
        HasCleared w topic team.id →
      (solvedBanks w (challengeIds w topic) team.id).Nodup

/-- If nobody has cleared the topic, who comes first by instances and dates comes first by
challenges. -/
def RankedAlike (f : Filters) (topic : Option String) : Prop :=
  (∀ team ∈ w.teams, isAdmitted w f team = true → ¬HasCleared w topic team.id) →
    ∀ a ∈ teamsQuery w f (challengeIds w topic), ∀ b ∈ teamsQuery w f (challengeIds w topic),
      rowLe a b → distinctSolved w topic b.teamId ≤ distinctSolved w topic a.teamId

/-! ### What is counted -/

section Counts

variable {w} {f : Filters} {topic : Option String} {ids : List ℤ} {teamId bankId : ℤ}

/-- **Which bank challenges are asked for.** -/
theorem mem_challengeIds : bankId ∈ challengeIds w topic ↔ Required w topic bankId := by
  simp only [challengeIds, Required, List.mem_dedup, List.mem_filterMap, List.mem_filter,
    Bool.and_eq_true, Bool.not_eq_true']
  constructor
  · rintro ⟨cc, ⟨hcc, htopic, hstate⟩, hbank⟩
    exact ⟨cc, hcc, hbank, htopic, hstate⟩
  · rintro ⟨cc, hcc, hbank, htopic, hstate⟩
    exact ⟨cc, ⟨hcc, htopic, hstate⟩, hbank⟩

theorem nodup_challengeIds (w : World) (topic : Option String) : (challengeIds w topic).Nodup :=
  List.nodup_dedup _

theorem solvedBank_eq_some {s : Solve} :
    solvedBank w ids s = some bankId ↔
      (w.contestsChallenges.find? (·.id = s.contestChallengeId)).bind (·.bankId) = some bankId ∧
        bankId ∈ ids := by
  rw [solvedBank, Option.filter_eq_some_iff, List.contains_iff_mem]

/-- Which of these bank challenges a team has solved. -/
theorem mem_solvedBanks :
    bankId ∈ solvedBanks w ids teamId ↔ bankId ∈ ids ∧ HasSolved w teamId bankId := by
  simp only [solvedBanks, solvesOf, HasSolved, List.mem_filterMap, List.mem_filter,
    Bool.and_eq_true, decide_eq_true_eq]
  constructor
  · rintro ⟨s, ⟨hs, ⟨hteam, htype⟩, -⟩, hbank⟩
    obtain ⟨hjoin, hids⟩ := solvedBank_eq_some.mp hbank
    exact ⟨hids, s, hs, hteam, htype, hjoin⟩
  · rintro ⟨hids, s, hs, hteam, htype, hjoin⟩
    have hbank := solvedBank_eq_some.mpr ⟨hjoin, hids⟩
    exact ⟨s, ⟨hs, ⟨hteam, htype⟩, by rw [hbank]; rfl⟩, hbank⟩

/-- A team has as many solves as bank challenges, counted with repetitions. -/
theorem length_solvesOf :
    (solvesOf w ids teamId).length = (solvedBanks w ids teamId).length := by
  refine (List.filterMap_length_eq_length.mpr fun s hs => ?_).symm
  exact (Bool.and_eq_true_iff.mp (List.mem_filter.mp hs).2).2

/-- **Who has cleared a topic** has solved as many challenges as there are. -/
theorem hasCleared_iff :
    HasCleared w topic teamId ↔
      (challengeIds w topic).length ≤ distinctSolved w topic teamId := by
  have hsub : solvedBanks w (challengeIds w topic) teamId ⊆ challengeIds w topic :=
    fun bankId hbank => (mem_solvedBanks.mp hbank).1
  rw [distinctSolved, length_le_dedup_iff (nodup_challengeIds w topic) hsub]
  constructor
  · intro h bankId hbank
    exact mem_solvedBanks.mpr ⟨hbank, h bankId (mem_challengeIds.mp hbank)⟩
  · intro h bankId hbank
    exact (mem_solvedBanks.mp (h (mem_challengeIds.mpr hbank))).2

theorem distinctSolved_le :
    distinctSolved w topic teamId ≤ (challengeIds w topic).length :=
  length_dedup_le fun _ hbank => (mem_solvedBanks.mp hbank).1

/-- **When the two counts say the same.** -/
theorem count_iff :
    ((solvedBanks w (challengeIds w topic) teamId).length = (challengeIds w topic).length ↔
        HasCleared w topic teamId) ↔
      ((solvedBanks w (challengeIds w topic) teamId).length = (challengeIds w topic).length ∨
        HasCleared w topic teamId → (solvedBanks w (challengeIds w topic) teamId).Nodup) := by
  have hle := @distinctSolved_le w topic teamId
  have hnodup : (solvedBanks w (challengeIds w topic) teamId).Nodup ↔
      distinctSolved w topic teamId = (solvedBanks w (challengeIds w topic) teamId).length := by
    rw [← List.dedup_eq_self]
    exact ⟨congrArg List.length, (List.dedup_sublist _).eq_of_length⟩
  have hcount : distinctSolved w topic teamId ≤
      (solvedBanks w (challengeIds w topic) teamId).length := (List.dedup_sublist _).length_le
  rw [hasCleared_iff, hnodup]
  omega

/-- The rows of the query. -/
theorem mem_teamsQuery {r : Row} :
    r ∈ teamsQuery w f ids ↔
      ∃ team ∈ w.teams, isAdmitted w f team = true ∧ row w ids team = some r := by
  simp [teamsQuery, and_assoc]

theorem row_eq_some {team : Team} {r : Row} (h : row w ids team = some r) :
    r.teamId = team.id ∧ r.solvedCount = (solvedBanks w ids team.id).length := by
  rw [row] at h
  split at h
  next => cases h
  next =>
    obtain rfl := Option.some.inj h
    exact ⟨rfl, length_solvesOf⟩

/-- A team with as many solves as there are challenges has a row that says so. -/
theorem exists_row_iff {team : Team} (hteam : team ∈ w.teams)
    (hadmitted : isAdmitted w f team = true) {n : ℕ} (hn : 0 < n) :
    (∃ r ∈ teamsQuery w f ids, r.teamId = team.id ∧ r.solvedCount = n) ↔
      (solvedBanks w ids team.id).length = n := by
  constructor
  · rintro ⟨r, hr, hid, hcount⟩
    obtain ⟨team', -, -, hrow⟩ := mem_teamsQuery.mp hr
    obtain ⟨hid', hcount'⟩ := row_eq_some hrow
    rw [← hid, hid', ← hcount', hcount]
  · intro hlength
    have hne : (solvesOf w ids team.id).isEmpty = false := by
      rw [← length_solvesOf] at hlength
      exact List.isEmpty_eq_false_iff.mpr (List.ne_nil_of_length_pos (hlength ▸ hn))
    have hrow : row w ids team = some ⟨team.id, team.name, (solvesOf w ids team.id).length,
        ((solvesOf w ids team.id).filterMap (·.date)).max?⟩ := if_neg (by simp [hne])
    exact ⟨_, mem_teamsQuery.mpr ⟨team, hteam, hadmitted, hrow⟩, rfl,
      length_solvesOf.trans hlength⟩

end Counts

/-! ### When a report is right -/

instance : Std.Total rowLe where
  total a b := by
    rcases lt_trichotomy a.solvedCount b.solvedCount with h | h | h
    · exact .inr (.inl h)
    · exact (ScoreHelper.dateLe_total a.lastSubmissionTime b.lastSubmissionTime).imp
        (fun hdate => .inr ⟨h, hdate⟩) fun hdate => .inr ⟨h.symm, hdate⟩
    · exact .inl (.inl h)

instance : IsTrans Row rowLe where
  trans a b c := by
    rintro (h | ⟨h, hdate⟩) (h' | ⟨h', hdate'⟩)
    · exact .inl (h'.trans h)
    · exact .inl (h' ▸ h)
    · exact .inl (h ▸ h')
    · exact .inr ⟨h.trans h', ScoreHelper.dateLe_trans hdate hdate'⟩

section Report

variable {w} {f : Filters} {topic : Option String} {rows : List Row}

/-- A team is reported as cleared if it has a row with as many solves as there are challenges. -/
theorem exists_cleared_iff {n : ℕ} {teamId : ℤ} :
    (∃ e ∈ report n rows, e.teamId = teamId ∧ e.status = .cleared) ↔
      ∃ r ∈ rows, r.teamId = teamId ∧ r.solvedCount = n := by
  rw [report]
  split
  next =>
    simp only [List.mem_map, List.mem_filter, decide_eq_true_eq]
    constructor
    · rintro ⟨_, ⟨r, ⟨hr, hcount⟩, rfl⟩, hid, -⟩
      exact ⟨r, hr, hid, hcount⟩
    · rintro ⟨r, hr, hid, hcount⟩
      exact ⟨_, ⟨r, ⟨hr, hcount⟩, rfl⟩, hid, rfl⟩
  next hnil =>
    rw [not_not] at hnil
    refine iff_of_false ?_ ?_
    · rintro ⟨_, he, -, hstatus⟩
      obtain ⟨r, -, rfl⟩ := List.mem_map.mp he
      cases hstatus
    · rintro ⟨r, hr, -, hcount⟩
      exact List.filter_eq_nil_iff.mp hnil r hr (decide_eq_true hcount)

/-- Without such a row, all rows are reported in order. -/
theorem report_of_forall_ne {n : ℕ} (h : ∀ r ∈ rows, r.solvedCount ≠ n) :
    report n rows = (rows.insertionSort rowLe).map fun r => r.entry (.solved r.solvedCount) := by
  refine if_neg (not_not.mpr (List.filter_eq_nil_iff.mpr fun r hr hcount => ?_))
  exact h r hr (of_decide_eq_true hcount)

/-- Who is reported as cleared has cleared the topic, if its solves are of different
challenges. -/
theorem cleared_iff_solvedOnce (hids : challengeIds w topic ≠ [])
    (hrows : rows.Perm (teamsQuery w f (challengeIds w topic))) :
    (∀ team ∈ w.teams, isAdmitted w f team = true →
        ((∃ e ∈ report (challengeIds w topic).length rows,
            e.teamId = team.id ∧ e.status = .cleared) ↔ HasCleared w topic team.id)) ↔
      SolvedOnce w f topic := by
  refine forall₃_congr fun team hteam hadmitted => ?_
  rw [exists_cleared_iff, ← count_iff,
    ← exists_row_iff hteam hadmitted (List.length_pos_iff.mpr hids)]
  simp only [hrows.mem_iff]

/-- If nobody has cleared the topic, no row says so. -/
theorem forall_ne_of_not_hasCleared (hids : challengeIds w topic ≠ [])
    (hrows : rows.Perm (teamsQuery w f (challengeIds w topic))) (honce : SolvedOnce w f topic)
    (hnone : ∀ team ∈ w.teams, isAdmitted w f team = true → ¬HasCleared w topic team.id) :
    ∀ r ∈ rows, r.solvedCount ≠ (challengeIds w topic).length := by
  intro r hr hcount
  obtain ⟨team, hteam, hadmitted, hrow⟩ := mem_teamsQuery.mp (hrows.mem_iff.mp hr)
  obtain ⟨hid, -⟩ := row_eq_some hrow
  refine hnone team hteam hadmitted ?_
  exact ((cleared_iff_solvedOnce hids hrows).mpr honce team hteam hadmitted).mp
    (exists_cleared_iff.mpr ⟨r, hr, hid, hcount⟩)

/-- **When every report of a topic is right**, in whatever order the database has its rows. -/
theorem report_right_iff (hids : challengeIds w topic ≠ []) :
    (∀ rows : List Row, rows.Perm (teamsQuery w f (challengeIds w topic)) →
        Right w f topic (report (challengeIds w topic).length rows)) ↔
      SolvedOnce w f topic ∧ RankedAlike w f topic := by
  constructor
  · intro h
    have honce := (cleared_iff_solvedOnce hids (List.Perm.refl _)).mp
      (h _ (List.Perm.refl _)).cleared
    refine ⟨honce, fun hnone => ?_⟩
    refine (Ranking.forall_perm_insertionSort_iff (r := rowLe)
      (s := fun a b => distinctSolved w topic b.teamId ≤ distinctSolved w topic a.teamId)
      fun _ => le_rfl).mp fun rows hrows => ?_
    have hranked := ((h rows hrows).ranked hnone).2
    rw [report_of_forall_ne (forall_ne_of_not_hasCleared hids hrows honce hnone)] at hranked
    exact List.pairwise_map.mp hranked
  · rintro ⟨honce, halike⟩ rows hrows
    refine ⟨(cleared_iff_solvedOnce hids hrows).mpr honce, fun hnone => ?_⟩
    rw [report_of_forall_ne (forall_ne_of_not_hasCleared hids hrows honce hnone), List.map_map]
    refine ⟨((List.perm_insertionSort rowLe rows).trans hrows).map _, List.pairwise_map.mpr ?_⟩
    exact (Ranking.forall_perm_insertionSort_iff (r := rowLe)
      (s := fun a b => distinctSolved w topic b.teamId ≤ distinctSolved w topic a.teamId)
      fun _ => le_rfl).mpr (halike hnone) rows hrows

/-- **When `CLEARED` means cleared**, and the ranking is one: for every topic with a visible
challenge. -/
theorem right_iff :
    (∀ yield : List Row → List Row, (∀ rows, (yield rows).Perm rows) →
        ∀ x ∈ getTeamsClearedAllChallengesByTopic w yield f, Right w f x.1 x.2) ↔
      ∀ topic ∈ topics w, challengeIds w topic ≠ [] →
        SolvedOnce w f topic ∧ RankedAlike w f topic := by
  constructor
  · intro h topic htopic hids
    refine (report_right_iff hids).mp fun rows hrows => ?_
    -- a database that has the rows of this query in this order
    let yield := fun l => if l = teamsQuery w f (challengeIds w topic) then rows else l
    have hyield : ∀ l, (yield l).Perm l := by
      intro l
      by_cases hl : l = teamsQuery w f (challengeIds w topic)
      · have heq : yield l = rows := if_pos hl
        rw [heq, hl]
        exact hrows
      · have heq : yield l = l := if_neg hl
        rw [heq]
    have hrow : yield (teamsQuery w f (challengeIds w topic)) = rows := if_pos rfl
    have hmem : (topic, report (challengeIds w topic).length rows) ∈
        getTeamsClearedAllChallengesByTopic w yield f := by
      refine List.mem_filterMap.mpr ⟨topic, htopic, ?_⟩
      dsimp only
      rw [if_neg (by simpa using hids), hrow]
    exact h yield hyield _ hmem
  · rintro h yield hyield x hx
    obtain ⟨topic, htopic, hreport⟩ := List.mem_filterMap.mp hx
    dsimp only at hreport
    split at hreport
    next => cases hreport
    next hids =>
      obtain rfl := Option.some.inj hreport
      have hne : challengeIds w topic ≠ [] := by simpa using hids
      exact (report_right_iff hne).mpr (h topic htopic hne) _ (hyield _)

/-- A team that has solved one of two bank challenges, in two contests. -/
def twice : World where
  sql := Collation.binary
  ilike := fun _ _ => true
  teams := [⟨1, some "a", none, some false, some false⟩]
  challenges := [⟨1, some "Web"⟩, ⟨2, some "Web"⟩]
  contestsChallenges := [⟨1, 1, some 1, "visible"⟩, ⟨2, 2, some 1, "visible"⟩,
    ⟨3, 1, some 2, "visible"⟩]
  solves := [⟨1, some 1, "correct", some 5⟩, ⟨2, some 1, "correct", some 6⟩]

theorem not_right :
    getTeamsClearedAllChallengesByTopic twice id ⟨none, none, true⟩ =
        [(some "Web", [⟨1, some "a", .cleared, some 6⟩])] ∧
      ¬Right twice ⟨none, none, true⟩ (some "Web") [⟨1, some "a", .cleared, some 6⟩] := by
  refine ⟨by decide +kernel, fun h => ?_⟩
  have hcleared := (h.cleared ⟨1, some "a", none, some false, some false⟩ (by decide +kernel)
    (by decide +kernel)).mp ⟨_, List.mem_cons_self, rfl, rfl⟩
  exact absurd (hasCleared_iff.mp hcleared) (by decide +kernel)

end Report

end Fctf.ClearedTopics
