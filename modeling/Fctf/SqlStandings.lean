import Fctf.TeamPlace

/-!
# The Standings of the Management Platform

`get_team_standings` of the management platform, one SQL query, beside `GetTeamStandings` of
the contestants' backend. The query leaves out teams whose flags are NULL, and its maximum of
dates ignores NULL, where the backend lets the date of the awards stand for both.

## Main results

* `rows_eq_iff`: when two standings of the same teams are the same.
* `sameRanking_iff`: what there is to compare under the same freeze.
* `sameBoards_iff`: exactly when the two scoreboards agree.
* `not_sameBoards`: a team whose `hidden` is NULL.
-/

open Ranking

namespace Fctf

/-! ### The query -/

/-- What `get_config` makes of a setting. -/
inductive ConfigValue
  /-- Not set, or empty. -/
  | absent
  /-- Digits. -/
  | int (n : ℕ)
  /-- "true" or "false". -/
  | bool (b : Bool)
  /-- Any other text. -/
  | text (value : String)
  deriving DecidableEq, Repr

/-- Is a setting true? -/
def ConfigValue.truthy : ConfigValue → Bool
  | .absent => false
  | .int n => n != 0
  | .bool b => b
  | .text value => value != ""

/-- The exceptions of the query. -/
inductive PyExn
  | typeError
  | valueError
  deriving DecidableEq, Repr

/-- `unix_time_to_utc`, in microseconds. -/
def unixTimeToUtc : ConfigValue → Except PyExn ℤ
  | .int n => if n ≤ 253402300799 then .ok (n * 1000000) else .error .valueError
  | .bool b => .ok (if b then 1000000 else 0)
  | _ => .error .typeError

/-- A row of `get_team_standings`. -/
structure TeamStanding where
  /-- The team. -/
  teamId : ℤ
  /-- Its id at the login provider. -/
  oauthId : Option ℤ
  /-- Its name. -/
  name : Option String
  /-- Is it hidden, is it banned? Only for admins. -/
  flags : Option (Option Bool × Option Bool)
  /-- Its points. -/
  score : ℤ
  deriving DecidableEq, Repr

namespace Scores

open ScoreHelper

/-- The freeze of the query. -/
def freezeDate (freeze : ConfigValue) (admin : Bool) : Except PyExn (Option ℤ) :=
  if !admin && freeze.truthy then (unixTimeToUtc freeze).map some else .ok none

/-- The solves, of one contest if one is asked for. -/
def solves (key : Solf → Option ℤ) (db : ScoreDb) (contestId : Option ℤ) : List ScoreRow :=
  ((submittedSolves db).filter fun s => contestId.all fun c =>
    (db.contestsChallenge s.1.contestChallengeId).any (·.contestId = c)).filterMap
      (solveRow key db)

/-- The awards, of one contest if one is asked for. -/
def awards (key : Award → Option ℤ) (db : ScoreDb) (contestId : Option ℤ) : List ScoreRow :=
  (db.awards.filter fun a => contestId.all fun c => a.contestId = some c).map (Award.row key)

/-- Does a row count? -/
def counted (freeze : Option ℤ) (x : ScoreRow) : Bool := decide (x.value ≠ 0) && x.before freeze

/-- `MAX` of two dates: NULL is ignored. -/
def maxDate : Option ℤ → Option ℤ → Option ℤ
  | some x, some y => some (max x y)
  | some x, none => some x
  | none, y => y

/-- The groups of solves and of awards, put together. -/
def union : Option Entry → Option Entry → Option Entry
  | some e, some a =>
      some
        { score := e.score + a.score
          lastId := max e.lastId a.lastId
          lastDate := maxDate e.lastDate a.lastDate }
  | some e, none => some e
  | none, a => a

/-- `sumscores`, by the accounts of solves and awards. -/
def sumsOf (solveKey : Solf → Option ℤ) (awardKey : Award → Option ℤ) (db : ScoreDb)
    (contestId freeze : Option ℤ) (accountId : ℤ) : Option Entry :=
  union (group ((solves solveKey db contestId).filter (counted freeze)) accountId)
    (group ((awards awardKey db contestId).filter (counted freeze)) accountId)

/-- `sumscores` of teams. -/
def sumscores (db : ScoreDb) (contestId freeze : Option ℤ) : ℤ → Option Entry :=
  sumsOf (·.teamId) (·.teamId) db contestId freeze

/-- Is an account shown to everybody? A comparison with NULL is not true. -/
def shown (account : ScoreAccount) : Bool :=
  account.banned == some false && account.hidden == some false

/-- Does the query select a team? -/
def selected (entries : ℤ → Option Entry) (bracketId : Option ℤ) (admin : Bool)
    (account : ScoreAccount) : Bool :=
  (entries account.id).isSome && (admin || shown account) && inBracket bracketId account

/-- What a team is ordered by. -/
def entryOf (entries : ℤ → Option Entry) (account : ScoreAccount) : Entry :=
  (entries account.id).getD ⟨0, 0, none⟩

/-- The order of the teams: NULL comes before all dates. -/
def byEntry (entries : ℤ → Option Entry) (t u : ScoreAccount) : Prop :=
  (entryOf entries t).le (entryOf entries u)

instance (entries : ℤ → Option Entry) : DecidableRel (byEntry entries) := fun _ _ =>
  inferInstanceAs (Decidable (Entry.le _ _))

instance (entries : ℤ → Option Entry) : Std.Total (byEntry entries) :=
  ⟨fun _ _ => Std.Total.total (r := Entry.le) _ _⟩

instance (entries : ℤ → Option Entry) : IsTrans ScoreAccount (byEntry entries) :=
  ⟨fun _ _ _ => IsTrans.trans (r := Entry.le) _ _ _⟩

/-- The row of a team. -/
def teamRow (entries : ℤ → Option Entry) (admin : Bool) (account : ScoreAccount) :
    TeamStanding where
  teamId := account.id
  oauthId := account.oauthId
  name := account.name
  flags := if admin then some (account.hidden, account.banned) else none
  score := (entryOf entries account).score

/-- `get_team_standings`. -/
def getTeamStandings (freeze : ConfigValue) (db : ScoreDb) (count : Option ℕ)
    (bracketId : Option ℤ) (admin : Bool) (contestId : Option ℤ) :
    Except PyExn (List TeamStanding) := do
  let date ← freezeDate freeze admin
  let entries := sumscores db contestId date
  let standings := ((db.teams.filter (selected entries bracketId admin)).insertionSort
    (byEntry entries)).map (teamRow entries admin)
  return match count with
    | none => standings
    | some n => standings.take n

end Scores

/-! ### Two rankings of the same teams -/

section Rows

open ScoreHelper Scores

/-- The teams that satisfy a predicate with their points, in the order of the entries. -/
def rows (teams : List ScoreAccount) (entries : ℤ → Option Entry) (p : ScoreAccount → Bool) :
    List (ℤ × ℤ) :=
  ((teams.filter p).insertionSort (byEntry entries)).map fun t =>
    (t.id, (entryOf entries t).score)

/-- The same teams with the same points, every two of them in the same order. -/
structure SameRanking (teams : List ScoreAccount) (entries entries' : ℤ → Option Entry)
    (p p' : ScoreAccount → Bool) : Prop where
  /-- The same teams. -/
  listed : ∀ t ∈ teams, p t = p' t
  /-- The same points. -/
  scores : ∀ t ∈ teams, p t = true → (entryOf entries t).score = (entryOf entries' t).score
  /-- The same order. -/
  order : ∀ t u, Precedes teams t u → p t = true → p u = true →
    (byEntry entries t u ↔ byEntry entries' t u)

theorem eq_of_map_eq {α β : Type} {f : α → β} {l l' : List α}
    (hinj : ∀ x ∈ l, ∀ y ∈ l', f x = f y → x = y) (heq : l.map f = l'.map f) : l = l' := by
  induction l generalizing l' with
  | nil => exact (List.map_eq_nil_iff.mp heq.symm).symm
  | cons x l ih =>
      cases l' with
      | nil => cases heq
      | cons y l' =>
          obtain ⟨hhead, htail⟩ := List.cons.inj heq
          rw [hinj x List.mem_cons_self y List.mem_cons_self hhead,
            ih (fun z hz w hw => hinj z (List.mem_cons_of_mem x hz) w (List.mem_cons_of_mem y hw))
              htail]

/-- **Two standings are the same** if and only if the teams, the points and the order of
every two teams are. -/
theorem rows_eq_iff {teams : List ScoreAccount} (hnodup : (teams.map (·.id)).Nodup)
    (entries entries' : ℤ → Option Entry) (p p' : ScoreAccount → Bool) :
    rows teams entries p = rows teams entries' p' ↔
      SameRanking teams entries entries' p p' := by
  have hteams : teams.Nodup := hnodup.of_map _
  have hinj : ∀ t ∈ teams, ∀ u ∈ teams, t.id = u.id → t = u := fun t ht u hu hid =>
    List.inj_on_of_nodup_map hnodup ht hu hid
  constructor
  · intro heq
    have hmem : ∀ {entries p} {t : ScoreAccount},
        t ∈ (teams.filter p).insertionSort (byEntry entries) ↔ t ∈ teams ∧ p t = true := by
      intro entries p t
      rw [List.mem_insertionSort, List.mem_filter]
    have hids := congrArg (List.map Prod.fst) heq
    rw [rows, rows, List.map_map, List.map_map] at hids
    have hsorted : (teams.filter p).insertionSort (byEntry entries) =
        (teams.filter p').insertionSort (byEntry entries') :=
      eq_of_map_eq (fun t ht u hu => hinj t (hmem.mp ht).1 u (hmem.mp hu).1) hids
    have hsame : ∀ t ∈ teams, p t = p' t := by
      intro t ht
      have hiff := @hmem entries p t
      rw [hsorted, hmem, and_congr_right_iff] at hiff
      exact (Bool.eq_iff_iff.mpr (hiff ht)).symm
    refine ⟨hsame, fun t ht hp => ?_, fun t u htu ht hu => ?_⟩
    · rw [rows, rows, ← hsorted, List.map_inj_left] at heq
      exact (Prod.mk.inj (heq t (hmem.mpr ⟨ht, hp⟩))).2
    · have hfilter : teams.filter p = teams.filter p' := List.filter_congr hsame
      rw [← hfilter, insertionSort_eq_iff (hteams.filter p)] at hsorted
      exact hsorted t u (precedes_filter.mpr ⟨htu, ht, hu⟩)
  · rintro ⟨hsame, hscores, horder⟩
    have hfilter : teams.filter p = teams.filter p' := List.filter_congr hsame
    have hsort : (teams.filter p').insertionSort (byEntry entries) =
        (teams.filter p').insertionSort (byEntry entries') := by
      rw [← hfilter, insertionSort_eq_iff (hteams.filter p)]
      intro t u htu
      obtain ⟨htu, ht, hu⟩ := precedes_filter.mp htu
      exact horder t u htu ht hu
    rw [rows, rows, hfilter, hsort]
    refine List.map_congr_left fun t ht => ?_
    obtain ⟨ht, hp⟩ := List.mem_filter.mp ((List.mem_insertionSort _).mp ht)
    rw [hscores t ht ((hsame t ht).trans hp)]

/-- The first of some rows, if a count is given. -/
def first {α : Type} (count : Option ℕ) (l : List α) : List α :=
  match count with
  | none => l
  | some n => l.take n

theorem map_first {α β : Type} (f : α → β) (count : Option ℕ) (l : List α) :
    (first count l).map f = first count (l.map f) := by
  cases count with
  | none => rfl
  | some n => exact List.map_take

/-- The standings of the backend. -/
theorem backend_rows (db : ScoreDb) (count : Option ℕ) (bracketId : Option ℤ) (admin : Bool)
    (freezeUtc : Option ℤ) :
    (ScoreHelper.getTeamStandings db (count.map fun n => (n : ℤ)) bracketId admin freezeUtc).map
        (fun x => (x.accountId, x.score)) =
      first count (rows db.teams (teamEntries db (publicFreeze admin freezeUtc))
        (listed (teamEntries db (publicFreeze admin freezeUtc)) bracketId admin)) := by
  have htake : ∀ l : List StandingDto, takeCount (count.map fun n => (n : ℤ)) l = first count l := by
    intro l
    cases count with
    | none => rfl
    | some n => rfl
  rw [ScoreHelper.getTeamStandings, standings, htake, map_first, rows,
    ← List.map_insertionSort (byEntry (teamEntries db (publicFreeze admin freezeUtc))) standingLe
      _ _ fun _ _ _ _ => Iff.rfl, List.map_map]
  rfl

/-- The standings of the management platform. -/
theorem platform_rows {freeze : ConfigValue} {admin : Bool} {date : Option ℤ}
    (hdate : freezeDate freeze admin = .ok date) (db : ScoreDb) (count : Option ℕ)
    (bracketId : Option ℤ) :
    (Scores.getTeamStandings freeze db count bracketId admin none).map
        (fun l => l.map fun x => (x.teamId, x.score)) =
      .ok (first count (rows db.teams (sumscores db none date)
        (selected (sumscores db none date) bracketId admin))) := by
  rw [Scores.getTeamStandings, hdate]
  refine congrArg Except.ok ?_
  show (first count (((db.teams.filter (selected (sumscores db none date) bracketId
    admin)).insertionSort (byEntry (sumscores db none date))).map
      (teamRow (sumscores db none date) admin))).map _ = _
  rw [map_first, List.map_map, rows]
  rfl

/-! ### The same freeze -/

theorem group_counted (l : List ScoreRow) (freeze : Option ℤ) (teamId : ℤ) :
    group (l.filter (counted freeze)) teamId = group (l.filter (counts freeze)) teamId := by
  have hrows : (l.filter (counted freeze)).filter (fun x => x.accountId = some teamId) =
      (l.filter (counts freeze)).filter fun x => x.accountId = some teamId := by
    rw [List.filter_filter, List.filter_filter]
    refine List.filter_congr fun x _ => ?_
    by_cases hx : x.accountId = some teamId
    · rw [counts, counted, hx]
      simp
    · simp [hx]
  rw [group, hrows, group]

theorem sumscores_eq (db : ScoreDb) (freeze : Option ℤ) (teamId : ℤ) :
    sumscores db none freeze teamId =
      union (group ((solveRows (·.teamId) db).filter (counts freeze)) teamId)
        (group ((awardRows (·.teamId) db).filter (counts freeze)) teamId) := by
  have hsolves : solves (·.teamId) db none = solveRows (·.teamId) db := by
    simp only [solves, Option.all_none, List.filter_true, solveRows]
  have hawards : awards (·.teamId) db none = awardRows (·.teamId) db := by
    simp only [awards, Option.all_none, List.filter_true, awardRows]
  rw [sumscores, sumsOf, hsolves, hawards, group_counted, group_counted]

/-- The query has an entry for the same teams. -/
theorem isSome_sumscores (db : ScoreDb) (freeze : Option ℤ) (teamId : ℤ) :
    (sumscores db none freeze teamId).isSome = (teamEntries db freeze teamId).isSome := by
  rw [sumscores_eq, teamEntries, scoreMap]
  cases group ((solveRows (·.teamId) db).filter (counts freeze)) teamId <;>
    cases group ((awardRows (·.teamId) db).filter (counts freeze)) teamId <;> rfl

/-- The query has the same points for them. -/
theorem score_sumscores (db : ScoreDb) (freeze : Option ℤ) (t : ScoreAccount) :
    (entryOf (sumscores db none freeze) t).score =
      (entryOf (teamEntries db freeze) t).score := by
  rw [entryOf, entryOf, sumscores_eq, teamEntries, scoreMap]
  cases group ((solveRows (·.teamId) db).filter (counts freeze)) t.id <;>
    cases group ((awardRows (·.teamId) db).filter (counts freeze)) t.id <;> rfl

/-- No team with points that is neither hidden nor banned has an unset flag. -/
def FlagsSet (db : ScoreDb) (bracketId : Option ℤ) (admin : Bool) (freeze : Option ℤ) : Prop :=
  admin = true ∨ ∀ t ∈ db.teams, listed (teamEntries db freeze) bracketId false t = true →
    t.hidden.isSome = true ∧ t.banned.isSome = true

/-- Every two listed teams are ordered alike, whether or not the missing date of the awards
stands for that of the solves. -/
def DatesKept (db : ScoreDb) (bracketId : Option ℤ) (admin : Bool) (freeze : Option ℤ) : Prop :=
  ∀ t u, Precedes db.teams t u → listed (teamEntries db freeze) bracketId admin t = true →
    listed (teamEntries db freeze) bracketId admin u = true →
      (byEntry (teamEntries db freeze) t u ↔ byEntry (sumscores db none freeze) t u)

theorem shown_eq (t : ScoreAccount) :
    shown t = (visible t && (t.hidden.isSome && t.banned.isSome)) := by
  rw [shown, visible]
  cases t.hidden with
  | none => simp
  | some h =>
      cases t.banned with
      | none => simp
      | some b => cases h <;> cases b <;> rfl

/-- **Under the same freeze** only unset flags and missing dates make a difference. -/
theorem sameRanking_iff (db : ScoreDb) (bracketId : Option ℤ) (admin : Bool)
    (freeze : Option ℤ) :
    SameRanking db.teams (teamEntries db freeze) (sumscores db none freeze)
        (listed (teamEntries db freeze) bracketId admin)
        (selected (sumscores db none freeze) bracketId admin) ↔
      FlagsSet db bracketId admin freeze ∧ DatesKept db bracketId admin freeze := by
  have hflags : (∀ t ∈ db.teams, listed (teamEntries db freeze) bracketId admin t =
      selected (sumscores db none freeze) bracketId admin t) ↔
        FlagsSet db bracketId admin freeze := by
    cases admin with
    | true =>
        refine iff_of_true (fun t _ => ?_) (.inl rfl)
        rw [listed, selected, isSome_sumscores]
        rfl
    | false =>
        have hselected : ∀ t : ScoreAccount,
            selected (sumscores db none freeze) bracketId false t =
              (listed (teamEntries db freeze) bracketId false t &&
                (t.hidden.isSome && t.banned.isSome)) := by
          intro t
          rw [listed, selected, isSome_sumscores, shown_eq]
          simp only [Bool.false_or, Bool.and_assoc, Bool.and_comm, Bool.and_left_comm]
        rw [FlagsSet, or_iff_right Bool.false_ne_true]
        refine forall₂_congr fun t _ => ?_
        rw [hselected, eq_comm, Bool.and_eq_left_iff_imp, Bool.and_eq_true]
  exact ⟨fun h => ⟨hflags.mp h.listed, h.order⟩,
    fun h => ⟨hflags.mpr h.1, fun t _ _ => (score_sumscores db freeze t).symm, h.2⟩⟩

/-! ### The two scoreboards -/

/-- The two services return the same teams with the same points in the same order, however
many are asked for, or both fail. -/
def SameBoards (cfg : ScoreConfig) (freeze : ConfigValue) (db : ScoreDb) (admin : Bool)
    (bracketId : Option ℤ) : Prop :=
  ∀ count : Option ℕ,
    ((freezeUtc cfg).map fun date =>
      (ScoreHelper.getTeamStandings db (count.map fun n => (n : ℤ)) bracketId admin date).map
        fun x => (x.accountId, x.score)).toOption =
      ((Scores.getTeamStandings freeze db count bracketId admin none).map
        fun l => l.map fun x => (x.teamId, x.score)).toOption

/-- Both fail over the freeze; or both read the same one, no flag is unset and no missing date
matters; or they read different ones and their rankings happen to be the same. -/
def BoardsMatch (cfg : ScoreConfig) (freeze : ConfigValue) (db : ScoreDb) (admin : Bool)
    (bracketId : Option ℤ) : Prop :=
  match freezeUtc cfg, freezeDate freeze admin with
  | .error _, .error _ => True
  | .ok date, .ok date' =>
      if publicFreeze admin date = date' then
        FlagsSet db bracketId admin date' ∧ DatesKept db bracketId admin date'
      else
        SameRanking db.teams (teamEntries db (publicFreeze admin date)) (sumscores db none date')
          (listed (teamEntries db (publicFreeze admin date)) bracketId admin)
          (selected (sumscores db none date') bracketId admin)
  | _, _ => False

/-- **The two scoreboards agree** if and only if they read the same freeze, or fail over it,
no unset flag decides and no missing date does. -/
theorem sameBoards_iff (cfg : ScoreConfig) (freeze : ConfigValue) (db : ScoreDb) (admin : Bool)
    (bracketId : Option ℤ) (h : db.Keyed) :
    SameBoards cfg freeze db admin bracketId ↔ BoardsMatch cfg freeze db admin bracketId := by
  rw [SameBoards, BoardsMatch]
  cases hbackend : freezeUtc cfg with
  | error e =>
      cases hplatform : freezeDate freeze admin with
      | error e' =>
          refine iff_of_true (fun count => ?_) trivial
          rw [Scores.getTeamStandings, hplatform]
          rfl
      | ok date' =>
          refine iff_of_false (fun hall => ?_) id
          have hnone := hall none
          rw [platform_rows hplatform] at hnone
          cases hnone
  | ok date =>
      cases hplatform : freezeDate freeze admin with
      | error e' =>
          refine iff_of_false (fun hall => ?_) id
          have hnone := hall none
          rw [Scores.getTeamStandings, hplatform] at hnone
          cases hnone
      | ok date' =>
          have hrows : (∀ count : Option ℕ,
              (((Except.ok date : Except Exn (Option ℤ)).map fun date =>
                (ScoreHelper.getTeamStandings db (count.map fun n => (n : ℤ)) bracketId admin
                  date).map fun x => (x.accountId, x.score)).toOption =
                ((Scores.getTeamStandings freeze db count bracketId admin none).map
                  fun l => l.map fun x => (x.teamId, x.score)).toOption)) ↔
              rows db.teams (teamEntries db (publicFreeze admin date))
                  (listed (teamEntries db (publicFreeze admin date)) bracketId admin) =
                rows db.teams (sumscores db none date')
                  (selected (sumscores db none date') bracketId admin) := by
            constructor
            · intro hall
              have hnone := hall none
              rw [platform_rows hplatform, Except.map, backend_rows] at hnone
              exact Option.some.inj hnone
            · intro heq count
              rw [platform_rows hplatform, Except.map, backend_rows, heq]
              rfl
          rw [hrows, rows_eq_iff h.teams]
          dsimp only
          split
          · next heq => rw [heq, sameRanking_iff]
          · exact Iff.rfl

end Rows

open Scores

/-- One team with one award, whose `hidden` may be unset. -/
def unsetFlagDb (hidden : Option Bool) : ScoreDb :=
  { rivalDb 60 with teams := [⟨5, none, some "five", none, hidden, some false, some 1⟩] }

theorem unsetFlagDb_keyed (hidden : Option Bool) : (unsetFlagDb hidden).Keyed := by
  constructor <;> simp [unsetFlagDb, rivalDb]

/-- With the flag set the two scoreboards agree. -/
theorem sameBoards_example :
    SameBoards ⟨none, none⟩ .absent (unsetFlagDb (some false)) false none :=
  (sameBoards_iff ⟨none, none⟩ .absent (unsetFlagDb (some false)) false none
    (unsetFlagDb_keyed (some false))).mpr
      ⟨.inr (by decide), fun _ _ htu => absurd htu.length_le (Nat.not_succ_le_self 1)⟩

/-- **An unset flag.** Only the backend lists the team. -/
theorem not_sameBoards : ¬SameBoards ⟨none, none⟩ .absent (unsetFlagDb none) false none :=
  fun h => absurd (h none) (by decide)

end Fctf
