import Fctf.ChallengeToken
import Fctf.SecretKey
import Fctf.TeamScore

/-!
# The Solves before the Freeze

`GetUserSolves` and `GetTeamSolves` hide the solves behind the freeze, and so do the score of a user
and the standings. The scores take the setting for seconds since 1970; the lists take it for the
ticks of a date, which are tenths of microseconds since the year 1.

## Main results

* `oneCutOff_iff`: when the listed solves are those that are counted.
* `cutOffsAgree_iff_of_seconds`: for an ordinary setting, that is when all solves are behind the
  freeze.
* `not_oneCutOff`: a solve that is counted and not listed.
-/

namespace Fctf

namespace ScoreHelper

/-! ### The setting -/

/-- The number that a text is. -/
def readNumber (text : String) : Option ℤ :=
  signedValue ((text.toList.dropWhile isBlank).rdropWhile isBlank)

/-- `bool.TryParse`. -/
def tryParseBool (text : String) : Option Bool :=
  let skipped := fun c : Char => isSpace c || c = Char.ofNat 0
  let word := ((text.toList.dropWhile skipped).rdropWhile skipped).map Char.toLower
  if word = "true".toList then some true
  else if word = "false".toList then some false
  else none

/-- `GetConfig<long>`: a number, or a truth value as a number. -/
def getConfigLong (setting : Option String) (defaultValue : ℤ) : ℤ :=
  match setting with
  | none => defaultValue
  | some text =>
    match tryParseInt (readNumber text) with
    | some n => n
    | none =>
      match tryParseBool text with
      | some b => if b then 1 else 0
      | none => ((readNumber text).filter fun n => -2 ^ 63 ≤ n ∧ n < 2 ^ 63).getD defaultValue

/-- The settings of the scores. -/
def scoreConfig (freeze userMode : Option String) : ScoreConfig :=
  ⟨freeze.bind readNumber, userMode⟩

/-! ### Lists of solves -/

/-- `new DateTime(ticks)`. -/
def newDateTime (ticks : ℤ) : Except Exn ℤ :=
  if 0 ≤ ticks ∧ ticks ≤ 3155378975999999999 then .ok ticks else .error .argument

/-- The microseconds from the year 1 to 1970. -/
def unixEpoch : ℤ := 62135596800000000

/-- Is a date before another one, in ticks, if there is one? -/
def beforeTicks (dt date : Option ℤ) : Bool :=
  dt.all fun dt => date.any fun date => 10 * (unixEpoch + date) < dt

/-- The cut-off of the lists. -/
def listCutOff (freeze : Option String) (admin : Bool) : Except Exn (Option ℤ) :=
  let freezeConfig := getConfigLong freeze (-1)
  if freezeConfig ≠ -1 ∧ admin = false then (newDateTime freezeConfig).map some else .ok none

/-- The order of the lists: the latest first. -/
def laterFirst (x y : Solf × Submission) : Prop := dateLe y.2.date x.2.date

instance : DecidableRel laterFirst := fun _ _ => inferInstanceAs (Decidable (dateLe _ _))

/-- `GetUserSolves`. -/
def getUserSolves (freeze : Option String) (db : ScoreDb) (userId : ℤ) (admin : Bool) :
    Except Exn (List (Solf × Submission)) := do
  let query :=
    ((submittedSolves db).filter fun s => s.1.userId = some userId).insertionSort laterFirst
  let dt ← listCutOff freeze admin
  pure (query.filter fun s => beforeTicks dt s.2.date)

/-- `GetTeamSolves`. -/
def getTeamSolves (freeze : Option String) (db : ScoreDb) (teamId : ℤ) (admin : Bool) :
    Except Exn (List (Solf × Submission)) :=
  if (memberIds db teamId).isEmpty then .ok []
  else do
    let query :=
      ((submittedSolves db).filter fun s =>
        s.1.userId.any (· ∈ memberIds db teamId)).insertionSort laterFirst
    let dt ← listCutOff freeze admin
    pure (query.filter fun s => beforeTicks dt s.2.date)

/-! ### The score of a user -/

/-- The solves that are summed up for a user. -/
def userSolves (db : ScoreDb) (freeze : Option ℤ) (userId : ℤ) : List (Solf × Submission) :=
  (submittedSolves db).filter fun s =>
    decide (s.1.userId = some userId) && inTime freeze s.2.date

/-- The points of some awards. -/
def awardPoints (db : ScoreDb) (award : Award → Bool) : ℤ :=
  ((db.awards.filter award).map fun a => a.value.getD 0).sum

/-- The points of some solves. -/
def solvePoints (db : ScoreDb) (solves : List (Solf × Submission)) : ℤ :=
  (solves.map db.solveValue).sum

/-- Is an award counted for a user? -/
def awardedToUser (freeze : Option ℤ) (userId : ℤ) (a : Award) : Bool :=
  decide (a.userId = some userId) && inTime freeze a.date

/-- The score of one user. -/
def userScore (db : ScoreDb) (freeze : Option ℤ) (userId : ℤ) : ℤ :=
  solvePoints db (userSolves db freeze userId) +
    awardPoints db (awardedToUser freeze userId)

/-- `GetUsersScore`. Ids begin with one, so that nobody has the solves without a user. -/
def getUsersScore (cfg : ScoreConfig) (db : ScoreDb) (users : List ScoreAccount) (admin : Bool) :
    List (ScoreAccount × ℤ) :=
  users.map fun u => (u, userScore db (freezeOf cfg admin) u.id)

/-! ### One cut-off -/

/-- Is a solve a member's? -/
def byMember (db : ScoreDb) (teamId : ℤ) (s : Solf × Submission) : Bool :=
  s.1.userId.any (· ∈ memberIds db teamId)

section CutOff

variable (freeze userMode : Option String) (db : ScoreDb)

/-- The solves listed for a user are those that are counted for him, and they make up his frozen
score, the awards apart. -/
def UserCutOff (user : ScoreAccount) : Prop :=
  ∃ listed, getUserSolves freeze db user.id false = .ok listed ∧
    listed.Perm (userSolves db (freezeOf (scoreConfig freeze userMode) false) user.id) ∧
    getUsersScore (scoreConfig freeze userMode) db [user] false =
      [(user, solvePoints db listed +
        awardPoints db (awardedToUser (freezeOf (scoreConfig freeze userMode) false) user.id))]

/-- Of the solves that the members have for the team, those are listed that the standings count; and
they make up its frozen score, if the members have no other solves and the team has no solves of
others. -/
def TeamCutOff (teamId : ℤ) : Prop :=
  ∃ listed frozen, getTeamSolves freeze db teamId false = .ok listed ∧
    freezeUtc (scoreConfig freeze userMode) = .ok frozen ∧
    (∀ s ∈ submittedSolves db, byMember db teamId s = true → s.1.teamId = some teamId →
      (s ∈ listed ↔ solvedForTeam frozen teamId s = true)) ∧
    ((∀ s ∈ submittedSolves db, byMember db teamId s = true ↔ s.1.teamId = some teamId) →
      solvePoints db listed + awardPoints db (awardedForTeam frozen teamId) =
        standingScore db frozen teamId)

/-- **One freeze cut-off** for lists and scores of a user and a team. -/
def OneCutOff (user : ScoreAccount) (teamId : ℤ) : Prop :=
  UserCutOff freeze userMode db user ∧ TeamCutOff freeze userMode db teamId

/-- Neither cut-off raises, and no solve lies between them. -/
def CutOffsAgree (userId teamId : ℤ) : Prop :=
  ∃ dt frozen, listCutOff freeze false = .ok dt ∧
    freezeUtc (scoreConfig freeze userMode) = .ok frozen ∧
    (∀ s ∈ submittedSolves db, s.1.userId = some userId →
      beforeTicks dt s.2.date = inTime (freezeOf (scoreConfig freeze userMode) false) s.2.date) ∧
    ∀ s ∈ submittedSolves db, byMember db teamId s = true → s.1.teamId = some teamId →
      beforeTicks dt s.2.date = inTime frozen s.2.date

end CutOff

section Lists

variable {freeze userMode : Option String} {db : ScoreDb} {userId teamId : ℤ}

/-- Two selections from one list. -/
theorem filter_perm_iff {α : Type} {p q : α → Bool} {l : List α} :
    (l.filter p).Perm (l.filter q) ↔ ∀ x ∈ l, p x = q x := by
  constructor
  · intro h x hx
    have hmem := h.mem_iff (a := x)
    rw [List.mem_filter, List.mem_filter, and_iff_right hx, and_iff_right hx] at hmem
    exact Bool.eq_iff_iff.mpr hmem
  · intro h
    rw [List.filter_congr h]

/-- A selection from a selection that was put in order. -/
theorem filter_insertionSort_perm {α : Type} (r : α → α → Prop) [DecidableRel r]
    (p q : α → Bool) (l : List α) :
    (((l.filter p).insertionSort r).filter q).Perm (l.filter fun x => p x && q x) := by
  have hperm := (List.perm_insertionSort r (l.filter p)).filter q
  rwa [List.filter_filter, List.filter_congr fun x _ => Bool.and_comm (q x) (p x)] at hperm

/-- **What is listed** for a user. -/
theorem getUserSolves_spec {dt : Option ℤ} (h : listCutOff freeze false = .ok dt) :
    ∃ listed, getUserSolves freeze db userId false = .ok listed ∧
      listed.Perm ((submittedSolves db).filter fun s =>
        decide (s.1.userId = some userId) && beforeTicks dt s.2.date) := by
  refine ⟨_, ?_, filter_insertionSort_perm laterFirst _ _ _⟩
  rw [getUserSolves, h]
  rfl

/-- **What is listed** for a team. -/
theorem getTeamSolves_spec {dt : Option ℤ} (h : listCutOff freeze false = .ok dt) :
    ∃ listed, getTeamSolves freeze db teamId false = .ok listed ∧
      listed.Perm ((submittedSolves db).filter fun s =>
        byMember db teamId s && beforeTicks dt s.2.date) := by
  rw [getTeamSolves]
  split
  · next hempty =>
      refine ⟨[], rfl, ?_⟩
      have hnone : ∀ s ∈ submittedSolves db,
          ¬(byMember db teamId s && beforeTicks dt s.2.date) = true := by
        intro s _
        rw [byMember, List.isEmpty_iff.mp hempty]
        cases s.1.userId <;> simp
      rw [List.filter_eq_nil_iff.mpr hnone]
  · refine ⟨_, ?_, filter_insertionSort_perm laterFirst _ _ _⟩
    rw [h]
    rfl

/-- A list that is returned has a cut-off. -/
theorem exists_listCutOff {listed : List (Solf × Submission)}
    (h : getUserSolves freeze db userId false = .ok listed) :
    ∃ dt, listCutOff freeze false = .ok dt := by
  rw [getUserSolves] at h
  cases hcut : listCutOff freeze false with
  | error e =>
      rw [hcut] at h
      cases h
  | ok dt => exact ⟨dt, rfl⟩

theorem solvePoints_perm {l l' : List (Solf × Submission)} (h : l.Perm l') :
    solvePoints db l = solvePoints db l' :=
  (h.map db.solveValue).sum_eq

/-- The user's lists, for one cut-off. -/
theorem userCutOff_iff {user : ScoreAccount} {dt : Option ℤ}
    (h : listCutOff freeze false = .ok dt) :
    UserCutOff freeze userMode db user ↔
      ∀ s ∈ submittedSolves db, s.1.userId = some user.id →
        beforeTicks dt s.2.date =
          inTime (freezeOf (scoreConfig freeze userMode) false) s.2.date := by
  obtain ⟨listed, hlisted, hperm⟩ := @getUserSolves_spec freeze db user.id _ h
  constructor
  · rintro ⟨listed', hlisted', hcounted, -⟩ s hs huser
    obtain rfl := Except.ok.inj (hlisted.symm.trans hlisted')
    have hagree := filter_perm_iff.mp (hperm.symm.trans hcounted) s hs
    simpa [huser] using hagree
  · intro hagree
    have hcounted : listed.Perm
        (userSolves db (freezeOf (scoreConfig freeze userMode) false) user.id) := by
      refine hperm.trans (filter_perm_iff.mpr fun s hs => ?_)
      by_cases huser : s.1.userId = some user.id
      · rw [hagree s hs huser]
      · simp [huser]
    refine ⟨listed, hlisted, hcounted, ?_⟩
    rw [solvePoints_perm hcounted]
    rfl

/-- The team's lists, for one cut-off. -/
theorem teamCutOff_iff {dt : Option ℤ} (h : listCutOff freeze false = .ok dt) :
    TeamCutOff freeze userMode db teamId ↔
      ∃ frozen, freezeUtc (scoreConfig freeze userMode) = .ok frozen ∧
        ∀ s ∈ submittedSolves db, byMember db teamId s = true → s.1.teamId = some teamId →
          beforeTicks dt s.2.date = inTime frozen s.2.date := by
  obtain ⟨listed, hlisted, hperm⟩ := @getTeamSolves_spec freeze db teamId _ h
  have hmem : ∀ s ∈ submittedSolves db, byMember db teamId s = true →
      (s ∈ listed ↔ beforeTicks dt s.2.date = true) := by
    intro s hs hmember
    rw [hperm.mem_iff, List.mem_filter, hmember, Bool.true_and, and_iff_right hs]
  constructor
  · rintro ⟨listed', frozen, hlisted', hfrozen, hcounted, -⟩
    obtain rfl := Except.ok.inj (hlisted.symm.trans hlisted')
    refine ⟨frozen, hfrozen, fun s hs hmember hteam => ?_⟩
    have hagree := (hmem s hs hmember).symm.trans (hcounted s hs hmember hteam)
    rw [Bool.eq_iff_iff, hagree, solvedForTeam, hteam]
    simp
  · rintro ⟨frozen, hfrozen, hagree⟩
    refine ⟨listed, frozen, hlisted, hfrozen, fun s hs hmember hteam => ?_, fun hattr => ?_⟩
    · rw [hmem s hs hmember, hagree s hs hmember hteam, solvedForTeam, hteam]
      simp
    · have hcounted : listed.Perm ((submittedSolves db).filter (solvedForTeam frozen teamId)) := by
        refine hperm.trans (filter_perm_iff.mpr fun s hs => ?_)
        rw [solvedForTeam]
        by_cases hmember : byMember db teamId s = true
        · have hteam := (hattr s hs).mp hmember
          simp [hmember, hteam, hagree s hs hmember hteam]
        · have hteam : s.1.teamId ≠ some teamId := fun hteam => hmember ((hattr s hs).mpr hteam)
          simp [hmember, hteam]
      rw [solvePoints_perm hcounted, teamEntries_score]
      rfl

end Lists

/-- **When lists and scores have one cut-off**: if neither raises, and no solve lies between them. -/
theorem oneCutOff_iff (freeze userMode : Option String) (db : ScoreDb) (user : ScoreAccount)
    (teamId : ℤ) :
    OneCutOff freeze userMode db user teamId ↔
      CutOffsAgree freeze userMode db user.id teamId := by
  constructor
  · rintro ⟨huser, hteam⟩
    obtain ⟨listed, hlisted, hrest⟩ := huser
    obtain ⟨dt, hdt⟩ := exists_listCutOff hlisted
    obtain ⟨frozen, hfrozen, hteamAgree⟩ := (teamCutOff_iff hdt).mp hteam
    exact ⟨dt, frozen, hdt, hfrozen, (userCutOff_iff hdt).mp ⟨listed, hlisted, hrest⟩, hteamAgree⟩
  · rintro ⟨dt, frozen, hdt, hfrozen, huser, hteam⟩
    exact ⟨(userCutOff_iff hdt).mpr huser, (teamCutOff_iff hdt).mpr ⟨frozen, hfrozen, hteam⟩⟩

/-! ### Ordinary settings -/

/-- **For a number of seconds**: the lists are empty, and so they are right if nothing was solved
before the freeze. -/
theorem cutOffsAgree_iff_of_seconds {text : String} {n : ℤ} (htext : readNumber text = some n)
    (hn : 0 < n ∧ n < 2 ^ 31) (userMode : Option String) {db : ScoreDb} (userId teamId : ℤ)
    (hdated : ∀ s ∈ submittedSolves db, ∃ d, s.2.date = some d ∧ 0 ≤ d) :
    CutOffsAgree (some text) userMode db userId teamId ↔
      ∀ s ∈ submittedSolves db,
        s.1.userId = some userId ∨ byMember db teamId s = true ∧ s.1.teamId = some teamId →
          ∀ d, s.2.date = some d → n * 1000000 ≤ d := by
  have hparsed : tryParseInt (readNumber text) = some n := by
    rw [htext, tryParseInt, Option.filter_some, if_pos (by simp; omega)]
  have hlong : toLong (some n) = n := by
    rw [toLong, Option.filter_some, if_pos (by simp; omega), Option.getD_some]
  have hlist : listCutOff (some text) false = .ok (some n) := by
    rw [listCutOff, getConfigLong]
    simp only [hparsed]
    rw [if_pos ⟨by omega, trivial⟩, newDateTime, if_pos ⟨by omega, by omega⟩]
    rfl
  have hconfig : scoreConfig (some text) userMode = ⟨some n, userMode⟩ := by
    rw [scoreConfig, Option.bind_some, htext]
  have hfrozen : freezeUtc (scoreConfig (some text) userMode) = .ok (some (n * 1000000)) := by
    rw [hconfig, freezeUtc]
    simp only [hlong]
    rw [if_pos hn.1, fromUnixTimeSeconds, if_pos ⟨by omega, by omega⟩]
    rfl
  have hscore : freezeOf (scoreConfig (some text) userMode) false = some (n * 1000000) := by
    rw [hconfig, freezeOf, if_neg (by decide), ← htext, hparsed, Option.map_some]
  have hagree : ∀ s ∈ submittedSolves db,
      (beforeTicks (some n) s.2.date = inTime (some (n * 1000000)) s.2.date ↔
        ∀ d, s.2.date = some d → n * 1000000 ≤ d) := by
    intro s hs
    obtain ⟨d, hd, hnonneg⟩ := hdated s hs
    have hlate : ¬10 * (unixEpoch + d) < n := by
      rw [unixEpoch]
      omega
    rw [hd, beforeTicks, inTime]
    simp [hlate]
  constructor
  · rintro ⟨dt, frozen, hdt, hfreeze, huser, hteam⟩ s hs hcounts
    obtain rfl := Except.ok.inj (hlist.symm.trans hdt)
    obtain rfl := Except.ok.inj (hfrozen.symm.trans hfreeze)
    rw [hscore] at huser
    rcases hcounts with hcounts | ⟨hmember, hcounts⟩
    · exact (hagree s hs).mp (huser s hs hcounts)
    · exact (hagree s hs).mp (hteam s hs hmember hcounts)
  · intro hlate
    refine ⟨some n, some (n * 1000000), hlist, hfrozen, fun s hs huser => ?_,
      fun s hs hmember hteam => ?_⟩
    · rw [hscore]
      exact (hagree s hs).mpr (hlate s hs (.inl huser))
    · exact (hagree s hs).mpr (hlate s hs (.inr ⟨hmember, hteam⟩))

/-- One solve of user 1 for team 2, at 1,600,000,000 seconds. -/
def oneSolveDb : ScoreDb where
  teams := []
  users := []
  userTeams := [(1, 2)]
  contestsChallenges := []
  submissions := [⟨5, 1, 7, some 1, some 2, [], .correct, some 1600000000000000⟩]
  solves := [⟨5, 7, some 1, some 2⟩]
  awards := []
  brackets := []
  participants := []

/-- With a freeze at 1,700,000,000 seconds the solve is counted, and not listed. -/
theorem not_oneCutOff :
    ¬OneCutOff (some "1700000000") none oneSolveDb ⟨1, none, none, none, none, none, none⟩ 2 := by
  rintro ⟨⟨listed, hlisted, hcounted, -⟩, -⟩
  have hnone : getUserSolves (some "1700000000") oneSolveDb 1 false = .ok [] := by decide
  obtain rfl := Except.ok.inj (hlisted.symm.trans hnone)
  have hone : (userSolves oneSolveDb
      (freezeOf (scoreConfig (some "1700000000") none) false) 1).length = 1 := by decide
  rw [← hcounted.length_eq] at hone
  cases hone

end ScoreHelper

end Fctf
