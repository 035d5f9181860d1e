import Fctf.RedisHelper

/-!
# What an Extension Reports

`AtomicUpdateExpiration` runs a script that answers 1 when it has extended a deployment and 0
when it has found nothing to extend, and compares the answer with `Pass`, which is 0.

## Main results

* `reports_iff`: the report is right exactly if there is nothing for the call to do.
* `not_reports`: an extension that succeeds is reported as a failure.
-/

open Concurrent RedisDb

namespace Fctf

/-- What a call of `AtomicUpdateExpiration` is about. -/
structure Extension (P : Type) where
  (teamId contestId challengeId realTtlSeconds : ℤ)
  deploymentKey : String
  deploymentValue : Option P

namespace Extension

variable {P : Type}

/-- The list of the team's deployments. -/
def zsetKey (x : Extension P) : String := getZSetKKey x.contestId x.teamId

/-- One request of a caller whose clock says `now`. -/
def clockedExec (now : ℤ) (f : Fault) :
    (o : (redisI P).Op) → Db P ℤ → Except Exn ((redisI P).Reply o) × Db P ℤ
  | .utcNow, db => (.ok now, db)
  | o, db => o.execFaulty f db

/-- The call, run alone: what it returns, and what it leaves in Redis. -/
def run (x : Extension P) (now : ℤ) (f : Fault) (db : Db P ℤ) : Except Exn Bool × Db P ℤ :=
  (atomicUpdateExpiration (I := redisI P) x.teamId x.deploymentKey x.challengeId
    x.realTtlSeconds x.deploymentValue x.contestId).eval (clockedExec now f) db

/-- The entry holds the new data; without new data, it is there. -/
def Holds (x : Extension P) (db : Db P ℤ) : Prop :=
  match x.deploymentValue with
  | some v => db.get x.deploymentKey = some v
  | none => (db.get x.deploymentKey).isSome

/-- The deployment is extended: the entry holds the data, and a team has its new score. -/
def UpToDate (x : Extension P) (now : ℤ) (db : Db P ℤ) : Prop :=
  x.Holds db ∧ (0 < x.teamId →
    db.zscore x.zsetKey x.challengeId = some (now + x.realTtlSeconds))

/-- Both keys are as they were. -/
structure SameKeys (x : Extension P) (db db' : Db P ℤ) : Prop where
  lookup : db'.lookup x.deploymentKey = db.lookup x.deploymentKey
  zscore : ∀ m, db'.zscore x.zsetKey m = db.zscore x.zsetKey m
  zexpireAt : db'.zexpireAt x.zsetKey = db.zexpireAt x.zsetKey

/-- **The call reports what it did.** -/
structure Reports (x : Extension P) (now : ℤ) (f : Fault) (db : Db P ℤ) : Prop where
  /-- It answers true exactly if the deployment is extended now, -/
  extended : (x.run now f db).1 = .ok true ↔ x.UpToDate now (x.run now f db).2
  /-- and if it answers false both keys are as they were. -/
  unchanged : (x.run now f db).1 = .ok false → x.SameKeys db (x.run now f db).2

/-- The script changes nothing: it has no data to write, or no time to live for it, and the
score is the new one already. -/
def Idle (x : Extension P) (now : ℤ) (db : Db P ℤ) : Prop :=
  (0 < x.teamId → db.zscore x.zsetKey x.challengeId = some (now + x.realTtlSeconds)) ∧
    match x.deploymentValue with
    | some _ => x.realTtlSeconds ≤ 0
    | none => db.lookup x.deploymentKey = none ∧
        (0 < x.teamId → db.zexpireAt x.zsetKey = some (db.clock + (x.realTtlSeconds + 3600)))

/-- The team does not have the challenge in its list. -/
def Missing (x : Extension P) (db : Db P ℤ) : Prop :=
  0 < x.teamId ∧ db.zscore x.zsetKey x.challengeId = none

/-- **The condition**: the deployment is not up to date yet, and the call changes nothing,
since it does not reach Redis, or finds nothing to do, or is not told that the challenge is
missing. -/
def NothingToDo (x : Extension P) (now : ℤ) (f : Fault) (db : Db P ℤ) : Prop :=
  ¬x.UpToDate now db ∧ (f = .before ∨ x.Idle now db ∨ f = .after ∧ x.Missing db)

section Report

variable {x : Extension P} {now : ℤ} {f : Fault} {db db' : Db P ℤ}

/-- The script of the call. -/
def script (x : Extension P) (now : ℤ) (db : Db P ℤ) : Except Exn ℤ × Db P ℤ :=
  updateExpirationScript x.zsetKey x.deploymentKey x.challengeId (now + x.realTtlSeconds)
    x.realTtlSeconds x.deploymentValue x.teamId db

/-- What the method makes of an answer. -/
def toReport : Except Exn ℤ → Bool
  | .ok result => decide (result = DeploymentCheckResult.pass.code)
  | .error _ => false

theorem run_eq (x : Extension P) (now : ℤ) (f : Fault) (db : Db P ℤ) :
    x.run now f db = (.ok (toReport (f.apply .redis (x.script now) db).1),
      (f.apply .redis (x.script now) db).2) := by
  have hreport (r : Except Exn ℤ) (db' : Db P ℤ) :
      (((Prog.ret r : Prog (redisI P) Exn ℤ).bind fun result =>
        Prog.ret (.ok (decide (result = DeploymentCheckResult.pass.code)))).handle fun _ =>
          Prog.ret (.ok false)).eval (clockedExec now f) db' = (.ok (toReport r), db') := by
    cases r <;> rfl
  exact hreport (f.apply .redis (x.script now) db).1 (f.apply .redis (x.script now) db).2

/-- What is the same in both keys is as much up to date. -/
theorem SameKeys.upToDate_iff (h : x.SameKeys db db') :
    x.UpToDate now db' ↔ x.UpToDate now db := by
  have hget : db'.get x.deploymentKey = db.get x.deploymentKey := by
    rw [Db.get, h.lookup, Db.get]
  rw [UpToDate, UpToDate, Holds, Holds, hget, h.zscore]

/-- The entry after it was refreshed is the one before only if there was none to prolong. -/
theorem lookup_refresh_iff
    (h : refreshEntry x.deploymentKey x.deploymentValue x.realTtlSeconds db = some db')
    (hnot : ¬x.Holds db) : db'.lookup x.deploymentKey = db.lookup x.deploymentKey ↔
      x.deploymentValue = none ∧ db.lookup x.deploymentKey = none := by
  rw [Holds] at hnot
  cases hv : x.deploymentValue with
  | some v =>
      rw [hv] at h hnot
      have hlookup := db.lookup_setex_same h
      rw [hlookup]
      refine iff_of_false (fun hsame => hnot ?_) nofun
      exact db.get_eq_some_iff.mpr ⟨_, hsame.symm, rfl⟩
  | none =>
      rw [hv] at h hnot
      obtain rfl : db.expire x.deploymentKey x.realTtlSeconds = db' := Option.some.inj h
      have hnone : db.lookup x.deploymentKey = none := by
        rw [Db.get, Option.isSome_map, Option.not_isSome_iff_eq_none] at hnot
        exact hnot
      refine iff_of_true ?_ ⟨rfl, hnone⟩
      rw [hnone, Option.eq_none_iff_forall_ne_some]
      intro e he
      obtain ⟨-, -, hget⟩ := db.lookup_of_expire he
      rw [Db.get, hnone] at hget
      cases hget

/-- Without a time to live new data is refused. -/
theorem refreshEntry_eq_none {v : P} (hv : x.deploymentValue = some v)
    (httl : x.realTtlSeconds ≤ 0) :
    refreshEntry x.deploymentKey x.deploymentValue x.realTtlSeconds db = none := by
  rw [hv, refreshEntry, Db.setex, if_pos httl]

/-- The script for a deployment that all share. -/
theorem script_shared (hteam : x.teamId ≤ 0) : (x.script now db).2 =
    (refreshEntry x.deploymentKey x.deploymentValue x.realTtlSeconds db).getD db := by
  rw [script, updateExpirationScript, if_pos hteam]
  cases refreshEntry x.deploymentKey x.deploymentValue x.realTtlSeconds db <;> rfl

/-- The script for a challenge in the team's list. -/
theorem script_member {score : ℤ} (hteam : 0 < x.teamId)
    (hscore : db.zscore x.zsetKey x.challengeId = some score) : (x.script now db).2 =
      ((refreshEntry x.deploymentKey x.deploymentValue x.realTtlSeconds
        (db.zadd x.zsetKey (now + x.realTtlSeconds) x.challengeId)).map fun db' =>
          db'.zexpire x.zsetKey (x.realTtlSeconds + 3600)).getD
            (db.zadd x.zsetKey (now + x.realTtlSeconds) x.challengeId) := by
  have hmember : ¬(db.zscore x.zsetKey x.challengeId).isNone = true := by
    rw [hscore]
    exact Bool.false_ne_true
  rw [script, updateExpirationScript, if_neg (not_le.mpr hteam), if_neg hmember]
  dsimp only
  cases refreshEntry x.deploymentKey x.deploymentValue x.realTtlSeconds
    (db.zadd x.zsetKey (now + x.realTtlSeconds) x.challengeId) <;> rfl

/-- The list after the script has extended a deployment. -/
theorem zscore_extended {score : ℤ} (hscore : db.zscore x.zsetKey x.challengeId = some score)
    (h : refreshEntry x.deploymentKey x.deploymentValue x.realTtlSeconds
      (db.zadd x.zsetKey (now + x.realTtlSeconds) x.challengeId) = some db') :
    (∀ m, (db'.zexpire x.zsetKey (x.realTtlSeconds + 3600)).zscore x.zsetKey m =
        db.zscore x.zsetKey m) ∧
      (db'.zexpire x.zsetKey (x.realTtlSeconds + 3600)).zexpireAt x.zsetKey =
        db.zexpireAt x.zsetKey ↔
    db.zscore x.zsetKey x.challengeId = some (now + x.realTtlSeconds) ∧
      db.zexpireAt x.zsetKey = some (db.clock + (x.realTtlSeconds + 3600)) := by
  have hrefreshed := refreshEntry_spec h
  have hclock : db'.clock = db.clock := hrefreshed.clock
  have hzscore (m : ℤ) : db'.zscore x.zsetKey m =
      if m = x.challengeId then some (now + x.realTtlSeconds) else db.zscore x.zsetKey m := by
    rw [← Db.zscore_zadd, Db.zscore, Db.zscore, Db.zset, Db.zset, hrefreshed.zsets,
      hrefreshed.clock]
  by_cases httl : 0 < x.realTtlSeconds + 3600
  · have hnew := Db.zexpireAt_zexpire_same _ httl ((hzscore x.challengeId).trans (if_pos rfl))
    rw [hclock] at hnew
    rw [hnew, eq_comm (a := some _) (b := db.zexpireAt x.zsetKey)]
    refine and_congr_left fun _ => ⟨fun hall => ?_, fun hsame m => ?_⟩
    · rw [← hall, Db.zscore_congr (Db.zset_zexpire_same _ httl), hzscore, if_pos rfl]
    · rw [Db.zscore_congr (Db.zset_zexpire_same _ httl), hzscore]
      split
      · next heq => rw [heq, hsame]
      · rfl
  · -- the whole list is removed
    refine iff_of_false (fun hboth => ?_) fun hboth => ?_
    · have hgone := hboth.1 x.challengeId
      rw [Db.zscore_zexpire_of_le _ (not_lt.mp httl), hscore] at hgone
      cases hgone
    · have hlive := db.live_zexpireAt x.zsetKey SortedSet.empty
      rw [hboth.2] at hlive
      have hlt := of_decide_eq_true hlive
      omega

/-- **The script of a shared deployment** leaves the keys alone only if there is nothing to do. -/
theorem sameKeys_shared_iff (hteam : x.teamId ≤ 0) (hnot : ¬x.Holds db) :
    x.SameKeys db (x.script now db).2 ↔ x.Idle now db := by
  have hvacuous {p : Prop} : 0 < x.teamId → p := fun hpos => absurd hteam (not_le.mpr hpos)
  rw [script_shared hteam, Idle]
  cases hrefresh : refreshEntry x.deploymentKey x.deploymentValue x.realTtlSeconds db with
  | none =>
      refine iff_of_true ⟨rfl, fun _ => rfl, rfl⟩ ⟨hvacuous, ?_⟩
      have httl := ttl_le_zero_of_refreshEntry hrefresh
      cases hv : x.deploymentValue with
      | some v => exact httl
      | none =>
          rw [hv] at hrefresh
          cases hrefresh
  | some db' =>
      have hrefreshed := refreshEntry_spec hrefresh
      have hlookup := lookup_refresh_iff hrefresh hnot
      have hsame : x.SameKeys db db' ↔ db'.lookup x.deploymentKey = db.lookup x.deploymentKey := by
        refine ⟨SameKeys.lookup, fun h => ⟨h, fun m => ?_, ?_⟩⟩
        · rw [Db.zscore, Db.zscore, Db.zset, Db.zset, hrefreshed.zsets, hrefreshed.clock]
        · rw [Db.zexpireAt, Db.zexpireAt, hrefreshed.zsets, hrefreshed.clock]
      rw [Option.getD_some, hsame, hlookup]
      cases hv : x.deploymentValue with
      | none => exact ⟨fun h => ⟨hvacuous, h.2, hvacuous⟩, fun h => ⟨rfl, h.2.1⟩⟩
      | some v =>
          refine iff_of_false (fun h => by cases h.1) fun h => ?_
          rw [refreshEntry_eq_none hv h.2] at hrefresh
          cases hrefresh

/-- **The script of a team's deployment** does so only if its score is the new one already. -/
theorem sameKeys_member_iff {score : ℤ} (hteam : 0 < x.teamId)
    (hscore : db.zscore x.zsetKey x.challengeId = some score) (hnot : ¬x.UpToDate now db) :
    x.SameKeys db (x.script now db).2 ↔ x.Idle now db := by
  rw [script_member hteam hscore, Idle]
  cases hrefresh : refreshEntry x.deploymentKey x.deploymentValue x.realTtlSeconds
    (db.zadd x.zsetKey (now + x.realTtlSeconds) x.challengeId) with
  | none =>
      -- the score is new, and the data is refused
      have httl := ttl_le_zero_of_refreshEntry hrefresh
      have hsame : x.SameKeys db (db.zadd x.zsetKey (now + x.realTtlSeconds) x.challengeId) ↔
          db.zscore x.zsetKey x.challengeId = some (now + x.realTtlSeconds) := by
        refine ⟨fun h => ?_, fun h => ⟨rfl, fun m => ?_, Db.zexpireAt_zadd_same _ _ _ _⟩⟩
        · rw [← h.zscore, Db.zscore_zadd, if_pos rfl]
        · rw [Db.zscore_zadd]
          split
          · next heq => rw [heq, h]
          · rfl
      rw [Option.map_none, Option.getD_none, hsame]
      cases hv : x.deploymentValue with
      | some v => exact ⟨fun h => ⟨fun _ => h, httl⟩, fun h => h.1 hteam⟩
      | none =>
          rw [hv] at hrefresh
          cases hrefresh
  | some db' =>
      have hrefreshed := refreshEntry_spec hrefresh
      have hlist := zscore_extended hscore hrefresh
      have hlookup : (db'.zexpire x.zsetKey (x.realTtlSeconds + 3600)).lookup x.deploymentKey =
          db'.lookup x.deploymentKey := rfl
      have hsame : x.SameKeys db (db'.zexpire x.zsetKey (x.realTtlSeconds + 3600)) ↔
          db'.lookup x.deploymentKey = db.lookup x.deploymentKey ∧
            db.zscore x.zsetKey x.challengeId = some (now + x.realTtlSeconds) ∧
              db.zexpireAt x.zsetKey = some (db.clock + (x.realTtlSeconds + 3600)) := by
        rw [← hlist]
        exact ⟨fun h => ⟨h.lookup, h.zscore, h.zexpireAt⟩, fun h => ⟨h.1, h.2.1, h.2.2⟩⟩
      rw [Option.map_some, Option.getD_some, hsame]
      by_cases hnew : db.zscore x.zsetKey x.challengeId = some (now + x.realTtlSeconds)
      · have hdata : ¬x.Holds (db.zadd x.zsetKey (now + x.realTtlSeconds) x.challengeId) :=
          fun h => hnot ⟨h, fun _ => hnew⟩
        have hentry := lookup_refresh_iff hrefresh hdata
        change db'.lookup x.deploymentKey = db.lookup x.deploymentKey ↔
          x.deploymentValue = none ∧ db.lookup x.deploymentKey = none at hentry
        rw [hentry]
        cases hv : x.deploymentValue with
        | none =>
            exact ⟨fun h => ⟨fun _ => hnew, h.1.2, fun _ => h.2.2⟩,
              fun h => ⟨⟨rfl, h.2.1⟩, hnew, h.2.2 hteam⟩⟩
        | some v =>
            refine iff_of_false (fun h => by cases h.1.1) fun h => ?_
            rw [refreshEntry_eq_none hv h.2] at hrefresh
            cases hrefresh
      · exact iff_of_false (fun h => hnew h.2.1) fun h => hnew (h.1 hteam)

/-- **Everything the script can answer.** -/
theorem toReport_script (x : Extension P) (now : ℤ) (db : Db P ℤ) :
    (x.Missing db ∧ toReport (x.script now db).1 = true ∧ (x.script now db).2 = db) ∨
      (¬x.Missing db ∧ toReport (x.script now db).1 = false) := by
  rw [Missing, script, updateExpirationScript]
  split
  · next hteam =>
      refine .inr ⟨fun h => absurd hteam (not_le.mpr h.1), ?_⟩
      split <;> rfl
  · next hteam =>
      split
      · next hnone => exact .inl ⟨⟨not_le.mp hteam, Option.isNone_iff_eq_none.mp hnone⟩, rfl, rfl⟩
      · next hsome =>
          refine .inr ⟨fun h => hsome (Option.isNone_iff_eq_none.mpr h.2), ?_⟩
          dsimp only
          split <;> rfl

/-- A script that answers 1, or fails, leaves the keys alone only if there is nothing to do. -/
theorem sameKeys_iff (hpresent : ¬x.Missing db) (hnot : ¬x.UpToDate now db) :
    x.SameKeys db (x.script now db).2 ↔ x.Idle now db := by
  obtain hteam | hteam := le_or_gt x.teamId 0
  · exact sameKeys_shared_iff hteam fun h =>
      hnot ⟨h, fun hpos => absurd hteam (not_le.mpr hpos)⟩
  · obtain ⟨score, hscore⟩ :=
      Option.ne_none_iff_exists'.mp fun hnone => hpresent ⟨hteam, hnone⟩
    exact sameKeys_member_iff hteam hscore hnot

/-- A report of a failure. -/
theorem reports_of_false (h : x.run now f db = (.ok false, db')) :
    x.Reports now f db ↔ ¬x.UpToDate now db ∧ x.SameKeys db db' := by
  constructor
  · rintro ⟨hextended, hunchanged⟩
    rw [h] at hextended hunchanged
    have hsame := hunchanged rfl
    refine ⟨fun hup => ?_, hsame⟩
    cases hextended.mpr (hsame.upToDate_iff.mpr hup)
  · rintro ⟨hnot, hsame⟩
    refine ⟨?_, ?_⟩
    · rw [h]
      exact iff_of_false nofun fun hup => hnot (hsame.upToDate_iff.mp hup)
    · rw [h]
      exact fun _ => hsame

/-- A team that does not have the challenge is not up to date. -/
theorem not_upToDate_of_missing (h : x.Missing db) : ¬x.UpToDate now db := by
  intro hup
  have hscore := hup.2 h.1
  rw [h.2] at hscore
  cases hscore

/-- **What the call reports is right** exactly if there is nothing for it to do: the deployment
is not up to date, and either the request is lost, or the script changes nothing, or the team
does not have the challenge and the answer is lost. -/
theorem reports_iff (x : Extension P) (now : ℤ) (f : Fault) (db : Db P ℤ) :
    x.Reports now f db ↔ x.NothingToDo now f db := by
  have hself : x.SameKeys db db := ⟨rfl, fun _ => rfl, rfl⟩
  have hrun := run_eq x now f db
  rw [NothingToDo]
  cases f with
  | before =>
      rw [reports_of_false hrun]
      exact ⟨fun h => ⟨h.1, .inl rfl⟩, fun h => ⟨h.1, hself⟩⟩
  | none =>
      obtain ⟨hmissing, htrue, hafter⟩ | ⟨hpresent, hfalse⟩ := toReport_script x now db
      · -- the answer 0 is taken for a success
        have hnot : ¬x.UpToDate now db := not_upToDate_of_missing hmissing
        change x.run now .none db = (.ok (toReport (x.script now db).1), (x.script now db).2) at hrun
        rw [htrue, hafter] at hrun
        refine iff_of_false (fun h => hnot ?_) fun h => ?_
        · have hup := h.extended.mp (by rw [hrun])
          rwa [hrun] at hup
        · obtain ⟨-, h | h | h⟩ := h
          · cases h
          · have hscore := h.1 hmissing.1
            rw [hmissing.2] at hscore
            cases hscore
          · cases h.1
      · change x.run now .none db = (.ok (toReport (x.script now db).1), (x.script now db).2) at hrun
        rw [hfalse] at hrun
        rw [reports_of_false hrun]
        refine and_congr_right fun hnot => ?_
        rw [sameKeys_iff hpresent hnot]
        refine ⟨fun h => .inr (.inl h), fun h => ?_⟩
        obtain h | h | h := h
        · cases h
        · exact h
        · cases h.1
  | after =>
      rw [reports_of_false hrun]
      refine and_congr_right fun hnot => ?_
      change x.SameKeys db (x.script now db).2 ↔ _
      obtain ⟨hmissing, -, hafter⟩ | ⟨hpresent, -⟩ := toReport_script x now db
      · rw [hafter]
        exact iff_of_true hself (.inr (.inr ⟨rfl, hmissing⟩))
      · rw [sameKeys_iff hpresent hnot]
        refine ⟨fun h => .inr (.inl h), fun h => ?_⟩
        obtain h | h | h := h
        · cases h
        · exact h
        · exact absurd h.2 hpresent

end Report

/-- Team 1 extends its deployment of challenge 7 by two hours. -/
def twoHours : Extension String := ⟨1, 3, 7, 7200, "deployment", some "running"⟩

/-- The deployment is provisional. -/
def provisional : Db String ℤ :=
  ((Db.empty 1000).zadd twoHours.zsetKey 1300 7)

/-- **A success is reported as a failure.** -/
theorem not_reports : ¬twoHours.Reports 1000 .none provisional := by
  intro h
  have hdone : twoHours.UpToDate 1000 (twoHours.run 1000 .none provisional).2 :=
    ⟨show (twoHours.run 1000 .none provisional).2.get "deployment" = some "running" from rfl,
      fun _ => by decide⟩
  have hfalse : (twoHours.run 1000 .none provisional).1 = .ok false := rfl
  rw [h.extended.mpr hdone] at hfalse
  cases hfalse

end Extension

end Fctf
