import Fctf.Lib.Protocol
import Fctf.LiveSlot

/-!
# The Rollback of a Start

A start reserves a slot, calls the deployment center, and takes the reservation back unless
the center answers with success. Neither the reservation nor its removal says whose it is:
both are about the challenge and the team only. A start that fails late removes what another
request has reserved since, and so does the center's `Start` when it cannot queue the request.

## Main results

* `follows_startChallenge`: where a start stands, and that it ends with its rollback or with
  success.
* `releasesOwn_of_keepsOwn`: in every run whose steps remove the requests' own reservations
  only, a failed start leaves nothing of its own and nothing of others is removed.
* `not_releasesOwn`: a reservation of another member that a failed start removes.
-/

open Concurrent RedisDb

namespace Fctf

/-! ### Requests -/

/-- What the program of a call returns: the answer to a start, and nothing of the others. -/
def DeployCall.answering (cfg : DeployConfig) :
    DeployCall → Prog deployI Exn (Option ChallengeDeployResponeDTO)
  | .startChallenge u t c id => do
      let response ← Fctf.startChallenge cfg u t c id
      return some response
  | call => do
      call.program cfg
      return none

/-- The platform, with the answers to starts. A call of the center's start endpoint is for the
start, named by its place, that posted it; other calls, and those that others post, are for
none. -/
def startPlatform (cfg : DeployConfig) :
    Service deployI Exn (Option ChallengeDeployResponeDTO) World where
  Call := DeployCall × Option ℕ
  Env := DeployEnv
  Ext := DeployMove
  program c := c.1.answering cfg
  exec e o w := o.exec e w
  ambient m w := m.apply w

/-- The answer is success. -/
def Succeeded (r : Except Exn (Option ChallengeDeployResponeDTO)) : Prop :=
  ∃ response, r = .ok (some response) ∧ response.status = 200

/-- The call is a start of a contestant. -/
def DeployCall.starts : DeployCall → Bool
  | .startChallenge _ _ _ _ => true
  | _ => false

/-- The start a call works for. -/
def worksFor (pid : ℕ) : DeployCall × Option ℕ → Option ℕ
  | (.startChallenge _ _ _ _, _) => some pid
  | (.start _, origin) => origin
  | _ => none

/-! ### Reservations -/

/-- What a reservation is about: a challenge of a contest, and a team. -/
structure Reservation where
  /-- The contest. -/
  contestId : ℤ
  /-- The contest challenge. -/
  contestChallengeId : ℤ
  /-- The team. -/
  teamId : ℤ
  deriving DecidableEq, Repr

/-- The deployment key. -/
def Reservation.key (s : Reservation) : String :=
  getCacheKey s.contestId s.contestChallengeId s.teamId

/-- The team's list, with the challenges as members. -/
def Reservation.list (s : Reservation) : String := getZSetKKey s.contestId s.teamId

theorem Reservation.key_inj {s s' : Reservation} (h : s.key = s'.key) : s = s' := by
  obtain ⟨h₁, h₂, h₃⟩ := getCacheKey_inj h
  cases s
  cases s'
  simp_all

/-- The deployment key or the member is there. -/
def Reservation.Present (s : Reservation) (db : Db ChallengeDeploymentCacheDTO ℤ) : Prop :=
  entryLive s.contestId s.teamId db s.contestChallengeId = true ∨
    (db.zscore s.list s.contestChallengeId).isSome = true

instance (s : Reservation) (db : Db ChallengeDeploymentCacheDTO ℤ) : Decidable (s.Present db) :=
  inferInstanceAs (Decidable (_ ∨ _))

/-- Neither the entry nor a member before its deadline is gone. -/
structure Reservation.Kept (s : Reservation) (db db' : Db ChallengeDeploymentCacheDTO ℤ) :
    Prop where
  /-- The entry is there as before. -/
  entry : entryLive s.contestId s.teamId db s.contestChallengeId = true →
    entryLive s.contestId s.teamId db' s.contestChallengeId = true
  /-- So is the member. -/
  slot : slotLive s.contestId s.teamId db s.contestChallengeId = true →
    slotLive s.contestId s.teamId db' s.contestChallengeId = true

/-- The operation makes the reservation. -/
def Reserves (s : Reservation) (e : DeployEnv) (o : DeployOp) (w : World) : Prop :=
  match o with
  | .redis (.reserve zk dk id l _ _ now ttl) =>
      e.fault ≠ .before ∧ zk = s.list ∧ dk = s.key ∧ id = s.contestChallengeId ∧
        ReservePasses zk id l now w.redis ∧ 0 < ttl
  | _ => False

instance instDecidableReserves (s : Reservation) (e : DeployEnv) (o : DeployOp) (w : World) :
    Decidable (Reserves s e o w) := by
  unfold Reserves
  induction o using DeployOp.casesOn with
  | redis r => induction r using RedisOp.casesOn <;> dsimp only <;> infer_instance
  | _ => dsimp only; infer_instance

/-- The operation removes the deployment key or the member. -/
def Removes (s : Reservation) : DeployOp → Prop
  | .redis (.del key) => key = s.key
  | .redis (.remove zk dk id) => dk = s.key ∨ (zk = s.list ∧ id = s.contestChallengeId)
  | _ => False

instance instDecidableRemoves (s : Reservation) (o : DeployOp) : Decidable (Removes s o) := by
  unfold Removes
  split <;> infer_instance

section Log

variable {cfg : DeployConfig}

instance (s : Reservation) (n : (startPlatform cfg).Entry) :
    Decidable (Reserves s n.env n.op n.before) :=
  instDecidableReserves s n.env n.op n.before

instance (s : Reservation) (n : (startPlatform cfg).Entry) : Decidable (Removes s n.op) :=
  instDecidableRemoves s n.op

/-- The call that made the last reservation. -/
def lastReserver (s : Reservation) (log : List (startPlatform cfg).Entry) : Option ℕ :=
  log.foldl (fun last n => if Reserves s n.env n.op n.before then some n.pid else last) none

theorem lastReserver_concat (s : Reservation) (log : List (startPlatform cfg).Entry)
    (n : (startPlatform cfg).Entry) :
    lastReserver s (log ++ [n]) =
      if Reserves s n.env n.op n.before then some n.pid else lastReserver s log := by
  rw [lastReserver, List.foldl_append]
  rfl

/-- The shared state after an operation. -/
def after (n : (startPlatform cfg).Entry) : World := (n.op.exec n.env n.before).2

/-- **The law of the rollback** for a reservation. -/
structure ReleasesOwn (s : Reservation) (log : List (startPlatform cfg).Entry)
    (w : (startPlatform cfg).Pool) : Prop where
  /-- When a start that made it has returned without success, neither the deployment key nor
  the member is there, unless another start has reserved since. -/
  released : ∀ pid c r, Service.Finished w pid c r → c.1.starts = true → ¬Succeeded r →
    (∃ n ∈ Service.own log pid, Reserves s n.env n.op n.before) →
    ∀ l₁ n l₂, log = l₁ ++ n :: l₂ → n.pid = pid → Service.own l₂ pid = [] →
      lastReserver s (l₁ ++ [n]) = some pid → ¬s.Present (after n).redis
  /-- An operation for a start leaves what another start has reserved. -/
  kept : ∀ l₁ n l₂, log = l₁ ++ n :: l₂ → ∀ p, worksFor n.pid n.call = some p →
    lastReserver s l₁ ≠ some p → s.Kept n.before.redis (after n).redis

/-- The condition on a step, for a reservation: the reply to its making gets back; a removal
for a start finds that no other start has reserved since, or nothing; and the rollback of a
start's own reservation is not lost. -/
structure KeepsOwn (s : Reservation) (log : List (startPlatform cfg).Entry)
    (n : (startPlatform cfg).Entry) : Prop where
  /-- The start learns that it has reserved. -/
  heard : Reserves s n.env n.op n.before → n.env.fault ≠ .after
  /-- What is removed is the start's own. -/
  own : Removes s n.op → n.env.fault ≠ .before → s.Present n.before.redis →
    ∀ p, worksFor n.pid n.call = some p → lastReserver s log = some p
  /-- The rollback is carried out. -/
  rolled : n.call.1.starts = true → Removes s n.op → s.Present n.before.redis →
    lastReserver s log = some n.pid → n.env.fault ≠ .before

theorem keepsOwn_iff (s : Reservation) (log : List (startPlatform cfg).Entry)
    (n : (startPlatform cfg).Entry) :
    KeepsOwn s log n ↔
      (Reserves s n.env n.op n.before → n.env.fault ≠ .after) ∧
      (Removes s n.op → n.env.fault ≠ .before → s.Present n.before.redis →
        (worksFor n.pid n.call).all fun p => decide (lastReserver s log = some p)) ∧
      (n.call.1.starts = true → Removes s n.op → s.Present n.before.redis →
        lastReserver s log = some n.pid → n.env.fault ≠ .before) := by
  constructor
  · rintro ⟨h₁, h₂, h₃⟩
    refine ⟨h₁, fun hr hf hp => ?_, h₃⟩
    cases hw : worksFor n.pid n.call with
    | none => rfl
    | some p => exact decide_eq_true (h₂ hr hf hp p hw)
  · rintro ⟨h₁, h₂, h₃⟩
    refine ⟨h₁, fun hr hf hp p hw => ?_, h₃⟩
    have hall := h₂ hr hf hp
    rw [hw] at hall
    exact of_decide_eq_true hall

instance (s : Reservation) (log : List (startPlatform cfg).Entry)
    (n : (startPlatform cfg).Entry) : Decidable (KeepsOwn s log n) :=
  decidable_of_iff _ (keepsOwn_iff s log n).symm

/-- The condition on a move. -/
def rollbackGuard (s : Reservation) (log : List (startPlatform cfg).Entry)
    (w : (startPlatform cfg).Pool) (m : (startPlatform cfg).Move) : Prop :=
  ∀ n ∈ Service.entryOf w m, KeepsOwn s log n

instance (s : Reservation) (log : List (startPlatform cfg).Entry)
    (w : (startPlatform cfg).Pool) (m : (startPlatform cfg).Move) :
    Decidable (rollbackGuard s log w m) :=
  inferInstanceAs (Decidable (∀ n ∈ Service.entryOf w m, KeepsOwn s log n))

end Log

/-! ### What one operation leaves alone -/

section Kept

variable {s : Reservation} {db db' : Db ChallengeDeploymentCacheDTO ℤ}

theorem slotLive_iff {contestId teamId id : ℤ} :
    slotLive contestId teamId db id = true ↔
      ∃ x, db.zscore (getZSetKKey contestId teamId) id = some x ∧ db.clock < x := by
  rw [slotLive]
  cases db.zscore (getZSetKKey contestId teamId) id <;> simp

theorem Reservation.Kept.refl (s : Reservation) (db : Db ChallengeDeploymentCacheDTO ℤ) :
    s.Kept db db := ⟨id, id⟩

/-- Nothing is taken from a reservation that is not there. -/
theorem Reservation.Kept.of_absent (h : ¬s.Present db) : s.Kept db db' := by
  refine ⟨fun he => absurd (.inl he) h, fun hs => ?_⟩
  obtain ⟨x, hx, -⟩ := slotLive_iff.mp hs
  exact absurd (.inr (by rw [list, hx]; rfl)) h

theorem Reservation.Kept.trans {db'' : Db ChallengeDeploymentCacheDTO ℤ} (h : s.Kept db db')
    (h' : s.Kept db' db'') : s.Kept db db'' :=
  ⟨fun he => h'.entry (h.entry he), fun hs => h'.slot (h.slot hs)⟩

/-- The clean-up at an honest time takes no slot before its deadline. -/
theorem kept_clean {now : ℤ} (hnow : now ≤ db.clock) (zk : String) :
    s.Kept db (db.zremrangebyscore zk now) := by
  refine ⟨id, fun hs => ?_⟩
  obtain ⟨x, hx, hlt⟩ := slotLive_iff.mp hs
  refine slotLive_iff.mpr ⟨x, ?_, hlt⟩
  by_cases hk : getZSetKKey s.contestId s.teamId = zk
  · rw [hk] at hx ⊢
    exact db.zscore_zremrangebyscore.mpr ⟨hx, by omega⟩
  · rw [Db.zscore_congr (db.zset_zremrangebyscore_of_ne now hk), hx]

theorem kept_reserved {zk dk : String} {id sc ttl : ℤ} {v : ChallengeDeploymentCacheDTO}
    (hnone : db.zscore zk id = none) (h : Reserved zk dk id v sc ttl db db') : s.Kept db db' := by
  constructor
  · intro he
    rw [entryLive] at he ⊢
    by_cases hk : getCacheKey s.contestId s.contestChallengeId s.teamId = dk
    · rw [hk, h.lookup]
      rfl
    · rwa [h.lookup_of_ne _ hk]
  · intro hs
    obtain ⟨x, hx, hlt⟩ := slotLive_iff.mp hs
    refine slotLive_iff.mpr ⟨x, ?_, h.clock ▸ hlt⟩
    by_cases hk : getZSetKKey s.contestId s.teamId = zk
    · subst hk
      rw [h.zscore, if_neg, hx]
      rintro rfl
      rw [hnone] at hx
      cases hx
    · rw [Db.zscore_congr (h.zset_of_ne _ hk), hx]

/-- A reservation takes nothing from the others. -/
theorem kept_reserve {zk dk : String} {id l sc now ttl : ℤ} {v : ChallengeDeploymentCacheDTO}
    (hnow : now ≤ db.clock) : s.Kept db (reserveScript zk dk id l v sc now ttl db).2 := by
  obtain ⟨-, -, h⟩ | ⟨-, -, h⟩ | ⟨hpass, db', hc, h⟩ :=
    reserveScript_cases zk dk id l sc now ttl v db
  · rw [h]
    exact kept_clean hnow zk
  · rw [h]
    exact kept_clean hnow zk
  · rw [h]
    exact (kept_clean hnow zk).trans (kept_reserved hpass.1 (createReservation_spec hc))

theorem kept_del {key : String} (h : key ≠ s.key) : s.Kept db (db.del key) := by
  have hkept : (db.del key).lookup s.key = db.lookup s.key := Db.lookup_del_of_ne _ (Ne.symm h)
  exact ⟨fun he => (congrArg Option.isSome hkept).trans he, id⟩

/-- A removal takes nothing from the others. -/
theorem kept_remove {zk dk : String} {id : ℤ}
    (h : ¬(dk = s.key ∨ (zk = s.list ∧ id = s.contestChallengeId))) :
    s.Kept db (removeScript zk dk id db).2 := by
  obtain ⟨hdk, hslot⟩ := not_or.mp h
  refine (kept_del hdk).trans ⟨fun he => he, fun hs => ?_⟩
  obtain ⟨x, hx, hlt⟩ := slotLive_iff.mp hs
  refine slotLive_iff.mpr ⟨x, ?_, hlt⟩
  show ((db.del dk).zrem zk id).zscore s.list s.contestChallengeId = some x
  by_cases hk : s.list = zk
  · rw [hk, Db.zscore_zrem, if_neg fun hid => hslot ⟨hk.symm, hid.symm⟩, ← hk]
    exact hx
  · rw [Db.zscore_congr (Db.zset_zrem_of_ne _ _ hk)]
    exact hx

/-- A plain write of an entry removes none. -/
theorem kept_setex {key : String} {v : ChallengeDeploymentCacheDTO} {ttl : ℤ}
    (h : db.setex key ttl v = some db') : s.Kept db db' := by
  have hsame := db.lookup_setex_same h
  have hother := fun k (hk : k ≠ key) => db.lookup_setex_of_ne hk h
  obtain ⟨-, rfl⟩ := db.setex_eq_some_iff.mp h
  refine ⟨fun he => ?_, id⟩
  rw [entryLive] at he ⊢
  by_cases hk : getCacheKey s.contestId s.contestChallengeId s.teamId = key
  · rw [hk, hsame]
    rfl
  · rwa [hother _ hk]

/-- The operations of a start and of the center's `Start`; a reservation cleans up for a time
that is not ahead of the clock. -/
def StartingOp (now : ℤ) : DeployOp → Prop
  | .redis .utcNow => True
  | .redis (.get _) => True
  | .redis (.set _ _ _) => True
  | .redis (.del _) => True
  | .redis (.remove _ _ _) => True
  | .redis (.reserve _ _ _ _ _ _ now' _) => now' ≤ now
  | .redis _ => False
  | _ => True

/-- **What an operation of a start leaves alone**, unless it is a removal that is about the
reservation and is not lost. -/
theorem kept_exec {e : DeployEnv} {o : DeployOp} {w : World} (ho : StartingOp w.redis.clock o)
    (h : Removes s o → e.fault = .before) : s.Kept w.redis (o.exec e w).2.redis := by
  rw [DeployOp.exec_redis]
  cases o with
  | redis o =>
      dsimp only
      by_cases hf : e.fault = .before
      · rw [hf, RedisOp.execFaulty_before]
        exact .refl s _
      · rw [RedisOp.execFaulty_of_ne hf]
        have hother : ¬Removes s (.redis o) := fun hr => hf (h hr)
        cases o with
        | reserve zk dk id l v sc now ttl => exact kept_reserve ho
        | del key => exact kept_del hother
        | remove zk dk id => exact kept_remove hother
        | set key v ttl =>
            rw [RedisOp.exec]
            split
            · exact .refl s _
            · next db' hs => exact kept_setex hs
        | utcNow => exact .refl s _
        | get key => exact .refl s _
        | _ => exact absurd ho id
  | _ => exact .refl s _

/-- A lost operation leaves Redis alone. -/
theorem redis_exec_lost {e : DeployEnv} (hf : e.fault = .before) (o : DeployOp) (w : World) :
    (o.exec e w).2.redis = w.redis := by
  rw [DeployOp.exec_redis]
  cases o with
  | redis o =>
      dsimp only
      rw [hf, RedisOp.execFaulty_before]
  | _ => rfl

/-- A removal that is not lost leaves neither the entry nor the member. -/
theorem absent_of_remove {e : DeployEnv} {w : World} (hf : e.fault ≠ .before) :
    ¬s.Present (DeployOp.exec e (.redis (.remove s.list s.key s.contestChallengeId)) w).2.redis := by
  rw [DeployOp.exec_redis]
  dsimp only
  rw [RedisOp.execFaulty_of_ne hf]
  rintro (he | hs)
  · have hgone : (w.redis.del s.key).lookup s.key = none := Db.lookup_del_same _ _
    rw [entryLive] at he
    exact absurd (he.symm.trans (congrArg Option.isSome hgone)) (by decide)
  · have hgone : ((w.redis.del s.key).zrem s.list s.contestChallengeId).zscore s.list
        s.contestChallengeId = none := by
      rw [Db.zscore_zrem, if_pos rfl]
    exact absurd (hs.symm.trans (congrArg Option.isSome hgone)) (by decide)

end Kept

/-! ### Where a start stands -/

/-- The standings of a start. The other calls are `elsewhere`. -/
inductive StartStage where
  | checking
  | reading (now : ℤ)
  | refused
  | reserved (s : Reservation)
  | failing (s : Reservation)
  | released (s : Reservation)
  | started (s : Reservation)
  | elsewhere
  deriving DecidableEq

/-- What a start of a team may perform in each standing. -/
def StartStage.allows (contestId teamId : ℤ) : StartStage → DeployOp → Prop
  | checking, o => CheckOp o ∨ o = .redis .utcNow
  | reading now, o => ∃ id l v sc ttl, o = .redis (.reserve (getZSetKKey contestId teamId)
      (getCacheKey contestId id teamId) id l v sc now ttl)
  | refused, o => o = .redis .utcNow ∨ ∃ key, o = .redis (.get key)
  | reserved _, o => o = .redis .utcNow ∨ ∃ req, o = .postStart req
  | failing s, o => o = .redis (.remove s.list s.key s.contestChallengeId)
  | started _, o => ∃ u cc, o = .saveActionLogs u cc
  | _, _ => False

/-- The standing after the start endpoint's answer. -/
def StartStage.afterPost (s : Reservation) :
    Except Exn (Option ChallengeDeployResponeDTO) → StartStage
  | .ok (some response) => if response.status = 200 then started s else failing s
  | _ => failing s

/-- The standing after the reservation's reply. -/
def StartStage.afterReserve (s : Reservation) : Except Exn DeploymentCheckResult → StartStage
  | .ok .pass => reserved s
  | _ => refused

/-- The standing after a reply. -/
def StartStage.next (contestId teamId : ℤ) :
    StartStage → (o : DeployOp) → Except Exn o.Reply → StartStage
  | checking, .redis .utcNow, .ok now => reading (show ℤ from now)
  | checking, .redis .utcNow, .error _ => refused
  | reading _, .redis (.reserve _ _ id _ _ _ _ _), r =>
      afterReserve ⟨contestId, id, teamId⟩ (show Except Exn DeploymentCheckResult from r)
  | reserved s, .redis .utcNow, .error _ => failing s
  | reserved s, .postStart _, r =>
      afterPost s (show Except Exn (Option ChallengeDeployResponeDTO) from r)
  | failing s, _, _ => released s
  | q, _, _ => q

/-- How a start may end. -/
def StartStage.Ends : StartStage → Except Exn (Option ChallengeDeployResponeDTO) → Prop
  | reserved _, _ => False
  | failing _, _ => False
  | started _, r => Succeeded r
  | _, _ => True

/-- The protocol of a call. -/
def startProtocol : DeployCall × Option ℕ → Protocol deployI Exn StartStage
  | (.startChallenge _ t c _, _) => ⟨StartStage.allows c t, StartStage.next c t⟩
  | (.start _, _) => ⟨fun _ o => CentreOp o, fun q _ _ => q⟩
  | _ => ⟨fun _ _ => True, fun q _ _ => q⟩

/-- The first standing of a call. -/
def startStanding : DeployCall × Option ℕ → StartStage
  | (.startChallenge _ _ _ _, _) => .checking
  | _ => .elsewhere

section Follows

variable {α : Type} {contestId teamId : ℤ}

/-- The protocol of the starts of a team. -/
abbrev teamProtocol (contestId teamId : ℤ) : Protocol deployI Exn StartStage :=
  ⟨StartStage.allows contestId teamId, StartStage.next contestId teamId⟩

theorem follows_issue {R : Protocol deployI Exn StartStage} {o : DeployOp} {q : StartStage}
    {post : StartStage → Except Exn o.Reply → Prop} (h : R.allows q o)
    (hpost : ∀ r, post (R.next q o r) r) : (issue o).Follows R post q :=
  ⟨h, hpost⟩

/-- The checks leave a start where it is. -/
theorem follows_checkOps {p : Prog deployI Exn α} (h : p.Throughout CheckOp) :
    p.Follows (teamProtocol contestId teamId) (fun q _ => q = .checking) .checking := by
  refine .of_throughout (h.mono fun o ho => ⟨.inl ho, fun r => ?_⟩) fun _ => rfl
  cases o with
  | redis o => exact ho.elim
  | _ => rfl

/-- The reservation. -/
theorem follows_reserve (id maxLimit ttl : ℤ) (v : ChallengeDeploymentCacheDTO) :
    (atomicCheckAndCreateDeploymentZSet teamId (getCacheKey contestId id teamId) id maxLimit v
        ttl contestId : Prog deployI Exn DeploymentCheckResult).Follows
      (teamProtocol contestId teamId)
      (fun q r => q = .refused ∧ r ≠ .ok .pass ∨
        q = .reserved ⟨contestId, id, teamId⟩ ∧ r = .ok .pass) .checking := by
  refine .bind (follows_issue (.inr rfl) fun now => ?_)
  cases now with
  | error e => exact .inl ⟨rfl, nofun⟩
  | ok now =>
      refine follows_issue ⟨id, maxLimit, v, _, ttl, rfl⟩ fun r => ?_
      rcases r with e | result
      · exact .inl ⟨rfl, nofun⟩
      · cases (show DeploymentCheckResult from result) with
        | pass => exact .inr ⟨rfl, rfl⟩
        | locked => exact .inl ⟨rfl, nofun⟩
        | limitExceeded => exact .inl ⟨rfl, nofun⟩
        | alreadyExists => exact .inl ⟨rfl, nofun⟩

/-- A start that has been refused only reads. -/
theorem follows_alreadyExists (key : String) :
    (alreadyExists key).Follows (teamProtocol contestId teamId) (fun q _ => q = .refused)
      .refused := by
  refine .bind (.handle (follows_issue (.inr ⟨key, rfl⟩) fun r => ?_))
  cases r with
  | error e => rfl
  | ok cache =>
      cases (show Option ChallengeDeploymentCacheDTO from cache) with
      | none => rfl
      | some cache =>
          dsimp only
          split
          · rfl
          · rfl
          · rfl
          · split
            · refine .bind (follows_issue (.inl rfl) fun now => ?_)
              cases now <;> rfl
            · rfl
          · rfl

/-- The call of the start endpoint does not raise. -/
theorem follows_challengeStart (s : Reservation) (cc : ContestsChallenge) (bank : Challenge)
    (userId : ℤ) :
    (challengeStart cc bank userId teamId contestId).Follows (teamProtocol contestId teamId)
      (fun q r => ∃ response, r = .ok response ∧
        q = if response.status = 200 then .started s else .failing s) (.reserved s) := by
  refine .handle (.bind (follows_issue (.inl rfl) fun now => ?_))
  cases now with
  | error e => exact ⟨_, rfl, rfl⟩
  | ok now =>
      refine .bind (follows_issue (.inr ⟨_, rfl⟩) fun r => ?_)
      rcases r with e | body
      · exact ⟨_, rfl, rfl⟩
      · cases (show Option ChallengeDeployResponeDTO from body) with
        | none => exact ⟨_, rfl, rfl⟩
        | some response => exact ⟨response, rfl, rfl⟩

/-- The rollback. -/
theorem follows_rollback (s : Reservation) (response : ChallengeDeployResponeDTO) :
    (do
        let _ ← atomicRemoveDeploymentZSet s.teamId s.key s.contestChallengeId s.contestId
        pure response : Prog deployI Exn ChallengeDeployResponeDTO).Follows
      (teamProtocol contestId teamId) (fun q r => q = .released s ∧ r = .ok response)
      (.failing s) := by
  refine .bind (.handle (.bind (follows_issue rfl fun r => ?_)))
  cases r <;> exact ⟨rfl, rfl⟩

/-- After a reservation a start ends with its rollback or with success. -/
theorem follows_startReserved (cc : ContestsChallenge) (bank : Challenge) (userId : ℤ) :
    (startReserved cc bank userId teamId contestId).Follows (teamProtocol contestId teamId)
      (fun q r => (∃ s, q = .released s) ∨
        ∃ s response, q = .started s ∧ r = .ok response ∧ response.status = 200)
      (.reserved ⟨contestId, cc.id, teamId⟩) := by
  refine .handle (.bind ((follows_challengeStart _ cc bank userId).mono ?_))
  rintro q r ⟨response, rfl, rfl⟩
  dsimp only
  by_cases hstatus : response.status = 200
  · rw [if_pos hstatus, if_neg (not_not.mpr hstatus)]
    refine .bind (.handle (follows_issue ⟨_, _, rfl⟩ fun r => ?_))
    cases r with
    | error e => exact .inr ⟨_, response, rfl, rfl, hstatus⟩
    | ok _ => exact .inr ⟨_, response, rfl, rfl, hstatus⟩
  · rw [if_neg hstatus, if_pos hstatus]
    refine (follows_rollback _ response).mono ?_
    rintro q r ⟨rfl, rfl⟩
    exact .inl ⟨_, rfl⟩

/-- **Where a start stands**: it ends with its rollback or with success. -/
theorem follows_startChallenge (cfg : DeployConfig) (userId challengeId : ℤ) :
    (startChallenge cfg userId teamId contestId challengeId).Follows
      (teamProtocol contestId teamId)
      (fun q r => q.Ends (r.map some)) .checking := by
  refine .bind ((follows_checkOps (throughout_startChecks _ _ _ _ _)).mono ?_)
  rintro q r rfl
  rcases r with e | refusal | ⟨cc, bank⟩
  · trivial
  · trivial
  · refine .bind ((follows_reserve _ _ _ _).mono ?_)
    rintro q r (⟨rfl, hr⟩ | ⟨rfl, rfl⟩)
    · rcases r with e | result
      · trivial
      · cases result with
        | pass => exact absurd rfl hr
        | locked => trivial
        | limitExceeded => trivial
        | alreadyExists =>
            refine (follows_alreadyExists _).mono ?_
            rintro q r rfl
            trivial
    · refine (follows_startReserved cc bank userId).mono ?_
      rintro q r (⟨s, rfl⟩ | ⟨s, response, rfl, rfl, hstatus⟩)
      · trivial
      · exact ⟨response, rfl, hstatus⟩

/-- The program of every call follows its protocol. -/
theorem follows_answering (cfg : DeployConfig) (c : DeployCall × Option ℕ) :
    ((startPlatform cfg).program c).Follows (startProtocol c) StartStage.Ends
      (startStanding c) := by
  obtain ⟨call, origin⟩ := c
  cases call with
  | startChallenge u t c id =>
      refine .bind ((follows_startChallenge cfg u id).mono ?_)
      rintro q (e | response) h <;> exact h
  | start req =>
      refine .of_throughout (.bind (.bind ?_ fun _ => trivial) fun _ => trivial) fun _ => trivial
      exact (performs_deployServiceStart cfg req).mono fun o ho => ⟨ho, fun _ => rfl⟩
  | _ => exact .of_throughout (.of_forall (fun _ => ⟨trivial, fun _ => rfl⟩) _) fun _ => trivial

end Follows

/-! ### Runs -/

section Runs

variable {cfg : DeployConfig} {s : Reservation}

/-- No operation of the call has made the reservation. -/
def MadeNone (s : Reservation) (log : List (startPlatform cfg).Entry) (pid : ℕ) : Prop :=
  ∀ n ∈ Service.own log pid, ¬Reserves s n.env n.op n.before

/-- If an operation of the call has made the reservation, it is the call's own one. -/
def MadeOnly (s own : Reservation) (log : List (startPlatform cfg).Entry) (pid : ℕ) : Prop :=
  ∀ n ∈ Service.own log pid, Reserves s n.env n.op n.before → own = s

/-- The last operation of the call was its rollback. -/
def RolledLast (own : Reservation) (log : List (startPlatform cfg).Entry) (pid : ℕ) : Prop :=
  ∃ (l₁ : List (startPlatform cfg).Entry) (n : (startPlatform cfg).Entry)
    (l₂ : List (startPlatform cfg).Entry), log = l₁ ++ n :: l₂ ∧ n.pid = pid ∧
      Service.own l₂ pid = [] ∧ n.call.1.starts = true ∧
        n.op = .redis (.remove own.list own.key own.contestChallengeId)

/-- What a start remembers of its part of the run. -/
def Recalls (s : Reservation) (log : List (startPlatform cfg).Entry) (pid : ℕ) :
    StartStage → Prop
  | .checking => MadeNone s log pid
  | .reading now => MadeNone s log pid ∧ ∃ n ∈ log, now ≤ n.before.redis.clock
  | .refused => MadeNone s log pid
  | .reserved own => MadeOnly s own log pid
  | .failing own => MadeOnly s own log pid
  | .started own => MadeOnly s own log pid
  | .released own => MadeOnly s own log pid ∧ RolledLast own log pid
  | .elsewhere => False

/-- The same, for the starts among the calls. -/
def StartRecalls (s : Reservation) (log : List (startPlatform cfg).Entry) (pid : ℕ)
    (c : DeployCall × Option ℕ) (q : StartStage) : Prop :=
  c.1.starts = true → Recalls s log pid q

/-- What is true of the log. -/
structure RollbackInv (s : Reservation) (log : List (startPlatform cfg).Entry) (w : World) :
    Prop where
  /-- Time does not run back. -/
  clock : ∀ n ∈ log, n.before.redis.clock ≤ w.redis.clock
  /-- Operations for a start leave the reservations of others. -/
  kept : ∀ l₁ n l₂, log = l₁ ++ n :: l₂ → ∀ p, worksFor n.pid n.call = some p →
    lastReserver s l₁ ≠ some p → s.Kept n.before.redis (after n).redis
  /-- Rollbacks of a start's own reservation leave nothing. -/
  rolled : ∀ l₁ n l₂, log = l₁ ++ n :: l₂ → n.call.1.starts = true →
    n.op = .redis (.remove s.list s.key s.contestChallengeId) →
    lastReserver s l₁ = some n.pid → ¬s.Present (after n).redis

theorem rollbackInv_nil (s : Reservation) (w : World) :
    RollbackInv s ([] : List (startPlatform cfg).Entry) w := by
  have hnil {l₁ l₂ : List (startPlatform cfg).Entry} {n : (startPlatform cfg).Entry}
      (h : [] = l₁ ++ n :: l₂) : False :=
    List.append_ne_nil_of_right_ne_nil l₁ (List.cons_ne_nil n l₂) h.symm
  exact ⟨fun _ hn => absurd hn List.not_mem_nil, fun _ _ _ h => (hnil h).elim,
    fun _ _ _ h => (hnil h).elim⟩

theorem startingOp_of_checkOp {o : DeployOp} {now : ℤ} (h : CheckOp o) : StartingOp now o := by
  cases o with
  | redis o => exact h.elim
  | _ => exact True.intro

theorem startingOp_of_centreOp {o : DeployOp} {now : ℤ} (h : CentreOp o) :
    StartingOp now o := by
  cases o with
  | redis o =>
      cases o with
      | reserve zk dk id l v sc now' ttl => exact h.elim
      | _ => exact h
  | _ => exact True.intro

/-- What a start may perform. -/
theorem startingOp_of_allows {contestId teamId : ℤ} {log : List (startPlatform cfg).Entry}
    {w : World} {pid : ℕ} {q : StartStage} {o : DeployOp} (h : RollbackInv s log w)
    (hL : Recalls s log pid q) (ho : q.allows contestId teamId o) :
    StartingOp w.redis.clock o := by
  cases q with
  | checking =>
      rcases ho with ho | rfl
      · exact startingOp_of_checkOp ho
      · trivial
  | reading now =>
      obtain ⟨id, l, v, sc, ttl, rfl⟩ := ho
      obtain ⟨-, n, hn, hle⟩ := hL
      exact hle.trans (h.clock n hn)
  | refused => obtain rfl | ⟨key, rfl⟩ := ho <;> trivial
  | reserved own => obtain rfl | ⟨req, rfl⟩ := ho <;> trivial
  | failing own =>
      obtain rfl := ho
      trivial
  | started own =>
      obtain ⟨u, cc, rfl⟩ := ho
      trivial
  | released own => exact ho.elim
  | elsewhere => exact ho.elim

/-- What an operation for a start may be. -/
theorem startingOp_of_worksFor {log : List (startPlatform cfg).Entry} {w : World} {pid p : ℕ}
    {c : DeployCall × Option ℕ} {q : StartStage} {o : DeployOp} (h : RollbackInv s log w)
    (hL : StartRecalls s log pid c q) (ho : (startProtocol c).allows q o)
    (hp : worksFor pid c = some p) : StartingOp w.redis.clock o := by
  obtain ⟨call, origin⟩ := c
  cases call with
  | startChallenge u t c id => exact startingOp_of_allows h (hL rfl) ho
  | start req => exact startingOp_of_centreOp ho
  | _ => cases hp

/-- One more operation leaves the reservations of others. -/
theorem kept_step {log : List (startPlatform cfg).Entry} {n : (startPlatform cfg).Entry}
    {q : StartStage} (h : RollbackInv s log n.before) (hL : StartRecalls s log n.pid n.call q)
    (ho : (startProtocol n.call).allows q n.op) (hg : KeepsOwn s log n) {p : ℕ}
    (hp : worksFor n.pid n.call = some p) (hother : lastReserver s log ≠ some p) :
    s.Kept n.before.redis (after n).redis := by
  by_cases hpresent : s.Present n.before.redis
  · refine kept_exec (startingOp_of_worksFor h hL ho hp) fun hr => ?_
    by_contra hf
    exact hother (hg.own hr hf hpresent p hp)
  · exact .of_absent hpresent

/-- One more rollback of an own reservation leaves nothing. -/
theorem rolled_step {log : List (startPlatform cfg).Entry} {n : (startPlatform cfg).Entry}
    (hg : KeepsOwn s log n) (hstart : n.call.1.starts = true)
    (hop : n.op = .redis (.remove s.list s.key s.contestChallengeId))
    (hown : lastReserver s log = some n.pid) : ¬s.Present (after n).redis := by
  have hr : Removes s n.op := by
    rw [hop]
    exact .inl rfl
  by_cases hf : n.env.fault = .before
  · have hsame : (after n).redis = n.before.redis := redis_exec_lost hf _ _
    rw [hsame]
    exact fun hpresent => hg.rolled hstart hr hpresent hown hf
  · rw [after, hop]
    exact absent_of_remove hf

/-- **What one operation keeps** of what is true of the log. -/
theorem RollbackInv.step {log : List (startPlatform cfg).Entry}
    {n : (startPlatform cfg).Entry} {q : StartStage} (h : RollbackInv s log n.before)
    (hL : StartRecalls s log n.pid n.call q) (ho : (startProtocol n.call).allows q n.op)
    (hg : KeepsOwn s log n) : RollbackInv s (log ++ [n]) (after n) := by
  refine ⟨fun m hm => ?_, fun l₁ m l₂ hsplit p hp hother => ?_,
    fun l₁ m l₂ hsplit hstart hop hown => ?_⟩
  · have hclock : (after n).redis.clock = n.before.redis.clock := DeployOp.exec_clock _ _ _
    rw [hclock]
    rcases List.mem_append.mp hm with hm | hm
    · exact h.clock m hm
    · rw [List.mem_singleton.mp hm]
  · obtain ⟨rfl, rfl, -⟩ | ⟨l, hl, -⟩ := Service.split_concat hsplit
    · exact kept_step h hL ho hg hp hother
    · exact h.kept l₁ m l hl p hp hother
  · obtain ⟨rfl, rfl, -⟩ | ⟨l, hl, -⟩ := Service.split_concat hsplit
    · exact rolled_step hg hstart hop hown
    · exact h.rolled l₁ m l hl hstart hop hown

theorem MadeNone.madeOnly {log : List (startPlatform cfg).Entry} {pid : ℕ}
    (h : MadeNone s log pid) (own : Reservation) : MadeOnly s own log pid :=
  fun n hn hr => absurd hr (h n hn)

theorem MadeNone.concat {log : List (startPlatform cfg).Entry} {n : (startPlatform cfg).Entry}
    (h : MadeNone s log n.pid) (hn : ¬Reserves s n.env n.op n.before) :
    MadeNone s (log ++ [n]) n.pid := by
  intro m hm
  rw [Service.own_append_self] at hm
  rcases List.mem_append.mp hm with hm | hm
  · exact h m hm
  · rwa [List.mem_singleton.mp hm]

theorem MadeOnly.concat {own : Reservation} {log : List (startPlatform cfg).Entry}
    {n : (startPlatform cfg).Entry} (h : MadeOnly s own log n.pid)
    (hn : Reserves s n.env n.op n.before → own = s) : MadeOnly s own (log ++ [n]) n.pid := by
  intro m hm
  rw [Service.own_append_self] at hm
  rcases List.mem_append.mp hm with hm | hm
  · exact h m hm
  · rwa [List.mem_singleton.mp hm]

/-- A reservation that was made and whose reply got back is known to have been made. -/
theorem reply_of_reserves {contestId id teamId l sc now ttl : ℤ}
    {v : ChallengeDeploymentCacheDTO} {e : DeployEnv} {w : World}
    (h : Reserves s e (.redis (.reserve (getZSetKKey contestId teamId)
      (getCacheKey contestId id teamId) id l v sc now ttl)) w) (hf : e.fault ≠ .after) :
    s = ⟨contestId, id, teamId⟩ ∧
      (DeployOp.exec e (.redis (.reserve (getZSetKKey contestId teamId)
        (getCacheKey contestId id teamId) id l v sc now ttl)) w).1 = .ok .pass := by
  obtain ⟨hbefore, -, hdk, -, hpass, httl⟩ := h
  refine ⟨Reservation.key_inj hdk.symm, ?_⟩
  have hnone : e.fault = .none := by
    cases hfault : e.fault with
    | none => rfl
    | before => exact absurd hfault hbefore
    | after => exact absurd hfault hf
  have hscript := reserveScript_cases (getZSetKKey contestId teamId)
    (getCacheKey contestId id teamId) id l sc now ttl v w.redis
  simp only [DeployOp.exec, RedisOp.execFaulty, hnone, Fault.apply, RedisOp.exec]
  obtain ⟨hnot, -, -⟩ | ⟨-, hle, -⟩ | ⟨-, db', -, heq⟩ := hscript
  · exact absurd hpass hnot
  · omega
  · exact congrArg Prod.fst heq

/-- **What one operation of a start keeps** of what the start remembers. -/
theorem recalls_step {contestId teamId : ℤ} {log : List (startPlatform cfg).Entry} {pid : ℕ}
    {c : DeployCall × Option ℕ} {e : DeployEnv} {o : DeployOp} {w : World} {q : StartStage}
    (hL : Recalls s log pid q) (ho : q.allows contestId teamId o) (hstart : c.1.starts = true)
    (hheard : Reserves s e o w → e.fault ≠ .after) :
    Recalls s (log ++ [(⟨pid, c, e, o, w⟩ : (startPlatform cfg).Entry)]) pid
      (q.next contestId teamId o (o.exec e w).1) := by
  cases q with
  | checking =>
      rcases ho with ho | rfl
      · have hstay : StartStage.next contestId teamId .checking o (o.exec e w).1 = .checking := by
          cases o with
          | redis o => exact ho.elim
          | _ => rfl
        rw [hstay]
        refine MadeNone.concat hL fun hr => ?_
        cases o with
        | redis o => exact ho.elim
        | _ => exact hr.elim
      · exact ⟨MadeNone.concat hL id, _, List.mem_append_right _ (List.mem_singleton.mpr rfl),
          le_refl _⟩
  | reading now =>
      obtain ⟨id, l, v, sc, ttl, rfl⟩ := ho
      obtain ⟨hnone, -⟩ := hL
      by_cases hr : Reserves s e (.redis (.reserve (getZSetKKey contestId teamId)
          (getCacheKey contestId id teamId) id l v sc now ttl)) w
      · obtain ⟨rfl, hreply⟩ := reply_of_reserves hr (hheard hr)
        rw [hreply]
        exact MadeOnly.concat (hnone.madeOnly _) fun _ => rfl
      · have hnone' := MadeNone.concat (n := (⟨pid, c, e, _, w⟩ : (startPlatform cfg).Entry))
          hnone hr
        generalize (DeployOp.exec e (.redis (.reserve (getZSetKKey contestId teamId)
          (getCacheKey contestId id teamId) id l v sc now ttl)) w).1 = r
        rcases r with e' | result
        · exact hnone'
        · cases (show DeploymentCheckResult from result) with
          | pass => exact hnone'.madeOnly _
          | locked => exact hnone'
          | limitExceeded => exact hnone'
          | alreadyExists => exact hnone'
  | refused =>
      obtain rfl | ⟨key, rfl⟩ := ho
      · exact MadeNone.concat hL id
      · exact MadeNone.concat hL id
  | reserved own =>
      obtain rfl | ⟨req, rfl⟩ := ho
      · exact MadeOnly.concat hL fun hr => hr.elim
      · have honly : MadeOnly s own (log ++ [(⟨pid, c, e, .postStart req, w⟩ :
            (startPlatform cfg).Entry)]) pid := MadeOnly.concat hL fun hr => hr.elim
        generalize (DeployOp.exec e (.postStart req) w).1 = r
        show Recalls s _ pid (StartStage.afterPost own r)
        rcases r with e' | _ | response
        · exact honly
        · exact honly
        · show Recalls s _ pid (if response.status = 200 then .started own else .failing own)
          split <;> exact honly
  | failing own =>
      obtain rfl := ho
      exact ⟨MadeOnly.concat hL fun hr => hr.elim, log, _, [], rfl, rfl, rfl, hstart, rfl⟩
  | started own =>
      obtain ⟨u, cc, rfl⟩ := ho
      exact MadeOnly.concat hL fun hr => hr.elim
  | released own => exact ho.elim
  | elsewhere => exact ho.elim

/-- An operation of another call takes nothing from what a start remembers. -/
theorem Recalls.append {log : List (startPlatform cfg).Entry} {pid : ℕ} {q : StartStage}
    (h : Recalls s log pid q) (n : (startPlatform cfg).Entry) (hn : n.pid ≠ pid) :
    Recalls s (log ++ [n]) pid q := by
  have hnone : MadeNone s log pid → MadeNone s (log ++ [n]) pid := fun h => by
    rwa [MadeNone, Service.own_append_of_ne hn]
  have honly {own : Reservation} : MadeOnly s own log pid → MadeOnly s own (log ++ [n]) pid :=
    fun h => by rwa [MadeOnly, Service.own_append_of_ne hn]
  cases q with
  | checking => exact hnone h
  | reading now =>
      obtain ⟨h, m, hm, hle⟩ := h
      exact ⟨hnone h, m, List.mem_append_left _ hm, hle⟩
  | refused => exact hnone h
  | reserved own => exact honly h
  | failing own => exact honly h
  | started own => exact honly h
  | released own =>
      obtain ⟨h, l₁, m, l₂, rfl, hm, hlast, hstart, hop⟩ := h
      refine ⟨honly h, l₁, m, l₂ ++ [n], by simp, hm, ?_, hstart, hop⟩
      rw [Service.own_append_of_ne hn, hlast]
  | elsewhere => exact h

/-- **The law of the rollback, in every run**: if every step of a run makes itself heard,
removes a start's own reservation only and rolls it back, then a failed start leaves nothing
of its reservation, and no operation for a start removes what another start has reserved. -/
theorem releasesOwn_of_keepsOwn (cfg : DeployConfig) (s : Reservation) (w₀ : World)
    {log : List (startPlatform cfg).Entry} {w : (startPlatform cfg).Pool}
    (h : Service.Records (rollbackGuard s) ((startPlatform cfg).start w₀) log w) :
    ReleasesOwn s log w := by
  have hruns : RollbackInv s log w.shared ∧ ∃ qs,
      Service.Standings startProtocol (fun _ => StartStage.Ends) w qs ∧
        ∀ pid c p q, w.procs[pid]? = some (c, p) → qs[pid]? = some q →
          StartRecalls s log pid c q := by
    refine h.local_invariant (A := RollbackInv s) (L := StartRecalls s) startStanding
      (follows_answering cfg) (rollbackInv_nil s w₀) ?_ ?_ ?_ ?_
    · rintro log pid ⟨call, origin⟩ hnew hstart
      cases call with
      | startChallenge u t c id =>
          intro n hn
          exact absurd (Service.mem_own.mp hn).2 (hnew n (Service.mem_own.mp hn).1)
      | _ => cases hstart
    · intro log w pid e c o k q hA hLq hp hg hf
      have hguard : KeepsOwn s log ⟨pid, c, e, o, w.shared⟩ :=
        hg _ (by rw [Service.entryOf_act hp]; rfl)
      refine ⟨hA.step hLq hf.1 hguard, fun hstart => ?_⟩
      obtain ⟨call, origin⟩ := c
      cases call with
      | startChallenge u t c id => exact recalls_step (hLq hstart) hf.1 hstart hguard.heard
      | _ => cases hstart
    · exact fun log n pid c q hn hLq hstart => (hLq hstart).append n hn
    · intro log w x hA _
      refine ⟨fun n hn => (hA.clock n hn).trans ?_, hA.kept, hA.rolled⟩
      cases x with
      | tick d => exact Db.clock_le_tick _ _
      | tables t => exact le_refl _
  obtain ⟨hinv, qs, hst, hL⟩ := hruns
  refine ⟨fun pid c r hfin hstart hfailed hmade l₁ n l₂ hsplit hpid hlast hown => ?_,
    hinv.kept⟩
  obtain ⟨q, hq, hends⟩ := hst.get hfin
  have hrec := hL pid c _ q hfin hq hstart
  obtain ⟨m, hm, hr⟩ := hmade
  cases q with
  | checking => exact absurd hr (hrec m hm)
  | reading now => exact absurd hr (hrec.1 m hm)
  | refused => exact absurd hr (hrec m hm)
  | reserved own => exact (hends : False).elim
  | failing own => exact (hends : False).elim
  | started own => exact absurd hends hfailed
  | released own =>
      obtain ⟨honly, l₁', n', l₂', hsplit', hpid', hlast', hstart', hop⟩ := hrec
      obtain rfl := honly m hm hr
      obtain ⟨rfl, rfl⟩ := Service.last_own_inj (hsplit.symm.trans hsplit')
        (hpid.trans hpid'.symm) (by rwa [hpid]) (by rwa [hpid])
      have hnot : ¬Reserves own n.env n.op n.before := by
        rw [hop]
        exact id
      rw [lastReserver_concat, if_neg hnot, ← hpid] at hown
      exact hinv.rolled l₁ n l₂ hsplit hstart' hop hown
  | elsewhere => exact (hrec : False).elim

end Runs

/-! ### Concrete runs -/

/-- The deployment of the challenge for team 5. -/
def webReservation : Reservation := ⟨1, 7, 5⟩

/-- The platform with one challenge, and with an administrator. -/
def adminWorld : World :=
  { webWorld with tables := { webTables with users := fun id => some ⟨id, decide (id = 1)⟩ } }

/-- The deployment queue is full. -/
def queueFull : DeployEnv :=
  { calm with
    started := some (.plain 429 false
      "Deployment queue is currently full. Please retry in a moment.") }

/-- A start by a member of team 5. -/
def memberStart (userId : ℤ) : DeployCall × Option ℕ := (.startChallenge userId 5 1 7, none)

/-- A start that fails, with nobody else around. -/
theorem releasesOwn_example :
    ∃ log w, Service.runLogged (rollbackGuard webReservation) []
        ((startPlatform defaultConfig).start adminWorld)
        (Service.callNow 0 (memberStart 9) queueFull 9) = some (log, w) ∧
      (Service.answer w 0).map Prod.snd = some (.ok queueFull.started) ∧
      ReleasesOwn webReservation log w := by
  have hrun : (Service.runLogged (rollbackGuard webReservation) []
      ((startPlatform defaultConfig).start adminWorld)
      (Service.callNow 0 (memberStart 9) queueFull 9)).any
      (fun p => decide ((Service.answer p.2 0).map Prod.snd = some (.ok queueFull.started))) =
        true := by
    decide +kernel
  obtain ⟨⟨log, w⟩, hw, hanswer⟩ := (Option.any_eq_true _ _).mp hrun
  exact ⟨log, w, hw, of_decide_eq_true hanswer,
    releasesOwn_of_keepsOwn defaultConfig webReservation adminWorld
      (Service.records_of_runLogged .refl hw)⟩

/-- The last operation, for the start at 0, removes the entry of the reservation that the call
at 2 has made. -/
def takesForeign {cfg : DeployConfig} (s : Reservation)
    (log : List (startPlatform cfg).Entry) : Bool :=
  match log.getLast? with
  | none => false
  | some n =>
      decide (worksFor n.pid n.call = some 0) && decide (lastReserver s log.dropLast = some 2) &&
        entryLive s.contestId s.teamId n.before.redis s.contestChallengeId &&
          !entryLive s.contestId s.teamId (after n).redis s.contestChallengeId

theorem not_releasesOwn_of_takesForeign {cfg : DeployConfig} {s : Reservation}
    {log : List (startPlatform cfg).Entry} {w : (startPlatform cfg).Pool}
    (h : takesForeign s log = true) : ¬ReleasesOwn s log w := by
  intro hlaw
  rw [takesForeign] at h
  cases hlast : log.getLast? with
  | none =>
      rw [hlast] at h
      cases h
  | some n =>
      rw [hlast] at h
      simp only [Bool.and_eq_true, decide_eq_true_eq, Bool.not_eq_true'] at h
      obtain ⟨⟨⟨hworks, hreserver⟩, hbefore⟩, hafter⟩ := h
      have hsplit : log = log.dropLast ++ n :: [] :=
        (List.dropLast_append_getLast? n hlast).symm
      have hkept := hlaw.kept _ _ _ hsplit 0 hworks (by rw [hreserver]; decide)
      exact absurd (hkept.entry hbefore) (by rw [hafter]; decide)

/-- **A reservation of another member.** A start reserves and waits for the deployment center;
an administrator stops the deployment, and another member starts it again; then the first
start fails, and takes the new reservation with it. -/
theorem not_releasesOwn :
    ¬∀ (cfg : DeployConfig) (s : Reservation) (w₀ : World)
      (log : List (startPlatform cfg).Entry) (w : (startPlatform cfg).Pool),
      Service.Records Service.anyLogged ((startPlatform cfg).start w₀) log w →
        ReleasesOwn s log w := by
  intro h
  have hrun : (Service.runLogged Service.anyLogged []
      ((startPlatform defaultConfig).start adminWorld)
      (Service.callNow 0 (memberStart 9) queueFull 7 ++
        Service.callNow 1 (.stop ⟨3, 7, 1, 5, 1⟩, none) calm 5 ++
        Service.callNow 2 (memberStart 8) calm 9 ++
        List.replicate 2 (.act 0 queueFull))).any
      (fun p => takesForeign webReservation p.1) = true := by
    decide +kernel
  obtain ⟨⟨log, w⟩, hw, hforeign⟩ := (Option.any_eq_true _ _).mp hrun
  exact not_releasesOwn_of_takesForeign hforeign
    (h defaultConfig webReservation adminWorld log w (Service.records_of_runLogged .refl hw))

end Fctf
