import Fctf.Keys
import Fctf.Lib.Prog
import Fctf.Lib.RedisDb

/-!
# `RedisHelper`

The Redis access of all services: the Lua scripts as functions on the database, and the
methods of `RedisHelper` as programs over single Redis requests. A script is one atomic
operation; a method reads the clock first and calls its script later, so other clients
may come in between.

A Lua script whose command fails ends there, and what it has written before stays.

## Main results

* `reserveScript_cases`, `updateExpirationScript_cases`: everything the two scripts that
  write a team's sorted set can do.
* `createReservation_spec`, `extended_of_refreshed`: the database after the writes of a
  successful reservation and of a successful extension.
* `checkAndIncrementScript_cases`: everything the attempt counter's script can do.
-/

open Concurrent RedisDb

namespace Fctf

/-- What the services' calls raise, as far as a `catch` of theirs tells it apart. -/
inductive Exn where
  | redis
  | database
  | duplicateKey
  | remote
  | brokerUnreachable
  | queueFull
  | routingFailed
  | invalidOperation
  | attributeError
  | flag
  | argument
  | canceled
  deriving DecidableEq, Repr

/-- `Enums.DeploymentCheckResult`. -/
inductive DeploymentCheckResult where
  | locked
  | pass
  | limitExceeded
  | alreadyExists
  deriving DecidableEq, Repr

/-- The number a check result stands for. -/
def DeploymentCheckResult.code : DeploymentCheckResult → ℤ
  | locked => -1
  | pass => 0
  | limitExceeded => 1
  | alreadyExists => 2

section Scripts

variable {P : Type}

/-! ### The scripts -/

/-- Step D of the reservation script: the entry, the slot, and the life of the list. -/
def createReservation (zsetKey deploymentKey : String) (uniqueId : ℤ) (deploymentValue : P)
    (tempScore provisioningTtl : ℤ) (db : Db P ℤ) : Option (Db P ℤ) := do
  let db ← db.setex deploymentKey provisioningTtl deploymentValue
  let db := db.zadd zsetKey tempScore uniqueId
  pure (db.zexpire zsetKey 1800)

/-- The script of `AtomicCheckAndCreateDeploymentZSet`. -/
def reserveScript (zsetKey deploymentKey : String) (uniqueId maxLimit : ℤ)
    (deploymentValue : P) (tempScore now provisioningTtl : ℤ) (db : Db P ℤ) :
    Except Exn DeploymentCheckResult × Db P ℤ :=
  let db := db.zremrangebyscore zsetKey now
  if (db.zscore zsetKey uniqueId).isSome then (.ok .alreadyExists, db)
  else if maxLimit ≤ db.zcard zsetKey then (.ok .limitExceeded, db)
  else
    match createReservation zsetKey deploymentKey uniqueId deploymentValue tempScore
        provisioningTtl db with
    | none => (.error .redis, db)
    | some db' => (.ok .pass, db')

/-- Write the new data if there is any, or else only prolong the entry. -/
def refreshEntry (deploymentKey : String) (deploymentValue : Option P) (realTtl : ℤ)
    (db : Db P ℤ) : Option (Db P ℤ) :=
  match deploymentValue with
  | some v => db.setex deploymentKey realTtl v
  | none => some (db.expire deploymentKey realTtl)

/-- The script of `AtomicUpdateExpiration`. A `deploymentValue` of `none` is the empty
string. -/
def updateExpirationScript (zsetKey deploymentKey : String)
    (uniqueId realExpiryScore realTtl : ℤ) (deploymentValue : Option P) (teamId : ℤ)
    (db : Db P ℤ) : Except Exn ℤ × Db P ℤ :=
  if teamId ≤ 0 then
    match refreshEntry deploymentKey deploymentValue realTtl db with
    | none => (.error .redis, db)
    | some db' => (.ok 1, db')
  else if (db.zscore zsetKey uniqueId).isNone then (.ok 0, db)
  else
    let db := db.zadd zsetKey realExpiryScore uniqueId
    match refreshEntry deploymentKey deploymentValue realTtl db with
    | none => (.error .redis, db)
    | some db' => (.ok 1, db'.zexpire zsetKey (realTtl + 3600))

/-- The script of `AtomicRemoveDeploymentZSet`. -/
def removeScript (zsetKey deploymentKey : String) (uniqueId : ℤ) (db : Db P ℤ) :
    Except Exn ℤ × Db P ℤ :=
  let db := db.del deploymentKey
  (.ok (if (db.zscore zsetKey uniqueId).isSome then 1 else 0), db.zrem zsetKey uniqueId)

/-- The first part of the attempt counter's script: a missing counter is restored from
the database's count, and a counter without expiry gets one. -/
def currentAttempts (key : String) (actualDbCount ttlSeconds : ℤ) (db : Db P ℤ) :
    ℤ × Db P ℤ :=
  match db.lookupNum key with
  | none => (actualDbCount, (db.setNum key actualDbCount).expireNum key ttlSeconds)
  | some e => (e.value, if e.expireAt.isNone then db.expireNum key ttlSeconds else db)

/-- The script of `CheckAndIncrementAttemptsAsync`. The threshold is passed and unused. -/
def checkAndIncrementScript (key : String)
    (maxAttempts _smartSyncThreshold actualDbCount ttlSeconds : ℤ) (db : Db P ℤ) :
    Except Exn ℤ × Db P ℤ :=
  let (currentCount, db) := currentAttempts key actualDbCount ttlSeconds db
  if maxAttempts ≤ currentCount then (.ok (-1), db)
  else
    let db := db.incrby key 1
    let newCount := currentCount + 1
    if maxAttempts < newCount then (.ok (-1), db) else (.ok newCount, db)

/-- The script of `CheckAndUpdateCooldownAsync`: -1 if the cooldown is over, or else when
it began. -/
def cooldownScript (key : String) (nowSeconds cooldownSeconds ttlSeconds : ℤ) (db : Db P ℤ) :
    Except Exn ℤ × Db P ℤ :=
  match db.lookupNum key with
  | none => (.ok (-1), (db.setNum key nowSeconds).expireNum key ttlSeconds)
  | some e =>
      if cooldownSeconds ≤ nowSeconds - e.value then
        (.ok (-1), (db.setNum key nowSeconds).expireNum key ttlSeconds)
      else (.ok e.value, if e.expireAt.isNone then db.expireNum key ttlSeconds else db)

/-! ### What the scripts can do -/

section Cases

variable {zsetKey deploymentKey : String} {uniqueId maxLimit tempScore now ttl : ℤ}
  {v : P} {db db' : Db P ℤ}

/-- The reservation script writes the reservation if the challenge has no slot and there
is room after the clean-up. -/
def ReservePasses (zsetKey : String) (uniqueId maxLimit now : ℤ) (db : Db P ℤ) : Prop :=
  (db.zremrangebyscore zsetKey now).zscore zsetKey uniqueId = none ∧
    ((db.zremrangebyscore zsetKey now).zcard zsetKey : ℤ) < maxLimit

instance (zsetKey : String) (uniqueId maxLimit now : ℤ) (db : Db P ℤ) :
    Decidable (ReservePasses zsetKey uniqueId maxLimit now db) :=
  inferInstanceAs (Decidable (_ ∧ _))

/-- **Everything a reservation can do.** -/
theorem reserveScript_cases (zsetKey deploymentKey : String)
    (uniqueId maxLimit tempScore now ttl : ℤ) (v : P) (db : Db P ℤ) :
    (¬ReservePasses zsetKey uniqueId maxLimit now db ∧
      (reserveScript zsetKey deploymentKey uniqueId maxLimit v tempScore now ttl db).1 ≠
        .ok .pass ∧
      (reserveScript zsetKey deploymentKey uniqueId maxLimit v tempScore now ttl db).2 =
        db.zremrangebyscore zsetKey now) ∨
    (ReservePasses zsetKey uniqueId maxLimit now db ∧ ttl ≤ 0 ∧
      reserveScript zsetKey deploymentKey uniqueId maxLimit v tempScore now ttl db =
        (.error .redis, db.zremrangebyscore zsetKey now)) ∨
    (ReservePasses zsetKey uniqueId maxLimit now db ∧ ∃ db',
      createReservation zsetKey deploymentKey uniqueId v tempScore ttl
        (db.zremrangebyscore zsetKey now) = some db' ∧
      reserveScript zsetKey deploymentKey uniqueId maxLimit v tempScore now ttl db =
        (.ok .pass, db')) := by
  simp only [reserveScript, ReservePasses]
  split
  · next h =>
      refine .inl ⟨fun hp => ?_, by simp, rfl⟩
      rw [hp.1] at h
      cases h
  · next h =>
      have hnone := Option.not_isSome_iff_eq_none.mp h
      split
      · next hle => exact .inl ⟨fun hp => absurd hp.2 (not_lt.mpr hle), by simp, rfl⟩
      · next hlt =>
          have hpass := And.intro hnone (not_le.mp hlt)
          split
          · next hc =>
              have ht : ttl ≤ 0 := by
                by_contra hpos
                simp [createReservation, Db.setex, hpos] at hc
              exact .inr (.inl ⟨hpass, ht, rfl⟩)
          · next db' hc => exact .inr (.inr ⟨hpass, db', hc, rfl⟩)

/-- The database after the writes of a reservation. -/
structure Reserved (zsetKey deploymentKey : String) (uniqueId : ℤ) (v : P)
    (tempScore ttl : ℤ) (db db' : Db P ℤ) : Prop where
  /-- The entry can live. -/
  ttl_pos : 0 < ttl
  /-- No time passes. -/
  clock : db'.clock = db.clock
  /-- The challenge has its slot, and the other slots stand. -/
  zscore : ∀ m, db'.zscore zsetKey m =
    if m = uniqueId then some tempScore else db.zscore zsetKey m
  /-- One slot more at most. -/
  zcard : db'.zcard zsetKey ≤ db.zcard zsetKey + 1
  /-- The list lives for half an hour. -/
  zexpireAt : ∀ t, db'.zexpireAt zsetKey = some t → t = db.clock + 1800
  /-- The other lists stand. -/
  zset_of_ne : ∀ key, key ≠ zsetKey → db'.zset key = db.zset key
  /-- So do their expiries. -/
  zexpireAt_of_ne : ∀ key, key ≠ zsetKey → db'.zexpireAt key = db.zexpireAt key
  /-- The entry is there. -/
  lookup : db'.lookup deploymentKey = some ⟨v, some (db.clock + ttl)⟩
  /-- The other entries stand. -/
  lookup_of_ne : ∀ key, key ≠ deploymentKey → db'.lookup key = db.lookup key

theorem createReservation_spec
    (h : createReservation zsetKey deploymentKey uniqueId v tempScore ttl db = some db') :
    Reserved zsetKey deploymentKey uniqueId v tempScore ttl db db' := by
  simp only [createReservation, Option.bind_eq_bind, Option.bind_eq_some_iff,
    Option.pure_def, Option.some.injEq] at h
  obtain ⟨db₁, hset, rfl⟩ := h
  have hlookup := db.lookup_setex_same hset
  have hne := fun key (hk : key ≠ deploymentKey) => db.lookup_setex_of_ne hk hset
  obtain ⟨hpos, rfl⟩ := db.setex_eq_some_iff.mp hset
  have hz : (0 : ℤ) < 1800 := by omega
  refine ⟨hpos, rfl, fun m => ?_, ?_, fun t ht => ?_, fun key hk => ?_, fun key hk => ?_,
    hlookup, hne⟩
  · rw [Db.zscore_congr (Db.zset_zexpire_same _ hz), Db.zscore_zadd]
    rfl
  · exact (Db.zcard_zexpire_le _ _ _).trans (Db.zcard_zadd_le _ _ _ _)
  · exact (Db.zexpireAt_of_zexpire _ ht).2
  · rw [Db.zset_zexpire_of_ne _ _ hk, Db.zset_zadd_of_ne _ _ _ hk]
    rfl
  · rw [Db.zexpireAt_zexpire_of_ne _ _ hk, Db.zexpireAt_zadd_of_ne _ _ _ hk]
    rfl

/-- The database after an entry's data or life was renewed. -/
structure Refreshed (deploymentKey : String) (v : Option P) (ttl : ℤ) (db db' : Db P ℤ) :
    Prop where
  /-- No time passes. -/
  clock : db'.clock = db.clock
  /-- The lists stand. -/
  zsets : db'.zsets = db.zsets
  /-- If the entry is there, its life is new, and its data too if there is any. -/
  lookup : ∀ e, db'.lookup deploymentKey = some e →
    0 < ttl ∧ e.expireAt = some (db.clock + ttl) ∧
      (v = some e.value ∨ v = none ∧ db.get deploymentKey = some e.value)
  /-- The other entries stand. -/
  lookup_of_ne : ∀ key, key ≠ deploymentKey → db'.lookup key = db.lookup key

theorem refreshEntry_spec {v : Option P} (h : refreshEntry deploymentKey v ttl db = some db') :
    Refreshed deploymentKey v ttl db db' := by
  cases v with
  | some v =>
      have hlookup := db.lookup_setex_same h
      have hne := fun key (hk : key ≠ deploymentKey) => db.lookup_setex_of_ne hk h
      obtain ⟨hpos, rfl⟩ := db.setex_eq_some_iff.mp h
      refine ⟨rfl, rfl, fun e he => ?_, hne⟩
      obtain rfl := Option.some.inj (hlookup.symm.trans he)
      exact ⟨hpos, rfl, .inl rfl⟩
  | none =>
      obtain rfl : db.expire deploymentKey ttl = db' := Option.some.inj h
      refine ⟨rfl, rfl, fun e he => ?_, fun key hk => Db.lookup_expire_of_ne _ _ hk⟩
      obtain ⟨hpos, hexp, hval⟩ := db.lookup_of_expire he
      exact ⟨hpos, hexp, .inr ⟨rfl, hval⟩⟩

/-- An entry is not renewed only if new data came with no time to live. -/
theorem ttl_le_zero_of_refreshEntry {v : Option P}
    (h : refreshEntry deploymentKey v ttl db = none) : ttl ≤ 0 := by
  cases v with
  | some v =>
      by_contra hpos
      simp [refreshEntry, Db.setex, hpos] at h
  | none => cases h

/-- The database after a successful extension. -/
structure Extended (zsetKey deploymentKey : String) (uniqueId score ttl : ℤ) (v : Option P)
    (db db' : Db P ℤ) : Prop where
  /-- No time passes. -/
  clock : db'.clock = db.clock
  /-- The challenge has its new score, and the other slots stand. -/
  zscore : 0 < ttl + 3600 → ∀ m, db'.zscore zsetKey m =
    if m = uniqueId then some score else db.zscore zsetKey m
  /-- No slot is added. -/
  zcard : db'.zcard zsetKey ≤ db.zcard zsetKey
  /-- The list outlives the entry by an hour. -/
  zexpireAt : ∀ t, db'.zexpireAt zsetKey = some t → t = db.clock + (ttl + 3600)
  /-- The other lists stand. -/
  zset_of_ne : ∀ key, key ≠ zsetKey → db'.zset key = db.zset key
  /-- So do their expiries. -/
  zexpireAt_of_ne : ∀ key, key ≠ zsetKey → db'.zexpireAt key = db.zexpireAt key
  /-- If the entry is there, its life is new, and its data too if there is any. -/
  lookup : ∀ e, db'.lookup deploymentKey = some e →
    0 < ttl ∧ e.expireAt = some (db.clock + ttl) ∧
      (v = some e.value ∨ v = none ∧ db.get deploymentKey = some e.value)
  /-- The other entries stand. -/
  lookup_of_ne : ∀ key, key ≠ deploymentKey → db'.lookup key = db.lookup key

/-- The writes of a successful extension. -/
theorem extended_of_refreshed {score s : ℤ} {v : Option P}
    (hmem : db.zscore zsetKey uniqueId = some s)
    (h : Refreshed deploymentKey v ttl (db.zadd zsetKey score uniqueId) db') :
    Extended zsetKey deploymentKey uniqueId score ttl v db
      (db'.zexpire zsetKey (ttl + 3600)) := by
  have hclock : db'.clock = db.clock := h.clock
  have hzset : ∀ key, db'.zset key = (db.zadd zsetKey score uniqueId).zset key := by
    intro key
    rw [Db.zset, Db.zset, h.zsets, h.clock]
  have hexp : ∀ key, db'.zexpireAt key = (db.zadd zsetKey score uniqueId).zexpireAt key := by
    intro key
    rw [Db.zexpireAt, Db.zexpireAt, h.zsets, h.clock]
  refine ⟨hclock, fun hpos m => ?_, ?_, fun t ht => ?_, fun key hk => ?_, fun key hk => ?_,
    h.lookup, h.lookup_of_ne⟩
  · rw [Db.zscore_congr (Db.zset_zexpire_same _ hpos), Db.zscore_congr (hzset zsetKey),
      Db.zscore_zadd]
  · calc (db'.zexpire zsetKey (ttl + 3600)).zcard zsetKey
        ≤ db'.zcard zsetKey := Db.zcard_zexpire_le _ _ _
      _ = (db.zadd zsetKey score uniqueId).zcard zsetKey := by rw [Db.zcard, Db.zcard, hzset]
      _ = db.zcard zsetKey := Db.zcard_zadd_of_mem _ hmem
  · rw [← hclock]
    exact (Db.zexpireAt_of_zexpire _ ht).2
  · rw [Db.zset_zexpire_of_ne _ _ hk, hzset, Db.zset_zadd_of_ne _ _ _ hk]
  · rw [Db.zexpireAt_zexpire_of_ne _ _ hk, hexp, Db.zexpireAt_zadd_of_ne _ _ _ hk]

/-- **Everything an extension can do.** -/
theorem updateExpirationScript_cases (zsetKey deploymentKey : String)
    (uniqueId score ttl : ℤ) (v : Option P) (teamId : ℤ) (db : Db P ℤ) :
    (updateExpirationScript zsetKey deploymentKey uniqueId score ttl v teamId db).2 = db ∧
      (teamId ≤ 0 ∧ ttl ≤ 0 ∨ 0 < teamId ∧ db.zscore zsetKey uniqueId = none) ∨
    (teamId ≤ 0 ∧ ∃ db', Refreshed deploymentKey v ttl db db' ∧
      updateExpirationScript zsetKey deploymentKey uniqueId score ttl v teamId db =
        (.ok 1, db')) ∨
    (0 < teamId ∧ (∃ s, db.zscore zsetKey uniqueId = some s) ∧ ttl ≤ 0 ∧
      updateExpirationScript zsetKey deploymentKey uniqueId score ttl v teamId db =
        (.error .redis, db.zadd zsetKey score uniqueId)) ∨
    (0 < teamId ∧ (∃ s, db.zscore zsetKey uniqueId = some s) ∧ ∃ db',
      Extended zsetKey deploymentKey uniqueId score ttl v db db' ∧
      updateExpirationScript zsetKey deploymentKey uniqueId score ttl v teamId db =
        (.ok 1, db')) := by
  simp only [updateExpirationScript]
  split
  · next ht =>
      split
      · next hr => exact .inl ⟨rfl, .inl ⟨ht, ttl_le_zero_of_refreshEntry hr⟩⟩
      · next db' hr => exact .inr (.inl ⟨ht, db', refreshEntry_spec hr, rfl⟩)
  · next ht =>
      split
      · next hn => exact .inl ⟨rfl, .inr ⟨not_le.mp ht, Option.isNone_iff_eq_none.mp hn⟩⟩
      · next hn =>
          have hmem : ∃ s, db.zscore zsetKey uniqueId = some s := by
            rw [← Option.ne_none_iff_exists']
            exact fun hz => hn (Option.isNone_iff_eq_none.mpr hz)
          split
          · next hr =>
              exact .inr (.inr (.inl
                ⟨not_le.mp ht, hmem, ttl_le_zero_of_refreshEntry hr, rfl⟩))
          · next db' hr =>
              obtain ⟨s, hs⟩ := hmem
              exact .inr (.inr (.inr ⟨not_le.mp ht, ⟨s, hs⟩, _,
                extended_of_refreshed hs (refreshEntry_spec hr), rfl⟩))

/-- New data that an extension gets to store is the entry's data, as long as it lives. -/
theorem get_of_updateExpiration {score t : ℤ} {d d₀ : P} (httl : 0 < ttl)
    (hslot : 0 < t → (db.zscore zsetKey uniqueId).isSome = true)
    (h : (updateExpirationScript zsetKey deploymentKey uniqueId score ttl (some d₀) t
      db).2.get deploymentKey = some d) : d = d₀ := by
  have hrenewed : ∀ db₁ db' : Db P ℤ,
      (∀ e, db'.lookup deploymentKey = some e → 0 < ttl ∧
        e.expireAt = some (db₁.clock + ttl) ∧
        (some d₀ = some e.value ∨ some d₀ = none ∧ db₁.get deploymentKey = some e.value)) →
      db'.get deploymentKey = some d → d = d₀ := by
    intro db₁ db' hlookup hd
    obtain ⟨e, he, rfl⟩ := db'.get_eq_some_iff.mp hd
    obtain ⟨-, -, hv | ⟨hv, -⟩⟩ := hlookup e he
    · exact (Option.some.inj hv).symm
    · cases hv
  obtain ⟨-, ⟨-, hle⟩ | ⟨ht, hnone⟩⟩ | ⟨-, db', hr, hs⟩ | ⟨-, -, hle, -⟩ | ⟨-, -, db', hx, hs⟩ :=
    updateExpirationScript_cases zsetKey deploymentKey uniqueId score ttl (some d₀) t db
  · omega
  · rw [hnone] at hslot
    cases hslot ht
  · rw [hs] at h
    exact hrenewed db db' hr.lookup h
  · omega
  · rw [hs] at h
    exact hrenewed db db' hx.lookup h

/-- What two databases share that differ in the counter at one key only. -/
structure SameBut (key : String) (db db' : Db P ℤ) : Prop where
  /-- No time passes. -/
  clock : db'.clock = db.clock
  /-- The entries stand. -/
  strings : db'.strings = db.strings
  /-- The lists stand. -/
  zsets : db'.zsets = db.zsets
  /-- The other counters stand. -/
  lookupNum_of_ne : ∀ key', key' ≠ key → db'.lookupNum key' = db.lookupNum key'

theorem SameBut.getNum_of_ne {key key' : String} {db db' : Db P ℤ} (h : SameBut key db db')
    (hk : key' ≠ key) : db'.getNum key' = db.getNum key' := by
  rw [Db.getNum, h.lookupNum_of_ne key' hk, Db.getNum]

theorem SameBut.trans {key : String} {db₁ db₂ db₃ : Db P ℤ} (h : SameBut key db₁ db₂)
    (h' : SameBut key db₂ db₃) : SameBut key db₁ db₃ :=
  ⟨h'.clock.trans h.clock, h'.strings.trans h.strings, h'.zsets.trans h.zsets,
    fun key' hk => (h'.lookupNum_of_ne key' hk).trans (h.lookupNum_of_ne key' hk)⟩

theorem sameBut_expireNum (key : String) (ttl : ℤ) (db : Db P ℤ) :
    SameBut key db (db.expireNum key ttl) :=
  ⟨rfl, rfl, rfl, fun _ hk => db.lookupNum_expireNum_of_ne ttl hk⟩

theorem sameBut_setNum (key : String) (n : ℤ) (db : Db P ℤ) :
    SameBut key db (db.setNum key n) :=
  ⟨rfl, rfl, rfl, fun _ hk => db.lookupNum_setNum_of_ne n hk⟩

theorem sameBut_incrby (key : String) (n : ℤ) (db : Db P ℤ) :
    SameBut key db (db.incrby key n) :=
  ⟨rfl, rfl, rfl, fun _ hk => db.lookupNum_incrby_of_ne n hk⟩

theorem SameBut.refl (key : String) (db : Db P ℤ) : SameBut key db db :=
  ⟨rfl, rfl, rfl, fun _ _ => rfl⟩

theorem currentAttempts_spec (key : String) (n : ℤ) {ttl : ℤ} (db : Db P ℤ) (h : 0 < ttl) :
    (currentAttempts key n ttl db).1 = (db.getNum key).getD n ∧
      (currentAttempts key n ttl db).2.getNum key = some ((db.getNum key).getD n) ∧
      SameBut key db (currentAttempts key n ttl db).2 := by
  rw [currentAttempts]
  cases hl : db.lookupNum key with
  | none =>
      have hv : db.getNum key = none := by rw [Db.getNum, hl]; rfl
      dsimp only
      rw [hv]
      refine ⟨rfl, ?_, (sameBut_setNum key n db).trans (sameBut_expireNum key ttl _)⟩
      rw [Db.getNum_expireNum _ _ h, Db.getNum_setNum_same]
      rfl
  | some e =>
      have hv : db.getNum key = some e.value := db.getNum_eq_some_iff.mpr ⟨e, hl, rfl⟩
      dsimp only
      by_cases he : e.expireAt.isNone = true
      · rw [if_pos he, Db.getNum_expireNum _ _ h, hv]
        exact ⟨rfl, rfl, sameBut_expireNum key ttl db⟩
      · rw [if_neg he, hv]
        exact ⟨rfl, rfl, .refl key db⟩

/-- **Everything the attempt counter's script can do.** The count it works with is the
counter's, or the database's if there is no counter. -/
theorem checkAndIncrementScript_cases (key : String) (m th n : ℤ) {ttl : ℤ} (db : Db P ℤ)
    (h : 0 < ttl) :
    (m ≤ (db.getNum key).getD n ∧
      (checkAndIncrementScript key m th n ttl db).1 = .ok (-1) ∧
      (checkAndIncrementScript key m th n ttl db).2.getNum key =
        some ((db.getNum key).getD n)) ∨
    ((db.getNum key).getD n < m ∧
      (checkAndIncrementScript key m th n ttl db).1 = .ok ((db.getNum key).getD n + 1) ∧
      (checkAndIncrementScript key m th n ttl db).2.getNum key =
        some ((db.getNum key).getD n + 1)) := by
  obtain ⟨h₁, h₂, -⟩ := currentAttempts_spec key n db h
  simp only [checkAndIncrementScript]
  rw [h₁]
  generalize (db.getNum key).getD n = c at h₁ h₂ ⊢
  by_cases hc : m ≤ c
  · rw [if_pos hc]
    exact .inl ⟨hc, rfl, h₂⟩
  · rw [if_neg hc, if_neg (by omega : ¬m < c + 1)]
    refine .inr ⟨by omega, rfl, ?_⟩
    rw [Db.getNum_incrby_same, h₂]
    rfl

/-- The cooldown script touches its own counter only. -/
theorem cooldownScript_frame (key : String) (now cooldown ttl : ℤ) (db : Db P ℤ) :
    SameBut key db (cooldownScript key now cooldown ttl db).2 := by
  have hset := (sameBut_setNum key now db).trans (sameBut_expireNum key ttl _)
  rw [cooldownScript]
  split
  · exact hset
  · split
    · exact hset
    · dsimp only
      split
      · exact sameBut_expireNum key ttl db
      · exact .refl key db

/-- The attempt counter's script touches its own counter only. -/
theorem checkAndIncrementScript_frame (key : String) (m th n : ℤ) {ttl : ℤ} (db : Db P ℤ)
    (h : 0 < ttl) : SameBut key db (checkAndIncrementScript key m th n ttl db).2 := by
  obtain ⟨-, -, hs⟩ := currentAttempts_spec key n db h
  have hincr := hs.trans (sameBut_incrby key 1 _)
  simp only [checkAndIncrementScript]
  split
  · exact hs
  · split <;> exact hincr

end Cases

/-! ### Requests -/

/-- One request to Redis, or a look at the clock. -/
inductive RedisOp (P : Type) where
  | utcNow
  | get (key : String)
  | set (key : String) (value : P) (ttl : ℤ)
  | del (key : String)
  | keyExists (key : String)
  | reserve (zsetKey deploymentKey : String) (uniqueId maxLimit : ℤ) (deploymentValue : P)
      (tempScore now provisioningTtl : ℤ)
  | updateExpiration (zsetKey deploymentKey : String)
      (uniqueId realExpiryScore realTtl : ℤ) (deploymentValue : Option P) (teamId : ℤ)
  | remove (zsetKey deploymentKey : String) (uniqueId : ℤ)
  | checkAndIncrement (key : String)
      (maxAttempts smartSyncThreshold actualDbCount ttlSeconds : ℤ)
  | checkCooldown (key : String) (nowSeconds cooldownSeconds ttlSeconds : ℤ)
  | incr (key : String)
  | timeToLive (key : String)
  | expire (key : String) (ttl : ℤ)

/-- The type of a request's reply. -/
def RedisOp.Reply {P : Type} : RedisOp P → Type
  | utcNow => ℤ
  | get _ => Option P
  | set _ _ _ => Bool
  | del _ => Bool
  | keyExists _ => Bool
  | reserve _ _ _ _ _ _ _ _ => DeploymentCheckResult
  | updateExpiration _ _ _ _ _ _ _ => ℤ
  | remove _ _ _ => ℤ
  | checkAndIncrement _ _ _ _ _ => ℤ
  | checkCooldown _ _ _ _ => ℤ
  | incr _ => ℤ
  | timeToLive _ => Option ℤ
  | expire _ _ => Bool

/-- What one request answers and does. -/
def RedisOp.exec : (o : RedisOp P) → Db P ℤ → Except Exn o.Reply × Db P ℤ
  | utcNow, db => (.ok db.clock, db)
  | get key, db => (.ok (db.get key), db)
  | set key value ttl, db =>
      match db.setex key ttl value with
      | none => (.error .redis, db)
      | some db' => (.ok true, db')
  | del key, db => (.ok (db.lookup key).isSome, db.del key)
  | keyExists key, db => (.ok (db.lookup key).isSome, db)
  | reserve zk dk u l v s now ttl, db => reserveScript zk dk u l v s now ttl db
  | updateExpiration zk dk u s ttl v t, db => updateExpirationScript zk dk u s ttl v t db
  | remove zk dk u, db => removeScript zk dk u db
  | checkAndIncrement key m th n ttl, db => checkAndIncrementScript key m th n ttl db
  | checkCooldown key now cooldown ttl, db => cooldownScript key now cooldown ttl db
  | incr key, db => (.ok ((db.getNum key).getD 0 + 1), db.incrby key 1)
  | timeToLive key, db =>
      (.ok ((db.lookupNum key).bind fun e => e.expireAt.map (· - db.clock)), db)
  | expire key ttl, db => (.ok (db.lookupNum key).isSome, db.expireNum key ttl)

/-- What the network may do to a request: deliver it and the reply, lose the request, or
lose the reply. -/
inductive Fault where
  | none
  | before
  | after
  deriving DecidableEq, Repr

/-- An operation under a fault raises `e`; it has its effect unless it was lost. -/
def Fault.apply {α σ : Type} (f : Fault) (e : Exn) (run : σ → Except Exn α × σ) (s : σ) :
    Except Exn α × σ :=
  match f with
  | none => run s
  | before => (.error e, s)
  | after => (.error e, (run s).2)

/-- Under a fault an operation has its effect or none. -/
theorem Fault.apply_snd {α σ : Type} (f : Fault) (e : Exn) (run : σ → Except Exn α × σ)
    (s : σ) : (f.apply e run s).2 = s ∨ (f.apply e run s).2 = (run s).2 := by
  cases f with
  | none => exact .inr rfl
  | before => exact .inl rfl
  | after => exact .inr rfl

/-- A request under a fault. The clock is the caller's own. -/
def RedisOp.execFaulty (f : Fault) (o : RedisOp P) (db : Db P ℤ) :
    Except Exn o.Reply × Db P ℤ :=
  match o with
  | utcNow => (.ok db.clock, db)
  | o => f.apply .redis o.exec db

/-- A lost request has no effect. -/
@[simp] theorem RedisOp.execFaulty_before (o : RedisOp P) (db : Db P ℤ) :
    (o.execFaulty .before db).2 = db := by
  cases o <;> rfl

/-- A request that was not lost has its effect. -/
theorem RedisOp.execFaulty_of_ne {f : Fault} (h : f ≠ .before) (o : RedisOp P) (db : Db P ℤ) :
    (o.execFaulty f db).2 = (o.exec db).2 := by
  cases f with
  | none => cases o <;> rfl
  | before => exact absurd rfl h
  | after => cases o <;> rfl

theorem currentAttempts_clock (key : String) (n ttl : ℤ) (db : Db P ℤ) :
    (currentAttempts key n ttl db).2.clock = db.clock := by
  rw [currentAttempts]
  split
  · rfl
  · dsimp only
    split <;> rfl

/-- The attempt counter's script touches no entry. -/
theorem checkAndIncrementScript_strings (key : String) (m th n ttl : ℤ) (db : Db P ℤ) :
    (checkAndIncrementScript key m th n ttl db).2.strings = db.strings := by
  have hcurrent : (currentAttempts key n ttl db).2.strings = db.strings := by
    rw [currentAttempts]
    split
    · rfl
    · dsimp only
      split <;> rfl
  simp only [checkAndIncrementScript]
  split
  · exact hcurrent
  · split <;> exact hcurrent

/-- The cooldown script touches nothing but counters. -/
theorem cooldownScript_rest (key : String) (now cooldown ttl : ℤ) (db : Db P ℤ) :
    (cooldownScript key now cooldown ttl db).2 =
      { db with counters := (cooldownScript key now cooldown ttl db).2.counters } := by
  rw [cooldownScript]
  split
  · rfl
  · split
    · rfl
    · dsimp only
      split <;> rfl

/-- Requests take no time. -/
theorem RedisOp.clock_exec (o : RedisOp P) (db : Db P ℤ) : (o.exec db).2.clock = db.clock := by
  cases o with
  | reserve zk dk u l v s now ttl =>
      simp only [RedisOp.exec]
      obtain ⟨-, -, h⟩ | ⟨-, -, h⟩ | ⟨-, db', hc, h⟩ := reserveScript_cases zk dk u l s now ttl v db
      · rw [h]
        rfl
      · rw [h]
        rfl
      · rw [h]
        exact (createReservation_spec hc).clock
  | updateExpiration zk dk u s ttl v t =>
      simp only [RedisOp.exec]
      obtain ⟨h, -⟩ | ⟨-, db', hr, h⟩ | ⟨-, -, -, h⟩ | ⟨-, -, db', hx, h⟩ :=
        updateExpirationScript_cases zk dk u s ttl v t db
      · rw [h]
      · rw [h]
        exact hr.clock
      · rw [h]
        rfl
      · rw [h]
        exact hx.clock
  | checkAndIncrement key m th n ttl =>
      have hc := currentAttempts_clock key n ttl db
      simp only [RedisOp.exec, checkAndIncrementScript]
      split
      · exact hc
      · split <;> exact hc
  | set key v ttl =>
      simp only [RedisOp.exec]
      split
      · rfl
      · next db' hs =>
          obtain ⟨-, rfl⟩ := db.setex_eq_some_iff.mp hs
          rfl
  | checkCooldown key now cooldown ttl =>
      rw [RedisOp.exec, cooldownScript_rest]
  | _ => rfl

theorem RedisOp.clock_execFaulty (f : Fault) (o : RedisOp P) (db : Db P ℤ) :
    (o.execFaulty f db).2.clock = db.clock := by
  by_cases hf : f = .before
  · rw [hf, RedisOp.execFaulty_before]
  · rw [RedisOp.execFaulty_of_ne hf, RedisOp.clock_exec]

/-- The entry a request stores, with its key, if it gets to it. -/
def RedisOp.stores : RedisOp P → Option (String × P)
  | set key v _ => some (key, v)
  | reserve _ dk _ _ v _ _ _ => some (dk, v)
  | updateExpiration _ dk _ _ _ v _ => v.map (dk, ·)
  | _ => none

/-- An entry that is there after a renewal was there before, or it is the new data. -/
theorem get_of_renewed {dk key : String} {ttl : ℤ} {v : Option P} {d : P} {db db' : Db P ℤ}
    (hlookup : ∀ e, db'.lookup dk = some e → 0 < ttl ∧ e.expireAt = some (db.clock + ttl) ∧
      (v = some e.value ∨ v = none ∧ db.get dk = some e.value))
    (hne : ∀ key, key ≠ dk → db'.lookup key = db.lookup key) (h : db'.get key = some d) :
    db.get key = some d ∨ v.map (dk, ·) = some (key, d) := by
  obtain ⟨e, he, rfl⟩ := db'.get_eq_some_iff.mp h
  by_cases hk : key = dk
  · subst hk
    obtain ⟨-, -, rfl | ⟨rfl, hget⟩⟩ := hlookup e he
    · exact .inr rfl
    · exact .inl hget
  · exact .inl (db.get_eq_some_iff.mpr ⟨e, (hne key hk) ▸ he, rfl⟩)

/-- **An entry that is there after a request was there before, or the request stored it.** -/
theorem RedisOp.get_exec {o : RedisOp P} {db : Db P ℤ} {key : String} {d : P}
    (h : (o.exec db).2.get key = some d) :
    db.get key = some d ∨ o.stores = some (key, d) := by
  cases o with
  | reserve zk dk u l v s now ttl =>
      simp only [RedisOp.exec] at h
      obtain ⟨-, -, hs⟩ | ⟨-, -, hs⟩ | ⟨-, db', hc, hs⟩ :=
        reserveScript_cases zk dk u l s now ttl v db
      · rw [hs] at h
        exact .inl h
      · rw [hs] at h
        exact .inl h
      · rw [hs] at h
        have hr := createReservation_spec hc
        obtain ⟨e, he, rfl⟩ := db'.get_eq_some_iff.mp h
        by_cases hk : key = dk
        · subst hk
          obtain rfl := Option.some.inj (hr.lookup.symm.trans he)
          exact .inr rfl
        · rw [hr.lookup_of_ne key hk] at he
          exact .inl (db.get_eq_some_iff.mpr ⟨e, he, rfl⟩)
  | updateExpiration zk dk u s ttl v t =>
      simp only [RedisOp.exec] at h
      obtain ⟨hs, -⟩ | ⟨-, db', hr, hs⟩ | ⟨-, -, -, hs⟩ | ⟨-, -, db', hx, hs⟩ :=
        updateExpirationScript_cases zk dk u s ttl v t db
      · rw [hs] at h
        exact .inl h
      · rw [hs] at h
        exact get_of_renewed hr.lookup hr.lookup_of_ne h
      · rw [hs] at h
        exact .inl h
      · rw [hs] at h
        exact get_of_renewed hx.lookup hx.lookup_of_ne h
  | set key' v ttl =>
      simp only [RedisOp.exec] at h
      split at h
      · exact .inl h
      · next db' hs =>
          obtain ⟨e, he, rfl⟩ := db'.get_eq_some_iff.mp h
          by_cases hk : key = key'
          · subst hk
            obtain rfl := Option.some.inj ((db.lookup_setex_same hs).symm.trans he)
            exact .inr rfl
          · rw [db.lookup_setex_of_ne hk hs] at he
            exact .inl (db.get_eq_some_iff.mpr ⟨e, he, rfl⟩)
  | del key' => exact .inl (db.get_of_del h)
  | remove zk dk u => exact .inl (db.get_of_del h)
  | checkAndIncrement key' m th n ttl =>
      have hclock : (checkAndIncrementScript key' m th n ttl db).2.clock = db.clock :=
        RedisOp.clock_exec (.checkAndIncrement key' m th n ttl) db
      have hstrings := checkAndIncrementScript_strings key' m th n ttl db
      simp only [RedisOp.exec, Db.get, Db.lookup, hclock, hstrings] at h
      exact .inl h
  | checkCooldown key' now cooldown ttl =>
      rw [RedisOp.exec, cooldownScript_rest] at h
      exact .inl h
  | _ => exact .inl h

/-- A reading of the clock is not ahead of the time. -/
def RedisOp.HonestClock (now : ℤ) : (o : RedisOp P) → Except Exn o.Reply → Prop
  | .utcNow, .ok n => (show ℤ from n) ≤ now
  | _, _ => True

/-- The clock is honest. -/
theorem RedisOp.honestClock_execFaulty (f : Fault) (o : RedisOp P) (db : Db P ℤ) :
    o.HonestClock db.clock (o.execFaulty f db).1 := by
  cases o with
  | utcNow => exact le_refl _
  | _ => trivial

end Scripts

/-! ### The methods -/

/-- An interface through which Redis can be reached. `P` is the type of the entries. -/
class RedisAccess (I : Interface) (P : outParam Type) where
  /-- A request as a program. -/
  request : (o : RedisOp P) → Prog I Exn o.Reply

/-- The interface with requests to Redis and nothing else. -/
def redisI (P : Type) : Interface := ⟨RedisOp P, RedisOp.Reply⟩

instance (P : Type) : RedisAccess (redisI P) P where
  request o := Prog.perform (I := redisI P) o

section Methods

variable {I : Interface} {P : Type} [RedisAccess I P]

open RedisAccess (request)

/-- `DateTimeOffset.UtcNow.ToUnixTimeSeconds()`. -/
def utcNow : Prog I Exn ℤ :=
  request .utcNow

/-- `GetFromCacheAsync`: a failure reads as a missing key. -/
def getFromCacheAsync (key : String) : Prog I Exn (Option P) :=
  try request (.get key) catch _ => pure none

/-- `SetCacheAsync` with an expiry: a failure is reported as `false`. -/
def setCacheAsync (key : String) (value : P) (expiredTime : ℤ) : Prog I Exn Bool :=
  try request (.set key value expiredTime) catch _ => pure false

/-- `RemoveCacheAsync`. -/
def removeCacheAsync (key : String) : Prog I Exn Bool :=
  try request (.del key) catch _ => pure false

/-- `KeyExistsAsync`. -/
def keyExistsAsync (key : String) : Prog I Exn Bool :=
  try request (.keyExists key) catch _ => pure false

/-- `AtomicCheckAndCreateDeploymentZSet`: a failure is raised to the caller. -/
def atomicCheckAndCreateDeploymentZSet (teamId : ℤ) (deploymentKey : String)
    (challengeId maxLimit : ℤ) (deploymentValue : P) (provisioningTtl contestId : ℤ) :
    Prog I Exn DeploymentCheckResult := do
  let zsetKey := getZSetKKey contestId teamId
  let now ← utcNow
  let tempScore := now + provisioningTtl
  request (.reserve zsetKey deploymentKey challengeId maxLimit deploymentValue tempScore now
    provisioningTtl)

/-- `AtomicUpdateExpiration`. The script answers 1 for success and the method compares
with `pass`, which is 0. -/
def atomicUpdateExpiration (teamId : ℤ) (deploymentKey : String)
    (challengeId realTtlSeconds : ℤ) (deploymentValue : Option P) (contestId : ℤ) :
    Prog I Exn Bool := do
  let zsetKey := getZSetKKey contestId teamId
  let now ← utcNow
  let realExpiryScore := now + realTtlSeconds
  try
    let result ← request (.updateExpiration zsetKey deploymentKey challengeId realExpiryScore
      realTtlSeconds deploymentValue teamId)
    pure (decide ((show ℤ from result) = DeploymentCheckResult.pass.code))
  catch _ => pure false

/-- `AtomicRemoveDeploymentZSet`. -/
def atomicRemoveDeploymentZSet (teamId : ℤ) (deploymentKey : String) (challengeId : ℤ)
    (contestId : ℤ) : Prog I Exn Bool := do
  let zsetKey := getZSetKKey contestId teamId
  try
    let _ ← request (.remove zsetKey deploymentKey challengeId)
    pure true
  catch _ => pure false

/-- `CheckAndIncrementAttemptsAsync`: a failure is raised to the caller. -/
def checkAndIncrementAttemptsAsync (key : String)
    (maxAttempts smartSyncThreshold actualDbCount : ℤ) : Prog I Exn ℤ :=
  request (.checkAndIncrement key maxAttempts smartSyncThreshold actualDbCount 86400)

/-- `CheckAndUpdateCooldownAsync`: a failure is raised to the caller. -/
def checkAndUpdateCooldownAsync (key : String) (nowSeconds cooldownSeconds ttlSeconds : ℤ) :
    Prog I Exn ℤ :=
  request (.checkCooldown key nowSeconds cooldownSeconds ttlSeconds)

end Methods

end Fctf
