import Fctf.Lib.Pool
import Fctf.RedisHelper

/-!
# The Slot Limit of a Team

A team may have at most `maxLimit` challenges deployed at a time. Three methods of
`RedisHelper` keep the team's list of active deployments: a reservation enters a
challenge with a deadline, an extension gives it a later one, a removal takes it out.
This module runs any number of these calls, for any contests and teams, against each
other, against the clock and against lost requests.

The list is one Redis key, and both writing scripts set the life of the whole key: half
an hour by a reservation, an hour past the entry's own life by an extension. So the key
can die before a deadline written earlier, and that deployment's slot is then free
while it still runs.

## Main definitions

* `Deadlines`: the history of the deadlines written, kept beside the database.
* `WithinLimit`: what the list is for: at most `maxLimit` challenges have a deadline in
  the future, and each of them is still in the list.
* `KeepsSlots`: the condition on a step that no script cuts the list's life below a
  deadline of another challenge.

## Main results

* `slotInv_step`: what one request preserves.
* `withinLimit_of_keepsSlots`: the limit holds in every run whose steps keep the slots.
* `not_withinLimit`: a run in which the list dies early and the limit is exceeded.
-/

open Concurrent RedisDb

namespace Fctf

/-! ### Calls and their history -/

/-- A call of one of the three methods. -/
inductive SlotCall where
  | reserve (contestId teamId challengeId : ℤ) (deploymentKey : String)
  | extend (contestId teamId challengeId : ℤ) (deploymentKey : String)
      (realTtlSeconds : ℤ) (withData : Bool)
  | remove (contestId teamId challengeId : ℤ) (deploymentKey : String)

/-- The method of a call. A reservation is provisional for 300 seconds. -/
def SlotCall.program (maxLimit : ℤ) : SlotCall → Prog (redisI Unit) Exn Unit
  | reserve c t id key => do
      let _ ← atomicCheckAndCreateDeploymentZSet t key id maxLimit () 300 c
      pure ()
  | extend c t id key ttl withData => do
      let _ ← atomicUpdateExpiration t key id ttl (if withData then some () else none) c
      pure ()
  | remove c t id key => do
      let _ ← atomicRemoveDeploymentZSet t key id c
      pure ()

/-- The three methods under a limit, with a network that may lose requests and
replies. -/
def slotService (maxLimit : ℤ) : Service (redisI Unit) Exn Unit (Db Unit ℤ) where
  Call := SlotCall
  Env := Fault
  Ext := ℕ
  program := SlotCall.program maxLimit
  exec f o db := RedisOp.execFaulty f o db
  ambient d db := db.tick d

/-- The deadline last written for each challenge of each list, unless it was removed. -/
abbrev Deadlines := String → ℤ → Option ℤ

/-- Write or remove one deadline. -/
def Deadlines.put (D : Deadlines) (zsetKey : String) (id : ℤ) (d : Option ℤ) : Deadlines :=
  Function.update D zsetKey (Function.update (D zsetKey) id d)

/-- How a delivered request changes the deadlines. -/
def Deadlines.noteDelivered (o : RedisOp Unit) (db : Db Unit ℤ) (D : Deadlines) : Deadlines :=
  match o with
  | .reserve zk _ id l _ s now ttl =>
      if ReservePasses zk id l now db ∧ 0 < ttl then D.put zk id (some s) else D
  | .updateExpiration zk _ id s _ _ t =>
      if 0 < t ∧ (db.zscore zk id).isSome then D.put zk id (some s) else D
  | .remove zk _ id => D.put zk id none
  | _ => D

/-- How a request changes the deadlines. -/
def Deadlines.note (f : Fault) (o : RedisOp Unit) (db : Db Unit ℤ) (D : Deadlines) :
    Deadlines :=
  if f = .before then D else D.noteDelivered o db

/-- The three methods, with the deadlines they write. -/
def slotHistory (maxLimit : ℤ) : Service (redisI Unit) Exn Unit (Db Unit ℤ × Deadlines) :=
  (slotService maxLimit).withHistory Deadlines.note

/-! ### The limit -/

/-- The list at `zsetKey` does its work: no more than `maxLimit` challenges have a
deadline in the future, and the list holds each of them with its deadline. -/
def WithinLimit (maxLimit : ℤ) (db : Db Unit ℤ) (D : ℤ → Option ℤ) (zsetKey : String) :
    Prop :=
  (∀ ids : Finset ℤ, (∀ id ∈ ids, ∃ d, D id = some d ∧ db.clock < d) →
    ids.card ≤ maxLimit.toNat) ∧
  ∀ id d, D id = some d → db.clock < d → db.zscore zsetKey id = some d

/-- The invariant of one list. -/
structure SlotInv (maxLimit : ℤ) (db : Db Unit ℤ) (D : ℤ → Option ℤ) (zsetKey : String) :
    Prop where
  /-- A deadline in the future is a score. -/
  slot : ∀ id d, D id = some d → db.clock < d → db.zscore zsetKey id = some d
  /-- The list outlives it. -/
  outlives : ∀ id d t, D id = some d → db.clock < d → db.zexpireAt zsetKey = some t → d ≤ t
  /-- There is no slot too many. -/
  card : db.zcard zsetKey ≤ maxLimit.toNat

/-- The invariant is enough. -/
theorem SlotInv.withinLimit {maxLimit : ℤ} {db : Db Unit ℤ} {D : ℤ → Option ℤ}
    {zsetKey : String} (h : SlotInv maxLimit db D zsetKey) :
    WithinLimit maxLimit db D zsetKey := by
  refine ⟨fun ids hids => ?_, h.slot⟩
  refine (db.card_le_zcard fun id hid => ?_).trans h.card
  obtain ⟨d, hd, hlt⟩ := hids id hid
  exact ⟨d, h.slot id d hd hlt⟩

/-- Every challenge of the list but `id` has its deadline by the time `t`. -/
def OthersEndBy (db : Db Unit ℤ) (zsetKey : String) (id t : ℤ) : Prop :=
  ∀ id' ∈ (db.zset zsetKey).members, id' ≠ id → (db.zset zsetKey).score id' ≤ t

instance (db : Db Unit ℤ) (zsetKey : String) (id t : ℤ) :
    Decidable (OthersEndBy db zsetKey id t) :=
  inferInstanceAs (Decidable (∀ id' ∈ (db.zset zsetKey).members, _))

/-- A request that sets the life of a list sets one that covers the deadlines of the
other challenges. -/
def KeepsSlots (f : Fault) (o : RedisOp Unit) (db : Db Unit ℤ) : Prop :=
  f ≠ .before →
    match o with
    | .reserve zk _ id l _ _ now _ =>
        ReservePasses zk id l now db → OthersEndBy db zk id (db.clock + 1800)
    | .updateExpiration zk _ id _ ttl _ t =>
        0 < t → (db.zscore zk id).isSome → OthersEndBy db zk id (db.clock + (ttl + 3600))
    | _ => True

instance decidableKeepsSlots (f : Fault) (o : RedisOp Unit) (db : Db Unit ℤ) :
    Decidable (KeepsSlots f o db) :=
  match o with
  | .reserve _ _ _ _ _ _ _ _ => inferInstanceAs (Decidable (_ → _ → _))
  | .updateExpiration _ _ _ _ _ _ _ => inferInstanceAs (Decidable (_ → _ → _ → _))
  | .remove _ _ _ | .utcNow | .get _ | .set _ _ _ | .del _ | .keyExists _
  | .checkAndIncrement _ _ _ _ _ | .checkCooldown _ _ _ _ | .incr _ | .timeToLive _
  | .expire _ _ =>
      .isTrue fun _ => trivial

theorem OthersEndBy.zscore_le {db : Db Unit ℤ} {zsetKey : String} {id id' t s : ℤ}
    (h : OthersEndBy db zsetKey id t) (hid : id' ≠ id)
    (hs : db.zscore zsetKey id' = some s) : s ≤ t := by
  obtain ⟨hmem, rfl⟩ := SortedSet.find_eq_some_iff.mp hs
  exact h id' hmem hid

/-! ### What one request preserves -/

section Step

variable {maxLimit : ℤ} {db db' : Db Unit ℤ} {D : ℤ → Option ℤ} {zsetKey : String}

/-- Requests about other lists leave the invariant alone. -/
theorem SlotInv.frame (h : SlotInv maxLimit db D zsetKey) (hclock : db'.clock = db.clock)
    (hzset : db'.zset zsetKey = db.zset zsetKey)
    (hexp : db'.zexpireAt zsetKey = db.zexpireAt zsetKey) :
    SlotInv maxLimit db' D zsetKey := by
  refine ⟨fun id d hd hlt => ?_, fun id d t hd hlt ht => ?_, ?_⟩
  · rw [Db.zscore_congr hzset]
    exact h.slot id d hd (hclock ▸ hlt)
  · exact h.outlives id d t hd (hclock ▸ hlt) (hexp ▸ ht)
  · rw [Db.zcard, hzset]
    exact h.card

/-- The clean-up before a reservation takes no future deadline. -/
theorem SlotInv.zremrangebyscore {now : ℤ} (h : SlotInv maxLimit db D zsetKey)
    (hnow : now ≤ db.clock) :
    SlotInv maxLimit (db.zremrangebyscore zsetKey now) D zsetKey := by
  refine ⟨fun id d hd hlt => ?_, fun id d t hd hlt ht => ?_, ?_⟩
  · have hlt' : db.clock < d := hlt
    exact Db.zscore_zremrangebyscore _ |>.mpr ⟨h.slot id d hd hlt, by omega⟩
  · exact h.outlives id d t hd hlt (Db.zexpireAt_of_restoreZset _ ht)
  · exact (Db.zcard_zremrangebyscore_le _ _ _).trans h.card

/-- A deadline after one was written. -/
theorem update_deadline {id id' s d : ℤ}
    (h : Function.update D id (some s) id' = some d) :
    id' = id ∧ s = d ∨ id' ≠ id ∧ D id' = some d := by
  by_cases hid : id' = id
  · subst hid
    rw [Function.update_self, Option.some.injEq] at h
    exact .inl ⟨rfl, h⟩
  · rw [Function.update_of_ne hid] at h
    exact .inr ⟨hid, h⟩

/-- A reservation that finds room. -/
theorem SlotInv.reserved {id s : ℤ} {deploymentKey : String} {ttl : ℤ}
    (h : SlotInv maxLimit db D zsetKey)
    (hr : Reserved zsetKey deploymentKey id () s ttl db db')
    (hroom : (db.zcard zsetKey : ℤ) < maxLimit) (hs : s ≤ db.clock + 1800)
    (hkeep : ∀ id' s', id' ≠ id → db.zscore zsetKey id' = some s' → s' ≤ db.clock + 1800) :
    SlotInv maxLimit db' (Function.update D id (some s)) zsetKey := by
  have hclock := hr.clock
  refine ⟨fun id' d hd hlt => ?_, fun id' d t hd hlt ht => ?_, ?_⟩
  · rw [hr.zscore]
    rcases update_deadline hd with ⟨rfl, rfl⟩ | ⟨hid, hd⟩
    · rw [if_pos rfl]
    · rw [if_neg hid]
      exact h.slot id' d hd (hclock ▸ hlt)
  · have ht' := hr.zexpireAt t ht
    rcases update_deadline hd with ⟨rfl, rfl⟩ | ⟨hid, hd⟩
    · omega
    · have hle := hkeep id' d hid (h.slot id' d hd (hclock ▸ hlt))
      omega
  · have hle := hr.zcard
    omega

/-- An extension. -/
theorem SlotInv.extended {id s ttl : ℤ} {deploymentKey : String} {v : Option Unit}
    (h : SlotInv maxLimit db D zsetKey)
    (hx : Extended zsetKey deploymentKey id s ttl v db db') (hs : s ≤ db.clock + ttl)
    (hkeep : OthersEndBy db zsetKey id (db.clock + (ttl + 3600))) :
    SlotInv maxLimit db' (Function.update D id (some s)) zsetKey := by
  have hclock := hx.clock
  -- a deadline in the future is within the list's new life
  have hle : ∀ id' d, Function.update D id (some s) id' = some d → db'.clock < d →
      d ≤ db.clock + (ttl + 3600) := by
    intro id' d hd hlt
    rcases update_deadline hd with ⟨rfl, rfl⟩ | ⟨hid, hd⟩
    · omega
    · exact hkeep.zscore_le hid (h.slot id' d hd (hclock ▸ hlt))
  refine ⟨fun id' d hd hlt => ?_, fun id' d t hd hlt ht => ?_, hx.zcard.trans h.card⟩
  · have hd' := hle id' d hd hlt
    rw [hx.zscore (by omega)]
    rcases update_deadline hd with ⟨rfl, rfl⟩ | ⟨hid, hd⟩
    · rw [if_pos rfl]
    · rw [if_neg hid]
      exact h.slot id' d hd (hclock ▸ hlt)
  · have ht' := hx.zexpireAt t ht
    have hd' := hle id' d hd hlt
    omega

/-- A score that is not in the future, written without a new life for the list. -/
theorem SlotInv.zadd_past {id s s₀ : ℤ} (h : SlotInv maxLimit db D zsetKey)
    (hmem : db.zscore zsetKey id = some s₀) (hs : s ≤ db.clock) :
    SlotInv maxLimit (db.zadd zsetKey s id) (Function.update D id (some s)) zsetKey := by
  refine ⟨fun id' d hd hlt => ?_, fun id' d t hd hlt ht => ?_, ?_⟩
  · have hlt' : db.clock < d := hlt
    rcases update_deadline hd with ⟨rfl, rfl⟩ | ⟨hid, hd⟩
    · omega
    · rw [Db.zscore_zadd, if_neg hid]
      exact h.slot id' d hd hlt'
  · have hlt' : db.clock < d := hlt
    rw [Db.zexpireAt_zadd_same] at ht
    rcases update_deadline hd with ⟨rfl, rfl⟩ | ⟨-, hd⟩
    · omega
    · exact h.outlives id' d t hd hlt' ht
  · rw [Db.zcard_zadd_of_mem _ hmem]
    exact h.card

/-- A removal. -/
theorem SlotInv.removed {id : ℤ} (h : SlotInv maxLimit db D zsetKey) :
    SlotInv maxLimit (db.zrem zsetKey id) (Function.update D id none) zsetKey := by
  have hother : ∀ id' d, Function.update D id none id' = some d → id' ≠ id ∧ D id' = some d := by
    intro id' d hd
    by_cases hid : id' = id
    · subst hid
      rw [Function.update_self] at hd
      cases hd
    · rw [Function.update_of_ne hid] at hd
      exact ⟨hid, hd⟩
  refine ⟨fun id' d hd hlt => ?_, fun id' d t hd hlt ht => ?_, ?_⟩
  · obtain ⟨hid, hd⟩ := hother id' d hd
    rw [Db.zscore_zrem, if_neg hid]
    exact h.slot id' d hd hlt
  · exact h.outlives id' d t (hother id' d hd).2 hlt (Db.zexpireAt_of_restoreZset _ ht)
  · exact (Db.zcard_zrem_le _ _ _).trans h.card

/-- The passage of time: a list with a deadline in the future is not yet gone. -/
theorem SlotInv.tick (h : SlotInv maxLimit db D zsetKey) (d : ℕ) :
    SlotInv maxLimit (db.tick d) D zsetKey := by
  have hclock := db.clock_le_tick d
  refine ⟨fun id s hs hlt => ?_, fun id s t hs hlt ht => ?_, ?_⟩
  · rw [Db.zscore_congr (db.zset_tick_of_lt fun t ht => ?_)]
    · exact h.slot id s hs (by omega)
    · exact lt_of_lt_of_le hlt (h.outlives id s t hs (by omega) ht)
  · exact h.outlives id s t hs (by omega) (db.zexpireAt_of_tick ht)
  · exact (db.zcard_tick_le _ _).trans h.card

/-- The arguments the methods compute for a request issued at time `now`: the scores are
counted from a reading of the clock, and a reservation has the service's limit. -/
def GoodSlotRequest (maxLimit now : ℤ) : RedisOp Unit → Prop
  | .reserve _ _ _ l _ s now' _ => l = maxLimit ∧ now' ≤ now ∧ s = now' + 300
  | .updateExpiration _ _ _ s ttl _ _ => s ≤ now + ttl
  | .checkAndIncrement _ _ _ _ ttl => 0 < ttl
  | _ => True

/-- The other lists' deadlines stand. -/
theorem Deadlines.put_of_ne (D : Deadlines) {zk zk' : String} (id : ℤ) (d : Option ℤ)
    (h : zk' ≠ zk) : D.put zk id d zk' = D zk' :=
  Function.update_of_ne h _ _

theorem Deadlines.put_same (D : Deadlines) (zk : String) (id : ℤ) (d : Option ℤ) :
    D.put zk id d zk = Function.update (D zk) id d :=
  Function.update_self _ _ _

/-- A reservation request. -/
theorem slotInv_reserve {D : Deadlines} {zk dk : String} {id l s now ttl : ℤ}
    (hP : ∀ key, SlotInv maxLimit db (D key) key)
    (hgood : l = maxLimit ∧ now ≤ db.clock ∧ s = now + 300)
    (hkeep : ReservePasses zk id l now db → OthersEndBy db zk id (db.clock + 1800))
    (key : String) :
    SlotInv maxLimit (reserveScript zk dk id l () s now ttl db).2
      ((if ReservePasses zk id l now db ∧ 0 < ttl then D.put zk id (some s) else D) key)
      key := by
  obtain ⟨rfl, hnow, rfl⟩ := hgood
  -- the clean-up alone
  have hclean : ∀ key, SlotInv l (db.zremrangebyscore zk now) (D key) key := by
    intro key
    by_cases hk : key = zk
    · subst hk
      exact (hP key).zremrangebyscore hnow
    · exact (hP key).frame rfl (Db.zset_zremrangebyscore_of_ne _ _ hk)
        (Db.zexpireAt_zremrangebyscore_of_ne _ _ hk)
  obtain ⟨hpass, -, h₂⟩ | ⟨-, httl, h⟩ | ⟨hpass, db', hc, h⟩ :=
    reserveScript_cases zk dk id l (now + 300) now ttl () db
  · rw [h₂, if_neg fun hp => hpass hp.1]
    exact hclean key
  · rw [h, if_neg fun hp => absurd hp.2 (not_lt.mpr httl)]
    exact hclean key
  · have hr := createReservation_spec hc
    rw [h, if_pos ⟨hpass, hr.ttl_pos⟩]
    by_cases hk : key = zk
    · subst hk
      have hclock : (db.zremrangebyscore key now).clock = db.clock := rfl
      rw [Deadlines.put_same]
      refine (hclean key).reserved hr hpass.2 (by omega) fun id' s' hid hs => ?_
      exact (hkeep hpass).zscore_le hid ((Db.zscore_zremrangebyscore _).mp hs).1
    · rw [Deadlines.put_of_ne _ _ _ hk]
      exact (hclean key).frame hr.clock (hr.zset_of_ne key hk) (hr.zexpireAt_of_ne key hk)

/-- An extension request. -/
theorem slotInv_extend {D : Deadlines} {zk dk : String} {id s ttl t : ℤ} {v : Option Unit}
    (hP : ∀ key, SlotInv maxLimit db (D key) key) (hgood : s ≤ db.clock + ttl)
    (hkeep : 0 < t → (db.zscore zk id).isSome →
      OthersEndBy db zk id (db.clock + (ttl + 3600))) (key : String) :
    SlotInv maxLimit (updateExpirationScript zk dk id s ttl v t db).2
      ((if 0 < t ∧ (db.zscore zk id).isSome then D.put zk id (some s) else D) key) key := by
  obtain ⟨h, hskip⟩ | ⟨ht, db', hr, h⟩ | ⟨ht, ⟨s₀, hs₀⟩, httl, h⟩ | ⟨ht, ⟨s₀, hs₀⟩, db', hx, h⟩ :=
    updateExpirationScript_cases zk dk id s ttl v t db
  · have hn : ¬(0 < t ∧ (db.zscore zk id).isSome) := by
      rintro ⟨ht, hs⟩
      rcases hskip with ⟨ht', -⟩ | ⟨-, hnone⟩
      · omega
      · rw [hnone] at hs
        cases hs
    rw [h, if_neg hn]
    exact hP key
  · rw [h, if_neg fun hp => absurd hp.1 (not_lt.mpr ht)]
    refine (hP key).frame hr.clock ?_ ?_
    · rw [Db.zset, Db.zset, hr.zsets, hr.clock]
    · rw [Db.zexpireAt, Db.zexpireAt, hr.zsets, hr.clock]
  · have hsome : (db.zscore zk id).isSome := by rw [hs₀, Option.isSome_some]
    rw [h, if_pos ⟨ht, hsome⟩]
    by_cases hk : key = zk
    · subst hk
      rw [Deadlines.put_same]
      exact (hP key).zadd_past hs₀ (by omega)
    · rw [Deadlines.put_of_ne _ _ _ hk]
      exact (hP key).frame rfl (Db.zset_zadd_of_ne _ _ _ hk)
        (Db.zexpireAt_zadd_of_ne _ _ _ hk)
  · have hsome : (db.zscore zk id).isSome := by rw [hs₀, Option.isSome_some]
    rw [h, if_pos ⟨ht, hsome⟩]
    by_cases hk : key = zk
    · subst hk
      rw [Deadlines.put_same]
      exact (hP key).extended hx hgood (hkeep ht hsome)
    · rw [Deadlines.put_of_ne _ _ _ hk]
      exact (hP key).frame hx.clock (hx.zset_of_ne key hk) (hx.zexpireAt_of_ne key hk)

/-- A removal request. -/
theorem slotInv_remove {D : Deadlines} {zk dk : String} {id : ℤ}
    (hP : ∀ key, SlotInv maxLimit db (D key) key) (key : String) :
    SlotInv maxLimit (removeScript zk dk id db).2 (D.put zk id none key) key := by
  -- the entry's own key is not a list
  have hdel : SlotInv maxLimit (db.del dk) (D key) key := (hP key).frame rfl rfl rfl
  by_cases hk : key = zk
  · subst hk
    rw [Deadlines.put_same]
    exact hdel.removed
  · rw [Deadlines.put_of_ne _ _ _ hk]
    exact hdel.frame rfl (Db.zset_zrem_of_ne _ _ hk) (Db.zexpireAt_zrem_of_ne _ _ hk)

/-- Requests about single entries and counters leave the lists alone. -/
theorem SlotInv.of_zsets {D : Deadlines} (hP : ∀ key, SlotInv maxLimit db (D key) key)
    (hclock : db'.clock = db.clock) (hz : db'.zsets = db.zsets) (key : String) :
    SlotInv maxLimit db' (D key) key := by
  refine (hP key).frame hclock ?_ ?_
  · rw [Db.zset, Db.zset, hz, hclock]
  · rw [Db.zexpireAt, Db.zexpireAt, hz, hclock]

/-- **What one request preserves.** -/
theorem slotInv_step {D : Deadlines} {f : Fault} {o : RedisOp Unit}
    (hP : ∀ key, SlotInv maxLimit db (D key) key)
    (hgood : GoodSlotRequest maxLimit db.clock o) (hkeep : KeepsSlots f o db)
    (key : String) :
    SlotInv maxLimit (o.execFaulty f db).2 (Deadlines.note f o db D key) key := by
  by_cases hf : f = .before
  · subst hf
    rw [RedisOp.execFaulty_before]
    exact hP key
  · rw [RedisOp.execFaulty_of_ne hf, Deadlines.note, if_neg hf]
    have hkeep := hkeep hf
    cases o with
    | reserve zk dk id l v s now ttl => exact slotInv_reserve hP hgood hkeep key
    | updateExpiration zk dk id s ttl v t => exact slotInv_extend hP hgood hkeep key
    | remove zk dk id => exact slotInv_remove hP key
    | checkAndIncrement key' m th n ttl =>
        have hs := checkAndIncrementScript_frame key' m th n db hgood
        exact SlotInv.of_zsets hP hs.clock hs.zsets key
    | checkCooldown key' now cooldown ttl =>
        rw [RedisOp.exec, cooldownScript_rest]
        exact SlotInv.of_zsets hP (by rfl) (by rfl) key
    | set key' v ttl =>
        simp only [RedisOp.exec]
        split
        · exact hP key
        · next db' hs =>
            obtain ⟨-, rfl⟩ := db.setex_eq_some_iff.mp hs
            exact SlotInv.of_zsets hP (by rfl) (by rfl) key
    | del key' => exact SlotInv.of_zsets hP (by rfl) (by rfl) key
    | incr key' => exact SlotInv.of_zsets hP (by rfl) (by rfl) key
    | expire key' ttl => exact SlotInv.of_zsets hP (by rfl) (by rfl) key
    | utcNow => exact hP key
    | get key' => exact hP key
    | keyExists key' => exact hP key
    | timeToLive key' => exact hP key

end Step

/-! ### Runs -/

/-- Before any call there is no deadline. -/
theorem slotInv_empty (maxLimit now : ℤ) (key : String) :
    SlotInv maxLimit (Db.empty now) (fun _ => none) key := by
  refine ⟨fun id d hd => ?_, fun id d t hd => ?_, Nat.zero_le _⟩
  · cases hd
  · cases hd

/-- The methods count from a clock reading that the clock has reached. -/
theorem SlotCall.guarded (maxLimit : ℤ) (c : SlotCall) (t : ℤ) :
    (c.program maxLimit).Guarded (GoodSlotRequest maxLimit) RedisOp.HonestClock t := by
  cases c with
  | reserve c i id key =>
      intro t₁ _
      refine ⟨trivial, fun r hr => ?_⟩
      cases r with
      | error e => trivial
      | ok n =>
          intro t₂ ht₂
          refine ⟨⟨rfl, le_trans hr ht₂, rfl⟩, fun r _ => ?_⟩
          cases r <;> trivial
  | extend c i id key ttl withData =>
      intro t₁ _
      refine ⟨trivial, fun r hr => ?_⟩
      cases r with
      | error e => trivial
      | ok n =>
          intro t₂ ht₂
          have hn : (show ℤ from n) ≤ t₂ := le_trans hr ht₂
          refine ⟨add_le_add_left hn _, fun r _ => ?_⟩
          cases r <;> trivial
  | remove c i id key =>
      intro t₁ _
      refine ⟨trivial, fun r _ => ?_⟩
      cases r <;> trivial

/-- The condition on a step: its request keeps the slots. -/
def slotGuard (maxLimit : ℤ) :
    (slotHistory maxLimit).Pool → Service.Move (slotHistory maxLimit) → Prop :=
  Service.Admits (fun _ (f : Fault) o (s : Db Unit ℤ × Deadlines) => KeepsSlots f o s.1)
    fun _ _ => True

instance (maxLimit : ℤ) (w : (slotHistory maxLimit).Pool)
    (m : Service.Move (slotHistory maxLimit)) : Decidable (slotGuard maxLimit w m) :=
  Service.Admits.decidable (S := slotHistory maxLimit) (ψ := fun _ _ => True)
    (fun _ f o s => decidableKeepsSlots f o s.1) (fun _ _ => .isTrue trivial) w m

/-- **The slot limit.** In every run whose requests keep the slots, every list of every
team keeps within the limit. -/
theorem withinLimit_of_keepsSlots (maxLimit now : ℤ) (w : (slotHistory maxLimit).Pool)
    (h : Service.Reaches (slotGuard maxLimit)
      ((slotHistory maxLimit).start (Db.empty now, fun _ _ => none)) w)
    (contestId teamId : ℤ) :
    WithinLimit maxLimit w.shared.1 (w.shared.2 (getZSetKKey contestId teamId))
      (getZSetKKey contestId teamId) := by
  have hinv : ∀ key, SlotInv maxLimit w.shared.1 (w.shared.2 key) key := by
    refine h.guarded_invariant (P := fun s => ∀ key, SlotInv maxLimit s.1 (s.2 key) key)
      (T := ℤ) (τ := fun s => s.1.clock)
      (φ := fun _ => GoodSlotRequest maxLimit) (ρ := RedisOp.HonestClock) ?_ ?_ ?_ ?_ ?_ ?_ ?_
    · exact slotInv_empty maxLimit now
    · exact SlotCall.guarded maxLimit
    · exact fun f o s => RedisOp.honestClock_execFaulty f o s.1
    · exact fun f o s => le_of_eq (RedisOp.clock_execFaulty f o s.1).symm
    · exact fun d s => s.1.clock_le_tick d
    · exact fun w pid f c o k hP hp hg hgood => slotInv_step hP hgood (hg.of_pending hp)
    · exact fun w d hP _ key => (hP key).tick d
  exact (hinv _).withinLimit

/-- A call that arrives as the `pid`-th and performs its two requests at once. -/
def slotCallNow (pid : ℕ) (c : SlotCall) : List (slotHistory 2).Move :=
  Service.callNow pid c Fault.none 2

/-- Two challenges are reserved and the first is extended: each step keeps the slots. -/
theorem withinLimit_example :
    ∃ w, Service.runIf (slotGuard 2)
        ((slotHistory 2).start (Db.empty 1000, fun _ _ => none))
        (slotCallNow 0 (.reserve 1 1 1 "a") ++ slotCallNow 1 (.reserve 1 1 2 "b") ++
          slotCallNow 2 (.extend 1 1 1 "a" 7200 true)) = some w ∧
      WithinLimit 2 w.shared.1 (w.shared.2 (getZSetKKey 1 1)) (getZSetKKey 1 1) := by
  obtain ⟨w, hw⟩ := Option.isSome_iff_exists.mp (by decide +kernel :
    (Service.runIf (slotGuard 2) ((slotHistory 2).start (Db.empty 1000, fun _ _ => none))
      (slotCallNow 0 (.reserve 1 1 1 "a") ++ slotCallNow 1 (.reserve 1 1 2 "b") ++
        slotCallNow 2 (.extend 1 1 1 "a" 7200 true))).isSome = true)
  exact ⟨w, hw, withinLimit_of_keepsSlots 2 1000 w (Service.reaches_of_runIf hw) 1 1⟩

/-- Is the challenge's deadline in the future? -/
def hasTime (db : Db Unit ℤ) (D : ℤ → Option ℤ) (id : ℤ) : Bool :=
  (D id).any fun d => decide (db.clock < d)

theorem exists_of_hasTime {db : Db Unit ℤ} {D : ℤ → Option ℤ} {id : ℤ}
    (h : hasTime db D id = true) : ∃ d, D id = some d ∧ db.clock < d := by
  cases hd : D id with
  | none => simp [hasTime, hd] at h
  | some d => exact ⟨d, rfl, by simpa [hasTime, hd] using h⟩

/-- **The list can die early.** Challenge 1 is extended for two hours, the reservation of
challenge 2 cuts the list's life to half an hour, and after it two more challenges are
reserved beside challenge 1, under a limit of two. -/
theorem not_withinLimit :
    ∃ w, Service.Reaches Service.anyMove
        ((slotHistory 2).start (Db.empty 1000, fun _ _ => none)) w ∧
      ¬WithinLimit 2 w.shared.1 (w.shared.2 (getZSetKKey 1 1)) (getZSetKKey 1 1) := by
  have hrun : (Service.run ((slotHistory 2).start (Db.empty 1000, fun _ _ => none))
      (slotCallNow 0 (.reserve 1 1 1 "a") ++ slotCallNow 1 (.extend 1 1 1 "a" 7200 true) ++
        slotCallNow 2 (.reserve 1 1 2 "b") ++ [.ambient (show ℕ from 1801)] ++
        slotCallNow 3 (.reserve 1 1 3 "c") ++ slotCallNow 4 (.reserve 1 1 4 "d"))).any
      (fun w => [1, 3, 4].all (hasTime w.shared.1 (w.shared.2 (getZSetKKey 1 1)))) = true := by
    decide +kernel
  obtain ⟨w, hw, hall⟩ := (Option.any_eq_true _ _).mp hrun
  refine ⟨w, Service.reaches_of_run hw, fun hlim => ?_⟩
  have hcard : ({1, 3, 4} : Finset ℤ).card ≤ (2 : ℤ).toNat := by
    refine hlim.1 {1, 3, 4} fun id hid => exists_of_hasTime ?_
    refine List.all_eq_true.mp hall id ?_
    simpa using hid
  exact absurd hcard (by decide)

end Fctf
