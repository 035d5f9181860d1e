import Fctf.Platform

/-!
# Live Deployments Hold Slots

The entry of a deployment and its slot in the team's list are written together by a
reservation, but afterwards five services refresh, overwrite and remove them apart. This
module says when an entry that is there has a slot whose deadline is in the future, for
the deployments of one team in one contest, over every run of the whole platform.

Three things break it: a plain write of the entry that outlives the slot, a script that
counts its deadline from a stale clock reading, and a script that cuts the life of the
team's list below the life of another entry.

## Main results

* `liveSlot_step`: what one Redis request preserves.
* `guarded_program`: the arguments every program of the platform passes.
* `liveSlot_of_keepsLive`: entries have slots, in every run whose steps keep them live.
* `not_liveSlot`: a start whose entry outlives its slot.
-/

open Concurrent RedisDb

namespace Fctf

section Team

variable (contestId teamId : ℤ)

/-! ### The property -/

/-- The slot's deadline is in the future. -/
def slotLive (db : Db ChallengeDeploymentCacheDTO ℤ) (contestChallengeId : ℤ) : Bool :=
  (db.zscore (getZSetKKey contestId teamId) contestChallengeId).any fun s =>
    decide (db.clock < s)

/-- The entry is there. -/
def entryLive (db : Db ChallengeDeploymentCacheDTO ℤ) (contestChallengeId : ℤ) : Bool :=
  (db.lookup (getCacheKey contestId contestChallengeId teamId)).isSome

/-- Every live deployment holds a slot, and there are no more of them than slots. -/
structure HoldsSlots (maxLimit : ℤ) (db : Db ChallengeDeploymentCacheDTO ℤ) : Prop where
  /-- Entries have slots. -/
  slot : ∀ cc, entryLive contestId teamId db cc = true → slotLive contestId teamId db cc = true
  /-- There are no more entries than allowed. -/
  limit : ∀ ids : Finset ℤ, (∀ cc ∈ ids, entryLive contestId teamId db cc = true) →
    ids.card ≤ maxLimit.toNat

/-- The history: the workflows submitted for a start of this team whose slot was gone. -/
def noteOrphan (e : DeployEnv) (o : DeployOp) (w : World)
    (orphans : List ChallengeStartStopReqDTO) : List ChallengeStartStopReqDTO :=
  match o with
  | .submitWorkflow _ req =>
      if e.fault ≠ .before ∧ req.contestId = contestId ∧ req.teamId = teamId ∧
          slotLive contestId teamId w.redis req.contestChallengeId = false then
        req :: orphans
      else orphans
  | _ => orphans

/-! ### The condition on steps -/

/-- The entry at a key is gone by `t`. -/
def entryEndsBy (db : Db ChallengeDeploymentCacheDTO ℤ) (key : String) (t : ℤ) : Bool :=
  match db.lookup key with
  | none => true
  | some e => e.expireAt.any fun x => decide (x ≤ t)

/-- The entries of the team's other challenges in the list are gone by `t`. -/
def OthersGoneBy (db : Db ChallengeDeploymentCacheDTO ℤ) (id t : ℤ) : Prop :=
  ∀ cc ∈ (db.zset (getZSetKKey contestId teamId)).members, cc ≠ id →
    entryEndsBy db (getCacheKey contestId cc teamId) t = true

/-- The slot of a challenge, and the list with it, last until `t`. -/
def slotLasts (db : Db ChallengeDeploymentCacheDTO ℤ) (id t : ℤ) : Bool :=
  (db.zscore (getZSetKKey contestId teamId) id).any (fun s => decide (t ≤ s)) &&
    (db.zexpireAt (getZSetKKey contestId teamId)).all fun z => decide (t ≤ z)

/-- A step keeps the team's live deployments in their slots. -/
def KeepsLive (call : DeployCall) (e : DeployEnv) (o : DeployOp)
    (db : Db ChallengeDeploymentCacheDTO ℤ) : Prop :=
  e.fault ≠ .before →
    match call, o with
    | _, .redis (.reserve zk _ id l _ _ now _) =>
        zk = getZSetKKey contestId teamId → ReservePasses zk id l now db →
          now = db.clock ∧ OthersGoneBy contestId teamId db id (db.clock + 1800)
    | _, .redis (.updateExpiration zk _ id s ttl _ _) =>
        zk = getZSetKKey contestId teamId → (db.zscore zk id).isSome = true →
          0 < ttl ∧ s = db.clock + ttl ∧
            OthersGoneBy contestId teamId db id (db.clock + (ttl + 3600))
    | .start req, .redis (.set _ _ ttl) =>
        req.contestId = contestId → req.teamId = teamId → 0 < ttl →
          slotLasts contestId teamId db req.contestChallengeId (db.clock + ttl) = true
    | _, .submitWorkflow _ req =>
        req.contestId = contestId → req.teamId = teamId →
          entryLive contestId teamId db req.contestChallengeId = true
    | _, _ => True

/-! ### The invariant -/

/-- The invariant: an entry goes no later than its slot and the list. -/
structure LiveSlotInv (maxLimit : ℤ) (db : Db ChallengeDeploymentCacheDTO ℤ) : Prop where
  /-- Entries have slots that last as long. -/
  slot : ∀ cc e, db.lookup (getCacheKey contestId cc teamId) = some e → ∃ x s,
    e.expireAt = some x ∧ db.zscore (getZSetKKey contestId teamId) cc = some s ∧ x ≤ s ∧
      ∀ z, db.zexpireAt (getZSetKKey contestId teamId) = some z → x ≤ z
  /-- There is no slot too many. -/
  card : db.zcard (getZSetKKey contestId teamId) ≤ maxLimit.toNat

end Team

section Step

variable {contestId teamId maxLimit : ℤ} {db db' : Db ChallengeDeploymentCacheDTO ℤ}

/-- The invariant is enough for one entry. -/
theorem LiveSlotInv.slotLive (h : LiveSlotInv contestId teamId maxLimit db) {cc : ℤ}
    (hlive : entryLive contestId teamId db cc = true) :
    slotLive contestId teamId db cc = true := by
  obtain ⟨e, he⟩ := Option.isSome_iff_exists.mp hlive
  obtain ⟨x, s, hx, hs, hxs, -⟩ := h.slot cc e he
  have hclock := db.clock_lt_of_lookup he hx
  rw [Fctf.slotLive, hs, Option.any_some, decide_eq_true_eq]
  omega

/-- The invariant is enough. -/
theorem LiveSlotInv.holdsSlots (h : LiveSlotInv contestId teamId maxLimit db) :
    HoldsSlots contestId teamId maxLimit db := by
  refine ⟨fun cc hlive => h.slotLive hlive, fun ids hids => ?_⟩
  refine (db.card_le_zcard fun cc hcc => ?_).trans h.card
  obtain ⟨e, he⟩ := Option.isSome_iff_exists.mp (hids cc hcc)
  obtain ⟨-, s, -, hs, -, -⟩ := h.slot cc e he
  exact ⟨s, hs⟩

/-- Steps that leave the list and add no entry of the team keep the invariant. -/
theorem LiveSlotInv.frame (h : LiveSlotInv contestId teamId maxLimit db)
    (hzset : db'.zset (getZSetKKey contestId teamId) = db.zset (getZSetKKey contestId teamId))
    (hexp : db'.zexpireAt (getZSetKKey contestId teamId) =
      db.zexpireAt (getZSetKKey contestId teamId))
    (hlookup : ∀ cc e, db'.lookup (getCacheKey contestId cc teamId) = some e →
      db.lookup (getCacheKey contestId cc teamId) = some e) :
    LiveSlotInv contestId teamId maxLimit db' := by
  refine ⟨fun cc e he => ?_, ?_⟩
  · rw [Db.zscore_congr hzset, hexp]
    exact h.slot cc e (hlookup cc e he)
  · rw [Db.zcard, hzset]
    exact h.card

/-- The clean-up before a reservation takes no slot of a live entry. -/
theorem LiveSlotInv.zremrangebyscore (h : LiveSlotInv contestId teamId maxLimit db) {now : ℤ}
    (hnow : now ≤ db.clock) :
    LiveSlotInv contestId teamId maxLimit
      (db.zremrangebyscore (getZSetKKey contestId teamId) now) := by
  refine ⟨fun cc e he => ?_, (Db.zcard_zremrangebyscore_le _ _ _).trans h.card⟩
  obtain ⟨x, s, hx, hs, hxs, hz⟩ := h.slot cc e he
  have hclock := db.clock_lt_of_lookup he hx
  exact ⟨x, s, hx, Db.zscore_zremrangebyscore _ |>.mpr ⟨hs, by omega⟩, hxs,
    fun z hz' => hz z (Db.zexpireAt_of_restoreZset _ hz')⟩

/-- A live entry of another challenge is gone by the time the condition gives. -/
theorem OthersGoneBy.le {id t cc x : ℤ} {e : Slot ChallengeDeploymentCacheDTO}
    (h : OthersGoneBy contestId teamId db id t) (hinv : LiveSlotInv contestId teamId maxLimit db)
    (hcc : cc ≠ id) (he : db.lookup (getCacheKey contestId cc teamId) = some e)
    (hx : e.expireAt = some x) : x ≤ t := by
  obtain ⟨-, s, -, hs, -, -⟩ := hinv.slot cc e he
  have hmem : cc ∈ (db.zset (getZSetKKey contestId teamId)).members :=
    db.mem_zset_iff.mpr ⟨s, hs⟩
  simpa [entryEndsBy, he, hx] using h cc hmem hcc

/-- Keys of different challenges of the team differ. -/
theorem cacheKey_ne {cc id : ℤ} (h : cc ≠ id) :
    getCacheKey contestId cc teamId ≠ getCacheKey contestId id teamId :=
  fun hk => h (getCacheKey_inj hk).2.1

/-- Keys of another team's list and of its entries are none of the team's. -/
theorem cacheKey_ne_of_zsetKey {c t cc id : ℤ}
    (h : getZSetKKey c t ≠ getZSetKKey contestId teamId) :
    getCacheKey contestId cc teamId ≠ getCacheKey c id t := by
  intro hk
  obtain ⟨rfl, -, rfl⟩ := getCacheKey_inj hk
  exact h rfl

/-- A reservation that finds room, at the current time. -/
theorem LiveSlotInv.reserved {id ttl : ℤ} {v : ChallengeDeploymentCacheDTO}
    (h : LiveSlotInv contestId teamId maxLimit db)
    (hr : Reserved (getZSetKKey contestId teamId) (getCacheKey contestId id teamId) id v
      (db.clock + ttl) ttl db db')
    (hroom : (db.zcard (getZSetKKey contestId teamId) : ℤ) < maxLimit) (httl : ttl ≤ 1800)
    (hothers : OthersGoneBy contestId teamId db id (db.clock + 1800)) :
    LiveSlotInv contestId teamId maxLimit db' := by
  refine ⟨fun cc e he => ?_, ?_⟩
  · by_cases hcc : cc = id
    · subst hcc
      obtain rfl := Option.some.inj (hr.lookup.symm.trans he)
      refine ⟨db.clock + ttl, db.clock + ttl, rfl, ?_, le_refl _, fun z hz => ?_⟩
      · rw [hr.zscore, if_pos rfl]
      · have := hr.zexpireAt z hz
        omega
    · rw [hr.lookup_of_ne _ (cacheKey_ne hcc)] at he
      obtain ⟨x, s, hx, hs, hxs, -⟩ := h.slot cc e he
      refine ⟨x, s, hx, ?_, hxs, fun z hz => ?_⟩
      · rw [hr.zscore, if_neg hcc, hs]
      · rw [hr.zexpireAt z hz]
        exact hothers.le h hcc he hx
  · have := hr.zcard
    omega

/-- An extension at the current time. -/
theorem LiveSlotInv.extended {id ttl : ℤ} {v : Option ChallengeDeploymentCacheDTO}
    (h : LiveSlotInv contestId teamId maxLimit db)
    (hx : Extended (getZSetKKey contestId teamId) (getCacheKey contestId id teamId) id
      (db.clock + ttl) ttl v db db') (httl : 0 < ttl)
    (hothers : OthersGoneBy contestId teamId db id (db.clock + (ttl + 3600))) :
    LiveSlotInv contestId teamId maxLimit db' := by
  refine ⟨fun cc e he => ?_, hx.zcard.trans h.card⟩
  rw [hx.zscore (by omega)]
  by_cases hcc : cc = id
  · subst hcc
    obtain ⟨-, hexp, -⟩ := hx.lookup e he
    refine ⟨db.clock + ttl, db.clock + ttl, hexp, if_pos rfl, le_refl _, fun z hz => ?_⟩
    have := hx.zexpireAt z hz
    omega
  · rw [hx.lookup_of_ne _ (cacheKey_ne hcc)] at he
    obtain ⟨x, s, hx', hs, hxs, -⟩ := h.slot cc e he
    refine ⟨x, s, hx', by rw [if_neg hcc, hs], hxs, fun z hz => ?_⟩
    rw [hx.zexpireAt z hz]
    exact hothers.le h hcc he hx'

/-- A removal of an entry with its slot. -/
theorem LiveSlotInv.removed (h : LiveSlotInv contestId teamId maxLimit db) (id : ℤ) :
    LiveSlotInv contestId teamId maxLimit
      ((db.del (getCacheKey contestId id teamId)).zrem (getZSetKKey contestId teamId) id) := by
  refine ⟨fun cc e he => ?_, (Db.zcard_zrem_le _ _ _).trans h.card⟩
  have he' : (db.del (getCacheKey contestId id teamId)).lookup
      (getCacheKey contestId cc teamId) = some e := he
  by_cases hcc : cc = id
  · subst hcc
    rw [Db.lookup_del_same] at he'
    cases he'
  · rw [Db.lookup_del_of_ne _ (cacheKey_ne hcc)] at he'
    obtain ⟨x, s, hx, hs, hxs, hz⟩ := h.slot cc e he'
    refine ⟨x, s, hx, ?_, hxs, fun z hz' => hz z (Db.zexpireAt_of_restoreZset _ hz')⟩
    rw [Db.zscore_zrem, if_neg hcc]
    exact hs

/-- A plain write of an entry whose slot lasts as long. -/
theorem LiveSlotInv.set {id ttl : ℤ} {v : ChallengeDeploymentCacheDTO}
    (h : LiveSlotInv contestId teamId maxLimit db)
    (hs : db.setex (getCacheKey contestId id teamId) ttl v = some db')
    (hlasts : slotLasts contestId teamId db id (db.clock + ttl) = true) :
    LiveSlotInv contestId teamId maxLimit db' := by
  have hsame := db.lookup_setex_same hs
  have hne := fun cc (hcc : cc ≠ id) => db.lookup_setex_of_ne (cacheKey_ne hcc) hs
  obtain ⟨-, rfl⟩ := db.setex_eq_some_iff.mp hs
  refine ⟨fun cc e he => ?_, h.card⟩
  by_cases hcc : cc = id
  · subst hcc
    obtain rfl := Option.some.inj (hsame.symm.trans he)
    obtain ⟨hscore, hexp⟩ := Bool.and_eq_true_iff.mp hlasts
    obtain ⟨s, hs', hle⟩ := (Option.any_eq_true _ _).mp hscore
    refine ⟨db.clock + ttl, s, rfl, hs', of_decide_eq_true hle, fun z hz => ?_⟩
    have hz' : db.zexpireAt (getZSetKKey contestId teamId) = some z := hz
    rw [hz'] at hexp
    simpa using hexp
  · rw [hne cc hcc] at he
    exact h.slot cc e he

/-- The passage of time. -/
theorem LiveSlotInv.tick (h : LiveSlotInv contestId teamId maxLimit db) (d : ℕ) :
    LiveSlotInv contestId teamId maxLimit (db.tick d) := by
  refine ⟨fun cc e he => ?_, (db.zcard_tick_le _ _).trans h.card⟩
  obtain ⟨x, s, hx, hs, hxs, hz⟩ := h.slot cc e (db.lookup_of_tick he)
  have hclock := (db.tick d).clock_lt_of_lookup he hx
  refine ⟨x, s, hx, ?_, hxs, fun z hz' => hz z (db.zexpireAt_of_tick hz')⟩
  rw [Db.zscore_congr (db.zset_tick_of_lt fun t ht => lt_of_lt_of_le hclock (hz t ht))]
  exact hs

/-! ### What one operation preserves -/

/-- The arguments of a call's operations at time `now`: a request about a list and an entry
is about one challenge of one team, its score is counted from a clock reading, and a
plain write of an entry comes from a start of that challenge. -/
def SlotArgs (maxLimit : ℤ) (call : DeployCall) (now : ℤ) : DeployOp → Prop
  | .redis (.reserve zk dk id l _ s now' ttl) =>
      (∃ c t, zk = getZSetKKey c t ∧ dk = getCacheKey c id t) ∧ l = maxLimit ∧ now' ≤ now ∧
        s = now' + ttl ∧ ttl = 300
  | .redis (.updateExpiration zk dk id _ _ _ t) =>
      ∃ c, zk = getZSetKKey c t ∧ dk = getCacheKey c id t
  | .redis (.remove zk dk id) => ∃ c t, zk = getZSetKKey c t ∧ dk = getCacheKey c id t
  | .redis (.set key _ _) => ∃ req, call = .start req ∧ key = req.key
  | .redis (.checkAndIncrement _ _ _ _ _) => False
  | _ => True

/-- A reservation request. -/
theorem liveSlot_reserve {zk dk : String} {id l s now ttl : ℤ}
    {v : ChallengeDeploymentCacheDTO} (h : LiveSlotInv contestId teamId maxLimit db)
    (hargs : (∃ c t, zk = getZSetKKey c t ∧ dk = getCacheKey c id t) ∧ l = maxLimit ∧
      now ≤ db.clock ∧ s = now + ttl ∧ ttl = 300)
    (hkeep : zk = getZSetKKey contestId teamId → ReservePasses zk id l now db →
      now = db.clock ∧ OthersGoneBy contestId teamId db id (db.clock + 1800)) :
    LiveSlotInv contestId teamId maxLimit (reserveScript zk dk id l v s now ttl db).2 := by
  obtain ⟨⟨c, t, rfl, rfl⟩, rfl, hnow, rfl, rfl⟩ := hargs
  by_cases hk : getZSetKKey c t = getZSetKKey contestId teamId
  · obtain ⟨rfl, rfl⟩ := getZSetKKey_inj hk
    have hclean := h.zremrangebyscore hnow
    obtain ⟨-, -, h₂⟩ | ⟨-, -, h₂⟩ | ⟨hpass, db', hc, h₂⟩ :=
      reserveScript_cases (getZSetKKey c t) (getCacheKey c id t) id l (now + 300) now 300 v db
    · rw [h₂]
      exact hclean
    · rw [h₂]
      exact hclean
    · obtain ⟨rfl, hothers⟩ := hkeep rfl hpass
      rw [h₂]
      refine hclean.reserved (createReservation_spec hc) hpass.2 (by omega)
        fun cc hcc hne => hothers cc ?_ hne
      obtain ⟨s, hs⟩ := Db.mem_zset_iff _ |>.mp hcc
      exact db.mem_zset_iff.mpr ⟨s, ((Db.zscore_zremrangebyscore _).mp hs).1⟩
  · have hother : ∀ cc, getCacheKey contestId cc teamId ≠ getCacheKey c id t :=
      fun cc => cacheKey_ne_of_zsetKey hk
    have hz := Db.zset_zremrangebyscore_of_ne db now (Ne.symm hk)
    have he := Db.zexpireAt_zremrangebyscore_of_ne db now (Ne.symm hk)
    obtain ⟨-, -, h₂⟩ | ⟨-, -, h₂⟩ | ⟨-, db', hc, h₂⟩ :=
      reserveScript_cases (getZSetKKey c t) (getCacheKey c id t) id l (now + 300) now 300 v db
    · rw [h₂]
      exact h.frame hz he fun _ _ he => he
    · rw [h₂]
      exact h.frame hz he fun _ _ he => he
    · have hr := createReservation_spec hc
      rw [h₂]
      refine h.frame ((hr.zset_of_ne _ (Ne.symm hk)).trans hz)
        ((hr.zexpireAt_of_ne _ (Ne.symm hk)).trans he) fun cc e he' => ?_
      rw [hr.lookup_of_ne _ (hother cc)] at he'
      exact he'

/-- An extension request. -/
theorem liveSlot_extend {zk dk : String} {id s ttl t : ℤ}
    {v : Option ChallengeDeploymentCacheDTO} (hteam : 0 < teamId)
    (h : LiveSlotInv contestId teamId maxLimit db)
    (hargs : ∃ c, zk = getZSetKKey c t ∧ dk = getCacheKey c id t)
    (hkeep : zk = getZSetKKey contestId teamId → (db.zscore zk id).isSome = true →
      0 < ttl ∧ s = db.clock + ttl ∧
        OthersGoneBy contestId teamId db id (db.clock + (ttl + 3600))) :
    LiveSlotInv contestId teamId maxLimit
      (updateExpirationScript zk dk id s ttl v t db).2 := by
  obtain ⟨c, rfl, rfl⟩ := hargs
  by_cases hk : getZSetKKey c t = getZSetKKey contestId teamId
  · obtain ⟨rfl, rfl⟩ := getZSetKKey_inj hk
    obtain ⟨h₂, -⟩ | ⟨ht, -⟩ | ⟨-, ⟨s₀, hs₀⟩, httl, -⟩ | ⟨-, ⟨s₀, hs₀⟩, db', hx, h₂⟩ :=
      updateExpirationScript_cases (getZSetKKey c t) (getCacheKey c id t) id s ttl v t db
    · rw [h₂]
      exact h
    · omega
    · have := (hkeep rfl (by rw [hs₀, Option.isSome_some])).1
      omega
    · obtain ⟨hpos, rfl, hothers⟩ := hkeep rfl (by rw [hs₀, Option.isSome_some])
      rw [h₂]
      exact h.extended hx hpos hothers
  · have hother : ∀ cc, getCacheKey contestId cc teamId ≠ getCacheKey c id t :=
      fun cc => cacheKey_ne_of_zsetKey hk
    obtain ⟨h₂, -⟩ | ⟨-, db', hr, h₂⟩ | ⟨-, -, -, h₂⟩ | ⟨-, -, db', hx, h₂⟩ :=
      updateExpirationScript_cases (getZSetKKey c t) (getCacheKey c id t) id s ttl v t db
    · rw [h₂]
      exact h
    · rw [h₂]
      refine h.frame ?_ ?_ fun cc e he => ?_
      · rw [Db.zset, Db.zset, hr.zsets, hr.clock]
      · rw [Db.zexpireAt, Db.zexpireAt, hr.zsets, hr.clock]
      · rw [hr.lookup_of_ne _ (hother cc)] at he
        exact he
    · rw [h₂]
      exact h.frame (Db.zset_zadd_of_ne _ _ _ (Ne.symm hk))
        (Db.zexpireAt_zadd_of_ne _ _ _ (Ne.symm hk)) fun _ _ he => he
    · rw [h₂]
      refine h.frame (hx.zset_of_ne _ (Ne.symm hk)) (hx.zexpireAt_of_ne _ (Ne.symm hk))
        fun cc e he => ?_
      rw [hx.lookup_of_ne _ (hother cc)] at he
      exact he

/-- Removing an entry alone. -/
theorem LiveSlotInv.del (h : LiveSlotInv contestId teamId maxLimit db) (key : String) :
    LiveSlotInv contestId teamId maxLimit (db.del key) := by
  refine h.frame rfl rfl fun cc e he => ?_
  by_cases hk : getCacheKey contestId cc teamId = key
  · rw [hk, Db.lookup_del_same] at he
    cases he
  · rwa [Db.lookup_del_of_ne _ hk] at he

/-- A removal request. -/
theorem liveSlot_remove {zk dk : String} {id : ℤ}
    (h : LiveSlotInv contestId teamId maxLimit db)
    (hargs : ∃ c t, zk = getZSetKKey c t ∧ dk = getCacheKey c id t) :
    LiveSlotInv contestId teamId maxLimit (removeScript zk dk id db).2 := by
  obtain ⟨c, t, rfl, rfl⟩ := hargs
  by_cases hk : getZSetKKey c t = getZSetKKey contestId teamId
  · obtain ⟨rfl, rfl⟩ := getZSetKKey_inj hk
    exact h.removed id
  · exact (h.del (getCacheKey c id t)).frame (Db.zset_zrem_of_ne _ _ (Ne.symm hk))
      (Db.zexpireAt_zrem_of_ne _ _ (Ne.symm hk)) fun _ _ he => he

/-- A plain write by a start. -/
theorem liveSlot_set {req : ChallengeStartStopReqDTO} {v : ChallengeDeploymentCacheDTO}
    {ttl : ℤ} (h : LiveSlotInv contestId teamId maxLimit db)
    (hs : db.setex req.key ttl v = some db')
    (hkeep : req.contestId = contestId → req.teamId = teamId → 0 < ttl →
      slotLasts contestId teamId db req.contestChallengeId (db.clock + ttl) = true) :
    LiveSlotInv contestId teamId maxLimit db' := by
  by_cases hreq : req.contestId = contestId ∧ req.teamId = teamId
  · obtain ⟨rfl, rfl⟩ := hreq
    exact h.set hs (hkeep rfl rfl (db.setex_eq_some_iff.mp hs).1)
  · have hne : ∀ cc, getCacheKey contestId cc teamId ≠ req.key := by
      intro cc hk
      obtain ⟨hc, -, ht⟩ := getCacheKey_inj hk
      exact hreq ⟨hc.symm, ht.symm⟩
    have hlookup := fun cc => db.lookup_setex_of_ne (hne cc) hs
    obtain ⟨-, rfl⟩ := db.setex_eq_some_iff.mp hs
    refine h.frame rfl rfl fun cc e he => ?_
    rwa [hlookup cc] at he

/-- **What one operation preserves.** -/
theorem liveSlot_step {call : DeployCall} {e : DeployEnv} {o : DeployOp} {w : World}
    (hteam : 0 < teamId) (h : LiveSlotInv contestId teamId maxLimit w.redis)
    (hargs : SlotArgs maxLimit call w.redis.clock o)
    (hkeep : KeepsLive contestId teamId call e o w.redis) :
    LiveSlotInv contestId teamId maxLimit (o.exec e w).2.redis := by
  rw [DeployOp.exec_redis]
  cases o with
  | redis o =>
      by_cases hf : e.fault = .before
      · dsimp only
        rw [hf, RedisOp.execFaulty_before]
        exact h
      · have hkeep := hkeep hf
        dsimp only
        rw [RedisOp.execFaulty_of_ne hf]
        cases o with
        | reserve zk dk id l v s now ttl =>
            exact liveSlot_reserve h hargs (by cases call <;> exact hkeep)
        | updateExpiration zk dk id s ttl v t =>
            exact liveSlot_extend hteam h hargs (by cases call <;> exact hkeep)
        | remove zk dk id => exact liveSlot_remove h hargs
        | set key v ttl =>
            obtain ⟨req, rfl, rfl⟩ := hargs
            simp only [RedisOp.exec]
            split
            · exact h
            · next db' hs => exact liveSlot_set h hs hkeep
        | del key => exact h.del key
        | checkAndIncrement key m th n ttl => exact absurd hargs id
        | checkCooldown key now cooldown ttl =>
            rw [RedisOp.exec, cooldownScript_rest]
            exact h.frame rfl rfl fun _ _ he => he
        | incr key => exact h.frame rfl rfl fun _ _ he => he
        | expire key ttl => exact h.frame rfl rfl fun _ _ he => he
        | utcNow => exact h
        | get key => exact h
        | keyExists key => exact h
        | timeToLive key => exact h
  | _ => exact h

end Step

/-! ### The programs -/

section Programs

variable {maxLimit : ℤ} {call : DeployCall} {α : Type} {t : ℤ}

/-- The program passes such arguments only. -/
abbrev PassesSlotArgs (maxLimit : ℤ) (call : DeployCall) (t : ℤ) (p : Prog deployI Exn α) :
    Prop :=
  p.Guarded (SlotArgs maxLimit call) DeployOp.HonestClock t

theorem passes_issue {o : DeployOp} (h : ∀ t, SlotArgs maxLimit call t o) :
    PassesSlotArgs maxLimit call t (issue o) :=
  fun u _ => ⟨h u, fun _ _ => trivial⟩

theorem passes_utcNow : PassesSlotArgs maxLimit call t utcNow :=
  passes_issue fun _ => trivial

theorem passes_get (key : String) :
    PassesSlotArgs maxLimit call t (getFromCacheAsync key) :=
  .handle (passes_issue fun _ => trivial) fun _ _ _ => trivial

theorem passes_removeCache (key : String) :
    PassesSlotArgs maxLimit call t (removeCacheAsync key) :=
  .handle (passes_issue fun _ => trivial) fun _ _ _ => trivial

theorem passes_extend (teamId contestId id ttl : ℤ) (v : Option ChallengeDeploymentCacheDTO) :
    PassesSlotArgs maxLimit call t
      (atomicUpdateExpiration teamId (getCacheKey contestId id teamId) id ttl v contestId) := by
  refine .bind passes_utcNow fun now t _ => .handle (.bind ?_ fun _ _ _ => trivial) ?_
  · exact passes_issue fun _ => ⟨contestId, rfl, rfl⟩
  · exact fun _ _ _ => trivial

theorem passes_remove (teamId contestId id : ℤ) :
    PassesSlotArgs maxLimit call t
      (atomicRemoveDeploymentZSet teamId (getCacheKey contestId id teamId) id contestId) := by
  refine .handle (.bind ?_ fun _ _ _ => trivial) fun _ _ _ => trivial
  exact passes_issue fun _ => ⟨contestId, teamId, rfl, rfl⟩

theorem passes_reserve (teamId contestId id : ℤ) (v : ChallengeDeploymentCacheDTO) :
    PassesSlotArgs maxLimit call t
      (atomicCheckAndCreateDeploymentZSet teamId (getCacheKey contestId id teamId) id maxLimit v
        300 contestId) := by
  intro t₁ _
  refine ⟨trivial, fun r hr => ?_⟩
  cases r with
  | error e => trivial
  | ok now =>
      intro t₂ ht₂
      exact ⟨⟨⟨contestId, teamId, rfl, rfl⟩, rfl, le_trans hr ht₂, rfl, rfl⟩,
        fun _ _ => trivial⟩

theorem passes_deleteNamespace (ns : String) :
    PassesSlotArgs maxLimit call t (deleteNamespace ns) :=
  .handle (.bind (passes_issue fun _ => trivial) fun _ _ _ => trivial) fun _ _ _ => trivial

theorem passes_startChecks (cfg : DeployConfig) (userId teamId contestId challengeId : ℤ) :
    PassesSlotArgs maxLimit call t
      (startChecks cfg userId teamId contestId challengeId) := by
  refine (throughout_startChecks _ _ _ _ _).guarded (fun t o ho => ?_) t
  cases o with
  | redis o => exact ho.elim
  | submitWorkflow appName req => exact ho.elim
  | _ => trivial

theorem passes_alreadyExists (key : String) :
    PassesSlotArgs maxLimit call t (alreadyExists key) := by
  refine .bind (passes_get key) fun cache _ _ => ?_
  split
  · trivial
  split
  · trivial
  · trivial
  · trivial
  · split
    · exact .bind passes_utcNow fun _ _ _ => trivial
    · trivial
  · trivial

theorem passes_challengeStart (cc : ContestsChallenge) (bank : Challenge)
    (userId teamId contestId : ℤ) :
    PassesSlotArgs maxLimit call t (challengeStart cc bank userId teamId contestId) := by
  refine .handle (.bind passes_utcNow fun _ _ _ => ?_) fun _ _ _ => trivial
  refine .bind (passes_issue fun _ => trivial) fun body _ _ => ?_
  cases body <;> trivial

theorem passes_startReserved (cc : ContestsChallenge) (bank : Challenge)
    (userId teamId contestId : ℤ) :
    PassesSlotArgs maxLimit call t (startReserved cc bank userId teamId contestId) := by
  refine .handle (.bind (passes_challengeStart _ _ _ _ _) fun response _ _ => ?_) fun _ _ _ => ?_
  · split
    · exact .bind (passes_remove _ _ _) fun _ _ _ => trivial
    · exact .bind (.handle (passes_issue fun _ => trivial) fun _ _ _ => trivial)
        fun _ _ _ => trivial
  · exact .bind (passes_remove _ _ _) fun _ _ _ => trivial

theorem passes_startChallenge (cfg : DeployConfig) (userId teamId contestId challengeId : ℤ) :
    PassesSlotArgs cfg.limitChallenges call t
      (startChallenge cfg userId teamId contestId challengeId) := by
  refine .bind (passes_startChecks _ _ _ _ _) fun checked _ _ => ?_
  split
  · trivial
  · refine .bind (passes_reserve _ _ _ _) fun result _ _ => ?_
    split
    · trivial
    · exact passes_alreadyExists _
    · exact passes_startReserved _ _ _ _ _
    · trivial

theorem passes_startCached (req : ChallengeStartStopReqDTO)
    (cache : ChallengeDeploymentCacheDTO) :
    PassesSlotArgs maxLimit call t (startCached req cache) := by
  rw [startCached]
  split
  · split
    · refine .bind (.handle (passes_issue fun _ => trivial) fun _ _ _ => trivial)
        fun _ _ _ => ?_
      split
      · trivial
      · exact .bind (passes_removeCache _) fun _ _ _ => trivial
    · trivial
  · split
    · trivial
    · split
      · exact .bind passes_utcNow fun _ _ _ => trivial
      · trivial
  · trivial
  · refine .bind (passes_removeCache _) fun _ _ _ => ?_
    exact .bind (passes_remove _ _ _) fun _ _ _ => trivial
  · trivial

theorem passes_queueStart (cfg : DeployConfig) (req : ChallengeStartStopReqDTO) :
    PassesSlotArgs maxLimit (.start req) t (queueStart cfg req) := by
  refine .handle (.bind (passes_issue fun _ => trivial) fun _ _ _ => ?_) fun _ _ _ => ?_
  · refine .bind (.handle (passes_issue fun _ => ?_) fun _ _ _ => trivial) fun _ _ _ => trivial
    exact ⟨req, rfl, rfl⟩
  · exact .bind (passes_removeCache _) fun _ _ _ => trivial

theorem passes_deployServiceStart (cfg : DeployConfig) (req : ChallengeStartStopReqDTO) :
    PassesSlotArgs maxLimit (.start req) t (deployServiceStart cfg req) := by
  refine .bind (passes_get _) fun cache _ _ => ?_
  split
  · exact passes_queueStart cfg req
  · refine .bind (passes_startCached _ _) fun answer _ _ => ?_
    split
    · trivial
    · exact passes_queueStart cfg req

theorem passes_deployServiceStop (req : ChallengeStartStopReqDTO) :
    PassesSlotArgs maxLimit call t (deployServiceStop req) := by
  refine .handle (.bind (passes_get _) fun info _ _ => ?_) fun _ _ _ => trivial
  split
  · trivial
  · refine .bind (passes_issue fun _ => trivial) fun user _ _ => ?_
    split
    · refine .bind (passes_deleteNamespace _) fun _ _ _ => ?_
      refine .bind (passes_remove _ _ _) fun _ _ _ => ?_
      exact .bind (passes_removeCache _) fun _ _ _ => trivial
    · refine .bind (passes_extend _ _ _ _ _) fun _ _ _ => ?_
      exact .bind (passes_deleteNamespace _) fun _ _ _ => trivial

theorem passes_decideDeadline (cc contestId teamId : ℤ) (podName : String)
    (timeLimit : Option ℤ) (timeFinished : ℤ) :
    PassesSlotArgs maxLimit call t
      (decideDeadline cc contestId teamId podName timeLimit timeFinished) := by
  refine .bind passes_utcNow fun _ _ _ => ?_
  split
  · trivial
  · refine .bind passes_utcNow fun _ _ _ => ?_
    split
    · exact .bind (passes_issue fun _ => trivial) fun _ _ _ => trivial
    · trivial

theorem passes_handleChallengeRunning (cfg : DeployConfig) (cc contestId teamId : ℤ)
    (podName : String) (cache : ChallengeDeploymentCacheDTO) :
    PassesSlotArgs maxLimit call t
      (handleChallengeRunning cfg cc contestId teamId podName cache) := by
  refine .handle (.bind (passes_issue fun _ => trivial) fun challenge _ _ => ?_)
    fun _ _ _ => trivial
  split
  · trivial
  · refine .bind (passes_decideDeadline _ _ _ _ _ _) fun _ _ _ => ?_
    refine .bind passes_utcNow fun _ _ _ => ?_
    exact .bind (passes_extend _ _ _ _ _) fun _ _ _ => trivial

theorem passes_statusCheck (cfg : DeployConfig) (req : ChallengCheckStatusReqDTO) :
    PassesSlotArgs maxLimit call t (statusCheck cfg req) := by
  refine .handle (.bind (passes_get _) fun cache _ _ => ?_) fun _ _ _ => trivial
  split
  · trivial
  · split
    · exact passes_handleChallengeRunning _ _ _ _ _ _
    · trivial

theorem passes_submitAndAck (appName : String) (mess : DequeuedMessage) :
    PassesSlotArgs maxLimit call t (submitAndAck appName mess) := by
  refine .bind (passes_issue fun _ => trivial) fun response _ _ => ?_
  split
  · trivial
  · trivial
  · trivial
  · refine .bind (passes_issue fun _ => trivial) fun _ _ _ => ?_
    split <;> trivial

theorem passes_processMessage (cfg : DeployConfig) (mess : DequeuedMessage) :
    PassesSlotArgs maxLimit call t (processMessage cfg mess) := by
  refine .bind (passes_get _) fun cache _ _ => .handle ?_ fun _ _ _ =>
    passes_issue fun _ => trivial
  cases cache with
  | none => trivial
  | some cache => ?_
  refine .bind (passes_issue fun _ => trivial) fun challenge _ _ => ?_
  split
  · trivial
  split
  · trivial
  refine .bind (.bind passes_utcNow fun _ _ _ => trivial) fun appName _ _ => ?_
  refine .bind (passes_submitAndAck _ _) fun _ _ _ => ?_
  exact .bind (passes_extend _ _ _ _ _) fun _ _ _ => trivial

theorem passes_workerProcess (cfg : DeployConfig) :
    PassesSlotArgs maxLimit call t (workerProcess cfg) := by
  refine .bind (passes_issue fun _ => trivial) fun running _ _ => ?_
  split
  · trivial
  · refine .bind (passes_issue fun _ => trivial) fun messages _ _ => ?_
    exact .forM fun mess _ _ => passes_processMessage cfg mess

theorem passes_cleanupGhostResources (ns : String) (n : DeploymentName)
    (status : DeploymentStatus) :
    PassesSlotArgs maxLimit call t (cleanupGhostResources ns n status) := by
  refine .bind (passes_deleteNamespace _) fun deleted _ _ => ?_
  cases deleted with
  | true => exact .bind (passes_remove _ _ _) fun _ _ _ => passes_issue fun _ => trivial
  | false => trivial

theorem passes_handleDeletion (n : DeploymentName)
    (cache : Option ChallengeDeploymentCacheDTO) (ns : String) :
    PassesSlotArgs maxLimit call t (handleDeletion n cache ns) := by
  refine .bind (passes_remove _ _ _) fun _ _ _ => ?_
  refine .bind (passes_issue fun _ => trivial) fun _ _ _ => ?_
  refine .handle (.bind (passes_issue fun _ => trivial) fun row _ _ => ?_) fun _ _ _ => trivial
  split
  · trivial
  · exact .bind passes_utcNow fun _ _ _ => passes_issue fun _ => trivial

theorem passes_handlePodRestart (uid : String) (n : DeploymentName)
    (cache : ChallengeDeploymentCacheDTO) :
    PassesSlotArgs maxLimit call t (handlePodRestart uid n cache) := by
  refine .bind passes_utcNow fun _ _ _ => ?_
  dsimp only
  split
  · exact .bind (passes_extend _ _ _ _ _) fun _ _ _ => trivial
  · trivial

theorem passes_handleRunningState (cfg : DeployConfig) (pod : V1Pod) (n : DeploymentName)
    (cache : ChallengeDeploymentCacheDTO) :
    PassesSlotArgs maxLimit call t (handleRunningState cfg pod n cache) := by
  rw [handleRunningState]
  split
  · split
    · trivial
    · refine .bind (passes_handleChallengeRunning _ _ _ _ _ _) fun _ _ _ => ?_
      exact passes_issue fun _ => trivial
  · trivial

theorem passes_processPodChange (cfg : DeployConfig) (pod : V1Pod) (eventType : WatchEventType) :
    PassesSlotArgs maxLimit call t (processPodChange cfg pod eventType) := by
  rw [processPodChange]
  split
  · trivial
  split
  · trivial
  refine .bind (passes_get _) fun cache _ _ => ?_
  split
  · exact passes_handleDeletion _ _ _
  split
  · exact passes_cleanupGhostResources _ _ _
  split
  · trivial
  rw [handleLivePod]
  have hrest : ∀ t (cache : ChallengeDeploymentCacheDTO) (n : DeploymentName),
      PassesSlotArgs maxLimit call t (do
        let now ← utcNow
        if isPodStuck pod now then cleanupGhostResources pod.ns n .failed
        else handleRunningState cfg pod n cache) := by
    intro t cache n
    refine .bind passes_utcNow fun _ _ _ => ?_
    split
    · exact passes_cleanupGhostResources _ _ _
    · exact passes_handleRunningState _ _ _ _
  split
  · exact .bind (passes_handlePodRestart _ _ _) fun _ t _ => hrest t _ _
  · exact hrest _ _ _

theorem passes_inspectPod (pod : V1Pod) :
    PassesSlotArgs maxLimit call t (inspectPod pod) := by
  rw [inspectPod]
  split
  · trivial
  refine .bind passes_utcNow fun _ _ _ => .bind (passes_get _) fun _ _ _ => ?_
  split
  · have hdel : ∀ t (deleted : Bool) (key : String), PassesSlotArgs maxLimit call t
        (if deleted then do
          let _ ← removeCacheAsync key
          pure (none : Option PodInfo)
        else pure none) := by
      intro t deleted key
      cases deleted with
      | true => exact .bind (passes_removeCache _) fun _ _ _ => trivial
      | false => trivial
    split
    · exact .bind (passes_deleteNamespace _) fun deleted t _ => hdel t deleted _
    · trivial
  · trivial

theorem passes_getPodsByLabel : PassesSlotArgs maxLimit call t getPodsByLabel := by
  have hvisit : ∀ pods t, PassesSlotArgs maxLimit call t (getPodsByLabel.visit pods) := by
    intro pods
    induction pods with
    | nil => exact fun _ => trivial
    | cons pod pods ih =>
        refine fun t => .handle (.bind (passes_inspectPod pod) fun _ t _ => ?_)
          fun _ _ _ => trivial
        exact .bind (ih t) fun _ _ _ => trivial
  exact .handle (.bind (passes_issue fun _ => trivial) fun pods t _ => hvisit pods t)
    fun _ _ _ => trivial

/-- **The arguments every program of the platform passes.** -/
theorem guarded_program (cfg : DeployConfig) (call : DeployCall) (t : ℤ) :
    PassesSlotArgs cfg.limitChallenges call t (call.program cfg) := by
  cases call with
  | startChallenge u i c id =>
      exact .bind (passes_startChallenge cfg u i c id) fun _ _ _ => trivial
  | start req => exact .bind (passes_deployServiceStart cfg req) fun _ _ _ => trivial
  | stop req => exact .bind (passes_deployServiceStop req) fun _ _ _ => trivial
  | statusCheck req => exact .bind (passes_statusCheck cfg req) fun _ _ _ => trivial
  | worker => exact passes_workerProcess cfg
  | podEvent pod eventType => exact passes_processPodChange cfg pod eventType
  | getPodsByLabel => exact .bind passes_getPodsByLabel fun _ _ _ => trivial

end Programs

/-! ### Runs -/

/-- The platform, with the workflows submitted for a team's starts whose slot was gone. -/
def orphanPlatform (cfg : DeployConfig) (contestId teamId : ℤ) :
    Service deployI Exn Unit (World × List ChallengeStartStopReqDTO) :=
  (platform cfg).withHistory (noteOrphan contestId teamId)

/-- The condition on a step: it keeps the team's live deployments in their slots. -/
def liveGuard (cfg : DeployConfig) (contestId teamId : ℤ) :
    (orphanPlatform cfg contestId teamId).Pool →
      (orphanPlatform cfg contestId teamId).Move → Prop :=
  Service.Admits (fun (call : DeployCall) (e : DeployEnv) o s =>
    KeepsLive contestId teamId call e o s.1.redis) fun _ _ => True

instance decidableKeepsLive (contestId teamId : ℤ) (call : DeployCall) (e : DeployEnv)
    (o : DeployOp) (db : Db ChallengeDeploymentCacheDTO ℤ) :
    Decidable (KeepsLive contestId teamId call e o db) := by
  unfold KeepsLive OthersGoneBy
  induction o using DeployOp.casesOn with
  | redis r =>
    induction r using RedisOp.casesOn <;> induction call using DeployCall.casesOn <;>
      dsimp only <;> infer_instance
  | _ => induction call using DeployCall.casesOn <;> dsimp only <;> infer_instance

instance (cfg : DeployConfig) (contestId teamId : ℤ)
    (w : (orphanPlatform cfg contestId teamId).Pool)
    (m : (orphanPlatform cfg contestId teamId).Move) :
    Decidable (liveGuard cfg contestId teamId w m) :=
  Service.Admits.decidable (S := orphanPlatform cfg contestId teamId) (ψ := fun _ _ => True)
    (fun call e o s => decidableKeepsLive contestId teamId call e o s.1.redis)
    (fun _ _ => .isTrue trivial) w m

/-- A workflow submitted for a start whose entry is there has a slot. -/
theorem noteOrphan_eq {contestId teamId maxLimit : ℤ} {call : DeployCall} {e : DeployEnv}
    {o : DeployOp} {w : World} (h : LiveSlotInv contestId teamId maxLimit w.redis)
    (hkeep : KeepsLive contestId teamId call e o w.redis)
    (orphans : List ChallengeStartStopReqDTO) :
    noteOrphan contestId teamId e o w orphans = orphans := by
  cases o with
  | submitWorkflow appName req =>
      simp only [noteOrphan, ite_eq_right_iff]
      rintro ⟨hf, hc, ht, hslot⟩
      have hlive : entryLive contestId teamId w.redis req.contestChallengeId = true := by
        have hkeep := hkeep hf
        cases call <;> exact hkeep hc ht
      rw [h.slotLive hlive] at hslot
      cases hslot
  | _ => rfl

/-- Before any call there is no entry. -/
theorem liveSlotInv_empty (contestId teamId maxLimit now : ℤ) :
    LiveSlotInv contestId teamId maxLimit (Db.empty now) := by
  refine ⟨fun cc e he => ?_, Nat.zero_le _⟩
  cases he

/-- **Live deployments hold slots.** In every run of the platform whose steps keep the
team's live deployments in their slots, every entry has a slot with a deadline in the
future, there are no more entries than slots, and no workflow was submitted for a start
whose slot was gone. -/
theorem liveSlot_of_keepsLive (cfg : DeployConfig) (contestId teamId now : ℤ)
    (hteam : 0 < teamId) (w₀ : World) (w : (orphanPlatform cfg contestId teamId).Pool)
    (h : Service.Reaches (liveGuard cfg contestId teamId)
      ((orphanPlatform cfg contestId teamId).start ({ w₀ with redis := Db.empty now }, [])) w) :
    HoldsSlots contestId teamId cfg.limitChallenges w.shared.1.redis ∧ w.shared.2 = [] := by
  have hinv : LiveSlotInv contestId teamId cfg.limitChallenges w.shared.1.redis ∧
      w.shared.2 = [] := by
    refine h.guarded_invariant
      (P := fun s => LiveSlotInv contestId teamId cfg.limitChallenges s.1.redis ∧ s.2 = [])
      (T := ℤ) (τ := fun s => s.1.redis.clock) (φ := SlotArgs cfg.limitChallenges)
      (ρ := DeployOp.HonestClock) ?_ ?_ ?_ ?_ ?_ ?_ ?_
    · exact ⟨liveSlotInv_empty _ _ _ now, rfl⟩
    · exact guarded_program cfg
    · exact fun e o s => DeployOp.honestClock_exec e o s.1
    · exact fun e o s => le_of_eq (DeployOp.exec_clock e o s.1).symm
    · rintro (d | t) s
      · exact s.1.redis.clock_le_tick d
      · exact le_refl _
    · rintro w pid e call o k ⟨hP, horphans⟩ hp hg hargs
      have hkeep := hg.of_pending hp
      exact ⟨liveSlot_step hteam hP hargs hkeep, (noteOrphan_eq hP hkeep _).trans horphans⟩
    · rintro w (d | t) ⟨hP, horphans⟩ -
      · exact ⟨hP.tick d, horphans⟩
      · exact ⟨hP, horphans⟩
  exact ⟨hinv.1.holdsSlots, hinv.2⟩

/-- A challenge is reserved, queued and deployed without delay: each step keeps it in its
slot. -/
theorem liveSlot_example :
    ∃ w, Service.runIf (liveGuard defaultConfig 1 5)
        ((orphanPlatform defaultConfig 1 5).start (webWorld, []))
        (deployWeb.map .withHistory) = some w ∧
      HoldsSlots 1 5 3 w.shared.1.redis ∧ w.shared.2 = [] := by
  obtain ⟨w, hw⟩ := Option.isSome_iff_exists.mp (by decide +kernel :
    (Service.runIf (liveGuard defaultConfig 1 5)
      ((orphanPlatform defaultConfig 1 5).start (webWorld, []))
      (deployWeb.map .withHistory)).isSome = true)
  exact ⟨w, hw, liveSlot_of_keepsLive defaultConfig 1 5 1000 (by decide) webWorld w
    (Service.reaches_of_runIf hw)⟩

/-- **An entry can outlive its slot.** Ten seconds after the reservation the start is
queued, and its entry is written for as long as the slot was reserved: for the last ten
seconds there is an entry and no slot. -/
theorem not_liveSlot :
    ∃ w, Service.Reaches Service.anyMove
        ((platform defaultConfig).start webWorld) w ∧
      ¬HoldsSlots 1 5 3 w.shared.redis := by
  have hrun : (Service.run ((platform defaultConfig).start webWorld)
      (Service.callNow 0 (DeployCall.startChallenge 9 5 1 7) calm 8 ++
        [.ambient (DeployMove.tick 10)] ++
        Service.callNow 1 (DeployCall.start webStart) calm 3 ++
        [.ambient (DeployMove.tick 295)])).any
      (fun w => entryLive 1 5 w.shared.redis 7 && !slotLive 1 5 w.shared.redis 7) = true := by
    decide +kernel
  obtain ⟨w, hw, hlive⟩ := (Option.any_eq_true _ _).mp hrun
  refine ⟨w, Service.reaches_of_run hw, fun hholds => ?_⟩
  rw [Bool.and_eq_true, Bool.not_eq_true'] at hlive
  rw [hholds.slot 7 hlive.1] at hlive
  cases hlive.2

end Fctf
