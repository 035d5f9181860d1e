import Fctf.AttemptService

/-!
# The Cooldown between Submissions

A team's last submission to a challenge is kept in Redis for ten minutes, however long the
challenge's cooldown is. The clock is read before the request that checks the cooldown.

## Main results

* `cooldownSeparates`: submissions that pass are a cooldown apart, as long as the cooldown
  and the delay between the clock and the check do not exceed the ten minutes together.
* `not_cooldownSeparates`: with a cooldown of an hour, a team submits after ten minutes.
-/

open Concurrent RedisDb

namespace Fctf

/-! ### What submissions ask of Redis -/

/-- Arguments of requests made at time `t`: only the check, and with the time read before,
touches a cooldown. -/
def CooldownArgs (t : ℤ) : AttemptOp → Prop
  | .redis (.checkCooldown key now _ ttl) =>
      (∃ contestId cc team, key = cooldownKey contestId cc team) ∧ 0 ≤ now ∧ now ≤ t ∧ ttl = 600
  | .redis (.incr key) => ∃ userId minute, key = kpmKey userId minute
  | .redis (.expire key _) => ∃ userId minute, key = kpmKey userId minute
  | .redis (.checkAndIncrement key _ _ _ ttl) =>
      (∃ contestId cc team, key = attemptKey contestId cc team) ∧ 0 < ttl
  | .redis .utcNow => True
  | .redis (.keyExists _) => True
  | .redis (.timeToLive _) => True
  | .redis _ => False
  | _ => True

/-- The clock tells the time. -/
def ClockReply (t : ℤ) : (o : AttemptOp) → Except Exn o.Reply → Prop
  | .redis .utcNow, .ok (now : ℤ) => now = t
  | _, _ => True

section Programs

variable {α : Type} {t : ℤ} {cfg : AttemptConfig} {req : ChallengeAttemptRequest}
  {cc : ContestsChallenge} {bank : Challenge} {user : Option User}

/-- The program passes such arguments only. -/
abbrev KeepsCooldown (t : ℤ) (p : Prog attemptI Exn α) : Prop :=
  p.Guarded CooldownArgs ClockReply t

theorem keeps_query {o : AttemptOp} (h : ∀ t, CooldownArgs t o) : KeepsCooldown t (query o) :=
  fun u _ => ⟨h u, fun _ _ => trivial⟩

/-- What follows a stored row touches no cooldown. -/
theorem keeps_followUp {p : Prog attemptI Exn α} (h : p.Throughout followUpOp) :
    KeepsCooldown t p := by
  refine h.guarded (fun u o ho => ?_) t
  cases o with
  | redis o =>
      cases o with
      | keyExists key => trivial
      | _ => exact ho.elim
  | _ => trivial

theorem keeps_captainMaySubmit (teamId userId : ℤ) :
    KeepsCooldown t (captainMaySubmit cfg teamId userId) := by
  rw [captainMaySubmit]
  split
  · refine .bind (keeps_query fun _ => trivial) fun captainId t _ => ?_
    split <;> trivial
  · trivial

/-- **The check** is made with the time read before. -/
theorem keeps_remainingCooldown (contestId teamId : ℤ) (ht : 0 ≤ t) :
    KeepsCooldown t (remainingCooldown cc contestId teamId) := by
  rw [remainingCooldown]
  split
  · intro t₁ ht₁
    refine ⟨trivial, fun r hr => ?_⟩
    cases r with
    | error e => trivial
    | ok now =>
        have hnow : (show ℤ from now) = t₁ := hr
        intro t₂ ht₂
        refine ⟨⟨⟨_, _, _, rfl⟩, le_trans ht (hnow ▸ ht₁), hnow ▸ ht₂, rfl⟩, fun r _ => ?_⟩
        cases r with
        | error e => trivial
        | ok check =>
            change KeepsCooldown _
              (if 0 ≤ (show ℤ from check) ∧ _ - (show ℤ from check) < cc.cooldown.getD 0 then _
              else _)
            split <;> trivial
  · trivial

theorem keeps_requestChecks (ht : 0 ≤ t) : KeepsCooldown t (requestChecks cfg req cc) := by
  rw [requestChecks]
  split
  · trivial
  split
  · trivial
  split
  · trivial
  split
  · trivial
  refine .bind (keeps_captainMaySubmit _ _) fun may u hu => ?_
  split
  · trivial
  refine .bind (keeps_remainingCooldown _ _ (le_trans ht hu)) fun remaining v _ => ?_
  cases remaining <;> trivial

theorem keeps_prerequisitesSolved (contestId teamId : ℤ) :
    KeepsCooldown t (prerequisitesSolved bank contestId teamId) := by
  rw [prerequisitesSolved]
  split
  · trivial
  split
  · trivial
  refine .handle ?_ fun _ _ _ => trivial
  refine .bind (keeps_query fun _ => trivial) fun ids _ _ => ?_
  refine .bind (keeps_query fun _ => trivial) fun solved _ _ => ?_
  exact .bind (keeps_query fun _ => trivial) fun all _ _ => trivial

theorem keeps_challengeChecks (contestId teamId : ℤ) :
    KeepsCooldown t (challengeChecks cc bank contestId teamId) := by
  rw [challengeChecks]
  split
  · trivial
  split
  · trivial
  refine .bind (keeps_prerequisitesSolved _ _) fun solved _ _ => ?_
  split
  · trivial
  refine .bind (keeps_query fun _ => trivial) fun solvePreCheck _ _ => ?_
  split
  · trivial
  split
  · trivial
  refine .bind (keeps_query fun _ => trivial) fun fails _ _ => ?_
  split <;> trivial

theorem keeps_compareFlags (submission : Utf16) :
    KeepsCooldown t (compareFlags cfg bank submission) := by
  refine .bind (keeps_query fun _ => trivial) fun flags _ _ => ?_
  split <;> trivial

theorem keeps_awaitLock (lockKey : String) (moreTries : ℕ) :
    KeepsCooldown t (awaitLock lockKey moreTries) := by
  induction moreTries generalizing t with
  | zero =>
      refine .bind (keeps_query fun _ => trivial) fun lockAcquired _ _ => ?_
      split <;> trivial
  | succ moreTries ih =>
      refine .bind (keeps_query fun _ => trivial) fun lockAcquired _ _ => ?_
      split
      · trivial
      · exact ih

theorem keeps_newValue (contestId : ℤ) : KeepsCooldown t (newValue cfg cc contestId) := by
  refine .bind (keeps_query fun _ => trivial) fun dynamicChallenge _ _ => ?_
  split
  · trivial
  refine .bind (keeps_query fun _ => trivial) fun solveCount _ _ => ?_
  exact .bind (keeps_query fun _ => trivial) fun _ _ _ => trivial

theorem keeps_recalculated (contestId : ℤ) :
    KeepsCooldown t (recalculated cfg cc bank contestId) := by
  rw [recalculated]
  split
  · refine .bind (keeps_awaitLock _ _) fun _ _ _ => ?_
    refine .bind (.handle (keeps_newValue _) fun e _ _ => ?_) fun value _ _ => ?_
    · exact .bind (keeps_query fun _ => trivial) fun _ _ _ => trivial
    · exact .bind (keeps_query fun _ => trivial) fun _ _ _ => trivial
  · trivial

theorem keeps_creditSolve (attempt : AttemptDTO) :
    KeepsCooldown t (creditSolve cfg req cc bank user attempt) := by
  refine .bind (keeps_query fun _ => trivial) fun solveCheck _ _ => ?_
  split
  · trivial
  refine .bind (.handle (.bind (keeps_query fun _ => trivial) fun _ _ _ => trivial)
    fun e _ _ => ?_) fun refusal _ _ => ?_
  · split <;> trivial
  split
  · trivial
  refine .bind (keeps_recalculated _) fun value _ _ => ?_
  refine .bind (keeps_followUp (throughout_stopDeployment _ _ _)) fun _ _ _ => ?_
  exact .bind (keeps_followUp (throughout_logAction _ _ _)) fun _ _ _ => trivial

theorem keeps_checkAndIncrementKpm (userId limit : ℤ) :
    KeepsCooldown t (checkAndIncrementKpmAsync userId limit) := by
  rw [checkAndIncrementKpmAsync]
  split
  · trivial
  refine .bind (keeps_query fun _ => trivial) fun now _ _ => ?_
  refine .bind (keeps_query fun _ => ⟨_, _, rfl⟩) fun newCount _ _ => ?_
  refine .bind (.bind (keeps_query fun _ => trivial) fun ttl _ _ => ?_) fun _ _ _ => trivial
  split
  · exact .bind (keeps_query fun _ => ⟨_, _, rfl⟩) fun _ _ _ => trivial
  · trivial

theorem keeps_countedFails : KeepsCooldown t (countedFails req cc) := by
  rw [countedFails]
  split
  · trivial
  refine .bind (keeps_query fun _ => trivial) fun actualDbCount _ _ => ?_
  refine .bind (keeps_query fun _ => ⟨⟨_, _, _, rfl⟩, by decide⟩) fun result _ _ => ?_
  split <;> trivial

theorem keeps_recordFail (attempt : AttemptDTO) :
    KeepsCooldown t (recordFail cfg req cc user attempt) := by
  refine .bind (keeps_checkAndIncrementKpm _ _) fun kpm _ _ => ?_
  obtain ⟨kpmExceeded, kpmCount⟩ := kpm
  dsimp only
  split
  · trivial
  refine .bind (.bind keeps_countedFails fun fails _ _ => ?_) fun saved _ _ => ?_
  · split
    · trivial
    · exact .bind (keeps_query fun _ => trivial) fun _ _ _ => trivial
  · split
    · trivial
    · exact keeps_followUp (throughout_answerFail _ _ _ _ _)

theorem keeps_attemptChallenge (ht : 0 ≤ t) :
    KeepsCooldown t (attemptChallenge cfg req user cc bank) := by
  refine .bind (keeps_requestChecks ht) fun refusal _ _ => ?_
  split
  · trivial
  refine .bind (keeps_challengeChecks _ _) fun refusal _ _ => ?_
  split
  · trivial
  refine .bind (keeps_compareFlags _) fun attempt _ _ => ?_
  split
  · exact keeps_creditSolve attempt
  · exact keeps_recordFail attempt

/-- **Every call** passes such arguments only. -/
theorem keeps_call (c : AttemptCall) (ht : 0 ≤ t) : KeepsCooldown t (c.program cfg) := by
  cases c with
  | attempt req =>
      refine .bind (keeps_query fun _ => trivial) fun user u hu => ?_
      split
      · trivial
      refine .bind (keeps_query fun _ => trivial) fun cc v hv => ?_
      split
      · trivial
      split
      · trivial
      · exact keeps_attemptChallenge (le_trans ht (le_trans hu hv))
  | editSubmission id =>
      refine .bind (keeps_query fun _ => trivial) fun submission _ _ => ?_
      split <;> trivial
  | reset => exact .bind (keeps_query fun _ => trivial) fun _ _ _ => trivial

end Programs

/-! ### The key of a cooldown -/

/-- **What is known of a cooldown.** The submissions that have started it, each with the time
read and the time of its check. -/
structure Cooled (c : ℤ) (key : String) (starts : List (ℤ × ℤ))
    (db : Db ChallengeDeploymentCacheDTO ℤ) : Prop where
  /-- They are a cooldown apart. -/
  spaced : starts.Pairwise fun m m' => m.1 + c ≤ m'.1
  /-- The clock is read before the check, and the check is over. -/
  read : ∀ m ∈ starts, m.1 ≤ m.2 ∧ m.2 ≤ db.clock
  /-- The key runs out. -/
  slot : ∀ e, db.lookupNum key = some e → 0 ≤ e.value ∧ e.expireAt.isSome
  /-- A start is ten minutes ago, or the key is there and not older than it. -/
  fresh : ∀ m ∈ starts, m.2 + 600 ≤ db.clock ∨ ∃ e t, db.lookupNum key = some e ∧
    e.expireAt = some t ∧ m.1 ≤ e.value ∧ m.2 + 600 ≤ t

/-- Is the cooldown over, as far as the key tells? -/
def cooledDown (key : String) (nowSeconds cooldownSeconds : ℤ)
    (db : Db ChallengeDeploymentCacheDTO ℤ) : Bool :=
  (db.lookupNum key).all fun e => decide (cooldownSeconds ≤ nowSeconds - e.value)

section Cooled

variable {c now : ℤ} {key : String} {starts : List (ℤ × ℤ)}
  {db db' : Db ChallengeDeploymentCacheDTO ℤ}

/-- The key is not touched. -/
theorem Cooled.keep (h : Cooled c key starts db) (hlookup : db'.lookupNum key = db.lookupNum key)
    (hclock : db'.clock = db.clock) : Cooled c key starts db' :=
  ⟨h.spaced, hclock ▸ h.read, hlookup ▸ h.slot, hlookup ▸ hclock ▸ h.fresh⟩

/-- Time passes. -/
theorem Cooled.tick (h : Cooled c key starts db) (d : ℕ) : Cooled c key starts (db.tick d) := by
  have hle := db.clock_le_tick d
  refine ⟨h.spaced, fun m hm => ⟨(h.read m hm).1, (h.read m hm).2.trans hle⟩,
    fun e he => h.slot e (Store.find_of_find_le hle he), fun m hm => ?_⟩
  obtain hago | ⟨e, t, he, ht, hvalue, hexpiry⟩ := h.fresh m hm
  · exact .inl (by omega)
  · by_cases hlive : (db.tick d).clock < t
    · refine .inr ⟨e, t, db.lookupNum_tick he fun t' ht' => ?_, ht, hvalue, hexpiry⟩
      rw [ht] at ht'
      exact Option.some.inj ht' ▸ hlive
    · exact .inl (by omega)

/-- The key is set. -/
theorem lookupNum_started (now : ℤ) :
    ((db.setNum key now).expireNum key 600).lookupNum key = some ⟨now, some (db.clock + 600)⟩ := by
  rw [Db.lookupNum_expireNum_same _ (by decide)]
  have hset : (db.setNum key now).lookupNum key = some ⟨now, none⟩ := by
    rw [Db.lookupNum, Db.setNum, Store.find_put_same]
    rfl
  rw [hset]
  rfl

/-- **A submission passes.** -/
theorem Cooled.start (h : Cooled c key starts db) (hpos : 0 < c) (hnow : 0 ≤ now)
    (hread : now ≤ db.clock) (htime : c + (db.clock - now) ≤ 600)
    (hover : cooledDown key now c db = true) :
    Cooled c key (starts ++ [(now, db.clock)]) ((db.setNum key now).expireNum key 600) := by
  have hspaced (m : ℤ × ℤ) (hm : m ∈ starts) : m.1 + c ≤ now := by
    obtain hago | ⟨e, t, he, -, hvalue, -⟩ := h.fresh m hm
    · -- the key may be gone, but the check is not that late
      have hpast := h.read m hm
      omega
    · rw [cooledDown, he, Option.all_some, decide_eq_true_iff] at hover
      omega
  have hslot := @lookupNum_started key db now
  refine ⟨?_, ?_, fun e he => ?_, ?_⟩
  · rw [List.pairwise_append]
    refine ⟨h.spaced, List.pairwise_singleton _ _, fun m hm m' hm' => ?_⟩
    rw [List.mem_singleton.mp hm']
    exact hspaced m hm
  · refine List.forall_mem_append.mpr ⟨h.read, fun m hm => ?_⟩
    rw [List.mem_singleton.mp hm]
    exact ⟨hread, le_refl _⟩
  · rw [hslot] at he
    obtain rfl := Option.some.inj he
    exact ⟨hnow, rfl⟩
  · refine List.forall_mem_append.mpr ⟨fun m hm => ?_, fun m hm => ?_⟩
    · have hpast := h.read m hm
      have hc := hspaced m hm
      exact .inr ⟨_, _, hslot, rfl, by dsimp only; omega, by omega⟩
    · rw [List.mem_singleton.mp hm]
      exact .inr ⟨_, _, hslot, rfl, le_refl _, le_refl _⟩

/-- **The check**, as long as the key runs out. -/
theorem Cooled.cooldownScript_eq (h : Cooled c key starts db) :
    (cooledDown key now c db = true ∧ cooldownScript key now c 600 db =
      (.ok (-1), (db.setNum key now).expireNum key 600)) ∨
    (cooledDown key now c db = false ∧ ∃ last, 0 ≤ last ∧ now - last < c ∧
      cooldownScript key now c 600 db = (.ok last, db)) := by
  rw [cooledDown, cooldownScript]
  cases hlookup : db.lookupNum key with
  | none => exact .inl ⟨rfl, rfl⟩
  | some e =>
      obtain ⟨hvalue, hexpires⟩ := h.slot e hlookup
      dsimp only
      rw [Option.all_some]
      by_cases hover : c ≤ now - e.value
      · exact .inl ⟨decide_eq_true hover, if_pos hover⟩
      · refine .inr ⟨decide_eq_false hover, e.value, hvalue, not_le.mp hover, ?_⟩
        rw [if_neg hover, if_neg (by rw [← Option.not_isSome, hexpires]; decide)]

end Cooled

/-! ### The law -/

/-- When a submission passes a check of the cooldown: the time it has read. -/
def passedAt (key : String) : (o : AttemptOp) → Except Exn o.Reply → Option ℤ
  | .redis (.checkCooldown key' now cooldown _), .ok (check : ℤ) =>
      if key' = key ∧ ¬(0 ≤ check ∧ now - check < cooldown) then some now else none
  | _, _ => none

/-- The check of a cooldown: the time read for it, and the cooldown. -/
def checkOf (key : String) : AttemptOp → Option (ℤ × ℤ)
  | .redis (.checkCooldown key' now cooldown _) =>
      if key' = key then some (now, cooldown) else none
  | _ => none

section Act

variable {c t : ℤ} {key : String} {starts : List (ℤ × ℤ)} {o : AttemptOp} {w : AttemptWorld}
  {e : AttemptEnv} {contestId cc team : ℤ}

/-- Nothing else passes. -/
theorem passedAt_of_checkOf (h : checkOf key o = none) (r : Except Exn o.Reply) :
    passedAt key o r = none := by
  cases o with
  | redis o =>
      cases o with
      | checkCooldown key' now cooldown ttl =>
          have hne : key' ≠ key := fun heq => by
            rw [checkOf, if_pos heq] at h
            cases h
          match r with
          | .error e => rfl
          | .ok (check : ℤ) => exact if_neg fun hboth => hne hboth.1
      | _ => rfl
  | _ => rfl

/-- Nothing else touches the cooldown. -/
theorem lookupNum_of_checkOf (hargs : CooldownArgs t o)
    (h : checkOf (cooldownKey contestId cc team) o = none) :
    (o.exec e w).2.redis.lookupNum (cooldownKey contestId cc team) =
      w.redis.lookupNum (cooldownKey contestId cc team) := by
  rw [AttemptOp.exec_redis]
  cases o with
  | redis o =>
      dsimp only
      by_cases hf : e.fault = .before
      · rw [hf, RedisOp.execFaulty_before]
      · rw [RedisOp.execFaulty_of_ne hf]
        cases o with
        | utcNow => rfl
        | keyExists key => rfl
        | timeToLive key => rfl
        | incr key =>
            obtain ⟨userId, minute, rfl⟩ := hargs
            exact w.redis.lookupNum_incrby_of_ne 1 (kpmKey_ne_cooldownKey _ _ _ _ _).symm
        | expire key ttl =>
            obtain ⟨userId, minute, rfl⟩ := hargs
            exact w.redis.lookupNum_expireNum_of_ne ttl (kpmKey_ne_cooldownKey _ _ _ _ _).symm
        | checkAndIncrement key m th n ttl =>
            obtain ⟨⟨_, _, _, rfl⟩, httl⟩ := hargs
            exact (checkAndIncrementScript_frame _ m th n w.redis httl).lookupNum_of_ne _
              (attemptKey_ne_cooldownKey _ _ _ _ _ _).symm
        | checkCooldown key now cooldown ttl =>
            have hne : key ≠ cooldownKey contestId cc team := fun heq => by
              rw [checkOf, if_pos heq] at h
              cases h
            exact (cooldownScript_frame key now cooldown ttl w.redis).lookupNum_of_ne _ hne.symm
        | _ => exact hargs.elim
  | _ => rfl

theorem clock_attemptExec : (o.exec e w).2.redis.clock = w.redis.clock := by
  rw [AttemptOp.exec_redis]
  cases o with
  | redis o => exact o.clock_execFaulty e.fault w.redis
  | _ => rfl

/-- **The check**, whatever becomes of the request and its reply. -/
theorem Cooled.check {now : ℤ} (h : Cooled c key starts w.redis) (hpos : 0 < c) (hnow : 0 ≤ now)
    (hread : now ≤ w.redis.clock) (htime : c + (w.redis.clock - now) ≤ 600) :
    ∃ starts', Cooled c key (starts ++ starts')
        ((RedisOp.checkCooldown key now c 600).execFaulty e.fault w.redis).2 ∧
      (passedAt key (.redis (.checkCooldown key now c 600))
        ((RedisOp.checkCooldown key now c 600).execFaulty e.fault w.redis).1).toList.Sublist
        (starts'.map Prod.fst) := by
  have hkept : ∃ starts', Cooled c key (starts ++ starts') w.redis ∧
      ([] : List ℤ).Sublist (starts'.map Prod.fst) :=
    ⟨[], (List.append_nil starts).symm ▸ h, List.Sublist.refl _⟩
  have hscript := @Cooled.cooldownScript_eq _ now _ _ _ h
  cases hf : e.fault with
  | before => exact hkept
  | none =>
      change ∃ starts', Cooled c key _ (cooldownScript key now c 600 w.redis).2 ∧
        (passedAt key (.redis (.checkCooldown key now c 600))
          (cooldownScript key now c 600 w.redis).1).toList.Sublist _
      obtain ⟨hover, heq⟩ | ⟨-, last, hlast, hearly, heq⟩ := hscript
      · have hpass : passedAt key (.redis (.checkCooldown key now c 600))
            (show Except Exn ℤ from .ok (-1)) = some now :=
          if_pos ⟨rfl, fun hle => absurd hle.1 (by decide)⟩
        rw [heq]
        exact ⟨[(now, w.redis.clock)], h.start hpos hnow hread htime hover,
          (congrArg Option.toList hpass).symm ▸ List.Sublist.refl _⟩
      · have hpass : passedAt key (.redis (.checkCooldown key now c 600))
            (show Except Exn ℤ from .ok last) = none :=
          if_neg fun hboth => hboth.2 ⟨hlast, hearly⟩
        rw [heq]
        obtain ⟨starts', hcooled, hsub⟩ := hkept
        exact ⟨starts', hcooled, (congrArg Option.toList hpass).symm ▸ hsub⟩
  | after =>
      change ∃ starts', Cooled c key _ (cooldownScript key now c 600 w.redis).2 ∧ _
      obtain ⟨hover, heq⟩ | ⟨-, last, hlast, hearly, heq⟩ := hscript
      · rw [heq]
        exact ⟨[(now, w.redis.clock)], h.start hpos hnow hread htime hover, List.nil_sublist _⟩
      · rw [heq]
        exact hkept

/-- **One operation.** A submission that passes has started the cooldown, even if it does not
hear of it. -/
theorem Cooled.act (h : Cooled c (cooldownKey contestId cc team) starts w.redis) (hpos : 0 < c)
    (hargs : CooldownArgs w.redis.clock o)
    (hcheck : ∀ now cooldown, checkOf (cooldownKey contestId cc team) o = some (now, cooldown) →
      cooldown = c ∧ c + (w.redis.clock - now) ≤ 600) :
    ∃ starts', Cooled c (cooldownKey contestId cc team) (starts ++ starts')
        (o.exec e w).2.redis ∧
      (passedAt (cooldownKey contestId cc team) o (o.exec e w).1).toList.Sublist
        (starts'.map Prod.fst) := by
  cases hof : checkOf (cooldownKey contestId cc team) o with
  | none =>
      refine ⟨[], ?_, ?_⟩
      · rw [List.append_nil]
        exact h.keep (lookupNum_of_checkOf hargs hof) clock_attemptExec
      · rw [passedAt_of_checkOf hof]
        exact List.Sublist.refl _
  | some check =>
      obtain ⟨rfl, htime⟩ := hcheck check.1 check.2 hof
      cases o with
      | redis o =>
          cases o with
          | checkCooldown key now cooldown ttl =>
              obtain ⟨-, hnow, hread, rfl⟩ := hargs
              rw [checkOf] at hof
              split at hof
              · next heq =>
                  obtain rfl := Option.some.inj hof
                  obtain rfl := heq
                  exact h.check hpos hnow hread htime
              · cases hof
          | _ => cases hof
      | _ => cases hof

end Act

/-! ### The law -/

section Law

variable {cfg : AttemptConfig}

/-- The submissions that pass, with the times they have read, in the order of their checks. -/
def passes (key : String) (log : List (attempts cfg).Entry) : List ℤ :=
  log.filterMap fun n => passedAt key n.op n.reply

/-- **The law**: submissions that pass are a cooldown apart. -/
def Separated (c : ℤ) (key : String) (log : List (attempts cfg).Entry) : Prop :=
  (passes key log).Pairwise fun first second => c ≤ |second - first|

/-- The runs the law is about: every check is for the cooldown `c`, and Redis forgets the key
when its time is up only. -/
def CoolingDown (c : ℤ) (key : String) (_ : List (attempts cfg).Entry) :
    (attempts cfg).Pool → (attempts cfg).Move → Prop :=
  Service.Admits (fun _ _ o _ => ∀ check ∈ checkOf key o, check.2 = c)
    (fun x _ => x ≠ .evict key)

/-- **In time**: a cooldown and the delay of its check do not exceed the ten minutes that the
key is kept. -/
def ChecksInTime (key : String) (_ : List (attempts cfg).Entry) :
    (attempts cfg).Pool → (attempts cfg).Move → Prop :=
  Service.Admits
    (fun _ _ o w => ∀ check ∈ checkOf key o, check.2 + (w.redis.clock - check.1) ≤ 600)
    (fun _ _ => True)

instance (x : AttemptMove) (key : String) : Decidable (x = .evict key) :=
  match x with
  | .evict key' => decidable_of_iff (key' = key) ⟨congrArg _, AttemptMove.evict.inj⟩
  | .tick _ => .isFalse nofun
  | .tables _ => .isFalse nofun
  | .deployments _ _ => .isFalse nofun

instance (c : ℤ) (key : String) (log : List (attempts cfg).Entry) (w : (attempts cfg).Pool)
    (m : (attempts cfg).Move) : Decidable (CoolingDown c key log w m) :=
  Service.Admits.decidable
    (fun _ _ o _ => inferInstanceAs (Decidable (∀ check ∈ checkOf key o, check.2 = c)))
    (fun (x : AttemptMove) _ => inferInstanceAs (Decidable (¬x = .evict key))) w m

instance (key : String) (log : List (attempts cfg).Entry) (w : (attempts cfg).Pool)
    (m : (attempts cfg).Move) : Decidable (ChecksInTime key log w m) :=
  Service.Admits.decidable
    (fun _ _ o w => inferInstanceAs (Decidable
      (∀ check ∈ checkOf key o, check.2 + ((AttemptWorld.redis w).clock - check.1) ≤ 600)))
    (fun _ _ => .isTrue trivial) w m

theorem clockReply_exec (e : AttemptEnv) (o : AttemptOp) (w : AttemptWorld) :
    ClockReply w.redis.clock o (o.exec e w).1 := by
  cases o with
  | redis o =>
      cases o with
      | utcNow => exact rfl
      | _ => trivial
  | _ => trivial

theorem clock_le_apply (x : AttemptMove) (w : AttemptWorld) :
    w.redis.clock ≤ (x.apply w).redis.clock := by
  cases x with
  | tick d => exact w.redis.clock_le_tick d
  | _ => exact le_refl _

/-- **What holds along a run** whose checks are in time. -/
theorem exists_cooled {c contestId cc team : ℤ} {w₀ : AttemptWorld}
    {log : List (attempts cfg).Entry} {w : (attempts cfg).Pool} (hpos : 0 < c)
    (hclock : 0 ≤ w₀.redis.clock)
    (hfresh : w₀.redis.lookupNum (cooldownKey contestId cc team) = none)
    (h : Service.Records (fun log w m => CoolingDown c (cooldownKey contestId cc team) log w m ∧
      ChecksInTime (cooldownKey contestId cc team) log w m) ((attempts cfg).start w₀) log w) :
    ∃ starts, Cooled c (cooldownKey contestId cc team) starts w.shared.redis ∧
      (passes (cooldownKey contestId cc team) log).Sublist (starts.map Prod.fst) := by
  induction h with
  | refl =>
      refine ⟨[], ⟨List.Pairwise.nil, nofun, fun e he => ?_, nofun⟩, List.Sublist.refl _⟩
      rw [show (attempts cfg).start w₀ = ⟨w₀, []⟩ from rfl, hfresh] at he
      cases he
  | spawn _ _ ih => exact ih
  | @ambient log w x _ hg ih =>
      obtain ⟨starts, hcooled, hsub⟩ := ih
      refine ⟨starts, ?_, hsub⟩
      cases x with
      | tick d => exact hcooled.tick d
      | evict key =>
          refine hcooled.keep (Db.lookupNum_delNum_of_ne _ fun heq => ?_) rfl
          exact hg.1 (heq ▸ rfl)
      | tables t => exact hcooled.keep rfl rfl
      | deployments strings zsets => exact hcooled.keep rfl rfl
  | @act log w pid e c' o k hr hp hg ih =>
      obtain ⟨starts, hcooled, hsub⟩ := ih
      have hguarded : ∀ p ∈ w.procs, p.2.Guarded CooldownArgs ClockReply w.shared.redis.clock :=
        (hr.guarded (fun c _ ht => keeps_call c (le_trans hclock ht))
          (fun e o w => clockReply_exec e o w)
          (fun e o w => (clock_attemptExec (e := e) (o := o) (w := w)).symm.le)
          clock_le_apply).2
      have hargs : CooldownArgs w.shared.redis.clock o := (hguarded _ hp.mem _ (le_refl _)).1
      obtain ⟨starts', hcooled', hsub'⟩ := hcooled.act (e := e) hpos hargs
        fun now cooldown hof => by
          have hc : cooldown = c := hg.1.of_pending hp _ hof
          have htime : cooldown + (w.shared.redis.clock - now) ≤ 600 := hg.2.of_pending hp _ hof
          exact ⟨hc, hc ▸ htime⟩
      refine ⟨starts ++ starts', hcooled', ?_⟩
      rw [passes, List.filterMap_append, List.map_append]
      refine hsub.append ?_
      rw [List.filterMap_cons]
      exact hsub'

/-- **The law holds in every run** whose checks are in time. -/
theorem cooldownSeparates (cfg : AttemptConfig) (c contestId cc team : ℤ) (hpos : 0 < c)
    (w₀ : AttemptWorld) (hclock : 0 ≤ w₀.redis.clock)
    (hfresh : w₀.redis.lookupNum (cooldownKey contestId cc team) = none)
    (log : List (attempts cfg).Entry) (w : (attempts cfg).Pool)
    (h : Service.Records (fun log w m => CoolingDown c (cooldownKey contestId cc team) log w m ∧
      ChecksInTime (cooldownKey contestId cc team) log w m) ((attempts cfg).start w₀) log w) :
    Separated c (cooldownKey contestId cc team) log := by
  obtain ⟨starts, hcooled, hsub⟩ := exists_cooled hpos hclock hfresh h
  have hspaced : (starts.map Prod.fst).Pairwise fun first second => first + c ≤ second :=
    List.pairwise_map.mpr hcooled.spaced
  refine (hspaced.sublist hsub).imp fun {first second} hle => ?_
  calc c ≤ second - first := by omega
    _ ≤ |second - first| := le_abs_self _

/-- A challenge with a cooldown. -/
def coolingChallenge (cooldown : ℤ) : ContestsChallenge :=
  { oneTryChallenge with cooldown := some cooldown, maxAttempts := none }

/-- Two submissions, some seconds apart, the second one as far as its check. -/
def twoSubmissions (seconds : ℕ) : List (attempts defaultAttemptConfig).Move :=
  Service.callNow 0 wrongAnswer calmAttempt 12 ++ [.ambient (AttemptMove.tick seconds)] ++
    Service.callNow 1 wrongAnswer calmAttempt 4

/-- With a cooldown of five seconds, two submissions pass, five seconds apart. -/
theorem cooldownSeparates_example :
    ∃ log w, Service.runLogged (fun log w m => CoolingDown 5 (cooldownKey 1 7 5) log w m ∧
        ChecksInTime (cooldownKey 1 7 5) log w m) []
        ((attempts defaultAttemptConfig).start (attemptWorld (coolingChallenge 5)))
        (twoSubmissions 5) = some (log, w) ∧
      passes (cooldownKey 1 7 5) log = [1000, 1005] ∧
      Separated 5 (cooldownKey 1 7 5) log := by
  have hrun : (Service.runLogged (fun log w m => CoolingDown 5 (cooldownKey 1 7 5) log w m ∧
      ChecksInTime (cooldownKey 1 7 5) log w m) []
      ((attempts defaultAttemptConfig).start (attemptWorld (coolingChallenge 5)))
      (twoSubmissions 5)).any
      (fun p => decide (passes (cooldownKey 1 7 5) p.1 = [1000, 1005])) = true := by
    decide +kernel
  obtain ⟨⟨log, w⟩, hw, hpasses⟩ := (Option.any_eq_true _ _).mp hrun
  exact ⟨log, w, hw, of_decide_eq_true hpasses,
    cooldownSeparates defaultAttemptConfig 5 1 7 5 (by decide) _ (by decide) rfl log w
      (Service.records_of_runLogged .refl hw)⟩

/-- **Two submissions within the cooldown.** It is an hour, and the key is kept for ten
minutes. -/
theorem not_cooldownSeparates :
    ∃ log w, Service.Records (CoolingDown 3600 (cooldownKey 1 7 5))
        ((attempts defaultAttemptConfig).start (attemptWorld (coolingChallenge 3600))) log w ∧
      passes (cooldownKey 1 7 5) log = [1000, 1600] ∧
      ¬Separated 3600 (cooldownKey 1 7 5) log := by
  have hrun : (Service.runLogged (CoolingDown 3600 (cooldownKey 1 7 5)) []
      ((attempts defaultAttemptConfig).start (attemptWorld (coolingChallenge 3600)))
      (twoSubmissions 600)).any
      (fun p => decide (passes (cooldownKey 1 7 5) p.1 = [1000, 1600])) = true := by
    decide +kernel
  obtain ⟨⟨log, w⟩, hw, hpasses⟩ := (Option.any_eq_true _ _).mp hrun
  have hpasses := of_decide_eq_true hpasses
  refine ⟨log, w, Service.records_of_runLogged .refl hw, hpasses, fun h => ?_⟩
  rw [Separated, hpasses] at h
  exact absurd (List.rel_of_pairwise_cons h List.mem_cons_self) (by decide)

end Law

end Fctf
