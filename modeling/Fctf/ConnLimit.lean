import Fctf.Lib.RedisDb
import Mathlib.Tactic.Ring

/-!
# The Gateway's Connection Limiter

The gateways count the open connections of each key in Redis. `Acquire` runs a script that
counts up and refuses beyond the limit, and every connection that was admitted runs
`Release` once, which counts down. Both give the counter a fresh time to live.

A counter that expires while its connections are open starts again from nothing. An `Acquire`
that gets no answer admits its connection unless the limiter fails closed: the counter may
or may not have counted it, and its `Release` counts down in either case.

## Main results

* `limited_step_iff`: which steps keep the counters right.
* `limited_iff`: the limit along runs.
* `not_limited`: two connections under a limit of one, after a quarter of an hour.
-/

open RedisDb

namespace Fctf.Gateway

/-! ### The limiter -/

/-- `redisConnLimiter`. -/
structure ConnLimiter where
  /-- The most connections of a key. -/
  max : ℤ
  /-- What the limiter's keys begin with. -/
  keyPrefix : String
  /-- The configured time to live. -/
  ttlSeconds : ℤ
  /-- Are connections rejected while Redis does not answer? -/
  failClosed : Bool
  deriving DecidableEq, Repr

/-- `ttl`, in seconds. -/
def ConnLimiter.ttl (l : ConnLimiter) : ℤ :=
  if l.ttlSeconds ≤ 0 then 900 else l.ttlSeconds

/-- The key of a counter in Redis. -/
def ConnLimiter.redisKey (l : ConnLimiter) (key : String) : String :=
  l.keyPrefix ++ ":" ++ key

/-- What the gateways keep in Redis for the limiter. -/
abbrev Counters := Db Unit Unit

/-- `acquireScript`. -/
def ConnLimiter.scriptAcquire (l : ConnLimiter) (redisKey : String) (db : Counters) :
    Bool × Counters :=
  let db := db.incrby redisKey 1
  let current := (db.getNum redisKey).getD 0
  let db := db.expireNum redisKey l.ttl
  if l.max < current then (false, db.incrby redisKey (-1)) else (true, db)

/-- `releaseScript`. -/
def ConnLimiter.scriptRelease (l : ConnLimiter) (redisKey : String) (db : Counters) :
    Counters :=
  let db := db.incrby redisKey (-1)
  let current := (db.getNum redisKey).getD 0
  if current ≤ 0 then db.delNum redisKey else db.expireNum redisKey l.ttl

/-- Runs of `acquireScript` whose reply does not get back. -/
def ConnLimiter.acquireUnheard (l : ConnLimiter) (redisKey : String) (n : ℕ)
    (db : Counters) : Counters :=
  (fun db => (l.scriptAcquire redisKey db).2)^[n] db

/-! ### Connections -/

/-- A connection that has been admitted and not been released. -/
structure Conn where
  /-- The key it was admitted under. -/
  key : String
  /-- Did `Acquire` count it? -/
  counted : Bool
  deriving DecidableEq, Repr

/-- The counters and the connections of all gateways. -/
structure ConnState where
  /-- Redis. -/
  db : Counters
  /-- The open connections. -/
  conns : List Conn

/-- A gateway in a Redis without keys. -/
def ConnState.start (clock : ℤ) : ConnState := ⟨.empty clock, []⟩

/-- Something that happens. -/
inductive ConnAct
  /-- Time passes, in seconds. -/
  | tick (d : ℕ)
  /-- A gateway calls `Acquire`. The script runs `unheard` times without its reply getting
  back, and then, unless this is an error, once with it. -/
  | acquire (key : String) (unheard : ℕ) (replied : Bool)
  /-- The `i`-th open connection ends, and `Release` runs its script `ran` times: not at all
  if Redis is out of reach, and more than once if the client repeats the command. -/
  | release (i ran : ℕ)
  deriving DecidableEq, Repr

/-- A call of `Acquire`, and what the gateway does with its connection. -/
def ConnLimiter.acquire (l : ConnLimiter) (key : String) (unheard : ℕ) (replied : Bool)
    (s : ConnState) : ConnState :=
  if key = "" ∨ l.max ≤ 0 then { s with conns := ⟨key, false⟩ :: s.conns }
  else
    let db := l.acquireUnheard (l.redisKey key) unheard s.db
    if replied then
      let (res, db) := l.scriptAcquire (l.redisKey key) db
      ⟨db, if res then ⟨key, true⟩ :: s.conns else s.conns⟩
    else ⟨db, if !l.failClosed then ⟨key, false⟩ :: s.conns else s.conns⟩

/-- The end of a connection, which calls `Release`. -/
def ConnLimiter.release (l : ConnLimiter) (i ran : ℕ) (s : ConnState) : ConnState :=
  match s.conns[i]? with
  | none => s
  | some c =>
      ⟨if c.key = "" ∨ l.max ≤ 0 then s.db
        else (l.scriptRelease (l.redisKey c.key))^[ran] s.db, s.conns.eraseIdx i⟩

/-- One step. -/
def ConnLimiter.step (l : ConnLimiter) (s : ConnState) : ConnAct → ConnState
  | .tick d => { s with db := s.db.tick d }
  | .acquire key unheard replied => l.acquire key unheard replied s
  | .release i ran => l.release i ran s

/-- A run. -/
def ConnLimiter.run (l : ConnLimiter) (s : ConnState) (acts : List ConnAct) : ConnState :=
  acts.foldl l.step s

/-! ### The law -/

/-- How many open connections a counted `Acquire` admitted under the key. -/
def ConnState.counted (s : ConnState) (key : String) : ℕ := s.conns.count ⟨key, true⟩

/-- A key has no more counted connections than it may, and its counter, if it is there, is
their number. -/
def ConnLimiter.LimitedAt (l : ConnLimiter) (s : ConnState) (key : String) : Prop :=
  (s.counted key : ℤ) ≤ l.max ∧
    ∀ n, s.db.getNum (l.redisKey key) = some n → n = s.counted key

/-- **The limit**, for every key. -/
def ConnLimiter.Limited (l : ConnLimiter) (s : ConnState) : Prop :=
  ∀ key ≠ "", l.LimitedAt s key

/-- A counter, which is zero while it is missing. -/
def numAt (db : Counters) (k : String) : ℤ := (db.getNum k).getD 0

/-- The counter of a key. -/
def ConnLimiter.stored (l : ConnLimiter) (s : ConnState) (key : String) : ℤ :=
  numAt s.db (l.redisKey key)

/-- When a step keeps the counters right.

A script of `Acquire` must find in the counter the number of counted connections once its
unheard runs are over. A `Release` must run its script once for a connection that was
counted and not at all for another one, unless the counter is gone or goes with it. -/
def ConnLimiter.Meets (l : ConnLimiter) (s : ConnState) : ConnAct → Prop
  | .tick _ => True
  | .acquire key unheard replied =>
      key = "" ∨ (unheard = 0 ∧ replied = false) ∨
        min l.max (l.stored s key + unheard) = s.counted key
  | .release i ran =>
      match s.conns[i]? with
      | none => True
      | some c => c.key = "" ∨ l.stored s c.key ≤ ran ∨ ran = if c.counted then 1 else 0

/-! ### The counter under the scripts -/

section Scripts

variable {l : ConnLimiter} {db : Counters} {k k' : String} {n : ℤ}

theorem ConnLimiter.ttl_pos (l : ConnLimiter) : 0 < l.ttl := by
  unfold ConnLimiter.ttl
  split <;> omega

theorem connKey_injective (l : ConnLimiter) : Function.Injective l.redisKey := by
  intro a b h
  have hl := congrArg String.toList h
  simp only [ConnLimiter.redisKey, String.toList_append, List.append_cancel_left_eq] at hl
  exact String.toList_injective hl

/-- A counter that is there is positive and within the limit. -/
def ConnLimiter.Sound (l : ConnLimiter) (db : Counters) (k : String) : Prop :=
  ∀ n, db.getNum k = some n → 0 < n ∧ n ≤ l.max

theorem getNum_eq_some_iff_numAt (h : l.Sound db k) :
    db.getNum k = some n ↔ numAt db k = n ∧ 0 < n := by
  unfold numAt
  cases hg : db.getNum k with
  | none => simp only [reduceCtorEq, Option.getD_none, false_iff]; omega
  | some m =>
      have := (h m hg).1
      simp only [Option.some.injEq, Option.getD_some]
      constructor
      · rintro rfl
        exact ⟨rfl, this⟩
      · exact fun h => h.1

theorem numAt_bounds (hmax : 0 < l.max) (h : l.Sound db k) :
    0 ≤ numAt db k ∧ numAt db k ≤ l.max := by
  unfold numAt
  cases hg : db.getNum k with
  | none => exact ⟨le_rfl, hmax.le⟩
  | some n => exact ⟨(h n hg).1.le, (h n hg).2⟩

theorem getNum_scriptAcquire_of_ne (h : k' ≠ k) :
    (l.scriptAcquire k db).2.getNum k' = db.getNum k' := by
  have hkept : ((db.incrby k 1).expireNum k l.ttl).getNum k' = db.getNum k' := by
    rw [Db.getNum_expireNum _ _ l.ttl_pos, Db.getNum_incrby_of_ne _ _ h]
  simp only [ConnLimiter.scriptAcquire]
  split
  · rw [Db.getNum_incrby_of_ne _ _ h, hkept]
  · exact hkept

/-- `acquireScript` admits below the limit, and counts up to it. -/
theorem scriptAcquire_spec (hle : numAt db k ≤ l.max) :
    (l.scriptAcquire k db).1 = decide (numAt db k < l.max) ∧
      (l.scriptAcquire k db).2.getNum k = some (min l.max (numAt db k + 1)) := by
  have hcount : (db.incrby k 1).getNum k = some (numAt db k + 1) := Db.getNum_incrby_same _ _ _
  have hkept : ((db.incrby k 1).expireNum k l.ttl).getNum k = some (numAt db k + 1) := by
    rw [Db.getNum_expireNum _ _ l.ttl_pos, hcount]
  simp only [ConnLimiter.scriptAcquire, hcount, Option.getD_some]
  by_cases hover : l.max < numAt db k + 1
  · have hfull : l.max = numAt db k := by omega
    rw [if_pos hover, Db.getNum_incrby_same, hkept]
    refine ⟨?_, ?_⟩
    · simp [hfull]
    · rw [Option.getD_some, min_eq_left hover.le, add_neg_cancel_right, hfull]
  · rw [if_neg hover]
    refine ⟨?_, ?_⟩
    · simp only [true_eq_decide_iff]
      omega
    · rw [hkept, min_eq_right (by omega)]

theorem getNum_acquireUnheard_of_ne (h : k' ≠ k) (u : ℕ) :
    (l.acquireUnheard k u db).getNum k' = db.getNum k' := by
  induction u generalizing db with
  | zero => rfl
  | succ u ih =>
      rw [ConnLimiter.acquireUnheard, Function.iterate_succ_apply]
      exact ih.trans (getNum_scriptAcquire_of_ne h)

/-- Unheard runs count up to the limit. -/
theorem getNum_acquireUnheard (hle : numAt db k ≤ l.max) (u : ℕ) :
    (l.acquireUnheard k u db).getNum k =
      if u = 0 then db.getNum k else some (min l.max (numAt db k + u)) := by
  induction u with
  | zero => rfl
  | succ u ih =>
      rw [if_neg (Nat.succ_ne_zero u)]
      have hnum : numAt (l.acquireUnheard k u db) k = min l.max (numAt db k + u) := by
        rw [numAt, ih]
        split
        · next hu =>
            subst hu
            rw [Nat.cast_zero, add_zero, min_eq_right hle, numAt]
        · rfl
      have hspec : (l.scriptAcquire k (l.acquireUnheard k u db)).2.getNum k = _ :=
        (scriptAcquire_spec (by rw [hnum]; exact min_le_left _ _)).2
      rw [ConnLimiter.acquireUnheard, Function.iterate_succ_apply']
      refine hspec.trans (congrArg some ?_)
      rw [hnum, Nat.cast_succ]
      omega

theorem numAt_acquireUnheard (hle : numAt db k ≤ l.max) (u : ℕ) :
    numAt (l.acquireUnheard k u db) k = min l.max (numAt db k + u) := by
  rw [numAt, getNum_acquireUnheard hle]
  split
  · next hu =>
      subst hu
      rw [Nat.cast_zero, add_zero, min_eq_right hle, numAt]
  · rfl

theorem getNum_scriptRelease_of_ne (h : k' ≠ k) :
    (l.scriptRelease k db).getNum k' = db.getNum k' := by
  simp only [ConnLimiter.scriptRelease]
  split
  · rw [Db.getNum_delNum_of_ne _ h, Db.getNum_incrby_of_ne _ _ h]
  · rw [Db.getNum_expireNum _ _ l.ttl_pos, Db.getNum_incrby_of_ne _ _ h]

/-- `releaseScript` counts down, and no further than to a missing counter. -/
theorem getNum_scriptRelease :
    (l.scriptRelease k db).getNum k =
      if numAt db k ≤ 1 then none else some (numAt db k - 1) := by
  have hcount : (db.incrby k (-1)).getNum k = some (numAt db k - 1) := Db.getNum_incrby_same _ _ _
  simp only [ConnLimiter.scriptRelease, hcount, Option.getD_some]
  by_cases hlast : numAt db k ≤ 1
  · rw [if_pos (by omega), if_pos hlast, Db.getNum_delNum_same]
  · rw [if_neg (by omega), if_neg hlast, Db.getNum_expireNum _ _ l.ttl_pos, hcount]

theorem getNum_releases_of_ne (h : k' ≠ k) (r : ℕ) :
    ((l.scriptRelease k)^[r] db).getNum k' = db.getNum k' := by
  induction r generalizing db with
  | zero => rfl
  | succ r ih => exact ih.trans (getNum_scriptRelease_of_ne h)

theorem ConnLimiter.Sound.scriptRelease (h : l.Sound db k) : l.Sound (l.scriptRelease k db) k := by
  intro n hn
  rw [getNum_scriptRelease] at hn
  split at hn
  · cases hn
  · obtain rfl := Option.some.inj hn
    obtain ⟨-, hle⟩ := h (numAt db k) ((getNum_eq_some_iff_numAt h).mpr ⟨rfl, by omega⟩)
    omega

/-- Repeated runs of `releaseScript`. -/
theorem releases_spec (hmax : 0 < l.max) (h : l.Sound db k) (r : ℕ) :
    l.Sound ((l.scriptRelease k)^[r] db) k ∧
      numAt ((l.scriptRelease k)^[r] db) k = max 0 (numAt db k - r) := by
  induction r with
  | zero => exact ⟨h, by have := (numAt_bounds hmax h).1; simp [this]⟩
  | succ r ih =>
      obtain ⟨hsound, hnum⟩ := ih
      rw [Function.iterate_succ_apply']
      refine ⟨hsound.scriptRelease, ?_⟩
      rw [numAt, getNum_scriptRelease, hnum]
      split
      · simp only [Option.getD_none, Nat.cast_succ]
        omega
      · simp only [Option.getD_some, Nat.cast_succ]
        omega

end Scripts

/-! ### One step -/

section Step

variable {l : ConnLimiter} {s : ConnState} {key key' : String}

/-- The counters are sound. -/
def ConnLimiter.SoundAll (l : ConnLimiter) (s : ConnState) : Prop :=
  ∀ key ≠ "", l.Sound s.db (l.redisKey key)

/-- The law of a key, in terms of what is stored. -/
theorem limitedAt_iff (h : l.Sound s.db (l.redisKey key)) :
    l.LimitedAt s key ↔ (s.counted key : ℤ) ≤ l.max ∧
      (l.stored s key = 0 ∨ l.stored s key = s.counted key) := by
  refine and_congr_right fun _ => ?_
  constructor
  · intro hall
    by_cases hzero : l.stored s key = 0
    · exact .inl hzero
    · have hnonneg : 0 ≤ numAt s.db (l.redisKey key) := by
        rw [numAt]
        cases hg : s.db.getNum (l.redisKey key) with
        | none => exact le_rfl
        | some n => exact (h n hg).1.le
      have hpos : 0 < l.stored s key := lt_of_le_of_ne hnonneg (Ne.symm hzero)
      exact .inr (hall _ ((getNum_eq_some_iff_numAt h).mpr ⟨rfl, hpos⟩))
  · intro hor n hn
    obtain ⟨hnum, hpos⟩ := (getNum_eq_some_iff_numAt h).mp hn
    rcases hor with hzero | heq
    · rw [ConnLimiter.stored, hnum] at hzero
      omega
    · rw [← heq, ConnLimiter.stored, hnum]

theorem counted_cons (c : Conn) (db : Counters) (conns : List Conn) :
    (ConnState.mk db (c :: conns)).counted key =
      (ConnState.mk db conns).counted key + if c = ⟨key, true⟩ then 1 else 0 := by
  simp [ConnState.counted, List.count_cons]

/-- The end of a connection takes it out of the count. -/
theorem counted_eraseIdx {i : ℕ} {c : Conn} (hc : s.conns[i]? = some c) (db : Counters) :
    (ConnState.mk db (s.conns.eraseIdx i)).counted key + (if c = ⟨key, true⟩ then 1 else 0) =
      s.counted key := by
  obtain ⟨hi, rfl⟩ := List.getElem?_eq_some_iff.mp hc
  rw [← counted_cons s.conns[i] db]
  exact (List.getElem_cons_eraseIdx_perm hi).count_eq _

/-- What a call of `Acquire` does to the counter and to the count of its key. -/
theorem acquire_spec (hmax : 0 < l.max) (hs : l.SoundAll s) (hkey : key ≠ "") (u : ℕ)
    (replied : Bool) :
    (l.acquire key u replied s).db.getNum (l.redisKey key) =
        (if u = 0 ∧ replied = false then s.db.getNum (l.redisKey key)
          else some (min l.max (l.stored s key + u + if replied then 1 else 0))) ∧
      (l.acquire key u replied s).counted key =
        s.counted key + if replied = true ∧ l.stored s key + u < l.max then 1 else 0 := by
  have hle : numAt s.db (l.redisKey key) ≤ l.max := (numAt_bounds hmax (hs key hkey)).2
  have hrun : ¬(key = "" ∨ l.max ≤ 0) := by
    rintro (h | h)
    · exact hkey h
    · omega
  have hnum := numAt_acquireUnheard hle u
  rw [ConnLimiter.acquire, if_neg hrun]
  cases replied with
  | false =>
      simp only [Bool.false_eq_true, if_false, false_and, and_true, add_zero]
      refine ⟨getNum_acquireUnheard hle u, ?_⟩
      split
      · simp only [counted_cons, Conn.mk.injEq, Bool.false_eq_true, and_false, if_false]
        rfl
      · rfl
  | true =>
      have hspec := scriptAcquire_spec (l := l) (k := l.redisKey key) <|
        show numAt (l.acquireUnheard (l.redisKey key) u s.db) _ ≤ l.max by
          rw [hnum]; exact min_le_left _ _
      rw [hnum] at hspec
      simp only [if_true, Bool.true_eq_false, and_false, if_false, true_and, hspec.1,
        decide_eq_true_eq]
      refine ⟨hspec.2.trans (congrArg some ?_), ?_⟩
      · rw [ConnLimiter.stored]
        omega
      · by_cases hroom : l.stored s key + u < l.max
        · have hmin : min l.max (numAt s.db (l.redisKey key) + u) < l.max :=
            min_lt_iff.mpr (.inr hroom)
          rw [if_pos hmin, if_pos hroom, counted_cons, if_pos rfl]
          rfl
        · have hmin : ¬min l.max (numAt s.db (l.redisKey key) + u) < l.max := by
            rw [ConnLimiter.stored] at hroom
            omega
          rw [if_neg hmin, if_neg hroom]
          rfl

/-- The other keys are left alone. -/
theorem acquire_of_ne (hne : key' ≠ key) (u : ℕ) (replied : Bool) :
    (l.acquire key u replied s).db.getNum (l.redisKey key') = s.db.getNum (l.redisKey key') ∧
      (l.acquire key u replied s).counted key' = s.counted key' := by
  have hk : l.redisKey key' ≠ l.redisKey key := fun h => hne (connKey_injective l h)
  have hother (b : Bool) : (⟨key, b⟩ : Conn) ≠ ⟨key', true⟩ := fun h =>
    hne (congrArg Conn.key h).symm
  have hcount (db : Counters) (b : Bool) :
      (ConnState.mk db (⟨key, b⟩ :: s.conns)).counted key' = s.counted key' := by
    rw [counted_cons, if_neg (hother b), add_zero]
    rfl
  unfold ConnLimiter.acquire
  split
  · exact ⟨rfl, hcount _ _⟩
  · split
    · refine ⟨(getNum_scriptAcquire_of_ne hk).trans (getNum_acquireUnheard_of_ne hk u), ?_⟩
      dsimp only
      split
      · exact hcount _ _
      · rfl
    · refine ⟨getNum_acquireUnheard_of_ne hk u, ?_⟩
      split
      · exact hcount _ _
      · rfl

/-- What the end of a connection does to the counter and to the count of its key. -/
theorem release_spec (hmax : 0 < l.max) (hs : l.SoundAll s) {i : ℕ} {c : Conn}
    (hc : s.conns[i]? = some c) (hkey : c.key ≠ "") (ran : ℕ) :
    l.Sound (l.release i ran s).db (l.redisKey c.key) ∧
      l.stored (l.release i ran s) c.key = max 0 (l.stored s c.key - ran) ∧
      (l.release i ran s).counted c.key + (if c.counted then 1 else 0) = s.counted c.key := by
  have hrun : ¬(c.key = "" ∨ l.max ≤ 0) := by
    rintro (h | h)
    · exact hkey h
    · omega
  simp only [ConnLimiter.release, hc, if_neg hrun]
  obtain ⟨hsound, hnum⟩ := releases_spec hmax (hs c.key hkey) ran
  refine ⟨hsound, hnum, ?_⟩
  rw [← counted_eraseIdx hc, Nat.add_left_cancel_iff]
  obtain ⟨key, counted⟩ := c
  simp

theorem release_of_ne {i : ℕ} {c : Conn} (hc : s.conns[i]? = some c) (hne : key' ≠ c.key)
    (ran : ℕ) :
    (l.release i ran s).db.getNum (l.redisKey key') = s.db.getNum (l.redisKey key') ∧
      (l.release i ran s).counted key' = s.counted key' := by
  have hk : l.redisKey key' ≠ l.redisKey c.key := fun h => hne (connKey_injective l h)
  have hother : c ≠ ⟨key', true⟩ := fun h => hne (congrArg Conn.key h).symm
  simp only [ConnLimiter.release, hc]
  refine ⟨?_, ?_⟩
  · split
    · rfl
    · exact getNum_releases_of_ne hk ran
  · exact counted_eraseIdx hc s.db ▸ (by rw [if_neg hother]; rfl)

/-- The counters stay sound. -/
theorem sound_step (hmax : 0 < l.max) (hs : l.SoundAll s) (a : ConnAct) :
    l.SoundAll (l.step s a) := by
  intro key hkey n hn
  cases a with
  | tick d => exact hs key hkey n (Db.getNum_of_tick _ hn)
  | acquire key' u replied =>
      by_cases hk : key = key'
      · subst hk
        have hb := numAt_bounds hmax (hs key hkey)
        rw [ConnLimiter.step, (acquire_spec hmax hs hkey u replied).1] at hn
        split at hn
        · exact hs key hkey n hn
        · next hsome =>
            obtain rfl := Option.some.inj hn
            have hran : 0 < (u : ℤ) + if replied then 1 else 0 := by
              cases replied with
              | false => simpa [Nat.pos_iff_ne_zero] using hsome
              | true => simp only [if_true]; omega
            rw [ConnLimiter.stored]
            omega
      · rw [ConnLimiter.step, (acquire_of_ne hk u replied).1] at hn
        exact hs key hkey n hn
  | release i ran =>
      cases hc : s.conns[i]? with
      | none =>
          rw [ConnLimiter.step, ConnLimiter.release, hc] at hn
          exact hs key hkey n hn
      | some c =>
          by_cases hk : key = c.key
          · subst hk
            exact (release_spec hmax hs hc hkey ran).1 n hn
          · rw [ConnLimiter.step, (release_of_ne hc hk ran).1] at hn
            exact hs key hkey n hn

/-- A step which leaves a key alone leaves its law. -/
theorem limitedAt_congr {s' : ConnState}
    (h : s'.db.getNum (l.redisKey key) = s.db.getNum (l.redisKey key) ∧
      s'.counted key = s.counted key) : l.LimitedAt s' key ↔ l.LimitedAt s key := by
  rw [ConnLimiter.LimitedAt, ConnLimiter.LimitedAt, h.1, h.2]

theorem limitedAt_acquire_iff (hmax : 0 < l.max) (hs : l.SoundAll s) (h : l.Limited s)
    (hkey : key ≠ "") (u : ℕ) (replied : Bool) :
    l.LimitedAt (l.acquire key u replied s) key ↔
      (u = 0 ∧ replied = false) ∨ min l.max (l.stored s key + u) = s.counted key := by
  obtain ⟨hnum, hcount⟩ := acquire_spec hmax hs hkey u replied
  obtain ⟨hle, -⟩ := h key hkey
  have hor := ((limitedAt_iff (hs key hkey)).mp (h key hkey)).2
  rw [ConnLimiter.LimitedAt, hnum, hcount]
  by_cases hidle : u = 0 ∧ replied = false
  · rw [if_pos hidle]
    obtain ⟨rfl, rfl⟩ := hidle
    simpa [ConnLimiter.LimitedAt] using h key hkey
  · rw [if_neg hidle]
    simp only [hidle, false_or, Option.some.injEq, forall_eq']
    cases replied with
    | false =>
        simp only [Bool.false_eq_true, if_false, false_and, add_zero]
        omega
    | true =>
        simp only [if_true, true_and]
        by_cases hroom : l.stored s key + u < l.max
        · rw [if_pos hroom]
          omega
        · rw [if_neg hroom]
          omega

theorem limitedAt_release_iff (hmax : 0 < l.max) (hs : l.SoundAll s) (h : l.Limited s)
    {i : ℕ} {c : Conn} (hc : s.conns[i]? = some c) (hkey : c.key ≠ "") (ran : ℕ) :
    l.LimitedAt (l.release i ran s) c.key ↔
      l.stored s c.key ≤ ran ∨ ran = if c.counted then 1 else 0 := by
  obtain ⟨hsound, hnum, hcount⟩ := release_spec hmax hs hc hkey ran
  have hb : 0 ≤ l.stored s c.key ∧ _ := numAt_bounds hmax (hs c.key hkey)
  obtain ⟨hle, hor⟩ := (limitedAt_iff (hs c.key hkey)).mp (h c.key hkey)
  rw [limitedAt_iff hsound, hnum]
  cases hcounted : c.counted <;>
    simp only [hcounted, Bool.false_eq_true, if_false, if_true] at hcount ⊢ <;>
    omega

/-- **One step**: it keeps the law if and only if it meets the condition. -/
theorem limited_step_iff (hmax : 0 < l.max) (hs : l.SoundAll s) (h : l.Limited s)
    (a : ConnAct) : l.Limited (l.step s a) ↔ l.Meets s a := by
  cases a with
  | tick d =>
      refine iff_of_true (fun key hkey => ⟨(h key hkey).1, fun n hn => ?_⟩) trivial
      exact (h key hkey).2 n (Db.getNum_of_tick _ hn)
  | acquire key u replied =>
      by_cases hkey : key = ""
      · refine iff_of_true (fun key' hkey' => ?_) (.inl hkey)
        exact (limitedAt_congr (acquire_of_ne (hkey ▸ hkey') u replied)).mpr (h key' hkey')
      · refine Iff.trans ⟨fun hall => hall key hkey, fun hat key' hkey' => ?_⟩
          ((limitedAt_acquire_iff hmax hs h hkey u replied).trans (by simp [ConnLimiter.Meets, hkey]))
        by_cases hk : key' = key
        · exact hk ▸ hat
        · exact (limitedAt_congr (acquire_of_ne hk u replied)).mpr (h key' hkey')
  | release i ran =>
      cases hc : s.conns[i]? with
      | none =>
          refine iff_of_true ?_ (by rw [ConnLimiter.Meets, hc]; trivial)
          rw [ConnLimiter.step, ConnLimiter.release, hc]
          exact h
      | some c =>
          simp only [ConnLimiter.Meets, hc]
          by_cases hkey : c.key = ""
          · refine iff_of_true (fun key' hkey' => ?_) (.inl hkey)
            exact (limitedAt_congr (release_of_ne hc (hkey ▸ hkey') ran)).mpr (h key' hkey')
          · refine Iff.trans ⟨fun hall => hall c.key hkey, fun hat key' hkey' => ?_⟩
              ((limitedAt_release_iff hmax hs h hc hkey ran).trans (by simp [hkey]))
            by_cases hk : key' = c.key
            · exact hk ▸ hat
            · exact (limitedAt_congr (release_of_ne hc hk ran)).mpr (h key' hkey')

end Step

/-! ### Runs -/

section Runs

variable {l : ConnLimiter}

theorem run_append_singleton (s : ConnState) (acts : List ConnAct) (a : ConnAct) :
    l.run s (acts ++ [a]) = l.step (l.run s acts) a := by
  rw [ConnLimiter.run, List.foldl_append]
  rfl

theorem sound_start (clock : ℤ) : l.SoundAll (.start clock) := by
  intro key _ n hn
  cases hn

theorem limited_start (hmax : 0 < l.max) (clock : ℤ) : l.Limited (.start clock) :=
  fun _ _ => ⟨hmax.le, fun _ hn => by cases hn⟩

/-- The counters are sound in every state of a run. -/
theorem sound_run (hmax : 0 < l.max) (clock : ℤ) (acts : List ConnAct) :
    l.SoundAll (l.run (.start clock) acts) := by
  induction acts using List.reverseRecOn with
  | nil => exact sound_start clock
  | append_singleton acts a ih =>
      rw [run_append_singleton]
      exact sound_step hmax ih a

/-- **The limit along runs**: it holds in every state that a run reaches if and only if every
step of the run meets the condition. -/
theorem limited_iff (hmax : 0 < l.max) (clock : ℤ) (acts : List ConnAct) :
    (∀ done, done <+: acts → l.Limited (l.run (.start clock) done)) ↔
      ∀ done a, done ++ [a] <+: acts → l.Meets (l.run (.start clock) done) a := by
  induction acts using List.reverseRecOn with
  | nil =>
      simp only [List.prefix_nil, forall_eq, List.append_eq_nil_iff, List.cons_ne_self,
        and_false, false_implies, implies_true, iff_true]
      exact limited_start hmax clock
  | append_singleton acts a ih =>
      constructor
      · intro hall done b hdone
        rcases List.prefix_concat_iff.mp hdone with heq | hpre
        · obtain ⟨rfl, hb⟩ := List.append_inj' heq rfl
          obtain rfl := List.singleton_inj.mp hb
          have hbefore := hall done (List.prefix_append _ _)
          have hafter := hall _ (List.prefix_refl _)
          rw [run_append_singleton] at hafter
          exact (limited_step_iff hmax (sound_run hmax clock done) hbefore b).mp hafter
        · exact ih.mp (fun done hd => hall done (hd.trans (List.prefix_append _ _))) done b hpre
      · intro hmeets done hdone
        have hprev := ih.mpr fun done b hd => hmeets done b (hd.trans (List.prefix_append _ _))
        rcases List.prefix_concat_iff.mp hdone with rfl | hpre
        · rw [run_append_singleton]
          exact (limited_step_iff hmax (sound_run hmax clock acts)
            (hprev acts (List.prefix_refl _)) a).mpr (hmeets acts a (List.prefix_refl _))
        · exact hprev done hpre

/-- A limit of one connection for each address. -/
def oneConnection : ConnLimiter := ⟨1, "gateway:tcp:conn:ip", 0, false⟩

/-- A connection outlives the counter, and a second one is opened. -/
def outlived : List ConnAct :=
  [.acquire "10.0.0.9" 0 true, .tick 900, .acquire "10.0.0.9" 0 true]

/-- The connection, opened, closed and opened again. -/
theorem limited_iff_reopened :
    (∀ done, done <+: [ConnAct.acquire "10.0.0.9" 0 true, .release 0 1] →
        oneConnection.Limited (oneConnection.run (.start 0) done)) ↔
      ∀ done a, done ++ [a] <+: [ConnAct.acquire "10.0.0.9" 0 true, .release 0 1] →
        oneConnection.Meets (oneConnection.run (.start 0) done) a :=
  limited_iff (by decide) 0 _

/-- **Beyond the limit**: not every reachable state has at most as many counted connections
as the limit. -/
theorem not_limited :
    ¬∀ (l : ConnLimiter) (clock : ℤ) (acts : List ConnAct), 0 < l.max →
      l.Limited (l.run (.start clock) acts) := by
  intro h
  have hle := (h oneConnection 0 outlived (by decide) "10.0.0.9" (by decide)).1
  have htwo : (oneConnection.run (.start 0) outlived).counted "10.0.0.9" = 2 := by decide
  rw [htwo] at hle
  exact absurd hle (by decide)

end Runs

end Fctf.Gateway
