import Fctf.Lib.RedisDb
import Mathlib

/-!
# The Gateway's Rate Limiter

The gateway keeps a bucket of tokens for each key in Redis, which is refilled at a constant
rate up to the burst and out of which each request takes a token. Time is the clock that the
script reads, in whole milliseconds, and the arithmetic is exact.

A bucket expires after ten minutes without a request, and a new one is full. That is more
than the refill would have made of it if ten minutes are not enough for a full refill.

## Main results

* `count_le`: how many requests a bucket allows up to some time.
* `bounded_iff`: when no window has more requests than the burst and the refill.
* `not_bounded`: twice the burst in little more than ten minutes.
-/

open RedisDb

namespace Fctf.Gateway

/-! ### The limiter -/

/-- A bucket as the script stores it. -/
structure Bucket where
  /-- `tokens`. -/
  tokens : ℚ
  /-- `ts`: when they were counted. -/
  ts : ℤ
  deriving DecidableEq, Repr

/-- `redisRateLimiter`. -/
structure RateLimiter where
  /-- Tokens for each second. -/
  rate : ℚ
  /-- The most tokens a bucket holds. -/
  burst : ℤ
  /-- What the limiter's keys begin with. -/
  keyPrefix : String
  /-- Are requests rejected while Redis does not answer? -/
  failClosed : Bool
  deriving DecidableEq, Repr

/-- `ttl`, in seconds. -/
def bucketTtl : ℤ := 600

/-- The key of a bucket in Redis. -/
def RateLimiter.redisKey (rl : RateLimiter) (key : String) : String :=
  rl.keyPrefix ++ ":" ++ key

/-- The tokens in the bucket at time `nowMs`, after the refill. -/
def RateLimiter.tokens (rl : RateLimiter) (s : Store Bucket) (nowMs : ℤ) (redisKey : String) :
    ℚ :=
  let (tokens, ts) :=
    match s.find nowMs redisKey with
    | some e => (e.value.tokens, e.value.ts)
    | none => ((rl.burst : ℚ), nowMs)
  let delta : ℚ := (max 0 (nowMs - ts) : ℤ) / 1000
  min rl.burst (tokens + delta * rl.rate)

/-- The script. A key with a time to live is there up to and in the millisecond in which
that has passed. -/
def RateLimiter.script (rl : RateLimiter) (s : Store Bucket) (nowMs : ℤ) (redisKey : String) :
    Bool × Store Bucket :=
  let tokens := rl.tokens s nowMs redisKey
  let allowed := decide (1 ≤ tokens)
  let left := if allowed then tokens - 1 else tokens
  (allowed, s.put redisKey ⟨⟨left, nowMs⟩, some (nowMs + 1000 * bucketTtl + 1)⟩)

/-- `Allow`, with whether Redis answers. -/
def RateLimiter.allow (rl : RateLimiter) (redisAnswers : Bool) (s : Store Bucket) (nowMs : ℤ)
    (key : String) : Bool × Store Bucket :=
  if key = "" ∨ rl.rate ≤ 0 ∨ rl.burst ≤ 0 then (true, s)
  else if !redisAnswers then (!rl.failClosed, s)
  else rl.script s nowMs (rl.redisKey key)

/-! ### Runs -/

/-- A call of `Allow`. -/
structure Call where
  /-- The time, in milliseconds. -/
  time : ℤ
  /-- The key. -/
  key : String
  deriving DecidableEq, Repr

/-- The calls that are allowed, while Redis answers. -/
def RateLimiter.allowed (rl : RateLimiter) : Store Bucket → List Call → List Call
  | _, [] => []
  | s, c :: calls =>
      let (ok, s') := rl.allow true s c.time c.key
      if ok then c :: rl.allowed s' calls else rl.allowed s' calls

/-- Is the call for the key, and in the window of `length` milliseconds from `start` on? -/
def InWindow (key : String) (start length : ℚ) (c : Call) : Prop :=
  c.key = key ∧ start ≤ c.time ∧ c.time ≤ start + length

instance (key : String) (start length : ℚ) : DecidablePred (InWindow key start length) :=
  fun _ => inferInstanceAs (Decidable (_ ∧ _))

/-- **The bound of a token bucket**: from an empty Redis on, at most the burst and the refill
of the window are allowed in any window. -/
def RateLimiter.Bounded (rl : RateLimiter) (key : String) : Prop :=
  ∀ calls : List Call, calls.Pairwise (·.time ≤ ·.time) → ∀ start length : ℚ, 0 ≤ length →
    ((rl.allowed (fun _ => none) calls).countP (InWindow key start length) : ℚ) ≤
      rl.burst + rl.rate * (length / 1000)

/-! ### One call -/

variable {rl : RateLimiter} {s : Store Bucket} {key : String} {now : ℤ} {e : Slot Bucket}

/-- What is true of a bucket that the script has stored. -/
structure RateLimiter.Stored (rl : RateLimiter) (e : Slot Bucket) : Prop where
  /-- There is no debt. -/
  nonneg : 0 ≤ e.value.tokens
  /-- There is at most the burst. -/
  le_burst : e.value.tokens ≤ rl.burst
  /-- It expires ten minutes after it was counted. -/
  expireAt : e.expireAt = some (e.value.ts + 600001)

theorem redisKey_injective (rl : RateLimiter) : Function.Injective rl.redisKey := by
  intro a b h
  have hl := congrArg String.toList h
  simp only [RateLimiter.redisKey, String.toList_append, List.append_cancel_left_eq] at hl
  exact String.toList_injective hl

theorem tokens_le_burst (rl : RateLimiter) (s : Store Bucket) (now : ℤ) (redisKey : String) :
    rl.tokens s now redisKey ≤ rl.burst :=
  min_le_left _ _

theorem tokens_of_none {redisKey : String} (h : s redisKey = none) :
    rl.tokens s now redisKey = rl.burst := by
  have hfind : s.find now redisKey = none := by rw [Store.find, h, Option.filter_none]
  simp [RateLimiter.tokens, hfind]

/-- More time is more refill. -/
theorem refill_mono (hrate : 0 < rl.rate) {a b : ℚ} (h : a ≤ b) :
    rl.rate * (a / 1000) ≤ rl.rate * (b / 1000) :=
  mul_le_mul_of_nonneg_left (div_le_div_of_nonneg_right h (by norm_num)) hrate.le

/-- Between two calls a bucket gains at most the refill, if a full refill takes no more than
ten minutes; it is never in debt. -/
theorem tokens_of_some {redisKey : String} (hrate : 0 < rl.rate)
    (hfull : (1000 * rl.burst : ℚ) ≤ 600001 * rl.rate) (h : s redisKey = some e)
    (he : rl.Stored e) (hts : e.value.ts ≤ now) :
    0 ≤ rl.tokens s now redisKey ∧
      rl.tokens s now redisKey ≤ e.value.tokens + rl.rate * ((now - e.value.ts) / 1000) := by
  have hnonneg := he.nonneg
  have hburst : (0 : ℚ) ≤ rl.burst := hnonneg.trans he.le_burst
  have hgap : (0 : ℚ) ≤ now - e.value.ts := by
    have hcast : (e.value.ts : ℚ) ≤ now := by exact_mod_cast hts
    linarith
  by_cases hlive : now < e.value.ts + 600001
  · have hfind : s.find now redisKey = some e := by
      simp [Store.find, h, Slot.live, he.expireAt, hlive]
    have hdelta : ((max 0 (now - e.value.ts) : ℤ) : ℚ) = now - e.value.ts := by
      rw [max_eq_right (by omega), Int.cast_sub]
    simp only [RateLimiter.tokens, hfind, hdelta]
    constructor
    · exact le_min hburst (by positivity)
    · exact (min_le_right _ _).trans (by rw [mul_comm])
  · -- The bucket has expired, and the refill is as much as the new one has.
    have hfind : s.find now redisKey = none := by
      simp [Store.find, h, Slot.live, he.expireAt, hlive]
    have hlong : (600001 : ℚ) ≤ now - e.value.ts := by
      have hcast : ((e.value.ts + 600001 : ℤ) : ℚ) ≤ now := by exact_mod_cast not_lt.mp hlive
      push_cast at hcast
      linarith
    have htokens : rl.tokens s now redisKey = rl.burst := by
      simp [RateLimiter.tokens, hfind]
    rw [htokens]
    refine ⟨hburst, ?_⟩
    have hrefill := refill_mono hrate hlong
    linarith

/-- What a call leaves in the bucket. -/
def RateLimiter.left (rl : RateLimiter) (s : Store Bucket) (now : ℤ) (redisKey : String) : ℚ :=
  if 1 ≤ rl.tokens s now redisKey then rl.tokens s now redisKey - 1
  else rl.tokens s now redisKey

/-- A call that is allowed takes a token, another one takes none. -/
theorem left_add (rl : RateLimiter) (s : Store Bucket) (now : ℤ) (redisKey : String) :
    rl.left s now redisKey + (if 1 ≤ rl.tokens s now redisKey then 1 else 0) =
      rl.tokens s now redisKey := by
  rw [RateLimiter.left]
  split_ifs <;> ring

theorem left_nonneg {redisKey : String} (h : 0 ≤ rl.tokens s now redisKey) :
    0 ≤ rl.left s now redisKey := by
  rw [RateLimiter.left]
  split_ifs with hone
  · linarith
  · exact h

/-- The bucket after a call. -/
def RateLimiter.after (rl : RateLimiter) (s : Store Bucket) (now : ℤ) (redisKey : String) :
    Slot Bucket :=
  ⟨⟨rl.left s now redisKey, now⟩, some (now + 600001)⟩

theorem stored_after {redisKey : String} (h : 0 ≤ rl.tokens s now redisKey) :
    rl.Stored (rl.after s now redisKey) where
  nonneg := left_nonneg h
  le_burst := by
    have hle := tokens_le_burst rl s now redisKey
    have hadd := left_add rl s now redisKey
    show rl.left s now redisKey ≤ rl.burst
    split_ifs at hadd <;> linarith
  expireAt := rfl

section Allow

variable (hrate : 0 < rl.rate) (hburst : 0 < rl.burst) (hkey : key ≠ "")

include hrate hburst hkey in
/-- A call for a key. -/
theorem allow_eq (s : Store Bucket) (now : ℤ) :
    rl.allow true s now key =
      (decide (1 ≤ rl.tokens s now (rl.redisKey key)),
        s.put (rl.redisKey key) (rl.after s now (rl.redisKey key))) := by
  have hnot : ¬(key = "" ∨ rl.rate ≤ 0 ∨ rl.burst ≤ 0) := by
    simp [hkey, hrate, hburst]
  rw [RateLimiter.allow, if_neg hnot]
  simp only [Bool.not_true, Bool.false_eq_true, if_false, RateLimiter.script, bucketTtl,
    RateLimiter.after, RateLimiter.left, decide_eq_true_eq]
  norm_num [add_assoc]

/-- A call for another key leaves the bucket alone. -/
theorem allow_of_ne {key' : String} (hne : key' ≠ key) (s : Store Bucket) (now : ℤ) :
    (rl.allow true s now key').2 (rl.redisKey key) = s (rl.redisKey key) := by
  by_cases hoff : key' = "" ∨ rl.rate ≤ 0 ∨ rl.burst ≤ 0
  · rw [RateLimiter.allow, if_pos hoff]
  · have hredis : rl.redisKey key ≠ rl.redisKey key' := fun h =>
      hne (redisKey_injective rl h).symm
    rw [RateLimiter.allow, if_neg hoff]
    simp [RateLimiter.script, Store.put, hredis]

end Allow

/-! ### Runs -/

/-- The number of calls of a run that are allowed in a window. -/
def RateLimiter.count (rl : RateLimiter) (s : Store Bucket) (calls : List Call) (key : String)
    (start length : ℚ) : ℕ :=
  (rl.allowed s calls).countP (InWindow key start length)

theorem allowed_sublist (rl : RateLimiter) (s : Store Bucket) (calls : List Call) :
    (rl.allowed s calls).Sublist calls := by
  induction calls generalizing s with
  | nil => exact List.Sublist.slnil
  | cons c calls ih =>
      rw [RateLimiter.allowed]
      dsimp only
      split_ifs
      · exact (ih _).cons_cons c
      · exact (ih _).cons c

/-- Nothing is counted if no call is in the window. -/
theorem count_eq_zero {calls : List Call} {start length : ℚ}
    (h : ∀ c ∈ calls, ¬InWindow key start length c) : rl.count s calls key start length = 0 := by
  rw [RateLimiter.count, List.countP_eq_zero]
  intro c hc
  simpa using h c ((allowed_sublist rl s calls).subset hc)

/-- A call that is not in the window is not counted. -/
theorem count_cons_of_not {c : Call} {calls : List Call} {start length : ℚ}
    (h : ¬InWindow key start length c) :
    rl.count s (c :: calls) key start length =
      rl.count (rl.allow true s c.time c.key).2 calls key start length := by
  rw [RateLimiter.count, RateLimiter.allowed]
  dsimp only
  split_ifs
  · rw [List.countP_cons_of_neg (by simpa using h), RateLimiter.count]
  · rw [RateLimiter.count]

/-- A call that is in the window is counted if it is allowed. -/
theorem count_cons {c : Call} {calls : List Call} {start length : ℚ}
    (h : InWindow key start length c) :
    rl.count s (c :: calls) key start length =
      (if (rl.allow true s c.time c.key).1 then 1 else 0) +
        rl.count (rl.allow true s c.time c.key).2 calls key start length := by
  rw [RateLimiter.count, RateLimiter.allowed]
  dsimp only
  split_ifs
  · rw [List.countP_cons_of_pos (by simpa using h), RateLimiter.count, add_comm]
  · rw [RateLimiter.count, zero_add]

section Bound

variable (hrate : 0 < rl.rate) (hburst : 0 < rl.burst) (hkey : key ≠ "")

include hrate hburst hkey in
/-- What a call for the key adds to the count is what it takes out of the bucket, if that. -/
theorem count_cons_le {c : Call} (hck : c.key = key) (s : Store Bucket) (calls : List Call)
    (start length : ℚ) :
    (rl.count s (c :: calls) key start length : ℚ) ≤
      rl.tokens s c.time (rl.redisKey key) - rl.left s c.time (rl.redisKey key) +
        rl.count (s.put (rl.redisKey key) (rl.after s c.time (rl.redisKey key))) calls key start
          length := by
  have hallow := allow_eq hrate hburst hkey s c.time
  have htaken : rl.tokens s c.time (rl.redisKey key) - rl.left s c.time (rl.redisKey key) =
      if 1 ≤ rl.tokens s c.time (rl.redisKey key) then 1 else 0 := by
    have hadd := left_add rl s c.time (rl.redisKey key)
    linarith
  rw [htaken]
  by_cases hwindow : InWindow key start length c
  · rw [count_cons hwindow, hck, hallow]
    simp only [decide_eq_true_eq]
    push_cast
    exact le_rfl
  · rw [count_cons_of_not hwindow, hck, hallow]
    have hindicator : (0 : ℚ) ≤ if 1 ≤ rl.tokens s c.time (rl.redisKey key) then 1 else 0 := by
      split_ifs <;> norm_num
    linarith

variable (hfull : (1000 * rl.burst : ℚ) ≤ 600001 * rl.rate)

include hrate hburst hkey hfull

/-- **How many calls a bucket allows** from now on to the end of the window: its tokens and
the refill. -/
theorem count_le {calls : List Call} {start length : ℚ} (hs : s (rl.redisKey key) = some e)
    (he : rl.Stored e) (hend : (e.value.ts : ℚ) ≤ start + length)
    (hlater : ∀ c ∈ calls, e.value.ts ≤ c.time) (hsorted : calls.Pairwise (·.time ≤ ·.time)) :
    (rl.count s calls key start length : ℚ) ≤
      e.value.tokens + rl.rate * ((start + length - e.value.ts) / 1000) := by
  have hnonneg := he.nonneg
  have hrest : 0 ≤ rl.rate * ((start + length - e.value.ts) / 1000) :=
    mul_nonneg hrate.le (div_nonneg (sub_nonneg.mpr hend) (by norm_num))
  induction calls generalizing s e with
  | nil =>
      rw [count_eq_zero (by simp), Nat.cast_zero]
      exact add_nonneg hnonneg hrest
  | cons c calls ih =>
      obtain ⟨hc, hsorted⟩ := List.pairwise_cons.mp hsorted
      have hts := hlater c List.mem_cons_self
      by_cases hcend : (c.time : ℚ) ≤ start + length
      · by_cases hck : c.key = key
        · -- The call takes its token, and the rest of the run has what is left.
          obtain ⟨htokens, hle⟩ := tokens_of_some hrate hfull hs he hts
          have hcons := count_cons_le hrate hburst hkey hck s calls start length
          have hrun : (rl.count (s.put (rl.redisKey key) (rl.after s c.time (rl.redisKey key)))
                calls key start length : ℚ) ≤
              rl.left s c.time (rl.redisKey key) +
                rl.rate * ((start + length - c.time) / 1000) :=
            @ih _ (rl.after s c.time (rl.redisKey key)) (Function.update_self ..)
              (stored_after htokens) hcend hc hsorted (left_nonneg htokens)
              (mul_nonneg hrate.le (div_nonneg (sub_nonneg.mpr hcend) (by norm_num)))
          have hsplit : rl.rate * ((start + length - c.time) / 1000) +
              rl.rate * ((c.time - e.value.ts) / 1000) =
                rl.rate * ((start + length - e.value.ts) / 1000) := by ring
          linarith only [hle, hcons, hrun, hsplit]
        · have hnot : ¬InWindow key start length c := fun h => hck h.1
          rw [count_cons_of_not hnot]
          refine ih ?_ he hend (fun c' hc' => hlater c' (List.mem_cons_of_mem c hc')) hsorted
            hnonneg hrest
          rw [allow_of_ne hck, hs]
      · have hzero : rl.count s (c :: calls) key start length = 0 := by
          refine count_eq_zero fun c' hc' hwindow => hcend ?_
          rcases List.mem_cons.mp hc' with rfl | hmem
          · exact hwindow.2.2
          · have hle : (c.time : ℚ) ≤ c'.time := by exact_mod_cast hc c' hmem
            exact hle.trans hwindow.2.2
        rw [hzero, Nat.cast_zero]
        exact add_nonneg hnonneg hrest

/-- A window has at most the burst and its refill. -/
theorem count_le_of_stored {calls : List Call} {start length : ℚ} (hlength : 0 ≤ length)
    (hs : ∀ e, s (rl.redisKey key) = some e →
      rl.Stored e ∧ ∀ c ∈ calls, e.value.ts ≤ c.time)
    (hsorted : calls.Pairwise (·.time ≤ ·.time)) :
    (rl.count s calls key start length : ℚ) ≤ rl.burst + rl.rate * (length / 1000) := by
  have hb : (0 : ℚ) < rl.burst := by exact_mod_cast hburst
  induction calls generalizing s with
  | nil =>
      rw [count_eq_zero (by simp), Nat.cast_zero]
      exact add_nonneg hb.le (mul_nonneg hrate.le (by positivity))
  | cons c calls ih =>
      obtain ⟨hc, hsorted'⟩ := List.pairwise_cons.mp hsorted
      by_cases hck : c.key = key
      · have htokens : 0 ≤ rl.tokens s c.time (rl.redisKey key) := by
          cases hfind : s (rl.redisKey key) with
          | none =>
              rw [tokens_of_none hfind]
              exact hb.le
          | some e =>
              obtain ⟨he, hlater⟩ := hs e hfind
              exact (tokens_of_some hrate hfull hfind he (hlater c List.mem_cons_self)).1
        have hstored := stored_after htokens
        by_cases hwindow : InWindow key start length c
        · -- The window begins here, with a bucket that is full at best.
          have hcons := count_cons_le hrate hburst hkey hck s calls start length
          have hrun : (rl.count (s.put (rl.redisKey key) (rl.after s c.time (rl.redisKey key)))
                calls key start length : ℚ) ≤
              rl.left s c.time (rl.redisKey key) +
                rl.rate * ((start + length - c.time) / 1000) :=
            count_le (e := rl.after s c.time (rl.redisKey key)) hrate hburst hkey hfull
              (Function.update_self ..) hstored hwindow.2.2 hc hsorted'
          have hle := tokens_le_burst rl s c.time (rl.redisKey key)
          have hlast : rl.rate * ((start + length - c.time) / 1000) ≤
              rl.rate * (length / 1000) := by
            have hstart : start ≤ c.time := hwindow.2.1
            exact refill_mono hrate (by linarith only [hstart])
          linarith only [hcons, hrun, hle, hlast]
        · rw [count_cons_of_not hwindow, hck, allow_eq hrate hburst hkey]
          refine ih (fun e he => ?_) hsorted'
          dsimp only at he
          rw [Store.put, Function.update_self] at he
          cases he
          exact ⟨hstored, hc⟩
      · have hnot : ¬InWindow key start length c := fun h => hck h.1
        rw [count_cons_of_not hnot]
        refine ih (fun e he => ?_) hsorted'
        rw [allow_of_ne hck] at he
        obtain ⟨hstored, hlater⟩ := hs e he
        exact ⟨hstored, fun c' hc' => hlater c' (List.mem_cons_of_mem c hc')⟩

end Bound

/-! ### Twice the burst -/

/-- A second call at the same time finds what the first has left. -/
theorem tokens_put (s : Store Bucket) (now : ℤ) :
    rl.tokens (s.put (rl.redisKey key) (rl.after s now (rl.redisKey key))) now
        (rl.redisKey key) =
      rl.left s now (rl.redisKey key) := by
  have hle : rl.left s now (rl.redisKey key) ≤ rl.burst := by
    have htokens := tokens_le_burst rl s now (rl.redisKey key)
    rw [RateLimiter.left]
    split_ifs <;> linarith
  have hfind : (s.put (rl.redisKey key) (rl.after s now (rl.redisKey key))).find now
      (rl.redisKey key) = some (rl.after s now (rl.redisKey key)) := by
    rw [Store.find_put_same, if_pos (by simp [Slot.live, RateLimiter.after])]
  rw [RateLimiter.tokens, hfind]
  simp [RateLimiter.after, hle]

section Burst

variable (hrate : 0 < rl.rate) (hburst : 0 < rl.burst) (hkey : key ≠ "")

include hrate hburst hkey

/-- As many calls at once as there are tokens are all allowed. -/
theorem count_replicate (n : ℕ) (start length : ℚ) {s : Store Bucket}
    (hwindow : InWindow key start length ⟨now, key⟩) (calls : List Call)
    (hs : (n : ℚ) ≤ rl.tokens s now (rl.redisKey key)) :
    ∃ s' : Store Bucket,
      rl.count s (List.replicate n ⟨now, key⟩ ++ calls) key start length =
        n + rl.count s' calls key start length ∧
      (n = 0 ∧ s' = s ∨ ∃ tokens,
        s' (rl.redisKey key) = some ⟨⟨tokens, now⟩, some (now + 600001)⟩) := by
  induction n generalizing s with
  | zero => exact ⟨s, by simp, .inl ⟨rfl, rfl⟩⟩
  | succ n ih =>
      push_cast at hs
      have hn : (0 : ℚ) ≤ n := n.cast_nonneg
      have hone : 1 ≤ rl.tokens s now (rl.redisKey key) := by linarith
      have hallow := allow_eq hrate hburst hkey s now
      rw [decide_eq_true hone] at hallow
      have hleft : (n : ℚ) ≤ rl.left s now (rl.redisKey key) := by
        rw [RateLimiter.left, if_pos hone]
        linarith
      rw [← tokens_put] at hleft
      obtain ⟨s', hcount, hs'⟩ := ih hleft
      refine ⟨s', ?_, .inr ?_⟩
      · rw [List.replicate_succ, List.cons_append, count_cons hwindow, hallow]
        simp only [if_true]
        rw [hcount]
        ring
      · rcases hs' with ⟨-, rfl⟩ | hs'
        · exact ⟨rl.left s now (rl.redisKey key), Function.update_self ..⟩
        · exact hs'

/-- **Twice the burst** is allowed in the window of a bucket's life and a new bucket's
beginning. -/
theorem count_twice :
    ∃ calls : List Call, calls.Pairwise (·.time ≤ ·.time) ∧
      (rl.count (fun _ => none) calls key 0 600001 : ℚ) = 2 * rl.burst := by
  obtain ⟨n, hn⟩ := Int.eq_ofNat_of_zero_le hburst.le
  have hcast : (rl.burst : ℚ) = n := by rw [hn, Int.cast_natCast]
  have hfirst : (n : ℚ) ≤ rl.tokens (fun _ => none) 0 (rl.redisKey key) := by
    rw [tokens_of_none rfl, hcast]
  obtain ⟨s', hcount, hs'⟩ := count_replicate hrate hburst hkey n 0 600001
    ⟨rfl, by norm_num, by norm_num⟩ (List.replicate n ⟨600001, key⟩) hfirst
  have hsecond : (n : ℚ) ≤ rl.tokens s' 600001 (rl.redisKey key) := by
    rcases hs' with ⟨hzero, -⟩ | ⟨tokens, hs'⟩
    · omega
    · have hfind : s'.find 600001 (rl.redisKey key) = none := by
        simp [Store.find, hs', Slot.live]
      simp [RateLimiter.tokens, hfind, hcast]
  obtain ⟨s'', hcount', -⟩ := count_replicate hrate hburst hkey n 0 600001
    ⟨rfl, by norm_num, by norm_num⟩ [] hsecond
  have hempty : rl.count s'' [] key 0 600001 = 0 := rfl
  rw [List.append_nil, hempty] at hcount'
  refine ⟨List.replicate n ⟨0, key⟩ ++ List.replicate n ⟨600001, key⟩, ?_, ?_⟩
  · simp only [List.pairwise_append, List.pairwise_replicate, List.mem_replicate]
    refine ⟨.inr le_rfl, .inr le_rfl, ?_⟩
    rintro a ⟨-, rfl⟩ b ⟨-, rfl⟩
    norm_num
  · rw [hcount, hcount', hcast]
    push_cast
    ring

end Burst

/-- **When a bucket keeps its bound**: if a full refill takes no longer than it takes the
bucket to expire, ten minutes and a millisecond. -/
theorem bounded_iff (rl : RateLimiter) (key : String) (hrate : 0 < rl.rate)
    (hburst : 0 < rl.burst) (hkey : key ≠ "") :
    rl.Bounded key ↔ (1000 * rl.burst : ℚ) ≤ 600001 * rl.rate := by
  constructor
  · intro h
    obtain ⟨calls, hsorted, htwice⟩ := count_twice hrate hburst hkey
    have hle := h calls hsorted 0 600001 (by norm_num)
    rw [← RateLimiter.count, htwice] at hle
    linarith
  · intro hfull calls hsorted start length hlength
    exact count_le_of_stored hrate hburst hkey hfull hlength (fun e he => by cases he) hsorted

/-- The default limits of the gateway keep their bound. -/
theorem bounded_iff_default :
    (RateLimiter.mk 300 600 "fctf:gateway:http:rl" false).Bounded "10.0.0.1" ↔
      (1000 * (600 : ℤ) : ℚ) ≤ 600001 * 300 :=
  bounded_iff _ "10.0.0.1" (by norm_num) (by norm_num) (by decide)

/-- A burst of ten, and one token in a thousand seconds: ten requests, and ten more ten minutes
later. -/
theorem not_bounded :
    ¬(RateLimiter.mk (1 / 1000) 10 "fctf:gateway:http:rl" false).Bounded "10.0.0.1" := by
  intro h
  obtain ⟨calls, hsorted, htwice⟩ := @count_twice
    (RateLimiter.mk (1 / 1000) 10 "fctf:gateway:http:rl" false) "10.0.0.1" (by norm_num)
    (by norm_num) (by decide)
  have hle := h calls hsorted 0 600001 (by norm_num)
  rw [← RateLimiter.count, htwice] at hle
  norm_num at hle

end Fctf.Gateway
