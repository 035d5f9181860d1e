import Fctf.Registration

/-!
# The Limit on Users

With a limit, registrations count the users and write their row under one lock, which runs
out after ten seconds. As long as no call outlives its lock, at most one of them stands
between the count and its commit, and so the limit is kept.

## Main results

* `registrationCap`: in every such run the number of users stays within the limit; a call releases the
  lock exactly if it has acquired it, and leaves no row behind when it fails before its commit.
-/

open Concurrent RedisDb

namespace Fctf

namespace Accounts

/-! ### What a call has done -/

/-- The lock is acquired. -/
def acquires : (o : AccountOp) → Except Exn o.Reply → Bool
  | .lock (.setIfNotExists _ _ _), .ok true => true
  | _, _ => false

/-- The lock is released. -/
def releases : AccountOp → Bool
  | .lock (.compareAndDelete _ _) => true
  | _ => false

/-- The transaction that is begun. -/
def begins : (o : AccountOp) → Except Exn o.Reply → Option ℕ
  | .beginTransaction, .ok tx => some tx
  | _, _ => none

/-- A commit reaches the database. -/
def commits : AccountOp → AccountEnv → Bool
  | .commit _, e => decide (e.fault ≠ .before)
  | _, _ => false

/-- A request to the lock fails. -/
def lockFails : AccountOp → AccountEnv → Bool
  | .lock _, e => decide (e.fault ≠ .none)
  | _, _ => false

/-- What is known of a registration. -/
@[ext]
structure Seat where
  token : String
  q : Standing
  /-- When the lock runs out that it has acquired. -/
  deadline : Option ℤ
  /-- Has it released the lock? -/
  released : Bool
  /-- Its transaction. -/
  began : Option ℕ
  /-- Has a commit of it reached the database? -/
  reached : Bool
  /-- Has a request of it to the lock failed? -/
  failed : Bool

/-- When a lock runs out that is acquired now. -/
def runsOut (s : AccountWorld) (o : AccountOp) (r : Except Exn o.Reply) : Option ℤ :=
  if acquires o r = true then some (s.lock.clock + 10000) else none

/-- What is known of it after one more operation. -/
def Seat.next (x : Seat) (s : AccountWorld) (e : AccountEnv) (o : AccountOp)
    (r : Except Exn o.Reply) : Seat where
  token := x.token
  q := registerNext x.q o r
  deadline := x.deadline.or (runsOut s o r)
  released := x.released || releases o
  began := x.began.or (begins o r)
  reached := x.reached || commits o e
  failed := x.failed || lockFails o e

/-! ### The lock -/

/-- **Who holds the lock.** `f` tells what is known of every registration. -/
structure Locked (s : AccountWorld) (f : ℕ → Option Seat) : Prop where
  /-- Tokens are distinct. -/
  tokens : ∀ pid pid' x x', f pid = some x → f pid' = some x' → x.token = x'.token → pid = pid'
  /-- A lock that was acquired is held until it runs out. -/
  holds : ∀ pid x, f pid = some x → x.q.lock = .held ∨ x.q.lock = .counted →
    ∃ t, x.deadline = some t ∧ (s.lock.clock < t →
      s.lock.locks.find s.lock.clock registrationLimitLockKey = some ⟨x.token, some t⟩)

/-- Is the call still in time? -/
def InTime (s : AccountWorld) (x : Seat) : Prop := ∀ t, x.deadline = some t → s.lock.clock < t

/-- What a call's history tells about its standing. -/
structure Seat.Sound (x : Seat) : Prop where
  /-- The lock. -/
  deadline : x.deadline = none ↔ x.q.lock = .out
  released : x.released = true ↔ x.q.lock = .back
  /-- The transaction. -/
  began : x.began = x.q.row.tx

section Lock

variable {db : Database} {s : AccountWorld} {e : AccountEnv} {f : ℕ → Option Seat} {pid : ℕ}
  {x : Seat} {o : AccountOp}

/-- **One call at a time** holds the lock. -/
theorem Locked.unique (h : Locked s f) {pid' : ℕ} {x' : Seat} (hx : f pid = some x)
    (hx' : f pid' = some x') (hlock : x.q.lock = .held ∨ x.q.lock = .counted)
    (hlock' : x'.q.lock = .held ∨ x'.q.lock = .counted) (htime : InTime s x)
    (htime' : InTime s x') : pid = pid' := by
  obtain ⟨t, ht, hfind⟩ := h.holds pid x hx hlock
  obtain ⟨t', ht', hfind'⟩ := h.holds pid' x' hx' hlock'
  have hsame := (hfind (htime t ht)).symm.trans (hfind' (htime' t' ht'))
  exact h.tokens pid pid' x x' hx hx' (Slot.mk.inj (Option.some.inj hsame)).1

/-- A call moves on: its token stays, and what it knows of the lock has to be shown. -/
theorem Locked.update {s' : AccountWorld} {x' : Seat} (h : Locked s f) (hx : f pid = some x)
    (htoken : x'.token = x.token)
    (hown : x'.q.lock = .held ∨ x'.q.lock = .counted → ∃ t, x'.deadline = some t ∧
      (s'.lock.clock < t → s'.lock.locks.find s'.lock.clock registrationLimitLockKey =
        some ⟨x'.token, some t⟩))
    (hothers : ∀ pid' y, pid' ≠ pid → f pid' = some y → y.q.lock = .held ∨ y.q.lock = .counted →
      ∃ t, y.deadline = some t ∧
        (s'.lock.clock < t → s'.lock.locks.find s'.lock.clock registrationLimitLockKey =
          some ⟨y.token, some t⟩)) :
    Locked s' (Function.update f pid (some x')) where
  tokens pid₁ pid₂ x₁ x₂ h₁ h₂ hsame := by
    have hback {pid' : ℕ} {y : Seat} (hy : Function.update f pid (some x') pid' = some y) :
        ∃ y', f pid' = some y' ∧ y'.token = y.token := by
      by_cases hne : pid' = pid
      · subst hne
        rw [Function.update_self] at hy
        obtain rfl := Option.some.inj hy
        exact ⟨x, hx, htoken.symm⟩
      · rw [Function.update_of_ne hne] at hy
        exact ⟨y, hy, rfl⟩
    obtain ⟨y₁, hy₁, htoken₁⟩ := hback h₁
    obtain ⟨y₂, hy₂, htoken₂⟩ := hback h₂
    exact h.tokens pid₁ pid₂ y₁ y₂ hy₁ hy₂ (htoken₁.trans (hsame.trans htoken₂.symm))
  holds pid' y hy hlock := by
    by_cases hne : pid' = pid
    · subst hne
      rw [Function.update_self] at hy
      obtain rfl := Option.some.inj hy
      exact hown hlock
    · rw [Function.update_of_ne hne] at hy
      exact hothers pid' y hne hy hlock

/-- Time passes. -/
theorem Locked.later (h : Locked s f) (d : ℕ) :
    Locked { s with lock := { s.lock with clock := s.lock.clock + d } } f where
  tokens := h.tokens
  holds pid x hx hlock := by
    obtain ⟨t, ht, hfind⟩ := h.holds pid x hx hlock
    refine ⟨t, ht, fun hlt => ?_⟩
    change s.lock.clock + d < t at hlt
    refine Store.find_later (hfind (by omega)) fun t' ht' => ?_
    exact Option.some.inj ht' ▸ hlt

/-- Other operations do not touch the locks. -/
theorem exec_lock (h : ∀ o', o ≠ .lock o') : (accountExec db e o s).2.lock = s.lock := by
  have hfault {α : Type} {exn : Exn} {run : AccountWorld → Except Exn α × AccountWorld}
      (hrun : (run s).2.lock = s.lock) : (e.fault.apply exn run s).2.lock = s.lock := by
    cases e.fault with
    | none => exact hrun
    | before => rfl
    | after => exact hrun
  by_cases hquiet : o.quiet = true
  · cases o with
    | lock o => exact absurd rfl (h o)
    | verifyCaptcha token => exact hfault rfl
    | insertEntries tx userId entries => exact hfault rfl
    | getConfig _ | countUsers | emailExists _ | userFields | findUser _ | findContest _
    | participantsOf _ | findByEmail _ => exact congrArg AccountWorld.lock (read_snd _)
    | nameExists _ | beginTransaction | insertUser _ _ _ | commit _ | rollback _
    | saveChanges _ => cases hquiet
  · cases o with
    | nameExists name => exact congrArg AccountWorld.lock (read_snd _)
    | beginTransaction => exact hfault rfl
    | insertUser tx email name =>
        refine hfault ?_
        split <;> rfl
    | commit tx => exact hfault rfl
    | rollback tx => rfl
    | saveChanges rows =>
        refine hfault ?_
        rw [Database.saveChanges]
        split <;> rfl
    | getConfig _ | verifyCaptcha _ | lock _ | countUsers | emailExists _ | userFields
    | insertEntries _ _ _ | findUser _ | findContest _ | participantsOf _ | findByEmail _ =>
        exact absurd rfl hquiet

/-- Other operations acquire nothing. -/
theorem acquires_eq_false (h : ∀ o', o ≠ .lock o') (r : Except Exn o.Reply) :
    acquires o r = false := by
  cases o with
  | lock o => exact absurd rfl (h o)
  | _ => rfl

/-- Other operations are done under the lock that is held already. -/
theorem registerNext_held {token : String} {q : Standing} (h : ∀ o', o ≠ .lock o')
    (hallowed : registerAllows token q o) (r : Except Exn o.Reply)
    (hlock : (registerNext q o r).lock = .held ∨ (registerNext q o r).lock = .counted) :
    q.lock = .held ∨ q.lock = .counted := by
  cases o with
  | lock o => exact absurd rfl (h o)
  | countUsers => exact .inl hallowed
  | getConfig key =>
      cases r with
      | error exn => exact hlock
      | ok value =>
          change (if key = "num_users" then { q with limit := some (toInt 0 value) } else q).lock
            = _ ∨ (if key = "num_users" then { q with limit := some (toInt 0 value) } else q).lock
            = _ at hlock
          split at hlock <;> exact hlock
  | nameExists name =>
      match r with
      | .error exn => exact hlock
      | .ok true => exact hlock
      | .ok false => exact hlock
  | verifyCaptcha _ | emailExists _ | userFields | beginTransaction | insertUser _ _ _
  | insertEntries _ _ _ | commit _ | rollback _ | findUser _ | findContest _ | participantsOf _
  | findByEmail _ | saveChanges _ => cases r <;> exact hlock

/-- A call that is in time has its token in the key. -/
theorem Locked.token_of_inTime (h : Locked s f) (hx : f pid = some x)
    (hheld : x.q.lock = .held ∨ x.q.lock = .counted) :
    ∃ t, x.deadline = some t ∧ (s.lock.clock < t →
      s.lock.token registrationLimitLockKey = some x.token) := by
  obtain ⟨t, ht, hfind⟩ := h.holds pid x hx hheld
  refine ⟨t, ht, fun hlt => ?_⟩
  rw [RedisLock.LockWorld.token, hfind hlt]
  rfl

/-- The key is set. -/
theorem Locked.acquire (h : Locked s f) (hx : f pid = some x) (hsound : x.Sound)
    (hlock : x.q.lock = .out) :
    Locked (accountExec db e
        (.lock (.setIfNotExists registrationLimitLockKey x.token (some 10000))) s).2
      (Function.update f pid (some (x.next s e
        (.lock (.setIfNotExists registrationLimitLockKey x.token (some 10000)))
        (accountExec db e
          (.lock (.setIfNotExists registrationLimitLockKey x.token (some 10000))) s).1))) := by
  have hafter : (accountExec db e
      (.lock (.setIfNotExists registrationLimitLockKey x.token (some 10000))) s).2.lock = _ :=
    RedisLock.exec_setIfNotExists e.fault registrationLimitLockKey x.token (some 10000) s.lock
  refine h.update hx rfl (fun hheld => ?_) fun pid' y _ hy hheld => ?_
  · match hr : (accountExec db e
        (.lock (.setIfNotExists registrationLimitLockKey x.token (some 10000))) s).1 with
    | .error exn =>
        rw [hr] at hheld
        change x.q.lock = .held ∨ x.q.lock = .counted at hheld
        rw [hlock] at hheld
        obtain hheld | hheld := hheld <;> cases hheld
    | .ok false =>
        rw [hr] at hheld
        change x.q.lock = .held ∨ x.q.lock = .counted at hheld
        rw [hlock] at hheld
        obtain hheld | hheld := hheld <;> cases hheld
    | .ok true =>
        refine ⟨s.lock.clock + 10000, ?_, fun _ => ?_⟩
        · change x.deadline.or (some (s.lock.clock + 10000)) = _
          rw [hsound.deadline.mpr hlock]
          rfl
        · exact RedisLock.find_of_setIfNotExists hr
  · rw [hafter]
    split
    · next hset =>
        -- nobody was in time
        obtain ⟨t, ht, htoken⟩ := h.token_of_inTime hy hheld
        refine ⟨t, ht, fun hlt => ?_⟩
        rw [htoken hlt] at hset
        cases hset.2.2
    · exact h.holds pid' y hy hheld

/-- The key is given back. -/
theorem Locked.release (h : Locked s f) (hx : f pid = some x) :
    Locked (accountExec db e
        (.lock (.compareAndDelete registrationLimitLockKey x.token)) s).2
      (Function.update f pid (some (x.next s e
        (.lock (.compareAndDelete registrationLimitLockKey x.token))
        (accountExec db e
          (.lock (.compareAndDelete registrationLimitLockKey x.token)) s).1))) := by
  have hafter : (accountExec db e
      (.lock (.compareAndDelete registrationLimitLockKey x.token)) s).2.lock = _ :=
    RedisLock.exec_compareAndDelete e.fault registrationLimitLockKey x.token s.lock
  refine h.update hx rfl (fun hheld => ?_) fun pid' y hne hy hheld => ?_
  · have hback (r) : (registerNext x.q
        (.lock (.compareAndDelete registrationLimitLockKey x.token)) r).lock = .back := by
      cases r <;> rfl
    have hlock := hback (accountExec db e
      (.lock (.compareAndDelete registrationLimitLockKey x.token)) s).1
    change (registerNext _ _ _).lock = _ ∨ (registerNext _ _ _).lock = _ at hheld
    rw [hlock] at hheld
    obtain hheld | hheld := hheld <;> cases hheld
  · rw [hafter]
    split
    · next hown =>
        -- the key holds another token than that of a call in time
        obtain ⟨t, ht, htoken⟩ := h.token_of_inTime hy hheld
        refine ⟨t, ht, fun hlt => ?_⟩
        exact absurd (h.tokens pid' pid y x hy hx
          (Option.some.inj ((htoken hlt).symm.trans hown.2))) hne
    · exact h.holds pid' y hy hheld

/-- **One operation** keeps the lock with its holder. -/
theorem Locked.act (h : Locked s f) (hx : f pid = some x) (hsound : x.Sound)
    (hallowed : registerAllows x.token x.q o) :
    Locked (accountExec db e o s).2
      (Function.update f pid (some (x.next s e o (accountExec db e o s).1))) := by
  by_cases hother : ∀ o', o ≠ .lock o'
  · have hlock : (accountExec db e o s).2.lock = s.lock := exec_lock hother
    refine h.update hx rfl (fun hheld => ?_) fun pid' y _ hy hheld => ?_
    · obtain ⟨t, ht, hfind⟩ := h.holds pid x hx (registerNext_held hother hallowed _ hheld)
      refine ⟨t, ?_, hlock ▸ hfind⟩
      change x.deadline.or _ = some t
      rw [ht]
      rfl
    · exact hlock ▸ h.holds pid' y hy hheld
  · push Not at hother
    obtain ⟨o, rfl⟩ := hother
    cases o with
    | setIfNotExists key token expiry =>
        obtain ⟨rfl, rfl, rfl, hlock, -⟩ := hallowed
        exact h.acquire hx hsound hlock
    | compareAndDelete key token =>
        obtain ⟨rfl, rfl, -⟩ := hallowed
        exact h.release hx
    | delay ms =>
        refine h.update hx rfl (fun hheld => ?_) fun pid' y _ hy hheld => h.holds pid' y hy hheld
        have hsame : (registerNext x.q (.lock (.delay ms))
            (accountExec db e (.lock (.delay ms)) s).1).lock = .out := by
          rw [← show x.q.lock = .out from hallowed]
          generalize (accountExec db e (.lock (.delay ms)) s).1 = r
          cases r <;> rfl
        change (registerNext _ _ _).lock = _ ∨ (registerNext _ _ _).lock = _ at hheld
        rw [hsame] at hheld
        obtain hheld | hheld := hheld <;> cases hheld

/-- What the count and the settings lead to. -/
theorem registerNext_countUsers (q : Standing) (currentUsers : ℕ) :
    registerNext q .countUsers (.ok currentUsers) = q ∨
      (registerNext q .countUsers (.ok currentUsers) = { q with lock := .counted } ∧
        ∀ n, q.limit = some n → (currentUsers : ℤ) + 1 ≤ n) := by
  change (if q.limit.any (fun n => decide (n < (currentUsers : ℤ) + 1)) then q
    else { q with lock := .counted }) = _ ∨ (if q.limit.any (fun n =>
      decide (n < (currentUsers : ℤ) + 1)) then q else { q with lock := .counted }) = _ ∧ _
  split
  · exact .inl rfl
  · next hroom =>
      refine .inr ⟨rfl, fun n hn => ?_⟩
      rw [hn, Option.any_some, decide_eq_true_iff] at hroom
      exact Int.not_lt.mp hroom

theorem registerNext_getConfig (q : Standing) (key : String) (value : Option ConfigValue) :
    registerNext q (.getConfig key) (.ok value) = q ∨
      (registerNext q (.getConfig key) (.ok value) = { q with limit := some (toInt 0 value) } ∧
        key = "num_users") := by
  change (if key = "num_users" then { q with limit := some (toInt 0 value) } else q) = _ ∨
    (if key = "num_users" then { q with limit := some (toInt 0 value) } else q) = _ ∧ _
  split
  · next hkey => exact .inr ⟨rfl, hkey⟩
  · exact .inl rfl

/-- **A lock that is not held** by a call does not show its token, unless a request has failed. -/
def Unheld (s : AccountWorld) (f : ℕ → Option Seat) : Prop :=
  ∀ pid x, f pid = some x → x.failed = false → x.q.lock = .out ∨ x.q.lock = .back →
    s.lock.token registrationLimitLockKey ≠ some x.token

/-- Other operations do not return the lock. -/
theorem registerNext_free {token : String} {q : Standing} (h : ∀ o', o ≠ .lock o')
    (hallowed : registerAllows token q o) (r : Except Exn o.Reply)
    (hlock : (registerNext q o r).lock = .out ∨ (registerNext q o r).lock = .back) :
    q.lock = .out ∨ q.lock = .back := by
  cases o with
  | lock o => exact absurd rfl (h o)
  | countUsers =>
      have hheld : q.lock = .held := hallowed
      match r with
      | .error exn => exact hlock
      | .ok (currentUsers : ℕ) =>
          obtain hnext | ⟨hnext, -⟩ := registerNext_countUsers q currentUsers
          · rwa [hnext] at hlock
          · rw [hnext] at hlock
            obtain hlock | hlock := hlock <;> cases hlock
  | getConfig key =>
      cases r with
      | error exn => exact hlock
      | ok value =>
          obtain hnext | ⟨hnext, -⟩ := registerNext_getConfig q key value <;> rwa [hnext] at hlock
  | nameExists name =>
      match r with
      | .error exn => exact hlock
      | .ok true => exact hlock
      | .ok false => exact hlock
  | verifyCaptcha _ | emailExists _ | userFields | beginTransaction | insertUser _ _ _
  | insertEntries _ _ _ | commit _ | rollback _ | findUser _ | findContest _ | participantsOf _
  | findByEmail _ | saveChanges _ => cases r <;> exact hlock

/-- **One operation** leaves no token behind. -/
theorem Unheld.act (h : Unheld s f) (hlocked : Locked s f) (hx : f pid = some x)
    (hallowed : registerAllows x.token x.q o) :
    Unheld (accountExec db e o s).2
      (Function.update f pid (some (x.next s e o (accountExec db e o s).1))) := by
  -- the token of another call does not appear, and its own not without the lock
  have hsplit (hown : (x.failed || lockFails o e) = false →
        (registerNext x.q o (accountExec db e o s).1).lock = .out ∨
          (registerNext x.q o (accountExec db e o s).1).lock = .back →
        (accountExec db e o s).2.lock.token registrationLimitLockKey ≠ some x.token)
      (hother : ∀ token, token ≠ x.token →
        (accountExec db e o s).2.lock.token registrationLimitLockKey = some token →
          s.lock.token registrationLimitLockKey = some token) :
      Unheld (accountExec db e o s).2
        (Function.update f pid (some (x.next s e o (accountExec db e o s).1))) := by
    intro pid' y hy hfailed hlock
    by_cases hne : pid' = pid
    · subst hne
      rw [Function.update_self] at hy
      obtain rfl := Option.some.inj hy
      exact hown hfailed hlock
    · rw [Function.update_of_ne hne] at hy
      intro htoken
      refine h pid' y hy hfailed hlock (hother y.token (fun heq => hne ?_) htoken)
      exact hlocked.tokens pid' pid y x hy hx heq
  by_cases hother : ∀ o', o ≠ .lock o'
  · have hlock : (accountExec db e o s).2.lock = s.lock := exec_lock hother
    rw [hlock] at hsplit
    refine hsplit (fun hfailed hfree => ?_) fun token _ htoken => htoken
    exact h pid x hx (Bool.or_eq_false_iff.mp hfailed).1 (registerNext_free hother hallowed _ hfree)
  · push Not at hother
    obtain ⟨o, rfl⟩ := hother
    have hcalm (hfailed : (x.failed || decide (e.fault ≠ .none)) = false) :
        x.failed = false ∧ e.fault = .none := by
      obtain ⟨hold, hnow⟩ := Bool.or_eq_false_iff.mp hfailed
      exact ⟨hold, not_not.mp (of_decide_eq_false hnow)⟩
    cases o with
    | setIfNotExists key token expiry =>
        obtain ⟨rfl, rfl, rfl, hout, -⟩ := hallowed
        refine hsplit (fun hfailed hfree => ?_) fun token hne htoken => ?_
        · obtain ⟨hbefore, hfault⟩ := hcalm hfailed
          obtain ⟨fault, captcha, refused⟩ := e
          obtain rfl : fault = .none := hfault
          -- it was not set, since the call does not hold it
          have hnot : (RedisLock.LockWorld.setIfNotExists registrationLimitLockKey x.token
              (some 10000) s.lock).1 ≠ .ok true := by
            intro htrue
            have hgot : (accountExec db ⟨.none, captcha, refused⟩ (.lock (.setIfNotExists
                registrationLimitLockKey x.token (some 10000))) s).1 = .ok true := htrue
            rw [hgot] at hfree
            obtain hfree | hfree := hfree <;> cases hfree
          change RedisLock.LockWorld.token (RedisLock.LockWorld.setIfNotExists
            registrationLimitLockKey x.token (some 10000) s.lock).2 _ ≠ _
          rw [RedisLock.setIfNotExists_eq_self hnot]
          exact h pid x hx hbefore (.inl hout)
        · obtain hold | heq := RedisLock.token_after_set htoken
          · exact hold
          · exact absurd heq hne
    | compareAndDelete key token =>
        obtain ⟨rfl, rfl, -⟩ := hallowed
        refine hsplit (fun hfailed _ htoken => ?_) fun token _ htoken =>
          (RedisLock.token_after_release htoken).1
        obtain ⟨-, hfault⟩ := hcalm hfailed
        exact (RedisLock.token_after_release htoken).2 (by rw [hfault]; rfl) rfl
    | delay ms =>
        refine hsplit (fun hfailed _ => ?_) fun token _ htoken => htoken
        exact h pid x hx (hcalm hfailed).1 (.inl hallowed)

/-- An operation that neither takes nor returns the lock, and begins no transaction. -/
theorem Seat.Sound.stay (h : x.Sound) {r : Except Exn o.Reply} (hacquires : acquires o r = false)
    (hreleases : releases o = false) (hbegins : begins o r = none)
    (hout : (registerNext x.q o r).lock = .out ↔ x.q.lock = .out)
    (hback : (registerNext x.q o r).lock = .back ↔ x.q.lock = .back)
    (htx : (registerNext x.q o r).row.tx = x.q.row.tx) : (x.next s e o r).Sound where
  deadline := by
    change x.deadline.or (runsOut s o r) = none ↔ (registerNext x.q o r).lock = .out
    rw [runsOut, hacquires, hout, if_neg Bool.false_ne_true, Option.or_none]
    exact h.deadline
  released := by
    change (x.released || releases o) = true ↔ (registerNext x.q o r).lock = .back
    rw [hreleases, Bool.or_false, hback]
    exact h.released
  began := by
    change x.began.or (begins o r) = (registerNext x.q o r).row.tx
    rw [hbegins, Option.or_none, htx]
    exact h.began

/-- **One operation** keeps a history sound. -/
theorem Seat.Sound.act (h : x.Sound) (hallowed : registerAllows x.token x.q o)
    (r : Except Exn o.Reply) : (x.next s e o r).Sound := by
  cases o with
  | lock o =>
      cases o with
      | setIfNotExists key token expiry =>
          match r with
          | .error exn => exact h.stay rfl rfl rfl .rfl .rfl rfl
          | .ok false => exact h.stay rfl rfl rfl .rfl .rfl rfl
          | .ok true =>
              have hout : x.q.lock = .out := hallowed.2.2.2.1
              refine ⟨?_, ?_, ?_⟩
              · change x.deadline.or (some (s.lock.clock + 10000)) = none ↔ _
                rw [h.deadline.mpr hout]
                exact iff_of_false nofun nofun
              · change (x.released || false) = true ↔ _
                rw [Bool.or_false, h.released, hout]
                exact iff_of_false nofun nofun
              · change x.began.or none = x.q.row.tx
                rw [Option.or_none]
                exact h.began
      | compareAndDelete key token =>
          have hheld : x.q.lock ≠ .out := by
            obtain hheld | hheld := hallowed.2.2 <;> rw [hheld] <;> exact nofun
          have hnext : registerNext x.q (.lock (.compareAndDelete key token)) r =
              { x.q with lock := .back } := by cases r <;> rfl
          refine ⟨?_, ?_, ?_⟩
          · change x.deadline.or none = none ↔ (registerNext _ _ _).lock = _
            rw [Option.or_none, h.deadline, hnext]
            exact iff_of_false hheld nofun
          · change (x.released || true) = true ↔ (registerNext _ _ _).lock = _
            rw [Bool.or_true, hnext]
            exact iff_of_true rfl rfl
          · change x.began.or none = (registerNext _ _ _).row.tx
            rw [Option.or_none, hnext]
            exact h.began
      | delay ms => cases r <;> exact h.stay rfl rfl rfl .rfl .rfl rfl
  | countUsers =>
      match r with
      | .error exn => exact h.stay rfl rfl rfl .rfl .rfl rfl
      | .ok (currentUsers : ℕ) =>
          have hheld : x.q.lock = .held := hallowed
          obtain hnext | ⟨hnext, -⟩ := registerNext_countUsers x.q currentUsers
          · exact h.stay rfl rfl rfl (by rw [hnext]) (by rw [hnext]) (by rw [hnext])
          · refine h.stay rfl rfl rfl ?_ ?_ (by rw [hnext]) <;> rw [hnext, hheld] <;>
              exact iff_of_false nofun nofun
  | beginTransaction =>
      match r with
      | .error exn => exact h.stay rfl rfl rfl .rfl .rfl rfl
      | .ok (tx : ℕ) =>
          obtain ⟨name, hrow⟩ := hallowed.2
          have hbegan : x.began = none := by rw [h.began, hrow]; rfl
          refine ⟨?_, ?_, ?_⟩
          · change x.deadline.or none = none ↔ x.q.lock = .out
            rw [Option.or_none]
            exact h.deadline
          · change (x.released || false) = true ↔ x.q.lock = .back
            rw [Bool.or_false]
            exact h.released
          · change x.began.or (some tx) = (x.q.row.begin tx).tx
            rw [hbegan, hrow]
            rfl
  | getConfig key =>
      match r with
      | .error exn => exact h.stay rfl rfl rfl .rfl .rfl rfl
      | .ok value =>
          obtain hnext | ⟨hnext, -⟩ := registerNext_getConfig x.q key value <;>
            exact h.stay rfl rfl rfl (by rw [hnext]) (by rw [hnext]) (by rw [hnext])
  | nameExists name =>
      match r with
      | .error exn => exact h.stay rfl rfl rfl .rfl .rfl rfl
      | .ok true => exact h.stay rfl rfl rfl .rfl .rfl rfl
      | .ok false => exact h.stay rfl rfl rfl .rfl .rfl (by rw [hallowed.2]; rfl)
  | insertUser tx email name =>
      cases r <;> exact h.stay rfl rfl rfl .rfl .rfl (by rw [hallowed.2]; rfl)
  | commit tx =>
      obtain ⟨name, hrow⟩ := hallowed.2
      cases r with
      | error exn => exact h.stay rfl rfl rfl .rfl .rfl rfl
      | ok _ => exact h.stay rfl rfl rfl .rfl .rfl (by rw [hrow]; rfl)
  | rollback tx =>
      obtain ⟨name, hrow⟩ := hallowed.2
      cases r <;> exact h.stay rfl rfl rfl .rfl .rfl (by obtain hrow | hrow := hrow <;> rw [hrow] <;> rfl)
  | verifyCaptcha _ | emailExists _ | userFields | insertEntries _ _ _ =>
      cases r <;> exact h.stay rfl rfl rfl .rfl .rfl rfl
  | findUser _ | findContest _ | participantsOf _ | findByEmail _ | saveChanges _ =>
      exact hallowed.elim

end Lock

/-! ### The rows -/

/-- The rows of a registration, as long as no commit of it has reached the database. -/
def RowStage.Rows (reached : Bool) (users : List User) : RowStage → Prop
  | .begun _ tx => ∀ u ∈ users, u.tx ≠ some tx
  | .inserted _ tx => reached = false → ∀ u ∈ users, u.tx = some tx → u.state = .pending
  | .rolledBack tx => reached = false → ∀ u ∈ users, u.tx = some tx → u.state = .discarded
  | _ => True

/-- **Every transaction has its own rows.** -/
structure Owned (s : AccountWorld) (f : ℕ → Option Seat) : Prop where
  /-- Rows are written in transactions that were begun. -/
  given : ∀ u ∈ s.users, ∀ tx, u.tx = some tx → tx < s.transactions
  /-- So are the transactions of the calls. -/
  begun : ∀ pid x tx, f pid = some x → x.q.row.tx = some tx → tx < s.transactions
  /-- No two calls have the same one. -/
  apart : ∀ pid pid' x x' tx, f pid = some x → f pid' = some x' → x.q.row.tx = some tx →
    x'.q.row.tx = some tx → pid = pid'
  /-- What has become of their rows. -/
  rows : ∀ pid x, f pid = some x → x.q.row.Rows x.reached s.users

section Rows

variable {db : Database} {s s' : AccountWorld} {e : AccountEnv} {f : ℕ → Option Seat} {pid : ℕ}
  {x x' : Seat} {o : AccountOp} {row : RowStage} {reached : Bool} {users us : List User}

/-- Rows of other transactions do not count. -/
theorem RowStage.Rows.of_others {users' : List User} (h : row.Rows reached users)
    (hothers : ∀ tx, row.tx = some tx → ∀ u ∈ users', u.tx = some tx → u ∈ users) :
    row.Rows reached users' := by
  cases row with
  | unchecked | checked _ | committed _ => trivial
  | begun name tx => exact fun u hu htx => h u (hothers tx rfl u hu htx) htx
  | inserted name tx => exact fun hreached u hu htx => h hreached u (hothers tx rfl u hu htx) htx
  | rolledBack tx => exact fun hreached u hu htx => h hreached u (hothers tx rfl u hu htx) htx

theorem RowStage.Rows.congr {users' : List User} (h : row.Rows reached users)
    (hcore : users'.map claimedPart = users.map claimedPart) : row.Rows reached users' := by
  cases row with
  | unchecked | checked _ | committed _ => trivial
  | begun name tx =>
      intro u hu htx
      obtain ⟨u₀, hu₀, -, -, htx₀⟩ := exists_claimedPart hcore hu
      exact h u₀ hu₀ (htx₀.trans htx)
  | inserted name tx =>
      intro hreached u hu htx
      obtain ⟨u₀, hu₀, -, hstate, htx₀⟩ := exists_claimedPart hcore hu
      exact hstate ▸ h hreached u₀ hu₀ (htx₀.trans htx)
  | rolledBack tx =>
      intro hreached u hu htx
      obtain ⟨u₀, hu₀, -, hstate, htx₀⟩ := exists_claimedPart hcore hu
      exact hstate ▸ h hreached u₀ hu₀ (htx₀.trans htx)

/-- A call moves on. -/
theorem Owned.update (h : Owned s f) (hx : f pid = some x)
    (hgiven : ∀ u ∈ s'.users, ∀ tx, u.tx = some tx → tx < s'.transactions)
    (hle : s.transactions ≤ s'.transactions)
    (htx : ∀ tx, x'.q.row.tx = some tx → x.q.row.tx = some tx ∨
      (tx = s.transactions ∧ s.transactions < s'.transactions))
    (hrows : x'.q.row.Rows x'.reached s'.users)
    (hothers : ∀ pid' y, pid' ≠ pid → f pid' = some y → y.q.row.Rows y.reached s'.users) :
    Owned s' (Function.update f pid (some x')) where
  given := hgiven
  begun pid' y tx hy hytx := by
    by_cases hne : pid' = pid
    · subst hne
      rw [Function.update_self] at hy
      obtain rfl := Option.some.inj hy
      obtain hold | ⟨rfl, hlt⟩ := htx tx hytx
      · exact Nat.lt_of_lt_of_le (h.begun pid' x tx hx hold) hle
      · exact hlt
    · rw [Function.update_of_ne hne] at hy
      exact Nat.lt_of_lt_of_le (h.begun pid' y tx hy hytx) hle
  apart pid₁ pid₂ x₁ x₂ tx h₁ h₂ htx₁ htx₂ := by
    -- a transaction that has just begun is nobody else's
    have hback {pid' : ℕ} {y : Seat} (hy : f pid' = some y) (hytx : y.q.row.tx = some tx)
        (hxtx : x'.q.row.tx = some tx) : pid' = pid := by
      obtain hold | ⟨rfl, -⟩ := htx tx hxtx
      · exact h.apart pid' pid y x tx hy hx hytx hold
      · exact absurd (h.begun pid' y _ hy hytx) (Nat.lt_irrefl _)
    by_cases hne₁ : pid₁ = pid
    · subst hne₁
      rw [Function.update_self] at h₁
      obtain rfl := Option.some.inj h₁
      by_cases hne₂ : pid₂ = pid₁
      · exact hne₂.symm
      · rw [Function.update_of_ne hne₂] at h₂
        exact (hback h₂ htx₂ htx₁).symm
    · rw [Function.update_of_ne hne₁] at h₁
      by_cases hne₂ : pid₂ = pid
      · subst hne₂
        rw [Function.update_self] at h₂
        obtain rfl := Option.some.inj h₂
        exact hback h₁ htx₁ htx₂
      · rw [Function.update_of_ne hne₂] at h₂
        exact h.apart pid₁ pid₂ x₁ x₂ tx h₁ h₂ htx₁ htx₂
  rows pid' y hy := by
    by_cases hne : pid' = pid
    · subst hne
      rw [Function.update_self] at hy
      obtain rfl := Option.some.inj hy
      exact hrows
    · rw [Function.update_of_ne hne] at hy
      exact hothers pid' y hne hy

/-- A step that changes neither users nor transactions. -/
theorem Owned.quiet (h : Owned s f) (hx : f pid = some x) (husers : s'.users = s.users)
    (htransactions : s'.transactions = s.transactions) (htx : x'.q.row.tx = x.q.row.tx)
    (hrows : x'.q.row.Rows x'.reached s.users) :
    Owned s' (Function.update f pid (some x')) := by
  refine h.update hx ?_ (Nat.le_of_eq htransactions.symm) (fun tx hx' => .inl (htx ▸ hx')) ?_
    fun pid' y _ hy => ?_
  · rw [husers, htransactions]
    exact h.given
  · rw [husers]
    exact hrows
  · rw [husers]
    exact h.rows pid' y hy

/-- Where a row comes from that is there after a transaction has ended. -/
theorem mem_settle {tx : ℕ} {state : RowState} {u : User} (h : u ∈ settle tx state users) :
    (u ∈ users ∧ ¬(u.tx = some tx ∧ u.state = .pending)) ∨
      ∃ u₀ ∈ users, u₀.tx = some tx ∧ u.tx = some tx ∧ u.state = state := by
  obtain ⟨u₀, hu₀, rfl⟩ := List.mem_map.mp h
  split
  · next hpending => exact .inr ⟨u₀, hu₀, hpending.1, hpending.1, rfl⟩
  · next hpending => exact .inl ⟨hu₀, hpending⟩

/-- The numbers of the transactions. -/
theorem exec_transactions (h : o ≠ .beginTransaction) :
    (accountExec db e o s).2.transactions = s.transactions := by
  have hfault {α : Type} {exn : Exn} {run : AccountWorld → Except Exn α × AccountWorld}
      (hrun : (run s).2.transactions = s.transactions) :
      (e.fault.apply exn run s).2.transactions = s.transactions := by
    cases e.fault with
    | none => exact hrun
    | before => rfl
    | after => exact hrun
  cases o with
  | beginTransaction => exact absurd rfl h
  | lock o => rfl
  | verifyCaptcha token => exact hfault rfl
  | insertEntries tx userId entries => exact hfault rfl
  | insertUser tx email name =>
      refine hfault ?_
      split <;> rfl
  | commit tx => exact hfault rfl
  | rollback tx => rfl
  | saveChanges rows =>
      refine hfault ?_
      rw [Database.saveChanges]
      split <;> rfl
  | getConfig _ | countUsers | nameExists _ | emailExists _ | userFields | findUser _
  | findContest _ | participantsOf _ | findByEmail _ =>
      exact congrArg AccountWorld.transactions (read_snd _)

/-- A transaction ends: its rows are settled, the others stay. -/
theorem Owned.settle (h : Owned s f) (hx : f pid = some x) {tx : ℕ} {state : RowState}
    (hown : x.q.row.tx = some tx) (husers : s'.users = settle tx state s.users)
    (htransactions : s'.transactions = s.transactions) (htx : x'.q.row.tx = some tx)
    (hrows : x'.q.row.Rows x'.reached s'.users) :
    Owned s' (Function.update f pid (some x')) := by
  refine h.update hx (fun u hu tx' hu' => ?_) (Nat.le_of_eq htransactions.symm)
    (fun tx' hx' => .inl (hown.trans (htx.symm.trans hx'))) hrows fun pid' y hne hy => ?_
  · rw [husers] at hu
    rw [htransactions]
    obtain ⟨hu, -⟩ | ⟨u₀, hu₀, htx₀, hutx, -⟩ := mem_settle hu
    · exact h.given u hu tx' hu'
    · exact h.given u₀ hu₀ tx' (htx₀.trans (hutx.symm.trans hu'))
  · refine (h.rows pid' y hy).of_others fun tx' hy' u hu hu' => ?_
    rw [husers] at hu
    obtain ⟨hu, -⟩ | ⟨u₀, hu₀, htx₀, hutx, -⟩ := mem_settle hu
    · exact hu
    · -- then both calls would have the same transaction
      have hsame : x.q.row.tx = some tx' := hown.trans (hutx.symm.trans hu')
      exact absurd (h.apart pid' pid y x tx' hy hx hy' hsame) hne

/-- **One operation** keeps the rows with their owners. -/
theorem Owned.act (h : Owned s f) (hx : f pid = some x)
    (hallowed : registerAllows x.token x.q o) :
    Owned (accountExec db e o s).2
      (Function.update f pid (some (x.next s e o (accountExec db e o s).1))) := by
  have hrows := h.rows pid x hx
  by_cases hquiet : o.quiet = true
  · have hrow := registerNext_row hquiet x.q (accountExec db e o s).1
    have hreached : (x.next s e o (accountExec db e o s).1).reached = x.reached := by
      cases o with
      | nameExists _ | beginTransaction | insertUser _ _ _ | commit _ | rollback _
      | saveChanges _ => cases hquiet
      | _ => exact Bool.or_false _
    refine h.quiet hx (exec_users hquiet) (exec_transactions ?_) (congrArg RowStage.tx hrow) ?_
    · rintro rfl
      cases hquiet
    · rw [hreached]
      exact hrow ▸ hrows
  cases o with
  | nameExists name =>
      have hread : (accountExec db e (.nameExists name) s).2 = s := read_snd _
      rw [hread]
      match (accountExec db e (.nameExists name) s).1 with
      | .error exn | .ok true =>
          refine h.quiet hx rfl rfl rfl ?_
          change x.q.row.Rows (x.reached || false) s.users
          rw [Bool.or_false]
          exact hrows
      | .ok false =>
          refine h.quiet hx rfl rfl ?_ trivial
          rw [hallowed.2]
          rfl
  | beginTransaction =>
      obtain ⟨name, hrow⟩ := hallowed.2
      have hstay : (x.q.row).Rows (x.reached || false) s.users := by
        rw [Bool.or_false]
        exact hrows
      have hnext (r : Except Exn AccountOp.beginTransaction.Reply)
          (hr : (registerNext x.q .beginTransaction r).row = x.q.row) :
          Owned { s with transactions := s.transactions + 1 }
            (Function.update f pid (some (x.next s e .beginTransaction r))) :=
        h.update hx (fun u hu tx htx => Nat.lt_succ_of_lt (h.given u hu tx htx)) (Nat.le_succ _)
          (fun tx htx => .inl (hr ▸ htx)) (hr.symm ▸ hstay) fun pid' y _ hy => h.rows pid' y hy
      change Owned (e.fault.apply _ _ s).2
        (Function.update f pid (some (x.next s e .beginTransaction (e.fault.apply _ _ s).1)))
      cases e.fault with
      | before => exact h.quiet hx rfl rfl rfl hstay
      | after => exact hnext _ rfl
      | none =>
          refine h.update hx (fun u hu tx htx => Nat.lt_succ_of_lt (h.given u hu tx htx))
            (Nat.le_succ _) (fun tx htx => .inr ?_) ?_ fun pid' y _ hy => h.rows pid' y hy
          · change (x.q.row.begin s.transactions).tx = some tx at htx
            rw [hrow] at htx
            exact ⟨(Option.some.inj htx).symm, Nat.lt_succ_self _⟩
          · change (x.q.row.begin s.transactions).Rows _ s.users
            rw [hrow]
            exact fun u hu htx => absurd (h.given u hu _ htx) (Nat.lt_irrefl _)
  | insertUser tx email name =>
      have hbegun : x.q.row = .begun name tx := hallowed.2
      obtain ⟨us, hus, hcases⟩ := insertUser_users db e s tx email name
      have hnew : ∀ u ∈ us, u.tx = some tx ∧ u.state = .pending := by
        obtain rfl | rfl := hcases
        · exact fun u hu => nomatch hu
        · exact List.forall_mem_singleton.mpr ⟨rfl, rfl⟩
      have hrow (r : Except Exn (AccountOp.insertUser tx email name).Reply) :
          (registerNext x.q (.insertUser tx email name) r).row = .inserted name tx := by
        cases r <;> rfl
      have hnext := hrow (accountExec db e (.insertUser tx email name) s).1
      have htransactions : (accountExec db e (.insertUser tx email name) s).2.transactions =
          s.transactions := exec_transactions nofun
      have htx : x.q.row.tx = some tx := by rw [hbegun]; rfl
      refine h.update hx (fun u hu tx' hu' => ?_) (Nat.le_of_eq htransactions.symm)
        (fun tx' htx' => .inl ?_) ?_ fun pid' y hne hy => ?_
      · rw [htransactions]
        rw [hus] at hu
        obtain hu | hu := List.mem_append.mp hu
        · exact h.given u hu tx' hu'
        · exact h.begun pid x tx' hx (htx.trans ((hnew u hu).1.symm.trans hu'))
      · change (registerNext _ _ _).row.tx = _ at htx'
        rw [hnext] at htx'
        exact htx.trans htx'
      · change (registerNext _ _ _).row.Rows _ _
        rw [hnext, hus]
        intro _ u hu hu'
        obtain hu | hu := List.mem_append.mp hu
        · rw [hbegun] at hrows
          exact absurd hu' (hrows u hu)
        · exact (hnew u hu).2
      · refine (h.rows pid' y hy).of_others fun tx' hy' u hu hu' => ?_
        rw [hus] at hu
        obtain hu | hu := List.mem_append.mp hu
        · exact hu
        · have hsame : x.q.row.tx = some tx' := htx.trans ((hnew u hu).1.symm.trans hu')
          exact absurd (h.apart pid' pid y x tx' hy hx hy' hsame) hne
  | commit tx =>
      obtain ⟨name, hrow⟩ := hallowed.2
      have htx : x.q.row.tx = some tx := by rw [hrow]; rfl
      obtain ⟨fault, captcha, refused⟩ := e
      cases fault with
      | before =>
          refine h.quiet hx rfl rfl rfl ?_
          change x.q.row.Rows (x.reached || false) s.users
          rw [Bool.or_false]
          exact hrows
      | none => exact h.settle hx htx rfl rfl rfl trivial
      | after =>
          refine h.settle hx htx rfl rfl htx ?_
          change x.q.row.Rows (x.reached || true) _
          rw [hrow, Bool.or_true]
          exact nofun
  | rollback tx =>
      obtain ⟨name, hrow⟩ := hallowed.2
      have htx : x.q.row.tx = some tx := by obtain hrow | hrow := hrow <;> rw [hrow] <;> rfl
      have hnext (r : Except Exn (AccountOp.rollback tx).Reply) :
          (registerNext x.q (.rollback tx) r).row = .rolledBack tx := by cases r <;> rfl
      have hrolled := hnext (accountExec db e (.rollback tx) s).1
      refine h.settle hx htx rfl rfl (congrArg RowStage.tx hrolled) ?_
      change (registerNext _ _ _).row.Rows (x.reached || false) (Accounts.settle tx _ s.users)
      rw [hrolled, Bool.or_false]
      intro hreached u hu hu'
      obtain ⟨hu, hsettled⟩ | ⟨-, -, -, -, hstate⟩ := mem_settle hu
      · -- it would have been written by the call, and pending
        obtain hrow | hrow := hrow <;> rw [hrow] at hrows
        · exact absurd hu' (hrows u hu)
        · exact absurd ⟨hu', hrows hreached u hu hu'⟩ hsettled
      · exact hstate
  | saveChanges rows => exact hallowed.elim
  | getConfig _ | verifyCaptcha _ | lock _ | countUsers | emailExists _ | userFields
  | insertEntries _ _ _ | findUser _ | findContest _ | participantsOf _ | findByEmail _ =>
      exact absurd rfl hquiet

end Rows

/-! ### The users -/

/-- The rows of a transaction that are pending. -/
def pendingOf (tx : ℕ) (users : List User) : ℕ :=
  users.countP fun u => decide (u.tx = some tx) && decide (u.state = .pending)

/-- How many users a registration may still add. -/
def RowStage.room (users : List User) : RowStage → ℕ
  | .inserted _ tx => pendingOf tx users
  | .committed _ => 0
  | .rolledBack _ => 0
  | _ => 1

/-- **The limit is kept**, with room for the one that has counted. -/
structure Capped (n : ℤ) (s : AccountWorld) (f : ℕ → Option Seat) : Prop where
  /-- The setting. -/
  config : toInt 0 (s.config "num_users") = n
  /-- What the calls have read of it. -/
  limit : ∀ pid x v, f pid = some x → x.q.limit = some v → v = n
  /-- Only with a limit is the lock taken. -/
  limited : ∀ pid x, f pid = some x → x.q.lock ≠ .out → x.q.limit = some n
  /-- Rows are written only after the count. -/
  unchecked : ∀ pid x, f pid = some x → x.q.lock = .out ∨ x.q.lock = .held →
    x.q.row = .unchecked
  /-- The users. -/
  cap : (s.countUsers : ℤ) ≤ n
  /-- The one that has counted, as long as it is in time. -/
  room : ∀ pid x, f pid = some x → x.q.lock = .counted → InTime s x →
    (s.countUsers : ℤ) + x.q.row.room s.users ≤ n

section Cap

variable {db : Database} {s s' : AccountWorld} {e : AccountEnv} {f : ℕ → Option Seat} {pid : ℕ}
  {x : Seat} {o : AccountOp} {n : ℤ} {users us : List User} {tx : ℕ}

/-- A commit adds what was pending. -/
theorem countP_counted_settle (users : List User) :
    (settle tx .committed users).countP User.counted ≤
      users.countP User.counted + pendingOf tx users := by
  induction users with
  | nil => exact Nat.le_refl _
  | cons u users ih =>
      rw [settle, List.map_cons, ← settle, pendingOf, List.countP_cons, List.countP_cons,
        List.countP_cons, ← pendingOf]
      by_cases hpending : u.tx = some tx ∧ u.state = .pending
      · have hone : (decide (u.tx = some tx) && decide (u.state = .pending)) = true := by
          rw [Bool.and_eq_true]
          exact ⟨decide_eq_true hpending.1, decide_eq_true hpending.2⟩
        rw [if_pos hpending, if_pos hone]
        split <;> omega
      · rw [if_neg hpending]
        omega

/-- A rollback adds nobody. -/
theorem countP_counted_discard (users : List User) :
    (settle tx .discarded users).countP User.counted ≤ users.countP User.counted := by
  induction users with
  | nil => exact Nat.le_refl _
  | cons u users ih =>
      rw [settle, List.map_cons, ← settle, List.countP_cons, List.countP_cons]
      by_cases hpending : u.tx = some tx ∧ u.state = .pending
      · have hnone : User.counted { u with state := .discarded } = false := rfl
        rw [if_pos hpending, hnone, if_neg Bool.false_ne_true]
        omega
      · rw [if_neg hpending]
        omega

/-- Nothing is pending after a commit. -/
theorem pendingOf_settle (users : List User) : pendingOf tx (settle tx .committed users) = 0 := by
  refine List.countP_eq_zero.mpr fun u hu => ?_
  rw [Bool.and_eq_true, decide_eq_true_iff, decide_eq_true_iff]
  obtain ⟨-, hsettled⟩ | ⟨-, -, -, -, hstate⟩ := mem_settle hu
  · exact hsettled
  · rw [hstate]
    exact nofun

/-- What an operation keeps, it keeps under a fault. -/
theorem apply_keeps {α γ : Type} {g : AccountWorld → γ} {fault : Fault} {exn : Exn}
    {run : AccountWorld → Except Exn α × AccountWorld} (hrun : g (run s).2 = g s) :
    g (fault.apply exn run s).2 = g s := by
  cases fault with
  | none => exact hrun
  | before => rfl
  | after => exact hrun

/-- The settings stay as they are. -/
theorem exec_config : (accountExec db e o s).2.config = s.config := by
  cases o with
  | lock o => rfl
  | rollback tx => rfl
  | verifyCaptcha _ | beginTransaction | insertEntries _ _ _ | commit _ =>
      exact apply_keeps (g := AccountWorld.config) rfl
  | insertUser tx email name =>
      refine apply_keeps (g := AccountWorld.config) ?_
      split <;> rfl
  | saveChanges rows =>
      refine apply_keeps (g := AccountWorld.config) ?_
      rw [Database.saveChanges]
      split <;> rfl
  | getConfig _ | countUsers | nameExists _ | emailExists _ | userFields | findUser _
  | findContest _ | participantsOf _ | findByEmail _ =>
      exact congrArg AccountWorld.config (read_snd _)

/-- Only time lets time pass. -/
theorem exec_clock : (accountExec db e o s).2.lock.clock = s.lock.clock := by
  by_cases hother : ∀ o', o ≠ .lock o'
  · rw [exec_lock hother]
  · push Not at hother
    obtain ⟨o, rfl⟩ := hother
    cases o with
    | setIfNotExists key token expiry =>
        have hafter : (accountExec db e (.lock (.setIfNotExists key token expiry)) s).2.lock = _ :=
          RedisLock.exec_setIfNotExists e.fault key token expiry s.lock
        rw [hafter]
        split <;> rfl
    | compareAndDelete key token =>
        have hafter : (accountExec db e (.lock (.compareAndDelete key token)) s).2.lock = _ :=
          RedisLock.exec_compareAndDelete e.fault key token s.lock
        rw [hafter]
        split <;> rfl
    | delay ms => rfl

/-- A registration that may write has counted. -/
theorem Capped.counted (h : Capped n s f) (hn : 0 < n) (hx : f pid = some x)
    (hadmitted : x.q.admitted) : x.q.lock = .counted := by
  obtain ⟨v, hv, hcases⟩ := hadmitted
  obtain rfl := h.limit pid x v hx hv
  obtain ⟨hle, -⟩ | hcounted := hcases
  · exact absurd hn (Int.not_lt.mpr hle)
  · exact hcounted

/-- A call moves on. -/
theorem Capped.update {x' : Seat} (h : Capped n s f) (hx : f pid = some x)
    (hconfig : s'.config = s.config) (hclock : s'.lock.clock = s.lock.clock)
    (hlimit : x'.q.limit = some n ∨ (x'.q.limit = x.q.limit ∧ (x'.q.lock ≠ .out → x.q.lock ≠ .out)))
    (hunchecked : x'.q.lock = .out ∨ x'.q.lock = .held → x'.q.row = .unchecked)
    (hcap : (s'.countUsers : ℤ) ≤ n)
    (hown : x'.q.lock = .counted → (s'.countUsers : ℤ) + x'.q.row.room s'.users ≤ n)
    (hothers : ∀ pid' y, pid' ≠ pid → f pid' = some y → y.q.lock = .counted → InTime s y →
      (s'.countUsers : ℤ) + y.q.row.room s'.users ≤ n) :
    Capped n s' (Function.update f pid (some x')) where
  config := hconfig ▸ h.config
  limit pid' y v hy hv := by
    by_cases hne : pid' = pid
    · subst hne
      rw [Function.update_self] at hy
      obtain rfl := Option.some.inj hy
      obtain hlimit | ⟨hsame, -⟩ := hlimit
      · exact Option.some.inj (hv.symm.trans hlimit)
      · exact h.limit pid' x v hx (hsame.symm.trans hv)
    · rw [Function.update_of_ne hne] at hy
      exact h.limit pid' y v hy hv
  limited pid' y hy hlock := by
    by_cases hne : pid' = pid
    · subst hne
      rw [Function.update_self] at hy
      obtain rfl := Option.some.inj hy
      obtain hlimit | ⟨hsame, hout⟩ := hlimit
      · exact hlimit
      · exact hsame.trans (h.limited pid' x hx (hout hlock))
    · rw [Function.update_of_ne hne] at hy
      exact h.limited pid' y hy hlock
  unchecked pid' y hy hlock := by
    by_cases hne : pid' = pid
    · subst hne
      rw [Function.update_self] at hy
      obtain rfl := Option.some.inj hy
      exact hunchecked hlock
    · rw [Function.update_of_ne hne] at hy
      exact h.unchecked pid' y hy hlock
  cap := hcap
  room pid' y hy hcounted htime := by
    by_cases hne : pid' = pid
    · subst hne
      rw [Function.update_self] at hy
      obtain rfl := Option.some.inj hy
      exact hown hcounted
    · rw [Function.update_of_ne hne] at hy
      exact hothers pid' y hne hy hcounted fun t ht => hclock ▸ htime t ht

/-- A step that does not touch the users. -/
theorem Capped.stay {x' : Seat} (h : Capped n s f) (hx : f pid = some x) (htime : InTime s x)
    (husers : s'.users = s.users) (hconfig : s'.config = s.config)
    (hclock : s'.lock.clock = s.lock.clock) (hlimit : x'.q.limit = x.q.limit)
    (hlock : x'.q.lock = x.q.lock ∨ (x.q.lock ≠ .out ∧ x'.q.lock = .back))
    (hrow : x'.q.row = x.q.row ∨
      (x.q.lock = .counted ∧ x'.q.row.room s.users ≤ x.q.row.room s.users)) :
    Capped n s' (Function.update f pid (some x')) := by
  have hcount : s'.countUsers = s.countUsers := congrArg (List.countP User.counted) husers
  refine h.update hx hconfig hclock (.inr ⟨hlimit, fun hout => ?_⟩) (fun hearly => ?_)
    (hcount ▸ h.cap) (fun hcounted => ?_) fun pid' y _ hy hcounted hin => ?_
  · obtain hsame | ⟨hne, -⟩ := hlock
    · exact hsame ▸ hout
    · exact hne
  · obtain hsame | ⟨-, hback⟩ := hlock
    · rw [hsame] at hearly
      obtain hrow | ⟨hcounted, -⟩ := hrow
      · exact hrow.trans (h.unchecked pid x hx hearly)
      · rw [hcounted] at hearly
        obtain hearly | hearly := hearly <;> cases hearly
    · rw [hback] at hearly
      obtain hearly | hearly := hearly <;> cases hearly
  · obtain hsame | ⟨-, hback⟩ := hlock
    · have hroom := h.room pid x hx (hsame.symm.trans hcounted) htime
      rw [hcount, husers]
      obtain hrow | ⟨-, hle⟩ := hrow
      · rw [hrow]
        exact hroom
      · omega
    · rw [hback] at hcounted
      cases hcounted
  · rw [hcount, husers]
    exact h.room pid' y hy hcounted hin

/-- **Only one call at a time writes.** -/
theorem Capped.alone (h : Capped n s f) (hn : 0 < n) (hlocked : Locked s f) (hx : f pid = some x)
    (htime : InTime s x) (hadmitted : x.q.admitted) {pid' : ℕ} {y : Seat} (hy : f pid' = some y)
    (hcounted : y.q.lock = .counted) (hin : InTime s y) : pid' = pid :=
  hlocked.unique hy hx (.inr hcounted) (.inr (h.counted hn hx hadmitted)) hin htime

/-- What a registration reads leaves the limit as it is. -/
theorem Capped.read (h : Capped n s f) (hx : f pid = some x) (htime : InTime s x)
    (hquiet : o.quiet = true) (hallowed : registerAllows x.token x.q o) :
    Capped n (accountExec db e o s).2
      (Function.update f pid (some (x.next s e o (accountExec db e o s).1))) := by
  have husers := @exec_users db e s _ hquiet
  have hstay (r : Except Exn o.Reply) (hlimit : (registerNext x.q o r).limit = x.q.limit)
      (hlock : (registerNext x.q o r).lock = x.q.lock ∨
        (x.q.lock ≠ .out ∧ (registerNext x.q o r).lock = .back)) :
      Capped n (accountExec db e o s).2 (Function.update f pid (some (x.next s e o r))) :=
    h.stay hx htime husers exec_config exec_clock hlimit hlock (.inl (registerNext_row hquiet _ _))
  have hcount : (accountExec db e o s).2.countUsers = s.countUsers :=
    congrArg (List.countP User.counted) husers
  have hcap : ((accountExec db e o s).2.countUsers : ℤ) ≤ n := hcount ▸ h.cap
  have hothers (pid' : ℕ) (y : Seat) (_ : pid' ≠ pid) (hy : f pid' = some y)
      (hcounted : y.q.lock = .counted) (hin : InTime s y) :
      ((accountExec db e o s).2.countUsers : ℤ) + y.q.row.room (accountExec db e o s).2.users ≤ n := by
    rw [hcount, husers]
    exact h.room pid' y hy hcounted hin
  cases o with
  | getConfig key =>
      match hr : (accountExec db e (.getConfig key) s).1 with
      | .error exn => exact hstay (.error exn) rfl (.inl rfl)
      | .ok value =>
          have hout : x.q.lock = .out := hallowed
          obtain hnext | ⟨hnext, hkey⟩ := registerNext_getConfig x.q key value
          · exact hstay (.ok value) (by rw [hnext]) (.inl (by rw [hnext]))
          · have hvalue : s.config key = value := read_eq_ok hr
            have hn : toInt 0 value = n := by rw [← hvalue, hkey, h.config]
            have hlock : (registerNext x.q (.getConfig key) (.ok value)).lock = .out := by
              rw [hnext]
              exact hout
            refine h.update hx exec_config exec_clock (.inl ?_) (fun _ => ?_) hcap
              (fun hcounted => absurd (hlock.symm.trans hcounted) nofun) hothers
            · change (registerNext x.q (.getConfig key) (.ok value)).limit = some n
              rw [hnext, hn]
            · exact (registerNext_row hquiet x.q (.ok value)).trans
                (h.unchecked pid x hx (.inl hout))
  | countUsers =>
      match hr : (accountExec db e .countUsers s).1 with
      | .error exn => exact hstay (.error exn) rfl (.inl rfl)
      | .ok (currentUsers : ℕ) =>
          have hheld : x.q.lock = .held := hallowed
          have hlimit : x.q.limit = some n := h.limited pid x hx (by rw [hheld]; exact nofun)
          obtain hnext | ⟨hnext, hroom⟩ := registerNext_countUsers x.q currentUsers
          · exact hstay (.ok currentUsers) (by rw [hnext]) (.inl (by rw [hnext]))
          · -- there is room for one more
            have hcurrent : s.countUsers = currentUsers := read_eq_ok hr
            have hle := hroom n hlimit
            have hrow : (registerNext x.q .countUsers (.ok currentUsers)).row = .unchecked :=
              (registerNext_row hquiet x.q (.ok currentUsers)).trans
                (h.unchecked pid x hx (.inr hheld))
            refine h.update hx exec_config exec_clock (.inl ?_) (fun _ => hrow) hcap
              (fun _ => ?_) hothers
            · change (registerNext x.q .countUsers (.ok currentUsers)).limit = some n
              rw [hnext]
              exact hlimit
            · change _ + ((registerNext x.q .countUsers (.ok currentUsers)).row.room _ : ℤ) ≤ n
              rw [hrow, hcount, hcurrent]
              exact hle
  | lock o =>
      cases o with
      | setIfNotExists key token expiry =>
          obtain ⟨-, -, -, hout, v, hv, -⟩ := hallowed
          obtain rfl := h.limit pid x v hx hv
          match (accountExec db e (.lock (.setIfNotExists key token expiry)) s).1 with
          | .error exn => exact hstay (.error exn) rfl (.inl rfl)
          | .ok false => exact hstay (.ok false) rfl (.inl rfl)
          | .ok true =>
              exact h.update hx exec_config exec_clock (.inl hv)
                (fun _ => h.unchecked pid x hx (.inl hout)) hcap nofun hothers
      | compareAndDelete key token =>
          have hheld : x.q.lock ≠ .out := by
            obtain hheld | hheld := hallowed.2.2 <;> rw [hheld] <;> exact nofun
          cases (accountExec db e (.lock (.compareAndDelete key token)) s).1 with
          | error exn => exact hstay (.error exn) rfl (.inr ⟨hheld, rfl⟩)
          | ok deleted => exact hstay (.ok deleted) rfl (.inr ⟨hheld, rfl⟩)
      | delay ms =>
          cases (accountExec db e (.lock (.delay ms)) s).1 with
          | error exn => exact hstay (.error exn) rfl (.inl rfl)
          | ok a => exact hstay (.ok a) rfl (.inl rfl)
  | verifyCaptcha _ | emailExists _ | userFields | insertEntries _ _ _ =>
      match (accountExec db e _ s).1 with
      | .error exn => exact hstay (.error exn) rfl (.inl rfl)
      | .ok a => exact hstay (.ok a) rfl (.inl rfl)
  | findUser _ | findContest _ | participantsOf _ | findByEmail _ => exact hallowed.elim
  | nameExists _ | beginTransaction | insertUser _ _ _ | commit _ | rollback _ | saveChanges _ =>
      cases hquiet

/-- Rows that are pending belong to their transaction. -/
theorem pendingOf_append_le (hnone : ∀ u ∈ users, u.tx ≠ some tx) (hone : us.length ≤ 1) :
    pendingOf tx (users ++ us) ≤ 1 := by
  have hzero : pendingOf tx users = 0 := by
    refine List.countP_eq_zero.mpr fun u hu hboth => hnone u hu ?_
    rw [Bool.and_eq_true] at hboth
    exact of_decide_eq_true hboth.1
  rw [pendingOf, List.countP_append, ← pendingOf, hzero, Nat.zero_add]
  exact Nat.le_trans List.countP_le_length hone

/-- **One operation** keeps the limit. -/
theorem Capped.act (h : Capped n s f) (hn : 0 < n) (hlocked : Locked s f) (howned : Owned s f)
    (hx : f pid = some x) (htime : InTime s x) (hallowed : registerAllows x.token x.q o) :
    Capped n (accountExec db e o s).2
      (Function.update f pid (some (x.next s e o (accountExec db e o s).1))) := by
  by_cases hquiet : o.quiet = true
  · exact h.read hx htime hquiet hallowed
  have hwrite (hadmitted : x.q.admitted) {x' : Seat} {s' : AccountWorld} (row : RowStage)
      (hq : x'.q = { x.q with row := row }) (hconfig : s'.config = s.config)
      (hclock : s'.lock.clock = s.lock.clock)
      (hcap : (s'.countUsers : ℤ) + row.room s'.users ≤ n) :
      Capped n s' (Function.update f pid (some x')) := by
    -- nobody else has counted, and is in time
    have hcounted := h.counted hn hx hadmitted
    refine h.update hx hconfig hclock (.inr ⟨by rw [hq], fun hout => ?_⟩) (fun hearly => ?_)
      (by omega) (fun _ => by rwa [hq]) fun pid' y hne hy hy' hin => ?_
    · rw [hq] at hout
      exact hout
    · rw [hq] at hearly
      obtain hearly | hearly := hearly <;> exact absurd (hcounted.symm.trans hearly) nofun
    · exact absurd (h.alone hn hlocked hx htime hadmitted hy hy' hin) hne
  cases o with
  | nameExists name =>
      have hread : (accountExec db e (.nameExists name) s).2 = s := read_snd _
      rw [hread]
      match (accountExec db e (.nameExists name) s).1 with
      | .error exn | .ok true => exact h.stay hx htime rfl rfl rfl rfl (.inl rfl) (.inl rfl)
      | .ok false =>
          refine h.stay hx htime rfl rfl rfl rfl (.inl rfl) (.inr ⟨h.counted hn hx hallowed.1, ?_⟩)
          rw [hallowed.2]
          exact Nat.le_refl _
  | beginTransaction =>
      obtain ⟨hadmitted, name, hrow⟩ := hallowed
      have husers : (accountExec db e .beginTransaction s).2.users = s.users :=
        apply_keeps (g := AccountWorld.users) rfl
      have hstay (r : Except Exn AccountOp.beginTransaction.Reply)
          (hlimit : (registerNext x.q .beginTransaction r).limit = x.q.limit)
          (hlock : (registerNext x.q .beginTransaction r).lock = x.q.lock)
          (hroom : (registerNext x.q .beginTransaction r).row.room s.users ≤
            x.q.row.room s.users) :
          Capped n (accountExec db e .beginTransaction s).2
            (Function.update f pid (some (x.next s e .beginTransaction r))) :=
        h.stay hx htime husers exec_config exec_clock hlimit (.inl hlock)
          (.inr ⟨h.counted hn hx hadmitted, hroom⟩)
      match (accountExec db e .beginTransaction s).1 with
      | .error exn => exact hstay (.error exn) rfl rfl (Nat.le_refl _)
      | .ok (tx : ℕ) =>
          refine hstay (.ok tx) rfl rfl ?_
          change (x.q.row.begin tx).room s.users ≤ _
          rw [hrow]
          exact Nat.le_refl _
  | insertUser tx email name =>
      obtain ⟨hadmitted, hrow⟩ := hallowed
      have hnext (r : Except Exn (AccountOp.insertUser tx email name).Reply) :
          (registerNext x.q (.insertUser tx email name) r) =
            { x.q with row := .inserted name tx } := by cases r <;> rfl
      have hinserted := hnext (accountExec db e (.insertUser tx email name) s).1
      obtain ⟨us, hus, hcases⟩ := insertUser_users db e s tx email name
      have hfresh : x.q.row.Rows x.reached s.users := howned.rows pid x hx
      rw [hrow] at hfresh
      have hone : pendingOf tx (s.users ++ us) ≤ 1 :=
        pendingOf_append_le hfresh (by obtain rfl | rfl := hcases <;> simp)
      have hcount : (accountExec db e (.insertUser tx email name) s).2.countUsers = s.countUsers := by
        rw [AccountWorld.countUsers, hus, List.countP_append]
        obtain rfl | rfl := hcases <;> rfl
      have hroom := h.room pid x hx (h.counted hn hx hadmitted) htime
      rw [hrow] at hroom
      change (s.countUsers : ℤ) + (1 : ℕ) ≤ n at hroom
      refine hwrite hadmitted (.inserted name tx) hinserted exec_config exec_clock ?_
      rw [hcount, hus, RowStage.room]
      omega
  | commit tx =>
      obtain ⟨hadmitted, name, hrow⟩ := hallowed
      have hroom := h.room pid x hx (h.counted hn hx hadmitted) htime
      rw [hrow] at hroom
      change (s.countUsers : ℤ) + (pendingOf tx s.users : ℤ) ≤ n at hroom
      have hle : (settle tx .committed s.users).countP User.counted ≤
          s.countUsers + pendingOf tx s.users := countP_counted_settle s.users
      obtain ⟨fault, captcha, refused⟩ := e
      cases fault with
      | before => exact h.stay hx htime rfl rfl rfl rfl (.inl rfl) (.inl rfl)
      | none =>
          refine hwrite hadmitted (.committed tx) rfl rfl rfl ?_
          change ((settle tx .committed s.users).countP User.counted : ℤ) + (0 : ℕ) ≤ n
          omega
      | after =>
          refine hwrite hadmitted (x.q.row) rfl rfl rfl ?_
          change ((settle tx .committed s.users).countP User.counted : ℤ) +
            (x.q.row.room (settle tx .committed s.users) : ℤ) ≤ n
          rw [hrow, RowStage.room, pendingOf_settle]
          omega
  | rollback tx =>
      obtain ⟨hadmitted, -⟩ := hallowed
      have hnext (r : Except Exn (AccountOp.rollback tx).Reply) :
          (registerNext x.q (.rollback tx) r) = { x.q with row := .rolledBack tx } := by
        cases r <;> rfl
      have hrolled := hnext (accountExec db e (.rollback tx) s).1
      have hle : (settle tx .discarded s.users).countP User.counted ≤ s.countUsers :=
        countP_counted_discard s.users
      have hcap := h.cap
      refine hwrite hadmitted (.rolledBack tx) hrolled exec_config exec_clock ?_
      change ((settle tx .discarded s.users).countP User.counted : ℤ) + (0 : ℕ) ≤ n
      omega
  | saveChanges rows => exact hallowed.elim
  | getConfig _ | verifyCaptcha _ | lock _ | countUsers | emailExists _ | userFields
  | insertEntries _ _ _ | findUser _ | findContest _ | participantsOf _ | findByEmail _ =>
      exact absurd rfl hquiet

/-! ### What others do -/

/-- Users that are banned or hidden are not counted. -/
theorem countP_modify_le {g : User → User} (hg : ∀ u, (g u).counted = true → u.counted = true)
    (users : List User) (i : ℕ) :
    (users.modify i g).countP User.counted ≤ users.countP User.counted := by
  induction users generalizing i with
  | nil => rw [List.modify_nil]
  | cons u users ih =>
      cases i with
      | zero =>
          rw [List.modify_zero_cons, List.countP_cons, List.countP_cons]
          by_cases hcounted : (g u).counted = true
          · rw [if_pos hcounted, if_pos (hg u hcounted)]
          · rw [if_neg hcounted]
            omega
      | succ i =>
          rw [List.modify_succ_cons, List.countP_cons, List.countP_cons]
          exact Nat.add_le_add_right (ih i) _

theorem pendingOf_congr {users' : List User}
    (hcore : users'.map claimedPart = users.map claimedPart) :
    pendingOf tx users' = pendingOf tx users := by
  have hpart (users : List User) : pendingOf tx users = (users.map claimedPart).countP
      fun part => decide (part.2.2 = some tx) && decide (part.2.1 = .pending) := by
    rw [List.countP_map]
    rfl
  rw [hpart, hpart, hcore]

theorem room_congr {users' : List User} {row : RowStage}
    (hcore : users'.map claimedPart = users.map claimedPart) : row.room users' = row.room users := by
  cases row with
  | inserted name tx => exact pendingOf_congr hcore
  | _ => rfl

/-- A user is banned or hidden. -/
theorem Capped.modify (h : Capped n s f) {g : User → User} (i : ℕ)
    (hpart : ∀ u, claimedPart (g u) = claimedPart u)
    (hg : ∀ u, (g u).counted = true → u.counted = true) :
    Capped n { s with users := s.users.modify i g } f := by
  have hle : (s.users.modify i g).countP User.counted ≤ s.countUsers := countP_modify_le hg s.users i
  refine ⟨h.config, h.limit, h.limited, h.unchecked, ?_, fun pid x hx hcounted htime => ?_⟩
  · have hcap := h.cap
    change ((s.users.modify i g).countP User.counted : ℤ) ≤ n
    omega
  · have hroom := h.room pid x hx hcounted htime
    change ((s.users.modify i g).countP User.counted : ℤ) +
      (x.q.row.room (s.users.modify i g) : ℤ) ≤ n
    rw [room_congr (map_modify_claimedPart hpart s.users i)]
    omega

theorem Owned.modify (h : Owned s f) {g : User → User} (i : ℕ)
    (hpart : ∀ u, claimedPart (g u) = claimedPart u) :
    Owned { s with users := s.users.modify i g } f := by
  have hcore := map_modify_claimedPart hpart s.users i
  refine ⟨fun u hu tx htx => ?_, h.begun, h.apart, fun pid x hx => (h.rows pid x hx).congr hcore⟩
  obtain ⟨u₀, hu₀, -, -, htx₀⟩ := exists_claimedPart hcore hu
  exact h.given u₀ hu₀ tx (htx₀.trans htx)

/-- Time passes. -/
theorem Capped.later (h : Capped n s f) (d : ℕ) :
    Capped n { s with lock := { s.lock with clock := s.lock.clock + d } } f where
  config := h.config
  limit := h.limit
  limited := h.limited
  unchecked := h.unchecked
  cap := h.cap
  room pid x hx hcounted htime := h.room pid x hx hcounted fun t ht => by
    have hlt : s.lock.clock + d < t := htime t ht
    omega

theorem Unheld.later (h : Unheld s f) (d : ℕ) :
    Unheld { s with lock := { s.lock with clock := s.lock.clock + d } } f := by
  intro pid x hx hfailed hlock htoken
  refine h pid x hx hfailed hlock ?_
  obtain ⟨slot, hslot, hvalue⟩ := Option.map_eq_some_iff.mp htoken
  have hle : s.lock.clock ≤ s.lock.clock + d := Int.le_add_of_nonneg_right (Int.natCast_nonneg d)
  have hbefore := Store.find_of_find_le hle hslot
  rw [RedisLock.LockWorld.token, hbefore, Option.map_some, hvalue]

end Cap

/-! ### The invariant -/

/-- **What holds all along.** -/
structure Kept (n : ℤ) (s : AccountWorld) (f : ℕ → Option Seat) : Prop where
  sound : ∀ pid x, f pid = some x → x.Sound
  locked : Locked s f
  unheld : Unheld s f
  owned : Owned s f
  capped : Capped n s f

section Kept

variable {db : Database} {s : AccountWorld} {e : AccountEnv} {f : ℕ → Option Seat} {pid : ℕ}
  {x : Seat} {o : AccountOp} {n : ℤ}

/-- **One operation.** -/
theorem Kept.act (h : Kept n s f) (hn : 0 < n) (hx : f pid = some x) (htime : InTime s x)
    (hallowed : registerAllows x.token x.q o) :
    Kept n (accountExec db e o s).2
      (Function.update f pid (some (x.next s e o (accountExec db e o s).1))) where
  sound pid' y hy := by
    by_cases hne : pid' = pid
    · subst hne
      rw [Function.update_self] at hy
      obtain rfl := Option.some.inj hy
      exact (h.sound pid' x hx).act hallowed _
    · rw [Function.update_of_ne hne] at hy
      exact h.sound pid' y hy
  locked := h.locked.act hx (h.sound pid x hx) hallowed
  unheld := h.unheld.act h.locked hx hallowed
  owned := h.owned.act hx hallowed
  capped := h.capped.act hn h.locked h.owned hx htime hallowed

/-- A registration that has just arrived. -/
def Seat.new (token : String) : Seat := ⟨token, arrived, none, false, none, false, false⟩

/-- **A registration arrives**, with a token of its own. -/
theorem Kept.arrive (h : Kept n s f) {token : String} (hfresh : ∀ pid x, f pid = some x → x.token ≠ token)
    (hkey : s.lock.token registrationLimitLockKey ≠ some token) (hpid : f pid = none) :
    Kept n s (Function.update f pid (some (Seat.new token))) := by
  -- it is new, or one of those before
  have hback {pid' : ℕ} {y : Seat} (hy : Function.update f pid (some (Seat.new token)) pid' = some y) :
      (pid' = pid ∧ y = Seat.new token) ∨ (pid' ≠ pid ∧ f pid' = some y) := by
    by_cases hne : pid' = pid
    · rw [hne, Function.update_self] at hy
      exact .inl ⟨hne, (Option.some.inj hy).symm⟩
    · rw [Function.update_of_ne hne] at hy
      exact .inr ⟨hne, hy⟩
  refine ⟨fun pid' y hy => ?_, ⟨fun pid₁ pid₂ x₁ x₂ h₁ h₂ hsame => ?_, fun pid' y hy hlock => ?_⟩,
    fun pid' y hy hfailed hlock => ?_,
    ⟨h.owned.given, fun pid' y tx hy htx => ?_, fun pid₁ pid₂ x₁ x₂ tx h₁ h₂ htx₁ htx₂ => ?_,
      fun pid' y hy => ?_⟩,
    ⟨h.capped.config, fun pid' y v hy hv => ?_, fun pid' y hy hlock => ?_,
      fun pid' y hy hlock => ?_, h.capped.cap, fun pid' y hy hcounted htime => ?_⟩⟩
  · obtain ⟨-, rfl⟩ | ⟨-, hy⟩ := hback hy
    · exact ⟨iff_of_true rfl rfl, iff_of_false nofun nofun, rfl⟩
    · exact h.sound pid' y hy
  · obtain ⟨rfl, rfl⟩ | ⟨-, hold₁⟩ := hback h₁ <;> obtain ⟨rfl, rfl⟩ | ⟨-, hold₂⟩ := hback h₂
    · rfl
    · exact absurd hsame.symm (hfresh pid₂ x₂ hold₂)
    · exact absurd hsame (hfresh pid₁ x₁ hold₁)
    · exact h.locked.tokens pid₁ pid₂ x₁ x₂ hold₁ hold₂ hsame
  · obtain ⟨-, rfl⟩ | ⟨-, hy⟩ := hback hy
    · obtain hlock | hlock := hlock <;> cases hlock
    · exact h.locked.holds pid' y hy hlock
  · obtain ⟨-, rfl⟩ | ⟨-, hy⟩ := hback hy
    · exact hkey
    · exact h.unheld pid' y hy hfailed hlock
  · obtain ⟨-, rfl⟩ | ⟨-, hy⟩ := hback hy
    · cases htx
    · exact h.owned.begun pid' y tx hy htx
  · obtain ⟨rfl, rfl⟩ | ⟨-, h₁⟩ := hback h₁
    · cases htx₁
    obtain ⟨rfl, rfl⟩ | ⟨-, h₂⟩ := hback h₂
    · cases htx₂
    exact h.owned.apart pid₁ pid₂ x₁ x₂ tx h₁ h₂ htx₁ htx₂
  · obtain ⟨-, rfl⟩ | ⟨-, hy⟩ := hback hy
    · trivial
    · exact h.owned.rows pid' y hy
  · obtain ⟨-, rfl⟩ | ⟨-, hy⟩ := hback hy
    · cases hv
    · exact h.capped.limit pid' y v hy hv
  · obtain ⟨-, rfl⟩ | ⟨-, hy⟩ := hback hy
    · exact absurd rfl hlock
    · exact h.capped.limited pid' y hy hlock
  · obtain ⟨-, rfl⟩ | ⟨-, hy⟩ := hback hy
    · rfl
    · exact h.capped.unchecked pid' y hy hlock
  · obtain ⟨-, rfl⟩ | ⟨-, hy⟩ := hback hy
    · cases hcounted
    · exact h.capped.room pid' y hy hcounted htime

/-- Nobody has arrived. -/
theorem Kept.nil (hconfig : toInt 0 (s.config "num_users") = n) (hcap : (s.countUsers : ℤ) ≤ n)
    (hgiven : ∀ u ∈ s.users, ∀ tx, u.tx = some tx → tx < s.transactions) :
    Kept n s fun _ => none where
  sound _ _ hx := nomatch hx
  locked := ⟨fun _ _ _ _ hx => (nomatch hx), fun _ _ hx => (nomatch hx)⟩
  unheld _ _ hx := nomatch hx
  owned := ⟨hgiven, fun _ _ _ hx => (nomatch hx), fun _ _ _ _ _ hx => (nomatch hx),
    fun _ _ hx => (nomatch hx)⟩
  capped := ⟨hconfig, fun _ _ _ hx => (nomatch hx), fun _ _ hx => (nomatch hx),
    fun _ _ hx => (nomatch hx), hcap, fun _ _ hx => (nomatch hx)⟩

/-- **What others do** meanwhile. -/
theorem Kept.ambient (h : Kept n s f) (y : Happening)
    (hy : ∀ key value, y = .configure key value → key ≠ "num_users") : Kept n (y.ambient s) f := by
  cases y with
  | tick d =>
      exact ⟨h.sound, h.locked.later d, h.unheld.later d,
        ⟨h.owned.given, h.owned.begun, h.owned.apart, h.owned.rows⟩, h.capped.later d⟩
  | hide userId =>
      exact ⟨h.sound, ⟨h.locked.tokens, h.locked.holds⟩, h.unheld,
        h.owned.modify userId fun _ => rfl,
        h.capped.modify userId (fun _ => rfl) fun u hcounted => by
          rw [User.counted, Bool.and_eq_true] at hcounted
          exact absurd hcounted.2 (by simp)⟩
  | ban userId =>
      exact ⟨h.sound, ⟨h.locked.tokens, h.locked.holds⟩, h.unheld,
        h.owned.modify userId fun _ => rfl,
        h.capped.modify userId (fun _ => rfl) fun u hcounted => by
          rw [User.counted, Bool.and_eq_true, Bool.and_eq_true] at hcounted
          exact absurd hcounted.1.2 (by simp)⟩
  | configure key value =>
      have hkey := hy key value rfl
      refine ⟨h.sound, ⟨h.locked.tokens, h.locked.holds⟩, h.unheld,
        ⟨h.owned.given, h.owned.begun, h.owned.apart, h.owned.rows⟩,
        ⟨?_, h.capped.limit, h.capped.limited, h.capped.unchecked, h.capped.cap,
          h.capped.room⟩⟩
      change toInt 0 (Function.update s.config key value "num_users") = n
      rw [Function.update_of_ne hkey.symm]
      exact h.capped.config

end Kept

/-! ### The run -/

section Run

variable {db : Database} {turnstileEnabled : Bool}

/-- When the lock runs out that a call has acquired. -/
def lockDeadline (log : List (accountService db turnstileEnabled).Entry) (pid : ℕ) : Option ℤ :=
  (Service.own log pid).findSome? fun n => runsOut n.before n.op n.reply

/-- Has it released the lock? -/
def hasReleased (log : List (accountService db turnstileEnabled).Entry) (pid : ℕ) : Bool :=
  (Service.own log pid).any fun n => releases n.op

/-- The transaction it has begun. -/
def transactionOf (log : List (accountService db turnstileEnabled).Entry) (pid : ℕ) : Option ℕ :=
  (Service.own log pid).findSome? fun n => begins n.op n.reply

/-- Has a commit of it reached the database? -/
def hasCommitted (log : List (accountService db turnstileEnabled).Entry) (pid : ℕ) : Bool :=
  (Service.own log pid).any fun n => commits n.op n.env

/-- Has a request of it to the lock failed? -/
def lockFailed (log : List (accountService db turnstileEnabled).Entry) (pid : ℕ) : Bool :=
  (Service.own log pid).any fun n => lockFails n.op n.env

/-- What is known of a registration. -/
def seatOf (log : List (accountService db turnstileEnabled).Entry)
    (w : (accountService db turnstileEnabled).Pool) (pid : ℕ) : Option Seat :=
  match w.procs[pid]? with
  | some (.register dto token, _) =>
      some ⟨token, stands log pid (.register dto token), lockDeadline log pid, hasReleased log pid,
        transactionOf log pid, hasCommitted log pid, lockFailed log pid⟩
  | _ => none

/-- Has nobody else this token? -/
def freshToken (w : (accountService db turnstileEnabled).Pool) (token : String) : Bool :=
  decide (w.shared.lock.token registrationLimitLockKey ≠ some token) &&
    w.procs.all fun p => match p.1 with
      | .register _ token' => decide (token' ≠ token)
      | .importParticipants _ _ _ => true

/-- **The runs.** Only registrations arrive, each with a token of its own; none is still at work
when its lock has run out; and the limit stays as it is. -/
def undisturbed (log : List (accountService db turnstileEnabled).Entry)
    (w : (accountService db turnstileEnabled).Pool) :
    (accountService db turnstileEnabled).Move → Bool
  | .spawn (.register _ token) => freshToken w token
  | .spawn (.importParticipants _ _ _) => false
  | .ambient (.configure key _) => decide (key ≠ "num_users")
  | .ambient _ => true
  | .act pid _ => (lockDeadline log pid).all fun t => decide (w.shared.lock.clock < t)

/-- The same, as a condition on a run. -/
def Undisturbed (log : List (accountService db turnstileEnabled).Entry)
    (w : (accountService db turnstileEnabled).Pool)
    (m : (accountService db turnstileEnabled).Move) : Prop := undisturbed log w m = true

instance (log : List (accountService db turnstileEnabled).Entry)
    (w : (accountService db turnstileEnabled).Pool)
    (m : (accountService db turnstileEnabled).Move) : Decidable (Undisturbed log w m) :=
  inferInstanceAs (Decidable (_ = true))

variable {log : List (accountService db turnstileEnabled).Entry}
  {w : (accountService db turnstileEnabled).Pool} {pid : ℕ} {dto : RegisterContestantDTO}
  {token : String}

theorem seatOf_of_getElem? {c : (accountService db turnstileEnabled).Call}
    {p : Prog accountI Exn Answer} (hc : c = AccountCall.register dto token)
    (hp : w.procs[pid]? = some (c, p)) :
    seatOf log w pid = some ⟨token, stands log pid (.register dto token), lockDeadline log pid,
      hasReleased log pid, transactionOf log pid, hasCommitted log pid, lockFailed log pid⟩ := by
  rw [seatOf, hp, hc]

/-- What is known of a registration that has taken a step. -/
theorem seatOf_step {c : (accountService db turnstileEnabled).Call} {o : accountI.Op}
    {e : (accountService db turnstileEnabled).Env} {p : Prog accountI Exn Answer} {s : AccountWorld}
    {w' : (accountService db turnstileEnabled).Pool} (hc : c = AccountCall.register dto token)
    (hp : w'.procs[pid]? = some (c, p)) :
    seatOf (log ++ [⟨pid, c, e, o, s⟩]) w' pid =
      some (Seat.next ⟨token, stands log pid (.register dto token), lockDeadline log pid,
        hasReleased log pid, transactionOf log pid, hasCommitted log pid, lockFailed log pid⟩ s e o
          (accountExec db e o s).1) := by
  rw [seatOf_of_getElem? hc hp]
  have hentry (n : (accountService db turnstileEnabled).Entry) :
      lockDeadline (log ++ [n]) n.pid = (lockDeadline log n.pid).or (runsOut n.before n.op n.reply) ∧
        hasReleased (log ++ [n]) n.pid = (hasReleased log n.pid || releases n.op) ∧
        transactionOf (log ++ [n]) n.pid = (transactionOf log n.pid).or (begins n.op n.reply) ∧
        hasCommitted (log ++ [n]) n.pid = (hasCommitted log n.pid || commits n.op n.env) ∧
        lockFailed (log ++ [n]) n.pid = (lockFailed log n.pid || lockFails n.op n.env) :=
    ⟨Service.findSome?_own _ log n, Service.any_own _ log n, Service.findSome?_own _ log n,
      Service.any_own _ log n, Service.any_own _ log n⟩
  obtain ⟨hdeadline, hreleased, hbegan, hreached, hfailed⟩ := hentry ⟨pid, c, e, o, s⟩
  have hstands : stands (log ++ [⟨pid, c, e, o, s⟩]) pid (.register dto token) =
      registerNext (stands log pid (.register dto token)) o (accountExec db e o s).1 := by
    rw [hc]
    exact stands_register
  exact congrArg some (Seat.ext rfl hstands hdeadline hreleased hbegan hreached hfailed)

/-- What is known of the others stays. -/
theorem seatOf_step_of_ne {n : (accountService db turnstileEnabled).Entry}
    {w' : (accountService db turnstileEnabled).Pool} (hne : n.pid ≠ pid)
    (hprocs : w'.procs[pid]? = w.procs[pid]?) :
    seatOf (log ++ [n]) w' pid = seatOf log w pid := by
  have hown : Service.own (log ++ [n]) pid = Service.own log pid := Service.own_append_of_ne hne
  rw [seatOf, seatOf, hprocs]
  split
  · next dto token _ _ =>
      have hstands : stands (log ++ [n]) pid (.register dto token) =
          stands log pid (.register dto token) :=
        Service.standing_append_of_ne hne _
      rw [hstands, lockDeadline, hasReleased, transactionOf, hasCommitted, lockFailed, hown]
      rfl
  · rfl

/-- What is known after a registration has taken a step. -/
theorem seatOf_act {c : (accountService db turnstileEnabled).Call} {o : accountI.Op}
    {e : (accountService db turnstileEnabled).Env} {k : Except Exn (accountI.Reply o) → Prog accountI Exn Answer}
    {p : Prog accountI Exn Answer} {s' : AccountWorld} {x : Seat}
    (hc : c = AccountCall.register dto token) (hp : Service.Pending w pid c o k)
    (hx : seatOf log w pid = some x) :
    seatOf (log ++ [⟨pid, c, e, o, w.shared⟩]) ⟨s', w.procs.set pid (c, p)⟩ =
      Function.update (seatOf log w) pid
        (some (x.next w.shared e o (accountExec db e o w.shared).1)) := by
  rw [seatOf_of_getElem? hc hp] at hx
  obtain rfl := Option.some.inj hx
  funext pid'
  by_cases hne : pid' = pid
  · subst hne
    rw [Function.update_self]
    exact seatOf_step hc (List.getElem?_set_self (List.getElem?_eq_some_iff.mp hp).1)
  · rw [Function.update_of_ne hne]
    exact seatOf_step_of_ne (Ne.symm hne) (List.getElem?_set_ne (Ne.symm hne))

/-- What is known after a registration has arrived. -/
theorem seatOf_spawn {c : (accountService db turnstileEnabled).Call}
    (hc : c = AccountCall.register dto token) (hlog : ∀ n ∈ log, n.pid < w.procs.length)
    (s : AccountWorld) (p : Prog accountI Exn Answer) :
    seatOf log ⟨s, w.procs ++ [(c, p)]⟩ =
      Function.update (seatOf log w) w.procs.length (some (Seat.new token)) := by
  have hlength : (w.procs ++ [(c, p)]).length = w.procs.length + 1 := List.length_append
  funext pid
  obtain hlt | rfl | hgt := Nat.lt_trichotomy pid w.procs.length
  · rw [Function.update_of_ne (Nat.ne_of_lt hlt), seatOf, seatOf]
    dsimp only
    rw [List.getElem?_append_left hlt]
  · have hne : ∀ n ∈ log, n.pid ≠ w.procs.length := fun n hn => Nat.ne_of_lt (hlog n hn)
    have hstands : stands log w.procs.length (.register dto token) = arrived :=
      Service.standing_of_forall_ne hne _
    rw [Function.update_self, seatOf_of_getElem? hc List.getElem?_concat_length, hstands,
      lockDeadline, hasReleased, transactionOf, hasCommitted, lockFailed, Service.own_eq_nil hne]
    rfl
  · rw [Function.update_of_ne (Nat.ne_of_gt hgt), seatOf, seatOf,
      List.getElem?_eq_none (Nat.le_of_lt hgt)]
    dsimp only
    rw [List.getElem?_eq_none (by omega)]

/-- The calls of a run. -/
theorem exists_register_of_records {s₀ : AccountWorld}
    (h : Service.Records Undisturbed ((accountService db turnstileEnabled).start s₀) log w) :
    ∀ p ∈ w.procs, ∃ dto token, p.1 = .register dto token := by
  induction h with
  | refl => exact fun p hp => nomatch hp
  | @spawn log w c hr hg ih =>
      intro p hp
      obtain hp | hp := List.mem_append.mp hp
      · exact ih p hp
      · rw [List.mem_singleton.mp hp]
        cases c with
        | register dto token => exact ⟨dto, token, rfl⟩
        | importParticipants contestId dto userId => cases hg
  | ambient _ _ ih => exact ih
  | @act log w pid e c o k hr hp hg ih =>
      intro p hmem
      obtain hmem | rfl := List.mem_or_eq_of_mem_set hmem
      · exact ih p hmem
      · exact ih (c, .call o k) (List.mem_of_getElem? hp)

/-- **The invariant holds all along.** -/
theorem kept_of_records {s₀ : AccountWorld} {n : ℤ} (hn : 0 < n)
    (hconfig : toInt 0 (s₀.config "num_users") = n) (hcap : (s₀.countUsers : ℤ) ≤ n)
    (hgiven : ∀ u ∈ s₀.users, ∀ tx, u.tx = some tx → tx < s₀.transactions)
    (h : Service.Records Undisturbed ((accountService db turnstileEnabled).start s₀) log w) :
    Kept n w.shared (seatOf log w) := by
  induction h with
  | refl => exact .nil hconfig hcap hgiven
  | @spawn log w c hr hg ih =>
      cases c with
      | importParticipants contestId dto userId => cases hg
      | register dto token =>
          obtain ⟨hkey, htokens⟩ := (Bool.and_eq_true _ _).mp hg
          rw [List.all_eq_true] at htokens
          rw [seatOf_spawn rfl hr.pid_lt]
          refine ih.arrive (fun pid x hx => ?_) (of_decide_eq_true hkey) ?_
          · rw [seatOf] at hx
            split at hx
            · next dto' token' p hp =>
                obtain rfl := Option.some.inj hx
                exact of_decide_eq_true (htokens _ (List.mem_of_getElem? hp))
            · cases hx
          · rw [seatOf, List.getElem?_eq_none (Nat.le_refl _)]
  | @ambient log w x hr hg ih =>
      refine Kept.ambient (f := seatOf log w) ih x ?_
      rintro key value rfl
      exact of_decide_eq_true hg
  | @act log w pid e c o k hr hp hg ih =>
      have hfollows := hr.follows (program_follows db turnstileEnabled) hp
      obtain ⟨dto, token, hc⟩ :
          ∃ dto token, c = AccountCall.register dto token :=
        exists_register_of_records hr _ (List.mem_of_getElem? hp)
      rw [seatOf_act hc hp (seatOf_of_getElem? hc hp)]
      subst hc
      refine ih.act hn (seatOf_of_getElem? rfl hp) (fun t ht => ?_) hfollows.1
      have hall : (lockDeadline log pid).all (fun t => decide (w.shared.lock.clock < t)) = true := hg
      rw [show lockDeadline log pid = some t from ht] at hall
      exact of_decide_eq_true hall

/-- **What is promised** of a state with its history. -/
structure WithinLimit (n : ℤ) (log : List (accountService db turnstileEnabled).Entry)
    (w : (accountService db turnstileEnabled).Pool) : Prop where
  /-- The number of users. -/
  cap : (w.shared.countUsers : ℤ) ≤ n
  /-- The lock is released by those only that have acquired it, -/
  acquired : ∀ pid, hasReleased log pid = true → (lockDeadline log pid).isSome
  /-- and by all of them that are over. -/
  released : ∀ pid c r, Service.Finished w pid c r → (lockDeadline log pid).isSome →
    hasReleased log pid = true
  /-- Then their tokens are gone, unless a request to Redis has failed. -/
  gone : ∀ pid dto token r, Service.Finished w pid (.register dto token) r →
    lockFailed log pid = false → w.shared.lock.token registrationLimitLockKey ≠ some token
  /-- A call ends with an answer. -/
  answered : ∀ pid c r, Service.Finished w pid c r →
    ∃ response, r = Except.ok (Answer.registered response)
  /-- Who fails without a commit leaves no row behind. -/
  clean : ∀ pid c response tx, Service.Finished w pid c (.ok (.registered response)) →
    response.success = false → transactionOf log pid = some tx → hasCommitted log pid = false →
      ∀ u ∈ w.shared.users, u.tx = some tx → u.live = false

/-- **The limit is kept**, from a state in which the rows belong to transactions that have begun,
in every run in which only registrations arrive, with tokens of their own, the limit stays as it
is, and no call outlives its lock. -/
theorem registrationCap {s₀ : AccountWorld} {n : ℤ} (hn : 0 < n)
    (hconfig : toInt 0 (s₀.config "num_users") = n) (hcap : (s₀.countUsers : ℤ) ≤ n)
    (hgiven : ∀ u ∈ s₀.users, ∀ tx, u.tx = some tx → tx < s₀.transactions)
    (h : Service.Records Undisturbed ((accountService db turnstileEnabled).start s₀) log w) :
    WithinLimit n log w := by
  have hkept := kept_of_records hn hconfig hcap hgiven h
  have hover {pid : ℕ} {c : (accountService db turnstileEnabled).Call} {r : Except Exn Answer}
      (hr : Service.Finished w pid c r) : ∃ dto token, c = .register dto token ∧
        (stands log pid c).done ∧ ∃ response, r = .ok (.registered response) ∧
          (response.success = true ↔ ∃ tx, (stands log pid c).row = .committed tx) := by
    obtain ⟨dto, token, hc⟩ := exists_register_of_records h _ (List.mem_of_getElem? hr)
    have hends : ends c (stands log pid c) r := h.follows (program_follows db turnstileEnabled) hr
    obtain rfl : c = .register dto token := hc
    exact ⟨dto, token, rfl, hends.1, hends.2⟩
  refine ⟨hkept.capped.cap, fun pid hreleased => ?_, fun pid c r hr hacquired => ?_,
    fun pid dto token r hr hcalm => ?_, fun pid c r hr => ?_,
    fun pid c response tx hr hfail hbegan hcommitted u hu htx => ?_⟩
  · -- it has taken a step, so it is one of the calls
    obtain ⟨m, hm, -⟩ := List.any_eq_true.mp hreleased
    obtain ⟨hmem, rfl⟩ := Service.mem_own.mp hm
    obtain ⟨p, hp⟩ := h.exists_of_mem m hmem
    obtain ⟨dto, token, hc⟩ := exists_register_of_records h _ (List.mem_of_getElem? hp)
    have hsound := hkept.sound m.pid _ (seatOf_of_getElem? hc hp)
    have hback := hsound.released.mp hreleased
    rw [Option.isSome_iff_ne_none]
    intro hnone
    have hout := hsound.deadline.mp hnone
    exact absurd (hout.symm.trans hback) nofun
  · obtain ⟨dto, token, rfl, hdone, -⟩ := hover hr
    have hsound := hkept.sound pid _ (seatOf_of_getElem? rfl hr)
    obtain hout | hback := hdone.1
    · have hnone : lockDeadline log pid = none := hsound.deadline.mpr hout
      rw [hnone] at hacquired
      cases hacquired
    · exact hsound.released.mpr hback
  · obtain ⟨-, -, -, hdone, -⟩ := hover hr
    exact hkept.unheld pid _ (seatOf_of_getElem? rfl hr) hcalm hdone.1
  · obtain ⟨-, -, -, -, response, hresponse, -⟩ := hover hr
    exact ⟨response, hresponse⟩
  · obtain ⟨dto, token, rfl, hdone, response', hresponse, hsuccess⟩ := hover hr
    obtain rfl : response = response' := Answer.registered.inj (Except.ok.inj hresponse)
    have hsound := hkept.sound pid _ (seatOf_of_getElem? rfl hr)
    have hrows := hkept.owned.rows pid _ (seatOf_of_getElem? rfl hr)
    have hrow : (stands log pid (.register dto token)).row.tx = some tx :=
      hsound.began.symm.trans hbegan
    change (stands log pid (.register dto token)).row.Rows (hasCommitted log pid) _ at hrows
    generalize hq : (stands log pid (.register dto token)).row = row at hrow hrows
    cases row with
    | unchecked => cases hrow
    | checked name => cases hrow
    | begun name tx' => exact absurd hq (hdone.2 tx' name).1
    | inserted name tx' => exact absurd hq (hdone.2 tx' name).2
    | committed tx' =>
        have hfine := hsuccess.mpr ⟨tx', hq⟩
        rw [hfail] at hfine
        cases hfine
    | rolledBack tx' =>
        obtain rfl : tx' = tx := Option.some.inj hrow
        rw [User.live, hrows hcommitted u hu htx]
        rfl

end Run

/-- There is room for one user. -/
def roomForOne : AccountWorld :=
  { openForm with
    config := Function.update openForm.config "num_users" (some (.int 1)) }

/-- Two visitors at once: the second waits for the lock, and then there is no room. -/
def twoAtOnce : List (accountService plainDatabase false).Move :=
  Service.callNow 0 (visitor "an" "an@x" "a") calmAccounts 3 ++
    Service.callNow 1 (visitor "bo" "bo@x" "b") calmAccounts 4 ++
      List.replicate 8 (.act 0 calmAccounts) ++ [.ambient (Happening.tick 100)] ++
        List.replicate 3 (.act 1 calmAccounts)

theorem registrationCap_example :
    ∃ log w, Service.runLogged Undisturbed [] ((accountService plainDatabase false).start roomForOne)
        twoAtOnce = some (log, w) ∧ w.shared.countUsers = 1 ∧ hasReleased log 1 = true ∧
      WithinLimit 1 log w := by
  have hrun : (Service.runLogged Undisturbed []
      ((accountService plainDatabase false).start roomForOne) twoAtOnce).any
        (fun p => decide (p.2.shared.countUsers = 1) && hasReleased p.1 1) = true := by
    decide +kernel
  obtain ⟨⟨log, w⟩, hw, hboth⟩ := (Option.any_eq_true _ _).mp hrun
  rw [Bool.and_eq_true] at hboth
  exact ⟨log, w, hw, of_decide_eq_true hboth.1, hboth.2,
    registrationCap (by decide) (by decide) (by decide) (List.forall_mem_nil _)
      (Service.records_of_runLogged .refl hw)⟩

end Accounts

end Fctf
