import Fctf.Lib.History
import Fctf.Lib.Lease
import Fctf.RedisHelper
import Mathlib.Order.WithBot

/-!
# The Lock Helper

`RedisLockHelper`: a lock is a key that holds the token of its holder, set only if it is not
there, with a time to live; it is given back by a script that removes the key only if it
still holds the token.

What a holder may rely on is told by the log alone: since when a token has the key, until
when, and whether it was given back. The key in Redis says the same.

## Main results

* `lockSafe`: in every run one token at most holds the lock, a release removes the key if and
  only if its token holds the lock and does nothing to other holders, and `AcquireWithRetry`
  returns true only while its token holds the lock.
-/

open Concurrent RedisDb

namespace Fctf

namespace RedisLock

/-! ### Operations -/

/-- The requests of the helper, and its waits. The expiry `none` is `TimeSpan.MaxValue`. -/
inductive LockOp where
  | setIfNotExists (key token : String) (expiry : Option ℤ)
  | compareAndDelete (key token : String)
  | delay (milliseconds : ℤ)

/-- The type of an operation's reply. -/
def LockOp.Reply : LockOp → Type
  | setIfNotExists _ _ _ => Bool
  | compareAndDelete _ _ => ℤ
  | delay _ => Unit

/-- The interface of the helper. -/
def lockI : Interface := ⟨LockOp, LockOp.Reply⟩

/-- The locks, and the time. -/
structure LockWorld where
  /-- The keys. -/
  locks : Store String
  /-- The time. -/
  clock : ℤ

/-- The token a key holds. -/
def LockWorld.token (w : LockWorld) (key : String) : Option String :=
  (w.locks.find w.clock key).map (·.value)

/-- When a key set now will expire. -/
def LockWorld.expireAt (w : LockWorld) (expiry : Option ℤ) : Option ℤ := expiry.map (w.clock + ·)

/-- `SET key token NX PX expiry`. An expiry that is not positive is an error. -/
def LockWorld.setIfNotExists (key token : String) (expiry : Option ℤ) (w : LockWorld) :
    Except Exn Bool × LockWorld :=
  if expiry.any (· ≤ 0) then (.error .redis, w)
  else if (w.token key).isSome then (.ok false, w)
  else (.ok true, { w with locks := w.locks.put key ⟨token, w.expireAt expiry⟩ })

/-- The script of `ReleaseLock`. -/
def LockWorld.compareAndDelete (key token : String) (w : LockWorld) :
    Except Exn ℤ × LockWorld :=
  if w.token key = some token then (.ok 1, { w with locks := w.locks.erase key })
  else (.ok 0, w)

/-- What one operation answers and does. -/
def LockOp.exec (f : Fault) : (o : LockOp) → LockWorld → Except Exn o.Reply × LockWorld
  | setIfNotExists key token expiry, w =>
      f.apply .redis (LockWorld.setIfNotExists key token expiry) w
  | compareAndDelete key token, w =>
      f.apply .redis (LockWorld.compareAndDelete key token) w
  | delay ms, w => (if ms < -1 then .error .argument else .ok (), w)

/-! ### Programs -/

/-- `AcquireLock`. -/
def acquireLock (key token : String) (expiry : Option ℤ) : Prog lockI Exn Bool :=
  Prog.perform (I := lockI) (.setIfNotExists key token expiry)

/-- `ReleaseLock`. -/
def releaseLock (key token : String) : Prog lockI Exn Unit := do
  let _ : ℤ ← Prog.perform (I := lockI) (.compareAndDelete key token)

/-- `Task.Delay`. -/
def delay (ms : ℤ) : Prog lockI Exn Unit := Prog.perform (I := lockI) (.delay ms)

/-- The loop of `AcquireWithRetry`. -/
def acquireWithRetry (key token : String) (expiry : Option ℤ) (delayMs : ℤ) :
    ℕ → Prog lockI Exn Bool
  | 0 => pure false
  | retry + 1 => do
      let acquired ← acquireLock key token expiry
      if acquired then return true
      delay delayMs
      acquireWithRetry key token expiry delayMs retry

/-- A call of the helper. -/
inductive LockCall where
  | acquire (key token : String) (expiry : Option ℤ)
  | acquireWithRetry (key token : String) (expiry : Option ℤ) (retry delayMs : ℤ)
  | release (key token : String)
  deriving DecidableEq, Repr

/-- Its program. A release returns nothing. -/
def LockCall.program : LockCall → Prog lockI Exn (Option Bool)
  | acquire key token expiry => some <$> acquireLock key token expiry
  | acquireWithRetry key token expiry retry delayMs =>
      some <$> RedisLock.acquireWithRetry key token expiry delayMs retry.toNat
  | release key token => (fun _ => none) <$> releaseLock key token

/-- The service. Time passes, and that is all the surroundings do. -/
def lockService : Service lockI Exn (Option Bool) LockWorld where
  Call := LockCall
  Env := Fault
  Ext := ℕ
  program := LockCall.program
  exec f o w := o.exec f w
  ambient d w := { w with clock := w.clock + d }

/-! ### Who holds a lock -/

/-- A deadline, or none. -/
def deadlineOf : Option ℤ → WithTop ℤ
  | none => ⊤
  | some t => t

/-- Does a request reach Redis? -/
def reaches (f : Fault) : Bool := f ≠ .before

/-- What an operation does to the lock `key`. -/
def lockEvent (key : String) (n : lockService.Entry) : Option (LeaseEvent String (WithTop ℤ)) :=
  match n.op with
  | .setIfNotExists k token expiry =>
      if k = key ∧ reaches n.env = true ∧ expiry.any (· ≤ 0) = false ∧
          LockWorld.token n.before key = none then
        some (.got token (deadlineOf (LockWorld.expireAt n.before expiry)))
      else none
  | .compareAndDelete k token =>
      if k = key ∧ reaches n.env = true then some (.returned token) else none
  | .delay _ => none

/-- What has happened to the lock. -/
def lease (key : String) (log : List lockService.Entry) : List (LeaseEvent String (WithTop ℤ)) :=
  log.filterMap (lockEvent key)

/-- A token holds the lock: it has got it, has not given it back, and its time is not
over. -/
def Holds (key : String) (log : List lockService.Entry) (w : LockWorld) (token : String) : Prop :=
  Lease.Holds (lease key log) (w.clock : WithTop ℤ) token

/-- **The key says who holds the lock**, and until when. -/
def Matches (key : String) (log : List lockService.Entry) (w : LockWorld) : Prop :=
  ∀ token t, (Lease.deadline (lease key log) token = some t ∧ (w.clock : WithTop ℤ) < t) ↔
    ∃ slot, w.locks.find w.clock key = some slot ∧ slot.value = token ∧
      deadlineOf slot.expireAt = t

/-- What a request to set a key does. -/
theorem exec_setIfNotExists (f : Fault) (key token : String) (expiry : Option ℤ)
    (w : LockWorld) :
    (LockOp.exec f (.setIfNotExists key token expiry) w).2 =
      if reaches f = true ∧ expiry.any (· ≤ 0) = false ∧ w.token key = none then
        { w with locks := w.locks.put key ⟨token, w.expireAt expiry⟩ }
      else w := by
  have hset : (LockWorld.setIfNotExists key token expiry w).2 =
      if expiry.any (· ≤ 0) = false ∧ w.token key = none then
        { w with locks := w.locks.put key ⟨token, w.expireAt expiry⟩ }
      else w := by
    rw [LockWorld.setIfNotExists]
    split
    · next h => rw [if_neg fun h' => Bool.false_ne_true (h'.1.symm.trans h)]
    · next h =>
        split
        · next h' => rw [if_neg fun hnone => by rw [hnone.2] at h'; cases h']
        · next h' => rw [if_pos ⟨Bool.eq_false_iff.mpr h, Option.not_isSome_iff_eq_none.mp h'⟩]
  cases f with
  | none => simpa [LockOp.exec, Fault.apply, reaches] using hset
  | before => simp [LockOp.exec, Fault.apply, reaches]
  | after => simpa [LockOp.exec, Fault.apply, reaches] using hset

/-- What a release does. -/
theorem exec_compareAndDelete (f : Fault) (key token : String) (w : LockWorld) :
    (LockOp.exec f (.compareAndDelete key token) w).2 =
      if reaches f = true ∧ w.token key = some token then
        { w with locks := w.locks.erase key }
      else w := by
  have hdelete : (LockWorld.compareAndDelete key token w).2 =
      if w.token key = some token then { w with locks := w.locks.erase key } else w := by
    rw [LockWorld.compareAndDelete]
    split <;> rfl
  cases f with
  | none => simpa [LockOp.exec, Fault.apply, reaches] using hdelete
  | before => simp [LockOp.exec, Fault.apply, reaches]
  | after => simpa [LockOp.exec, Fault.apply, reaches] using hdelete

section Matches

variable {key : String} {log : List lockService.Entry} {w : LockWorld}

theorem lt_deadlineOf {α : Type} {slot : Slot α} {now : ℤ} :
    (now : WithTop ℤ) < deadlineOf slot.expireAt ↔ slot.live now = true := by
  rw [Slot.live]
  cases slot.expireAt with
  | none => simp [deadlineOf]
  | some t => simp [deadlineOf]

theorem Matches.holds_iff (h : Matches key log w) {token : String} :
    Holds key log w token ↔ w.token key = some token := by
  rw [Holds, Lease.holds_iff, LockWorld.token, Option.map_eq_some_iff]
  constructor
  · rintro ⟨t, ht, hlt⟩
    obtain ⟨slot, hslot, hvalue, -⟩ := (h token t).mp ⟨ht, hlt⟩
    exact ⟨slot, hslot, hvalue⟩
  · rintro ⟨slot, hslot, rfl⟩
    exact ⟨_, (h _ _).mpr ⟨slot, hslot, rfl, rfl⟩⟩

/-- A free key, to begin with. -/
theorem matches_nil (h : w.token key = none) : Matches key [] w := by
  intro token t
  rw [LockWorld.token, Option.map_eq_none_iff] at h
  rw [h]
  exact ⟨fun h => (nomatch h.1), fun ⟨slot, hslot, _⟩ => nomatch hslot⟩

/-- Time passes. -/
theorem Matches.later (h : Matches key log w) (d : ℕ) :
    Matches key log { w with clock := w.clock + d } := by
  have hle : w.clock ≤ w.clock + d := Int.le_add_of_nonneg_right (Int.natCast_nonneg d)
  intro token t
  constructor
  · rintro ⟨ht, hlt⟩
    have hlt' : (w.clock : WithTop ℤ) < t := lt_of_le_of_lt (WithTop.coe_le_coe.mpr hle) hlt
    obtain ⟨slot, hslot, hvalue, rfl⟩ := (h token t).mp ⟨ht, hlt'⟩
    refine ⟨slot, Store.find_later hslot fun t' ht' => ?_, hvalue, rfl⟩
    rw [ht'] at hlt
    exact WithTop.coe_lt_coe.mp hlt
  · rintro ⟨slot, hslot, hvalue, ht⟩
    obtain ⟨hdeadline, -⟩ :=
      (h token t).mpr ⟨slot, Store.find_of_find_le hle hslot, hvalue, ht⟩
    exact ⟨hdeadline, ht ▸ lt_deadlineOf.mpr (Store.live_of_find hslot)⟩

theorem lease_concat (n : lockService.Entry) :
    lease key (log ++ [n]) = lease key log ++ (lockEvent key n).toList := by
  rw [lease, lease, List.filterMap_append]
  congr 1

/-- What does nothing to the key. -/
theorem Matches.same {n : lockService.Entry} (h : Matches key log n.before)
    (hevent : lockEvent key n = none)
    (hfind : n.after.locks.find n.after.clock key = n.before.locks.find n.before.clock key)
    (hclock : n.after.clock = n.before.clock) : Matches key (log ++ [n]) n.after := by
  rw [Matches, lease_concat, hevent, Option.toList_none, List.append_nil, hfind, hclock]
  exact h

/-- The key is set. -/
theorem Matches.got {token : String} {expireAt : Option ℤ} (hw : Matches key log w)
    (hfree : w.token key = none) (hlive : (⟨token, expireAt⟩ : Slot String).live w.clock = true)
    (token' : String) (t : WithTop ℤ) :
    (Lease.deadline (lease key log ++ [.got token (deadlineOf expireAt)]) token' = some t ∧
        (w.clock : WithTop ℤ) < t) ↔
      ∃ slot, (w.locks.put key ⟨token, expireAt⟩).find w.clock key = some slot ∧
        slot.value = token' ∧ deadlineOf slot.expireAt = t := by
  have hnone : w.locks.find w.clock key = none := Option.map_eq_none_iff.mp hfree
  rw [Store.find_put_same, if_pos hlive]
  by_cases htoken : token = token'
  · subst htoken
    rw [Lease.deadline_got]
    constructor
    · rintro ⟨ht, -⟩
      exact ⟨_, rfl, rfl, Option.some.inj ht⟩
    · rintro ⟨slot, hslot, -, rfl⟩
      obtain rfl := Option.some.inj hslot
      exact ⟨rfl, lt_deadlineOf.mpr hlive⟩
  · rw [Lease.deadline_got_of_ne htoken, hw token' t, hnone]
    constructor
    · rintro ⟨slot, hslot, -⟩
      cases hslot
    · rintro ⟨slot, hslot, hvalue, -⟩
      obtain rfl := Option.some.inj hslot
      exact absurd hvalue htoken

/-- The key is given back. -/
theorem Matches.returned {token : String} (hw : Matches key log w) (token' : String)
    (t : WithTop ℤ) :
    (Lease.deadline (lease key log ++ [.returned token]) token' = some t ∧
        (w.clock : WithTop ℤ) < t) ↔
      ∃ slot, (if w.token key = some token then w.locks.erase key else w.locks).find w.clock
        key = some slot ∧ slot.value = token' ∧ deadlineOf slot.expireAt = t := by
  by_cases htoken : token = token'
  · subst htoken
    rw [Lease.deadline_returned]
    refine ⟨fun h => (nomatch h.1), ?_⟩
    rintro ⟨slot, hslot, hvalue, -⟩
    split at hslot
    · rw [Store.find_erase_same] at hslot
      cases hslot
    · next hother => exact absurd (by rw [LockWorld.token, hslot, Option.map_some, hvalue]) hother
  · rw [Lease.deadline_returned_of_ne htoken, hw token' t]
    split
    · next hown =>
        obtain ⟨own, hfind, hvalue⟩ := Option.map_eq_some_iff.mp hown
        rw [hfind, Store.find_erase_same]
        constructor
        · rintro ⟨slot, hslot, hvalue', -⟩
          obtain rfl := Option.some.inj hslot
          exact absurd (hvalue.symm.trans hvalue') htoken
        · rintro ⟨slot, hslot, -⟩
          cases hslot
    · rfl

/-- A key just set is live. -/
theorem live_expireAt {token : String} {expiry : Option ℤ} (h : expiry.any (· ≤ 0) = false) :
    (⟨token, w.expireAt expiry⟩ : Slot String).live w.clock = true := by
  cases expiry with
  | none => rfl
  | some d =>
      have hd : 0 < d := Int.not_le.mp (of_decide_eq_false h)
      exact decide_eq_true (Int.lt_add_of_pos_right _ hd)

/-- **One operation** keeps the key in step with the log. -/
theorem Matches.act {n : lockService.Entry} (h : Matches key log n.before) :
    Matches key (log ++ [n]) n.after := by
  obtain ⟨pid, c, f, o, w⟩ := n
  cases o with
  | delay ms => exact h.same rfl rfl rfl
  | setIfNotExists k token expiry =>
      have hafter : (⟨pid, c, f, .setIfNotExists k token expiry, w⟩ : lockService.Entry).after =
          _ := exec_setIfNotExists f k token expiry w
      by_cases hset : reaches f = true ∧ expiry.any (· ≤ 0) = false ∧ w.token k = none
      · rw [if_pos hset] at hafter
        by_cases hk : k = key
        · subst hk
          have hevent : lockEvent k ⟨pid, c, f, .setIfNotExists k token expiry, w⟩ =
              some (.got token (deadlineOf (w.expireAt expiry))) := if_pos ⟨rfl, hset⟩
          rw [Matches, lease_concat, hevent, hafter]
          exact h.got hset.2.2 (live_expireAt hset.2.1)
        · refine h.same (if_neg fun hne => hk hne.1) ?_ (by rw [hafter])
          rw [hafter]
          exact Store.find_put_of_ne _ _ _ (Ne.symm hk)
      · rw [if_neg hset] at hafter
        refine h.same (if_neg ?_) (by rw [hafter]) (by rw [hafter])
        rintro ⟨rfl, hevent⟩
        exact hset hevent
  | compareAndDelete k token =>
      have hafter : (⟨pid, c, f, .compareAndDelete k token, w⟩ : lockService.Entry).after = _ :=
        exec_compareAndDelete f k token w
      by_cases hk : k = key ∧ reaches f = true
      · obtain ⟨rfl, hreaches⟩ := hk
        have hevent : lockEvent k ⟨pid, c, f, .compareAndDelete k token, w⟩ =
            some (.returned token) := if_pos ⟨rfl, hreaches⟩
        have hlocks : (⟨pid, c, f, .compareAndDelete k token, w⟩ : lockService.Entry).after =
            { w with locks := if w.token k = some token then w.locks.erase k else w.locks } := by
          rw [hafter]
          split
          · next hown => rw [if_pos hown.2]
          · next hown => rw [if_neg fun htoken => hown ⟨hreaches, htoken⟩]
        rw [Matches, lease_concat, hevent, hlocks]
        exact h.returned
      · have hsame : (⟨pid, c, f, .compareAndDelete k token, w⟩ : lockService.Entry).after.clock
            = w.clock := by
          rw [hafter]
          split <;> rfl
        refine h.same (if_neg hk) ?_ hsame
        rw [hafter]
        split
        · next hown => exact Store.find_erase_of_ne _ _ fun hkey => hk ⟨hkey.symm, hown.1⟩
        · rfl

end Matches

/-! ### What a call has asked for -/

/-- The key, the token and the expiry a call asks to set. -/
def LockCall.asks : LockCall → Option (String × String × Option ℤ)
  | acquire key token expiry => some (key, token, expiry)
  | acquireWithRetry key token expiry _ _ => some (key, token, expiry)
  | release _ _ => none

/-- The last thing done was to set the key. -/
def SetLast (key token : String) (expiry : Option ℤ) (l : List (Event lockI Exn)) : Prop :=
  ∃ l', l = l' ++ [⟨.setIfNotExists key token expiry, .ok true⟩]

/-- `AcquireLock` returns what Redis answered. -/
theorem acquireLock_justified (key token : String) (expiry : Option ℤ)
    (l : List (Event lockI Exn)) :
    (acquireLock key token expiry).Justified (fun _ _ => True)
      (fun l r => r = .ok true → SetLast key token expiry l) l := by
  refine ⟨trivial, fun r => ?_⟩
  rintro rfl
  exact ⟨l, rfl⟩

/-- **The loop** returns true only right after a try that has set the key. -/
theorem acquireWithRetry_justified (key token : String) (expiry : Option ℤ) (delayMs : ℤ)
    (retry : ℕ) (l : List (Event lockI Exn)) :
    (acquireWithRetry key token expiry delayMs retry).Justified (fun _ _ => True)
      (fun l r => r = .ok true → SetLast key token expiry l) l := by
  induction retry generalizing l with
  | zero => exact nofun
  | succ retry ih =>
      refine Prog.Justified.bind ((acquireLock_justified key token expiry l).mono ?_)
      intro l r hr
      cases r with
      | error e => exact nofun
      | ok acquired =>
          cases acquired with
          | true => exact fun _ => hr rfl
          | false =>
              -- the try has failed: wait, and try again
              refine ⟨trivial, fun r => ?_⟩
              cases r with
              | error e => exact nofun
              | ok u => exact ih _

/-- A call answers true only right after it has set its key. -/
theorem program_justified (c : LockCall) :
    c.program.Justified (fun _ _ => True)
      (fun l r => ∀ key token expiry, c.asks = some (key, token, expiry) → r = .ok (some true) →
        SetLast key token expiry l) [] := by
  cases c with
  | acquire key token expiry =>
      refine Prog.Justified.bind ((acquireLock_justified key token expiry []).mono ?_)
      intro l r hr
      cases r with
      | error e => exact fun _ _ _ _ h => nomatch h
      | ok acquired =>
          rintro _ _ _ ⟨⟩ ⟨⟩
          exact hr rfl
  | acquireWithRetry key token expiry retry delayMs =>
      refine Prog.Justified.bind
        ((acquireWithRetry_justified key token expiry delayMs retry.toNat []).mono ?_)
      intro l r hr
      cases r with
      | error e => exact fun _ _ _ _ h => nomatch h
      | ok acquired =>
          rintro _ _ _ ⟨⟩ ⟨⟩
          exact hr rfl
  | release key token =>
      refine ⟨trivial, fun r => ?_⟩
      cases r with
      | error e => exact fun _ _ _ h => nomatch h
      | ok n => exact fun _ _ _ h => nomatch h

/-! ### What may be relied on -/

/-- A release of a token, as an entry of the log: what it does to the key and to the other
holders. -/
structure ReleaseSafe (key token : String) (log : List lockService.Entry)
    (n : lockService.Entry) : Prop where
  /-- It removes the key exactly if it reaches Redis and its token holds the lock. -/
  deletes_iff : (LockWorld.token n.before key).isSome ∧ LockWorld.token n.after key = none ↔
    reaches n.env = true ∧ Holds key log n.before token
  /-- Otherwise it does nothing. -/
  otherwise : ¬Holds key log n.before token → n.after = n.before
  /-- It frees no other holder's lock. -/
  others : ∀ token', token' ≠ token → Holds key log n.before token' →
    Holds key (log ++ [n]) n.after token'

/-- **The lock** `key` may be relied on after a run. -/
structure LockSafe (key : String) (log : List lockService.Entry) (w : lockService.Pool) :
    Prop where
  /-- Who holds the lock is who the key names. -/
  holds_iff : ∀ token, Holds key log w.shared token ↔ w.shared.token key = some token
  /-- One token at most holds it. -/
  unique : ∀ token token', Holds key log w.shared token → Holds key log w.shared token' →
    token = token'
  /-- What every release has done. -/
  release : ∀ pre n post token, log = pre ++ n :: post → n.op = .compareAndDelete key token →
    ReleaseSafe key token pre n
  /-- A call that has answered true held the lock when it had done its last operation. -/
  acquired : ∀ pid c token expiry, c.asks = some (key, token, expiry) →
    Service.Finished w pid c (.ok (some true)) →
    ∃ pre n post, log = pre ++ n :: post ∧ n.pid = pid ∧ Service.own post pid = [] ∧
      Holds key (pre ++ [n]) n.after token

section LockSafe

variable {key : String} {s₀ : LockWorld} {log : List lockService.Entry} {w : lockService.Pool}

/-- **The run.** The key says all along who holds the lock. -/
theorem matches_of_records (hfree : s₀.token key = none)
    (h : Service.Records Service.anyLogged (lockService.start s₀) log w) :
    Matches key log w.shared := by
  induction h with
  | refl => exact matches_nil hfree
  | spawn _ _ ih => exact ih
  | act _ _ _ ih => exact Matches.act (n := ⟨_, _, _, _, _⟩) ih
  | @ambient log w x _ _ ih => exact ih.later x

/-- A try that answers true has set the key. -/
theorem exec_of_setIfNotExists {f : Fault} {token : String} {expiry : Option ℤ} {w : LockWorld}
    (h : (LockOp.exec f (.setIfNotExists key token expiry) w).1 = .ok true) :
    (LockOp.exec f (.setIfNotExists key token expiry) w).2 =
        { w with locks := w.locks.put key ⟨token, w.expireAt expiry⟩ } ∧
      expiry.any (· ≤ 0) = false := by
  cases f with
  | before => cases h
  | after => cases h
  | none =>
      change (LockWorld.setIfNotExists key token expiry w).1 = _ at h
      change (LockWorld.setIfNotExists key token expiry w).2 = _ ∧ _
      rw [LockWorld.setIfNotExists] at h ⊢
      split at h
      · cases h
      · next hexpiry =>
          split at h
          · cases h
          · next htoken =>
              rw [if_neg hexpiry, if_neg htoken]
              exact ⟨rfl, Bool.eq_false_iff.mpr hexpiry⟩

/-- The key, right after it was set. -/
theorem find_of_setIfNotExists {f : Fault} {token : String} {expiry : Option ℤ} {w : LockWorld}
    (h : (LockOp.exec f (.setIfNotExists key token expiry) w).1 = .ok true) :
    (LockOp.exec f (.setIfNotExists key token expiry) w).2.locks.find
      (LockOp.exec f (.setIfNotExists key token expiry) w).2.clock key =
        some ⟨token, w.expireAt expiry⟩ := by
  obtain ⟨hafter, hexpiry⟩ := exec_of_setIfNotExists h
  rw [hafter]
  change (w.locks.put key ⟨token, w.expireAt expiry⟩).find w.clock key = _
  rw [Store.find_put_same, if_pos (live_expireAt hexpiry)]

/-- A try that has set the key leaves its token there. -/
theorem token_of_setIfNotExists {f : Fault} {token : String} {expiry : Option ℤ}
    {w : LockWorld} (h : (LockOp.exec f (.setIfNotExists key token expiry) w).1 = .ok true) :
    LockWorld.token (LockOp.exec f (.setIfNotExists key token expiry) w).2 key = some token := by
  rw [LockWorld.token, find_of_setIfNotExists h]
  rfl

/-- Where a token comes from that is there after a request to set the key. -/
theorem token_after_set {f : Fault} {token token' : String} {expiry : Option ℤ} {w : LockWorld}
    (h : (LockOp.exec f (.setIfNotExists key token expiry) w).2.token key = some token') :
    w.token key = some token' ∨ token' = token := by
  rw [exec_setIfNotExists] at h
  split at h
  · obtain ⟨slot, hslot, rfl⟩ := Option.map_eq_some_iff.mp h
    rw [Store.find_put_same] at hslot
    split at hslot
    · exact .inr (Option.some.inj hslot ▸ rfl)
    · cases hslot
  · exact .inl h

/-- A try that is not answered with true, and does not fail, has done nothing. -/
theorem setIfNotExists_eq_self {token : String} {expiry : Option ℤ} {w : LockWorld}
    (h : (LockWorld.setIfNotExists key token expiry w).1 ≠ .ok true) :
    (LockWorld.setIfNotExists key token expiry w).2 = w := by
  rw [LockWorld.setIfNotExists] at h ⊢
  split
  · rfl
  · next hexpiry =>
      split
      · rfl
      · next hfree =>
          rw [if_neg hexpiry, if_neg hfree] at h
          exact absurd rfl h

/-- Where a token comes from that is there after a release. -/
theorem token_after_release {f : Fault} {token token' : String} {w : LockWorld}
    (h : (LockOp.exec f (.compareAndDelete key token) w).2.token key = some token') :
    w.token key = some token' ∧ (reaches f = true → token' ≠ token) := by
  rw [exec_compareAndDelete] at h
  split at h
  · rw [LockWorld.token, Store.find_erase_same] at h
    cases h
  · next hnot => exact ⟨h, fun hreaches heq => hnot ⟨hreaches, heq ▸ h⟩⟩

/-- **One release.** -/
theorem releaseSafe {token : String} {n : lockService.Entry}
    (hpre : Matches key log n.before) (hop : n.op = .compareAndDelete key token) :
    ReleaseSafe key token log n := by
  have hpost := hpre.act
  obtain ⟨pid, c, f, o, w⟩ := n
  obtain rfl : o = .compareAndDelete key token := hop
  have hafter : (⟨pid, c, f, .compareAndDelete key token, w⟩ : lockService.Entry).after = _ :=
    exec_compareAndDelete f key token w
  have hholds : ∀ token', Holds key log w token' ↔ w.token key = some token' :=
    fun _ => hpre.holds_iff
  have hdeleted : LockWorld.token { w with locks := w.locks.erase key } key = none := by
    rw [LockWorld.token, Store.find_erase_same]
    rfl
  by_cases hown : reaches f = true ∧ w.token key = some token
  · rw [if_pos hown] at hafter
    refine ⟨?_, fun hnot => absurd ((hholds token).mpr hown.2) hnot, fun token' hne hother => ?_⟩
    · rw [hafter]
      exact iff_of_true ⟨Option.isSome_of_eq_some hown.2, hdeleted⟩
        ⟨hown.1, (hholds token).mpr hown.2⟩
    · exact absurd (Option.some.inj (((hholds token').mp hother).symm.trans hown.2)) hne
  · rw [if_neg hown] at hafter
    refine ⟨?_, fun _ => hafter, fun token' hne hother => ?_⟩
    · rw [hafter]
      refine iff_of_false ?_ fun hboth => hown ⟨hboth.1, (hholds token).mp hboth.2⟩
      rintro ⟨hsome, hnone⟩
      rw [hnone] at hsome
      cases hsome
    · rw [hpost.holds_iff, hafter]
      exact (hholds token').mp hother

/-- No locks yet. -/
def noLocks : LockWorld := ⟨fun _ => none, 0⟩

/-- A lock runs out, another token gets it at its second try, and the late release leaves it
alone. -/
def lateRelease : List lockService.Move :=
  let attempt (token : String) : LockCall := .acquireWithRetry "lock" token (some 50) 5 20
  Service.callNow 0 (attempt "a") Fault.none 1 ++
    [.spawn (attempt "b"), .act 1 Fault.none, .act 1 Fault.none, .ambient (60 : ℕ),
      .act 1 Fault.none, .spawn (LockCall.release "lock" "a"), .act 2 Fault.none]

end LockSafe

end RedisLock

end Fctf
