import Fctf.Accounts
import Fctf.Lib.History

/-!
# Where a Registration Stands

A registration reads its limit, takes the lock, counts, looks its name and its address up,
and writes its row in a transaction; most of its steps can end it. Where it stands is what
it holds: the lock, the name it has looked up, and the row it has written.

## Main results

* `program_follows`: a call takes these steps in their order, and ends with neither the lock
  nor a row that is still pending.
-/

open Concurrent

namespace Fctf

namespace Accounts

/-- The lock of a registration. -/
inductive LockStage where
  | out
  | held
  /-- It is held, and there was room for one more user. -/
  | counted
  | back
  deriving DecidableEq, Repr

/-- The row of a registration. -/
inductive RowStage where
  | unchecked
  /-- Nobody had the name. -/
  | checked (name : String)
  | begun (name : String) (tx : ℕ)
  | inserted (name : String) (tx : ℕ)
  | committed (tx : ℕ)
  | rolledBack (tx : ℕ)
  deriving DecidableEq, Repr

/-- The name that is going to be written, or has been. -/
def RowStage.name : RowStage → Option String
  | unchecked => none
  | checked name => some name
  | begun name _ => some name
  | inserted name _ => some name
  | committed _ => none
  | rolledBack _ => none

/-- Its transaction. -/
def RowStage.tx : RowStage → Option ℕ
  | unchecked => none
  | checked _ => none
  | begun _ tx => some tx
  | inserted _ tx => some tx
  | committed tx => some tx
  | rolledBack tx => some tx

/-- A transaction begins. -/
def RowStage.begin (tx : ℕ) : RowStage → RowStage
  | checked name => begun name tx
  | row => row

/-- Where a registration stands. -/
structure Standing where
  /-- The limit it has read. -/
  limit : Option ℤ
  lock : LockStage
  row : RowStage
  deriving DecidableEq, Repr

/-- To begin with. -/
def arrived : Standing := ⟨none, .out, .unchecked⟩

/-- There is no limit, or room for one more user. -/
def Standing.admitted (q : Standing) : Prop :=
  ∃ n, q.limit = some n ∧ ((n ≤ 0 ∧ q.lock = .out) ∨ q.lock = .counted)

/-- What a registration may do. -/
def registerAllows (token : String) (q : Standing) : AccountOp → Prop
  | .getConfig _ => q.lock = .out
  | .verifyCaptcha _ => q.lock = .out
  | .lock (.setIfNotExists key token' expiry) =>
      key = registrationLimitLockKey ∧ token' = token ∧ expiry = some 10000 ∧ q.lock = .out ∧
        ∃ n, q.limit = some n ∧ 0 < n
  | .lock (.compareAndDelete key token') =>
      key = registrationLimitLockKey ∧ token' = token ∧ (q.lock = .held ∨ q.lock = .counted)
  | .lock (.delay _) => q.lock = .out
  | .countUsers => q.lock = .held
  | .nameExists _ => q.admitted ∧ q.row = .unchecked
  | .emailExists _ => q.admitted
  | .userFields => q.admitted
  | .beginTransaction => q.admitted ∧ ∃ name, q.row = .checked name
  | .insertUser tx _ name => q.admitted ∧ q.row = .begun name tx
  | .insertEntries _ _ _ => q.admitted
  | .commit tx => q.admitted ∧ ∃ name, q.row = .inserted name tx
  | .rollback tx => q.admitted ∧ ∃ name, q.row = .begun name tx ∨ q.row = .inserted name tx
  | .findUser _ => False
  | .findContest _ => False
  | .participantsOf _ => False
  | .findByEmail _ => False
  | .saveChanges _ => False

/-- Where it gets. -/
def registerNext (q : Standing) : (o : AccountOp) → Except Exn o.Reply → Standing
  | .getConfig key, .ok value =>
      if key = "num_users" then { q with limit := some (toInt 0 value) } else q
  | .lock (.setIfNotExists _ _ _), .ok true => { q with lock := .held }
  | .lock (.compareAndDelete _ _), _ => { q with lock := .back }
  | .countUsers, .ok (currentUsers : ℕ) =>
      if q.limit.any (fun n => decide (n < (currentUsers : ℤ) + 1)) then q else { q with lock := .counted }
  | .nameExists name, .ok false => { q with row := .checked name }
  | .beginTransaction, .ok tx => { q with row := q.row.begin tx }
  | .insertUser tx _ name, _ => { q with row := .inserted name tx }
  | .commit tx, .ok _ => { q with row := .committed tx }
  | .rollback tx, _ => { q with row := .rolledBack tx }
  | _, _ => q

/-- The protocol of a registration. -/
def registration (token : String) : Protocol accountI Exn Standing :=
  ⟨registerAllows token, registerNext⟩

/-- What an import may do. -/
def importAllows : AccountOp → Prop
  | .findUser _ => True
  | .findContest _ => True
  | .participantsOf _ => True
  | .findByEmail _ => True
  | .saveChanges _ => True
  | _ => False

/-- The protocol of a call. -/
def accountProtocol : AccountCall → Protocol accountI Exn Standing
  | .register _ token => registration token
  | .importParticipants _ _ _ => ⟨fun _ => importAllows, fun q _ _ => q⟩

/-- The standings in which nothing is left to be done. -/
def Standing.done (q : Standing) : Prop :=
  (q.lock = .out ∨ q.lock = .back) ∧ ∀ tx name, q.row ≠ .begun name tx ∧ q.row ≠ .inserted name tx

/-- How a call may end: with an answer, and a success only if it has committed. -/
def ends : AccountCall → Standing → Except Exn Answer → Prop
  | .register _ _, q, r => q.done ∧ ∃ response, r = .ok (.registered response) ∧
      (response.success = true ↔ ∃ tx, q.row = .committed tx)
  | .importParticipants _ _ _, q, _ => q = arrived

/-! ### The steps of a registration -/

section Walk

variable {β : Type} {token : String} {q : Standing} {post : Standing → Except Exn β → Prop}

/-- One operation, and what follows it. -/
theorem follows_request {o : AccountOp} {f : o.Reply → Prog accountI Exn β}
    (hallowed : registerAllows token q o)
    (hok : ∀ a, (f a).Follows (registration token) post (registerNext q o (.ok a)))
    (herror : ∀ e, post (registerNext q o (.error e)) (.error e)) :
    (request o >>= f).Follows (registration token) post q :=
  ⟨hallowed, fun r => match r with
    | .ok a => hok a
    | .error e => herror e⟩

/-- The part between the lock and the answer is over. -/
structure Settled (q₀ q : Standing) (x : Except Exn Response) : Prop where
  /-- The limit is still the one that was read. -/
  limit : q.limit = q₀.limit
  /-- The lock is where it was. -/
  lock : q.lock = q₀.lock
  /-- No row is pending. -/
  row : ∀ tx name, q.row ≠ .begun name tx ∧ q.row ≠ .inserted name tx
  /-- A success has been committed, a failure has not. -/
  success : (∃ response, x = .ok response ∧ response.success = true) ↔
    ∃ tx, q.row = .committed tx

theorem settled_of_unchecked {x : Except Exn Response} (hrow : q.row = .unchecked)
    (hx : ∀ response, x = .ok response → response.success = false) : Settled q q x where
  limit := rfl
  lock := rfl
  row tx name := by rw [hrow]; exact ⟨nofun, nofun⟩
  success := by
    rw [hrow]
    refine iff_of_false ?_ nofun
    rintro ⟨response, hok, hsuccess⟩
    rw [hx response hok] at hsuccess
    cases hsuccess

theorem settled_of_checked {x : Except Exn Response} {name : String} {q' : Standing}
    (hq' : q' = { q with row := .checked name })
    (hx : ∀ response, x = .ok response → response.success = false) : Settled q q' x where
  limit := by rw [hq']
  lock := by rw [hq']
  row tx name := by rw [hq']; exact ⟨nofun, nofun⟩
  success := by
    rw [hq']
    refine iff_of_false ?_ nofun
    rintro ⟨response, hok, hsuccess⟩
    rw [hx response hok] at hsuccess
    cases hsuccess

theorem settled_of_rolledBack {q' : Standing} {tx : ℕ} {e : Exn}
    (hq' : q' = { q with row := .rolledBack tx }) : Settled q q' (.error e) where
  limit := by rw [hq']
  lock := by rw [hq']
  row tx name := by rw [hq']; exact ⟨nofun, nofun⟩
  success := by
    rw [hq']
    exact iff_of_false nofun nofun

theorem settled_of_committed {q' : Standing} {tx : ℕ} {response : Response}
    (hq' : q' = { q with row := .committed tx }) (hsuccess : response.success = true) :
    Settled q q' (.ok response) where
  limit := by rw [hq']
  lock := by rw [hq']
  row tx name := by rw [hq']; exact ⟨nofun, nofun⟩
  success := by
    rw [hq']
    exact iff_of_true ⟨response, rfl, hsuccess⟩ ⟨tx, rfl⟩

/-- The transaction is rolled back. -/
theorem follows_rollback {tx : ℕ} {name : String} {e : Exn} {q₁ : Standing}
    (hadmitted : q.admitted)
    (hq₁ : q₁ = { q with row := .begun name tx } ∨ q₁ = { q with row := .inserted name tx }) :
    ((do let _ : Unit ← request (.rollback tx); throw e) : Prog accountI Exn Response).Follows
      (registration token) (Settled q) q₁ := by
  have hrolled : ∀ r, registerNext q₁ (.rollback tx) r = { q with row := .rolledBack tx } := by
    rintro (_ | _) <;> obtain rfl | rfl := hq₁ <;> rfl
  refine follows_request (o := .rollback tx) ⟨?_, name, ?_⟩ (fun a => ?_) fun e' => ?_
  · obtain rfl | rfl := hq₁ <;> exact hadmitted
  · obtain rfl | rfl := hq₁
    · exact .inl rfl
    · exact .inr rfl
  · exact settled_of_rolledBack (hrolled _)
  · exact settled_of_rolledBack (hrolled _)

/-- The commit. -/
theorem follows_commit {tx : ℕ} {name : String} {q₁ : Standing} (hadmitted : q.admitted)
    (hq₁ : q₁ = { q with row := .inserted name tx }) {response : Response}
    (hsuccess : response.success = true) :
    ((do let _ : Unit ← request (.commit tx); return response) :
        Prog accountI Exn Response).Follows (registration token)
      (fun q₁ x => match x with
        | .ok response => Settled q q₁ (.ok response)
        | .error _ => q₁ = { q with row := .begun name tx } ∨
            q₁ = { q with row := .inserted name tx }) q₁ := by
  obtain rfl := hq₁
  exact follows_request (o := .commit tx) ⟨hadmitted, name, rfl⟩
    (fun _ => settled_of_committed rfl hsuccess) fun _ => .inr rfl

/-- What is done in the transaction. -/
theorem follows_insertAndCommit (r : Registration) (entries : List FieldEntry) (tx : ℕ)
    (hadmitted : q.admitted) :
    (insertAndCommit r entries tx).Follows (registration token)
      (fun q₁ x => match x with
        | .ok response => Settled q q₁ (.ok response)
        | .error _ => q₁ = { q with row := .begun r.username tx } ∨
            q₁ = { q with row := .inserted r.username tx })
      { q with row := .begun r.username tx } := by
  refine follows_request (o := .insertUser tx r.email r.username) ⟨hadmitted, rfl⟩ (fun userId => ?_)
    fun _ => .inr rfl
  dsimp only
  split
  · exact follows_request (o := .insertEntries tx userId entries) hadmitted
      (fun _ => follows_commit hadmitted rfl rfl) fun _ => .inr rfl
  · exact follows_commit hadmitted rfl rfl

/-- **The transaction.** -/
theorem follows_createUser (r : Registration) (entries : List FieldEntry)
    (hadmitted : q.admitted) (hrow : q.row = .checked r.username) :
    (createUser r entries).Follows (registration token) (Settled q) q := by
  have hbegun (tx : ℕ) :
      registerNext q .beginTransaction (.ok tx) = { q with row := .begun r.username tx } := by
    change ({ q with row := q.row.begin tx } : Standing) = _
    rw [hrow, RowStage.begin]
  have hself : q = { q with row := .checked r.username } := by rw [← hrow]
  refine follows_request (o := .beginTransaction) ⟨hadmitted, r.username, hrow⟩
    (fun (tx : ℕ) => ?_)
    fun e => settled_of_checked hself nofun
  rw [hbegun]
  refine Prog.Follows.handle ((follows_insertAndCommit r entries tx hadmitted).mono ?_)
  intro q₁ x hx
  cases x with
  | ok response => exact hx
  | error e => exact follows_rollback hadmitted hx

/-- What is done with the form that was read. -/
def createRead (r : Registration) :
    Except String (List FieldEntry) → Prog accountI Exn Response
  | .error message => pure (.fail message)
  | .ok entries => createUser r entries

/-- The form is read. -/
theorem follows_readAndCreate (db : Database) (r : Registration) (hadmitted : q.admitted)
    (hrow : q.row = .checked r.username) :
    (readAndCreate db r).Follows (registration token) (Settled q) q := by
  have hself : q = { q with row := .checked r.username } := by rw [← hrow]
  refine follows_request (o := .userFields) hadmitted (fun (fields : List Field) => ?_)
    fun e => settled_of_checked hself nofun
  change Prog.Follows _ _ q (createRead r (readFields db r.userFields fields))
  cases readFields db r.userFields fields with
  | error message =>
      exact settled_of_checked hself fun response hok => Except.ok.inj hok ▸ rfl
  | ok entries => exact follows_createUser r entries hadmitted hrow

/-- **The checks**, and the transaction. -/
theorem follows_checkAndCreate (db : Database) (r : Registration) (hadmitted : q.admitted)
    (hrow : q.row = .unchecked) :
    (checkAndCreate db r).Follows (registration token) (Settled q) q := by
  refine follows_request (o := .nameExists r.username) ⟨hadmitted, hrow⟩
    (fun (usernameExists : Bool) => ?_) fun e => settled_of_unchecked hrow nofun
  cases usernameExists with
  | true => exact settled_of_unchecked hrow fun response hok => Except.ok.inj hok ▸ rfl
  | false =>
      change Prog.Follows _ _ { q with row := .checked r.username } (_ >>= _)
      refine follows_request (o := .emailExists r.email) hadmitted
        (fun (emailExists : Bool) => ?_) fun e => settled_of_checked rfl nofun
      cases emailExists with
      | true => exact settled_of_checked rfl fun response hok => Except.ok.inj hok ▸ rfl
      | false =>
          refine (follows_readAndCreate db r (q := { q with row := .checked r.username })
            hadmitted rfl).mono fun q' x hx => ?_
          exact ⟨hx.limit, hx.lock, hx.row, hx.success⟩

/-- **The end of a registration**: it has given the lock back, no row is pending, and only a
success has been committed. -/
structure Ended (q : Standing) (x : Except Exn Response) : Prop where
  /-- The lock. -/
  lock : q.lock = .out ∨ q.lock = .back
  /-- The row. -/
  row : ∀ tx name, q.row ≠ .begun name tx ∧ q.row ≠ .inserted name tx
  /-- The answer. -/
  success : (∃ response, x = .ok response ∧ response.success = true) ↔
    ∃ tx, q.row = .committed tx

/-- What was settled while the lock was free, has ended. -/
theorem Settled.ended {q₀ : Standing} {x : Except Exn Response} (h : Settled q₀ q x)
    (hlock : q₀.lock = .out) : Ended q x := ⟨.inl (h.lock.trans hlock), h.row, h.success⟩

/-- An exception becomes a failure. -/
theorem Ended.failure {e : Exn} (h : Ended q (.error e)) : Ended q (.ok (failure e)) where
  lock := h.lock
  row := h.row
  success := by
    rw [← h.success]
    refine iff_of_false ?_ nofun
    rintro ⟨response, hok, hsuccess⟩
    obtain rfl := Except.ok.inj hok
    cases e <;> cases hsuccess

/-- Nothing has been begun. -/
theorem ended_of_unchecked {x : Except Exn Response} (hlock : q.lock = .out)
    (hrow : q.row = .unchecked) (hx : ∀ response, x = .ok response → response.success = false) :
    Ended q x :=
  (settled_of_unchecked hrow hx).ended hlock

/-! ### Under the lock -/

/-- What is done under the lock. -/
theorem follows_checkLimit (db : Database) (r : Registration) {n : ℤ} (hlimit : q.limit = some n)
    (hlock : q.lock = .held) (hrow : q.row = .unchecked) :
    (checkLimit db r n).Follows (registration token)
      (fun q x => (q.lock = .held ∨ q.lock = .counted) ∧ Settled q q x) q := by
  refine follows_request (o := .countUsers) hlock (fun (currentUsers : ℕ) => ?_)
    fun e => ⟨.inl hlock, settled_of_unchecked hrow nofun⟩
  change Prog.Follows _ _
    (if q.limit.any (fun n => decide (n < (currentUsers : ℤ) + 1)) then q
      else { q with lock := .counted })
    (if n < (currentUsers : ℤ) + 1 then pure _ else checkAndCreate db r)
  have hany : q.limit.any (fun n => decide (n < (currentUsers : ℤ) + 1)) =
      decide (n < (currentUsers : ℤ) + 1) := by rw [hlimit, Option.any_some]
  rw [hany]
  by_cases hfull : n < (currentUsers : ℤ) + 1
  · rw [if_pos (decide_eq_true hfull), if_pos hfull]
    exact ⟨.inl hlock, settled_of_unchecked hrow fun response hok => Except.ok.inj hok ▸ rfl⟩
  · rw [if_neg (by simpa using hfull), if_neg hfull]
    refine (follows_checkAndCreate db r (q := { q with lock := .counted })
      ⟨n, hlimit, .inr rfl⟩ hrow).mono fun q' x hx => ⟨.inr hx.lock, ?_⟩
    exact ⟨rfl, rfl, hx.row, hx.success⟩

/-- The release. -/
theorem follows_releaseQuietly (hlock : q.lock = .held ∨ q.lock = .counted) :
    (releaseQuietly token).Follows (registration token)
      (fun q' x => q' = { q with lock := .back } ∧ x = .ok ()) q := by
  refine ⟨⟨rfl, rfl, hlock⟩, fun r => ?_⟩
  cases r with
  | ok deleted => exact ⟨rfl, rfl⟩
  | error e => exact ⟨rfl, rfl⟩

/-- The loop that takes the lock. -/
theorem follows_acquireWithRetry {n : ℤ} (hlimit : q.limit = some n) (hn : 0 < n)
    (hlock : q.lock = .out) (delayMs : ℤ) (retry : ℕ) :
    (withLocks (RedisLock.acquireWithRetry registrationLimitLockKey token (some 10000) delayMs
        retry)).Follows (registration token)
      (fun q' x => (x = .ok true ∧ q' = { q with lock := .held }) ∨ (x ≠ .ok true ∧ q' = q)) q := by
  induction retry with
  | zero => exact .inr ⟨nofun, rfl⟩
  | succ retry ih =>
      refine ⟨⟨rfl, rfl, rfl, hlock, n, hlimit, hn⟩, fun r => ?_⟩
      match r with
      | .error e => exact .inr ⟨nofun, rfl⟩
      | .ok true => exact .inl ⟨rfl, rfl⟩
      | .ok false =>
          -- wait, and try again
          refine ⟨hlock, fun r => ?_⟩
          match r with
          | .error e => exact .inr ⟨nofun, rfl⟩
          | .ok () => exact ih

/-- **The lock is given back** whatever happens. -/
theorem follows_underLock (db : Database) (r : Registration) {n : ℤ} (hlimit : q.limit = some n)
    (hn : 0 < n) (hlock : q.lock = .out) (hrow : q.row = .unchecked) :
    (underLock db token r n).Follows (registration token) Ended q := by
  refine Prog.Follows.bind ((follows_acquireWithRetry hlimit hn hlock 100 8).mono ?_)
  rintro q₁ (e | acquired) hacquired
  · obtain ⟨hx, -⟩ | ⟨-, rfl⟩ := hacquired
    · cases hx
    · exact ended_of_unchecked hlock hrow nofun
  · cases acquired with
    | false =>
        obtain ⟨hx, -⟩ | ⟨-, rfl⟩ := hacquired
        · cases hx
        · exact ended_of_unchecked hlock hrow fun response hok => Except.ok.inj hok ▸ rfl
    | true =>
        obtain ⟨-, rfl⟩ | ⟨hx, -⟩ := hacquired
        · refine Prog.Follows.bind (Prog.Follows.handle
            ((follows_checkLimit db r (q := { q with lock := .held }) hlimit rfl hrow).mono ?_))
          rintro q₂ x ⟨hheld, hsettled⟩
          have hended (x : Except Exn Response) (hx : Settled q₂ q₂ x) :
              Ended { q₂ with lock := .back } x := ⟨.inr rfl, hx.row, hx.success⟩
          cases x with
          | ok response =>
              refine Prog.Follows.bind ((follows_releaseQuietly hheld).mono ?_)
              rintro q₃ x ⟨rfl, rfl⟩
              exact hended _ hsettled
          | error e =>
              refine Prog.Follows.bind ((follows_releaseQuietly hheld).mono ?_)
              rintro q₃ x ⟨rfl, rfl⟩
              exact (hended _ hsettled).failure
        · exact absurd rfl hx

/-! ### The whole registration -/

/-- What follows the checks. -/
theorem follows_limitAndCreate (db : Database) (r : Registration) (hlock : q.lock = .out)
    (hrow : q.row = .unchecked) :
    (limitAndCreate db token r).Follows (registration token) Ended q := by
  refine follows_request (o := .getConfig "num_users") hlock
    (fun (limit : Option ConfigValue) => ?_) fun e => ended_of_unchecked hlock hrow nofun
  change Prog.Follows _ _ { q with limit := some (toInt 0 limit) }
    (if 0 < toInt 0 limit then underLock db token r (toInt 0 limit) else checkAndCreate db r)
  split
  · next hn => exact follows_underLock db r rfl hn hlock hrow
  · next hn =>
      refine (follows_checkAndCreate db r (q := { q with limit := some (toInt 0 limit) })
        ⟨_, rfl, .inl ⟨Int.not_lt.mp hn, hlock⟩⟩ hrow).mono fun q' x hx => hx.ended hlock

/-- The captcha. -/
theorem follows_validateCaptchaToken (db : Database) (turnstileEnabled : Bool)
    (captchaToken : Option String) (hlock : q.lock = .out) :
    (validateCaptchaToken db turnstileEnabled captchaToken).Follows (registration token)
      (fun q' _ => q' = q) q := by
  rw [validateCaptchaToken]
  split
  · split
    · exact rfl
    · refine ⟨hlock, fun r => ?_⟩
      cases r <;> exact rfl
  · exact rfl

/-- The body of the `try`. -/
theorem follows_registerBody (db : Database) (turnstileEnabled : Bool)
    (dto : RegisterContestantDTO) :
    (registerBody db turnstileEnabled dto token).Follows (registration token) Ended arrived := by
  have hended (q : Standing) (hq : q.lock = .out ∧ q.row = .unchecked) (message : String) :
      Ended q (.ok (.fail message)) :=
    ended_of_unchecked hq.1 hq.2 fun response hok => Except.ok.inj hok ▸ rfl
  refine follows_request (o := .getConfig "contestant_registration_enabled") rfl
    (fun (enabled : Option ConfigValue) => ?_) fun e => ended_of_unchecked rfl rfl nofun
  change Prog.Follows _ _ arrived (if toBool false enabled = false then _ else _ >>= _)
  split
  · exact hended _ ⟨rfl, rfl⟩ _
  · refine Prog.Follows.bind ((follows_validateCaptchaToken db turnstileEnabled dto.captchaToken
      rfl).mono ?_)
    rintro q₁ (e | captchaValid) rfl
    · exact ended_of_unchecked rfl rfl nofun
    · change Prog.Follows _ _ arrived (if captchaValid = false then _ else _)
      split
      · exact hended _ ⟨rfl, rfl⟩ _
      · cases validate db dto with
        | error message => exact hended _ ⟨rfl, rfl⟩ _
        | ok r => exact follows_limitAndCreate db r rfl rfl

/-- **A registration** takes its steps in order, and answers. -/
theorem follows_registerContestant (db : Database) (turnstileEnabled : Bool)
    (dto : RegisterContestantDTO) :
    (registerContestant db turnstileEnabled dto token).Follows (registration token)
      (fun q x => Ended q x ∧ ∃ response, x = .ok response) arrived := by
  refine Prog.Follows.handle ((follows_registerBody db turnstileEnabled dto).mono ?_)
  rintro q (e | response) hx
  · exact ⟨hx.failure, _, rfl⟩
  · exact ⟨hx, _, rfl⟩

end Walk

/-! ### The steps of an import -/

section Import

variable {α β : Type}

/-- Every operation of the program is one of an import. -/
structure Imports (p : Prog accountI Exn α) : Prop where
  /-- All of them. -/
  throughout : p.Throughout importAllows

theorem Imports.request {o : AccountOp} (h : importAllows o) : Imports (request o) :=
  ⟨h, fun _ => trivial⟩

theorem Imports.pure (a : α) : Imports (pure a : Prog accountI Exn α) := ⟨trivial⟩

theorem Imports.bind {p : Prog accountI Exn α} {f : α → Prog accountI Exn β} (hp : Imports p)
    (hf : ∀ a, Imports (f a)) : Imports (p >>= f) :=
  ⟨Prog.Throughout.bind hp.throughout fun a => (hf a).throughout⟩

theorem Imports.attempt {p : Prog accountI Exn α} (h : Imports p) : Imports (attempt p) :=
  ⟨Prog.Throughout.handle (Prog.Throughout.bind h.throughout fun _ => trivial) fun _ => trivial⟩

theorem Imports.ite {c : Prop} [Decidable c] {p p' : Prog accountI Exn α} (hp : Imports p)
    (hp' : Imports p') : Imports (if c then p else p') := by
  split <;> assumption

/-- A save that may fail. -/
theorem imports_save (rows : List Tracked) : Imports (attempt (saveRows rows)) :=
  Imports.attempt (Imports.request (o := .saveChanges rows) trivial)

theorem imports_addParticipant (contestId : ℕ) (role : String) (existing : List ℕ)
    (email : String) (targetUser : ℕ) (tracked : List Tracked)
    (result : ImportParticipantsResultDTO) :
    Imports (addParticipant contestId role existing email targetUser tracked result) := by
  rw [addParticipant]
  refine Imports.ite (Imports.pure _) ((imports_save _).bind fun saved => ?_)
  cases saved <;> exact Imports.pure _

theorem imports_importRow (db : Database) (contestId : ℕ) (role : String) (existing : List ℕ)
    (email : String) (tracked : List Tracked) (result : ImportParticipantsResultDTO) :
    Imports (importRow db contestId role existing email tracked result) := by
  have hfind : Imports (attempt (findAccount (normalizeEmail db email))) :=
    Imports.attempt (Imports.request (o := .findByEmail (normalizeEmail db email)) trivial)
  rw [importRow]
  generalize normalizeEmail db email = normalizedEmail at hfind ⊢
  refine Imports.ite (Imports.pure _) (hfind.bind fun existingUser => ?_)
  obtain _ | _ | targetUser := existingUser
  · exact Imports.pure _
  · refine (imports_save _).bind fun saved => ?_
    cases saved with
    | error _ => exact Imports.pure _
    | ok targetUser => exact imports_addParticipant contestId role existing email targetUser [] _
  · exact imports_addParticipant contestId role existing email targetUser tracked _

theorem imports_importRows (db : Database) (contestId : ℕ) (role : String) (existing : List ℕ)
    (emails : List String) (tracked : List Tracked) (result : ImportParticipantsResultDTO) :
    Imports (importRows db contestId role existing emails tracked result) := by
  induction emails generalizing tracked result with
  | nil => exact Imports.pure _
  | cons email emails ih =>
      rw [importRows]
      have hrow := imports_importRow db contestId role existing email tracked result
      generalize importRow db contestId role existing email tracked result = row at hrow ⊢
      refine hrow.bind fun out => ?_
      obtain ⟨tracked, result⟩ := out
      exact ih tracked result

/-- What follows once the user and the contest are found. -/
theorem imports_importInto (db : Database) (contestId : ℕ) (dto : ImportParticipantsDTO)
    (userId : ℕ) (user : User) (contest : Contest) :
    Imports (importInto db contestId dto userId user contest) := by
  rw [importInto]
  refine Imports.ite (Imports.pure _)
    ((Imports.request (o := .participantsOf contestId) trivial).bind fun existing => ?_)
  exact (imports_importRows db contestId dto.role existing dto.emails [] _).bind
    fun _ => Imports.pure _

/-- **An import** reads and saves. -/
theorem imports_importParticipants (db : Database) (contestId : ℕ) (dto : ImportParticipantsDTO)
    (userId : ℕ) : Imports (importParticipants db contestId dto userId) := by
  refine ⟨Prog.Throughout.handle (Imports.throughout ?_) fun _ => trivial⟩
  rw [importBody]
  refine (Imports.request (o := .findUser userId) trivial).bind fun (user : Option User) => ?_
  cases user with
  | none => exact Imports.pure _
  | some user =>
      refine (Imports.request (o := .findContest contestId) trivial).bind
        fun (contest : Option Contest) => ?_
      cases contest with
      | none => exact Imports.pure _
      | some contest => exact imports_importInto db contestId dto userId user contest

end Import

/-! ### Operations that do not touch the row -/

/-- Does an operation leave the row of a registration where it is? -/
def AccountOp.quiet : AccountOp → Bool
  | nameExists _ => false
  | beginTransaction => false
  | insertUser _ _ _ => false
  | commit _ => false
  | rollback _ => false
  | saveChanges _ => false
  | _ => true

section Quiet

variable {db : Database} {e : AccountEnv} {s : AccountWorld}

/-- A request that reads changes nothing. -/
theorem read_snd {α : Type} (answer : AccountWorld → α) : (e.read answer s).2 = s := by
  rw [AccountEnv.read]
  cases e.fault <;> rfl

theorem read_eq_ok {α : Type} {answer : AccountWorld → α} {a : α}
    (h : (e.read answer s).1 = .ok a) : answer s = a := by
  rw [AccountEnv.read] at h
  cases hfault : e.fault <;> rw [hfault] at h
  · exact Except.ok.inj h
  · cases h
  · cases h

/-- What has no effect of its own has none under a fault. -/
theorem apply_snd_eq {α : Type} {f : Fault} {exn : Exn}
    {run : AccountWorld → Except Exn α × AccountWorld} (hrun : (run s).2 = s) :
    (f.apply exn run s).2 = s := by
  cases f with
  | none => exact hrun
  | before => rfl
  | after => exact hrun

/-- The users stay as they are. -/
theorem exec_users {o : AccountOp} (h : o.quiet = true) :
    (accountExec db e o s).2.users = s.users := by
  cases o with
  | getConfig key => exact congrArg AccountWorld.users (read_snd _)
  | verifyCaptcha token => exact congrArg AccountWorld.users (apply_snd_eq rfl)
  | lock o => rfl
  | countUsers => exact congrArg AccountWorld.users (read_snd _)
  | emailExists email => exact congrArg AccountWorld.users (read_snd _)
  | userFields => exact congrArg AccountWorld.users (read_snd _)
  | insertEntries tx userId entries => exact congrArg AccountWorld.users (apply_snd_eq rfl)
  | findUser userId => exact congrArg AccountWorld.users (read_snd _)
  | findContest contestId => exact congrArg AccountWorld.users (read_snd _)
  | participantsOf contestId => exact congrArg AccountWorld.users (read_snd _)
  | findByEmail email => exact congrArg AccountWorld.users (read_snd _)
  | nameExists _ | beginTransaction | insertUser _ _ _ | commit _ | rollback _ | saveChanges _ =>
      cases h

/-- A row is inserted, or nothing. -/
theorem insertUser_users (db : Database) (e : AccountEnv) (s : AccountWorld) (tx : ℕ)
    (email name : String) :
    ∃ us, (accountExec db e (.insertUser tx email name) s).2.users = s.users ++ us ∧
      (us = [] ∨ us = [Database.newUser email name .pending (some tx)]) := by
  have hrun : ∃ us, (if db.acceptsUser s.users email name then
        ((.ok s.users.length : Except Exn ℕ),
          { s with users := s.users ++ [Database.newUser email name .pending (some tx)] })
        else (.error .duplicateKey, s)).2.users = s.users ++ us ∧
      (us = [] ∨ us = [Database.newUser email name .pending (some tx)]) := by
    split
    · exact ⟨_, rfl, .inr rfl⟩
    · exact ⟨[], (List.append_nil _).symm, .inl rfl⟩
  change ∃ us, (e.fault.apply _ _ s).2.users = _ ∧ _
  cases e.fault with
  | none => exact hrun
  | before => exact ⟨[], (List.append_nil _).symm, .inl rfl⟩
  | after => exact hrun

/-- The row stays where it is. -/
theorem registerNext_row {o : AccountOp} (h : o.quiet = true) (q : Standing)
    (r : Except Exn o.Reply) : (registerNext q o r).row = q.row := by
  cases o with
  | getConfig key =>
      cases r with
      | error exn => rfl
      | ok value =>
          change (if key = "num_users" then { q with limit := some (toInt 0 value) } else q).row = _
          split <;> rfl
  | lock o =>
      cases o with
      | setIfNotExists key token expiry =>
          match r with
          | .error exn => rfl
          | .ok true => rfl
          | .ok false => rfl
      | compareAndDelete key token => cases r <;> rfl
      | delay ms => cases r <;> rfl
  | countUsers =>
      match r with
      | .error exn => rfl
      | .ok (currentUsers : ℕ) =>
          change (if q.limit.any (fun n => decide (n < (currentUsers : ℤ) + 1)) then q
            else { q with lock := .counted }).row = _
          split <;> rfl
  | verifyCaptcha _ | emailExists _ | userFields | insertEntries _ _ _ | findUser _
  | findContest _ | participantsOf _ | findByEmail _ => cases r <;> rfl
  | nameExists _ | beginTransaction | insertUser _ _ _ | commit _ | rollback _ | saveChanges _ =>
      cases h

/-- What a registration depends on, of a row. -/
def claimedPart (u : User) : Option String × RowState × Option ℕ := (u.name, u.state, u.tx)

/-- A user that is banned or hidden keeps it. -/
theorem map_modify_claimedPart {g : User → User} (hg : ∀ u, claimedPart (g u) = claimedPart u)
    (users : List User) (i : ℕ) : (users.modify i g).map claimedPart = users.map claimedPart := by
  induction users generalizing i with
  | nil => rw [List.modify_nil]
  | cons u users ih =>
      cases i with
      | zero => rw [List.modify_zero_cons, List.map_cons, List.map_cons, hg]
      | succ i => rw [List.modify_succ_cons, List.map_cons, List.map_cons, ih]

/-- Where a row with that part was before. -/
theorem exists_claimedPart {users users' : List User}
    (hcore : users'.map claimedPart = users.map claimedPart) {u : User} (hu : u ∈ users') :
    ∃ u₀ ∈ users, u₀.name = u.name ∧ u₀.state = u.state ∧ u₀.tx = u.tx := by
  have hmem : claimedPart u ∈ users.map claimedPart := hcore ▸ List.mem_map_of_mem hu
  obtain ⟨u₀, hu₀, hpart⟩ := List.mem_map.mp hmem
  obtain ⟨hname, hpart⟩ := Prod.mk.inj hpart
  exact ⟨u₀, hu₀, hname, Prod.mk.inj hpart⟩

end Quiet

/-- **Every call** follows its protocol. -/
theorem program_follows (db : Database) (turnstileEnabled : Bool) (c : AccountCall) :
    (c.program db turnstileEnabled).Follows (accountProtocol c) (ends c) arrived := by
  cases c with
  | register dto token =>
      refine Prog.Follows.bind ((follows_registerContestant db turnstileEnabled dto).mono ?_)
      rintro q x ⟨hended, response, rfl⟩
      refine ⟨⟨hended.lock, hended.row⟩, response, rfl, ?_⟩
      rw [← hended.success]
      exact ⟨fun hsuccess => ⟨response, rfl, hsuccess⟩,
        fun ⟨_, hok, hsuccess⟩ => Except.ok.inj hok ▸ hsuccess⟩
  | importParticipants contestId dto userId =>
      refine Prog.Follows.bind (Prog.Follows.mono
        (@Prog.Follows.of_invariant _ _ _ _ _ _ (· = arrived) _
          ((imports_importParticipants db contestId dto userId).throughout.mono ?_) rfl) ?_)
      · exact fun o ho q hq => ⟨ho, fun _ => hq⟩
      · rintro q (e | response) hq <;> exact hq

section Stands

variable {db : Database} {turnstileEnabled : Bool}

/-- Where a call stands. -/
def stands (log : List (accountService db turnstileEnabled).Entry) (pid : ℕ) (c : AccountCall) :
    Standing :=
  Service.standing (S := accountService db turnstileEnabled) accountProtocol (fun _ => arrived)
    log pid c

/-- A registration has taken a step. -/
theorem stands_register {log : List (accountService db turnstileEnabled).Entry} {pid : ℕ}
    {dto : RegisterContestantDTO} {token : String} {e : AccountEnv} {o : accountI.Op}
    {s : AccountWorld} :
    stands (log ++ [⟨pid, AccountCall.register dto token, e, o, s⟩]) pid (.register dto token) =
      registerNext (stands log pid (.register dto token)) o (accountExec db e o s).1 :=
  Service.standing_append_self (S := accountService db turnstileEnabled)
    (n := ⟨pid, AccountCall.register dto token, e, o, s⟩) (AccountCall.register dto token)

end Stands

/-! ### Visitors -/

/-- Registration is open, and there is no limit. -/
def openForm : AccountWorld where
  users := []
  participants := []
  contests := []
  config key := if key = "contestant_registration_enabled" then some (.bool true) else none
  fields := []
  transactions := 0
  lock := ⟨fun _ => none, 0⟩

/-- A visitor registers. -/
def visitor (username email token : String) : AccountCall :=
  .register ⟨some username, some email, some "Abcdef1!", some "Abcdef1!", none, []⟩ token

end Accounts

end Fctf
