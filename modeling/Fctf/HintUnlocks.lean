import Fctf.HintReasons

/-!
# One Unlock

As long as no request outlives its lock, one request of a team at most is between its look at the
unlocks and its save. So there is one unlock at most for a team, a hint and a type.

## Main results

* `Locked.alone`: one request at a time has the lock of a team.
* `oneUnlock`: in every such run the unlocks of teams stay distinct.
-/

open Concurrent RedisDb

namespace Fctf

open RedisLock (LockOp LockWorld)

namespace Hints

/-! ### Operations -/

section Operations

variable {cfg : HintConfig} {e : HintEnv} {o : HintOp} {w : HintWorld}

/-- **What an operation does.** It is one of the lock, it stores an unlock, or it does nothing. -/
theorem exec_cases (cfg : HintConfig) (e : HintEnv) (o : HintOp) (w : HintWorld) :
    (∃ lo : LockOp, o = .lock lo ∧
        (HintOp.exec cfg e o w).2 = { w with lock := (lo.exec e.fault w.lock).2 }) ∨
      (∃ unlock award, o = .saveUnlock unlock award ∧
        (HintOp.exec cfg e o w).2 = (w.saveUnlock unlock award).2) ∨
      (HintOp.exec cfg e o w).2 = w := by
  cases o with
  | lock lo => exact .inl ⟨lo, rfl, rfl⟩
  | saveUnlock unlock award =>
      rcases e with ⟨fault, transient, guid⟩
      cases fault with
      | none => exact .inr (.inl ⟨unlock, award, rfl, rfl⟩)
      | before => exact .inr (.inr rfl)
      | after => exact .inr (.inl ⟨unlock, award, rfl, rfl⟩)
  | _ => exact .inr (.inr rfl)

/-- No operation takes time. -/
theorem exec_clock (cfg : HintConfig) (e : HintEnv) (o : HintOp) (w : HintWorld) :
    (HintOp.exec cfg e o w).2.lock.clock = w.lock.clock := by
  rcases exec_cases cfg e o w with ⟨lo, rfl, hafter⟩ | ⟨unlock, award, rfl, hafter⟩ | hafter
  · rw [hafter]
    cases lo with
    | setIfNotExists key token expiry =>
        change (LockOp.exec e.fault (.setIfNotExists key token expiry) w.lock).2.clock = _
        rw [RedisLock.exec_setIfNotExists]
        split <;> rfl
    | compareAndDelete key token =>
        change (LockOp.exec e.fault (.compareAndDelete key token) w.lock).2.clock = _
        rw [RedisLock.exec_compareAndDelete]
        split <;> rfl
    | delay ms => rfl
  · rw [hafter]
    rfl
  · rw [hafter]

/-- Is a guid drawn? -/
def draws : HintOp → Bool
  | .newGuid => true
  | _ => false

/-- Is the lock acquired? -/
def acquires : (o : HintOp) → Except HintError o.Reply → Bool
  | .lock (.setIfNotExists _ _ _), .ok true => true
  | _, _ => false

/-- The lock is acquired, with this key and this token. -/
def acquired (key token : String) : Event hintI HintError :=
  ⟨HintOp.lock (.setIfNotExists key token (some 30000)), .ok true⟩

/-- A guid is drawn. -/
def drawn (token : String) : Event hintI HintError := ⟨HintOp.newGuid, .ok token⟩

/-- A try that was answered with true has set the key. -/
theorem find_of_acquired (cfg : HintConfig) {key token : String}
    (h : (HintOp.exec cfg e (.lock (.setIfNotExists key token (some 30000))) w).1 = .ok true) :
    (HintOp.exec cfg e (.lock (.setIfNotExists key token (some 30000))) w).2.lock.locks.find
      (HintOp.exec cfg e (.lock (.setIfNotExists key token (some 30000))) w).2.lock.clock key =
        some ⟨token, some (w.lock.clock + 30000)⟩ := by
  refine RedisLock.find_of_setIfNotExists ?_
  change Except.mapError HintError.failed
    (LockOp.exec e.fault (.setIfNotExists key token (some 30000)) w.lock).1 = .ok true at h
  revert h
  cases (LockOp.exec e.fault (.setIfNotExists key token (some 30000)) w.lock).1 with
  | error exn => exact fun h => by cases h
  | ok b => exact fun h => congrArg Except.ok (Except.ok.inj h)

end Operations

/-! ### The lock of a team -/

section Runs

variable {cfg : HintConfig} {log : List (hintService cfg).Entry} {s : HintWorld} {pid : ℕ}

/-- A call has neither stored an unlock nor given the lock back. -/
def Open (log : List (hintService cfg).Entry) (pid : ℕ) : Prop :=
  ∀ n ∈ log, n.pid = pid → final n.op = false

/-- The lock of a call has not run out. -/
def InTime (log : List (hintService cfg).Entry) (now : ℤ) (pid : ℕ) : Prop :=
  ∀ m ∈ log, m.pid = pid → acquires m.op m.reply = true → now < m.before.lock.clock + 30000

instance (log : List (hintService cfg).Entry) (now : ℤ) (pid : ℕ) :
    Decidable (InTime log now pid) :=
  inferInstanceAs (Decidable (∀ m ∈ log, _ → _ → _))

/-- Guids are drawn once, and no unlock is stored when the lock has run out. -/
def Admitted (log : List (hintService cfg).Entry) (s : HintWorld) (pid : ℕ) (e : HintEnv) :
    HintOp → Prop
  | .newGuid => ∀ n ∈ log, draws n.op = true → n.env.guid ≠ e.guid
  | .saveUnlock _ _ => InTime log s.lock.clock pid
  | _ => True

/-- **Orderly runs.** What others do is restricted by `others`. -/
def Orderly (others : HintWorld → HintWorld → Prop) (log : List (hintService cfg).Entry)
    (w : (hintService cfg).Pool) : (hintService cfg).Move → Prop
  | .spawn _ => True
  | .act pid e =>
      match w.procs[pid]? with
      | some (_, .call o _) => Admitted log w.shared pid e o
      | _ => True
  | .ambient x => others w.shared x

/-- Others leave the locks alone, and time does not run backwards. -/
structure LeavesLocks (s x : HintWorld) : Prop where
  locks : x.lock.locks = s.lock.locks
  clock : s.lock.clock ≤ x.lock.clock

/-- **Who has the lock of a team.** -/
structure Locked (log : List (hintService cfg).Entry) (s : HintWorld) : Prop where
  /-- A guid is drawn by one call. -/
  distinct : ∀ n ∈ log, ∀ n' ∈ log, ∀ token, n.event = drawn token → n'.event = drawn token →
    n.pid = n'.pid
  /-- The token of a lock is such a guid. -/
  given : ∀ m ∈ log, ∀ key token, m.event = acquired key token →
    ∃ n ∈ log, n.pid = m.pid ∧ n.event = drawn token
  /-- A lock that was acquired is held until it runs out. -/
  holds : ∀ m ∈ log, ∀ key token, m.event = acquired key token → Open log m.pid →
    s.lock.clock < m.before.lock.clock + 30000 →
      s.lock.locks.find s.lock.clock key = some ⟨token, some (m.before.lock.clock + 30000)⟩

theorem Open.of_append {n : (hintService cfg).Entry} (h : Open (log ++ [n]) pid) : Open log pid :=
  fun m hm => h m (List.mem_append_left _ hm)

theorem InTime.of_append {n : (hintService cfg).Entry} {now : ℤ} (h : InTime (log ++ [n]) now pid) :
    InTime log now pid :=
  fun m hm => h m (List.mem_append_left _ hm)

theorem InTime.earlier {now now' : ℤ} (h : InTime log now' pid) (hle : now ≤ now') :
    InTime log now pid :=
  fun m hm hpid hacq => lt_of_le_of_lt hle (h m hm hpid hacq)

/-- A call in time that has acquired a lock. -/
theorem InTime.lt {m : (hintService cfg).Entry} {now : ℤ} {key token : String}
    (h : InTime log now m.pid) (hm : m ∈ log) (hevent : m.event = acquired key token) :
    now < m.before.lock.clock + 30000 := by
  refine h m hm rfl ?_
  obtain ⟨pid, c, e, o, w⟩ := m
  obtain ⟨rfl, hreply⟩ := Event.mk.inj hevent
  rw [eq_of_heq hreply]
  rfl

/-- **One call at a time** has a lock. -/
theorem Locked.alone (h : Locked log s) {m m' : (hintService cfg).Entry} {key token token' : String}
    (hm : m ∈ log) (hm' : m' ∈ log) (hevent : m.event = acquired key token)
    (hevent' : m'.event = acquired key token') (hopen : Open log m.pid) (hopen' : Open log m'.pid)
    (htime : InTime log s.lock.clock m.pid) (htime' : InTime log s.lock.clock m'.pid) :
    m.pid = m'.pid := by
  have hfind := h.holds m hm key token hevent hopen (htime.lt hm hevent)
  have hfind' := h.holds m' hm' key token' hevent' hopen' (htime'.lt hm' hevent')
  obtain rfl : token = token' := (Slot.mk.inj (Option.some.inj (hfind.symm.trans hfind'))).1
  obtain ⟨n, hn, hpid, hdrawn⟩ := h.given m hm key token hevent
  obtain ⟨n', hn', hpid', hdrawn'⟩ := h.given m' hm' key token hevent'
  rw [← hpid, ← hpid']
  exact h.distinct n hn n' hn' token hdrawn hdrawn'

theorem Locked.nil (s : HintWorld) : Locked ([] : List (hintService cfg).Entry) s where
  distinct n hn := by cases hn
  given m hm := by cases hm
  holds m hm := by cases hm

/-- Others do something. -/
theorem Locked.ambient (h : Locked log s) {x : HintWorld} (hx : LeavesLocks s x) :
    Locked log x where
  distinct := h.distinct
  given := h.given
  holds m hm key token hevent hopen htime := by
    have hfind := h.holds m hm key token hevent hopen (lt_of_le_of_lt hx.clock htime)
    rw [hx.locks]
    refine Store.find_later hfind fun t ht => ?_
    rwa [← Option.some.inj ht]

/-- A lock is not lost by what another call does, nor by anything of its own but the end. -/
theorem Locked.held_after (h : Locked log s) {e : HintEnv} {o : HintOp} {call : HintCall}
    (hreason : Reason cfg call (Service.past log pid) o) {m : (hintService cfg).Entry}
    (hm : m ∈ log) {key token : String} (hevent : m.event = acquired key token)
    (hkept : m.pid = pid → final o = false)
    (hfind : s.lock.locks.find s.lock.clock key =
      some ⟨token, some (m.before.lock.clock + 30000)⟩) :
    (HintOp.exec cfg e o s).2.lock.locks.find (HintOp.exec cfg e o s).2.lock.clock key =
      some ⟨token, some (m.before.lock.clock + 30000)⟩ := by
  rcases exec_cases cfg e o s with ⟨lo, rfl, hafter⟩ | ⟨unlock, award, rfl, hafter⟩ | hafter
  · rw [hafter]
    cases lo with
    | setIfNotExists k t expiry =>
        change (LockOp.exec e.fault (.setIfNotExists k t expiry) s.lock).2.locks.find
          (LockOp.exec e.fault (.setIfNotExists k t expiry) s.lock).2.clock key = _
        rw [RedisLock.exec_setIfNotExists]
        split
        · next hset =>
            by_cases hk : key = k
            · subst hk
              have hfree := hset.2.2
              rw [LockWorld.token, hfind] at hfree
              cases hfree
            · exact (Store.find_put_of_ne _ _ _ hk).trans hfind
        · exact hfind
    | compareAndDelete k t =>
        change (LockOp.exec e.fault (.compareAndDelete k t) s.lock).2.locks.find
          (LockOp.exec e.fault (.compareAndDelete k t) s.lock).2.clock key = _
        rw [RedisLock.exec_compareAndDelete]
        split
        · next hown =>
            by_cases hk : key = k
            · -- it would be the token of the call itself
              subst hk
              have htoken := hown.2
              rw [LockWorld.token, hfind] at htoken
              obtain rfl : token = t := Option.some.inj htoken
              obtain ⟨n, hn, hpid, hdrawn⟩ := Service.mem_past hreason.1
              obtain ⟨n', hn', hpid', hdrawn'⟩ := h.given m hm key token hevent
              have hsame := h.distinct n hn n' hn' token hdrawn hdrawn'
              have hfinal := hkept (by rw [← hpid', ← hsame, hpid])
              cases hfinal
            · exact (Store.find_erase_of_ne _ _ hk).trans hfind
        · exact hfind
    | delay ms => exact hfind
  · rw [hafter]
    exact hfind
  · rw [hafter]
    exact hfind

/-- **One operation** keeps the locks with their holders. -/
theorem Locked.act {n : (hintService cfg).Entry} (h : Locked log n.before)
    (hreason : Reason cfg n.call (Service.past log n.pid) n.op)
    (hadmitted : Admitted log n.before n.pid n.env n.op) : Locked (log ++ [n]) n.after where
  distinct x hx y hy token hxdrawn hydrawn := by
    have hnew (z : (hintService cfg).Entry) (hz : z ∈ log) (hzdrawn : z.event = drawn token)
        (hndrawn : n.event = drawn token) : False := by
      obtain ⟨pid, c, e, o, w⟩ := n
      obtain ⟨rfl, hreply⟩ := Event.mk.inj hndrawn
      obtain ⟨pid', c', e', o', w'⟩ := z
      obtain ⟨rfl, hreply'⟩ := Event.mk.inj hzdrawn
      refine hadmitted _ hz rfl ?_
      exact (Except.ok.inj (eq_of_heq hreply')).trans (Except.ok.inj (eq_of_heq hreply)).symm
    rcases List.mem_append.mp hx with hxlog | hxlast
    · rcases List.mem_append.mp hy with hylog | hylast
      · exact h.distinct x hxlog y hylog token hxdrawn hydrawn
      · rw [List.mem_singleton.mp hylast] at hydrawn
        exact (hnew x hxlog hxdrawn hydrawn).elim
    · rw [List.mem_singleton.mp hxlast] at hxdrawn ⊢
      rcases List.mem_append.mp hy with hylog | hylast
      · exact (hnew y hylog hydrawn hxdrawn).elim
      · rw [List.mem_singleton.mp hylast]
  given m hm key token hevent := by
    rcases List.mem_append.mp hm with hm | hm
    · obtain ⟨x, hx, hpid, hdrawn⟩ := h.given m hm key token hevent
      exact ⟨x, List.mem_append_left _ hx, hpid, hdrawn⟩
    · obtain rfl := List.mem_singleton.mp hm
      obtain ⟨pid, c, e, o, w⟩ := m
      obtain ⟨rfl, -⟩ := Event.mk.inj hevent
      obtain ⟨p, -, htold, -⟩ := hreason
      obtain ⟨x, hx, hpid, hdrawn⟩ := Service.mem_past htold
      exact ⟨x, List.mem_append_left _ hx, hpid, hdrawn⟩
  holds m hm key token hevent hopen htime := by
    rcases List.mem_append.mp hm with hm | hm
    · have hclock : n.after.lock.clock = n.before.lock.clock := exec_clock cfg n.env n.op n.before
      rw [hclock] at htime
      refine h.held_after hreason hm hevent (fun hpid => ?_)
        (h.holds m hm key token hevent hopen.of_append htime)
      exact hopen n (List.mem_append_right _ (List.mem_singleton_self n)) hpid.symm
    · obtain rfl := List.mem_singleton.mp hm
      obtain ⟨pid, c, e, o, w⟩ := m
      obtain ⟨rfl, hreply⟩ := Event.mk.inj hevent
      exact find_of_acquired cfg (eq_of_heq hreply)

/-! ### One unlock -/

/-- Two unlocks for the same team, hint and type. -/
def SameUnlock (cfg : HintConfig) (u v : Unlock) : Prop :=
  u.teamId ≠ none ∧ u.teamId = v.teamId ∧ u.target = v.target ∧
    sameType cfg.sql u.type v.type = true

/-- No two unlocks are for the same team, hint and type. -/
def Distinct (cfg : HintConfig) (unlocks : List Unlock) : Prop :=
  unlocks.Pairwise fun u v => ¬SameUnlock cfg u v

/-- Every team has its contest. -/
def AtHome (contestOf : ℤ → ℤ) (s : HintWorld) : Prop :=
  ∀ t ∈ s.score.teams, ∀ c, t.contestId = some c → contestOf t.id = c

/-- Others add no unlocks, and leave the teams in their contests. -/
structure AddsNoUnlocks (contestOf : ℤ → ℤ) (s x : HintWorld) : Prop where
  leaves : LeavesLocks s x
  unlocks : x.unlocks.Sublist s.unlocks
  home : AtHome contestOf x

/-- The key of a team's lock. -/
def teamKey (contestId teamId : ℤ) : String :=
  contestKey contestId ("hint:unlock:team:" ++ toString teamId)

/-- A query for an unlock of a team that has found none. -/
def foundNone (target : ℤ) (type : Option String) (teamId : ℤ) : Event hintI HintError :=
  ⟨HintOp.findUnlock target type (.team (some teamId)), .ok none⟩

/-- The team of a user. -/
def foundTeam (userId contestId : ℤ) (team : ScoreAccount) : Event hintI HintError :=
  ⟨HintOp.findUserTeam userId contestId, .ok (some team)⟩

/-- **What is kept**, as long as no call outlives its lock. -/
structure Kept (contestOf : ℤ → ℤ) (log : List (hintService cfg).Entry) (s : HintWorld) : Prop where
  locked : Locked log s
  /-- Teams are in their contests, and so they were found. -/
  home : AtHome contestOf s
  found : ∀ n ∈ log, ∀ userId contestId team, n.event = foundTeam userId contestId team →
    contestOf team.id = contestId
  /-- An unlock that was not found is not there. -/
  new : ∀ n ∈ log, ∀ target type t, n.event = foundNone target type t → Open log n.pid →
    InTime log s.lock.clock n.pid → ∀ u ∈ s.unlocks, u.target = some target →
      sameType cfg.sql u.type type = true → u.teamId ≠ some t
  distinct : Distinct cfg s.unlocks

/-- The call that is under the lock has it for its team. -/
theorem exists_acquired {contestOf : ℤ → ℤ} {call : HintCall} {p : Purchase} {token : String}
    {pre : List (hintService cfg).Entry} {t : ℤ} (h : Under cfg call p token (Service.past pre pid))
    (hteams : cfg.teamsMode = true) (ht : p.teamId = some t) (hpre : ∀ n ∈ pre, n ∈ log)
    (hfound : ∀ n ∈ log, ∀ userId contestId team, n.event = foundTeam userId contestId team →
      contestOf team.id = contestId) :
    ∃ m ∈ log, m.pid = pid ∧ m.event = acquired (teamKey (contestOf t) t) token := by
  obtain ⟨team, hteam, hid⟩ := h.asked.team
  rw [ht] at hid
  obtain ⟨team, rfl, rfl⟩ := Option.map_eq_some_iff.mp hid.symm
  obtain ⟨y, hy, -, hevent⟩ := Service.mem_past hteam
  have hhome := hfound y (hpre y hy) p.userId p.contestId team hevent
  obtain ⟨m, hm, hpid, hacquired⟩ := Service.mem_past h.acquired
  refine ⟨m, hpre m hm, hpid, hacquired.trans ?_⟩
  have hkey : p.lockKey cfg = teamKey (contestOf team.id) team.id := by
    rw [Purchase.lockKey, if_pos hteams, ht, teamKey, hhome]
    rfl
  rw [hkey]
  rfl

/-- A call that is under the lock has done nothing final. -/
theorem Under.isOpen {call : HintCall} {p : Purchase} {token : String}
    (h : Under cfg call p token (Service.past log pid)) : Open log pid := by
  intro n hn hpid
  exact h.pending n.event (List.mem_map_of_mem (Service.mem_own.mpr ⟨hn, hpid⟩))

/-- The lock of a call that has found no unlock. -/
theorem Kept.exists_acquired {contestOf : ℤ → ℤ} {n : (hintService cfg).Entry} {target t : ℤ}
    {type : Option String} (h : Kept contestOf log s)
    (hreasoned : Service.Reasoned (Reason cfg) log) (hteams : cfg.teamsMode = true)
    (hn : n ∈ log) (hevent : n.event = foundNone target type t) :
    ∃ m ∈ log, m.pid = n.pid ∧ ∃ token, m.event = acquired (teamKey (contestOf t) t) token := by
  obtain ⟨pre, post, rfl⟩ := List.append_of_mem hn
  have hreason := hreasoned pre n post rfl
  obtain ⟨pid, c, e, o, w⟩ := n
  obtain ⟨rfl, -⟩ := Event.mk.inj hevent
  obtain ⟨p, token, hunder, -, -, haccount⟩ := hreason
  rw [account, if_pos hteams] at haccount
  obtain ⟨m, hm, hpid, hacquired⟩ := Hints.exists_acquired hunder hteams
    (Account.team.inj haccount).symm (fun n hn => List.mem_append_left _ hn) h.found
  exact ⟨m, hm, hpid, token, hacquired⟩

/-- Another call is not at the same time between its look at the unlocks and its save. -/
theorem Kept.alone {contestOf : ℤ → ℤ} {n : (hintService cfg).Entry} {call : HintCall}
    {p : Purchase} {token : String} {target t : ℤ} {type : Option String} (h : Kept contestOf log s)
    (hreasoned : Service.Reasoned (Reason cfg) log) (hteams : cfg.teamsMode = true)
    (hn : n ∈ log) (hevent : n.event = foundNone target type t) (hopen : Open log n.pid)
    (htime : InTime log s.lock.clock n.pid)
    (hunder : Under cfg call p token (Service.past log pid)) (ht : p.teamId = some t)
    (hintime : InTime log s.lock.clock pid) : n.pid = pid := by
  obtain ⟨m, hm, hpid, token, hacquired⟩ := h.exists_acquired hreasoned hteams hn hevent
  obtain ⟨m', hm', hpid', hacquired'⟩ :=
    Hints.exists_acquired hunder hteams ht (fun n hn => hn) h.found
  rw [← hpid] at hopen htime ⊢
  have hopen' := hunder.isOpen
  rw [← hpid'] at hopen' hintime ⊢
  exact h.locked.alone hm hm' hacquired hacquired' hopen hopen' htime hintime

/-- **An unlock is stored.** -/
theorem Kept.store {contestOf : ℤ → ℤ} {call : HintCall} {p : Purchase} {token : String} {date : ℤ}
    (h : Kept contestOf log s) (hteams : cfg.teamsMode = true)
    (hunder : Under cfg call p token (Service.past log pid))
    (hbought : Bought cfg p (Service.past log pid)) (hintime : InTime log s.lock.clock pid)
    (id : ℤ) :
    Distinct cfg (s.unlocks ++ [{ p.unlock date with id := id }]) := by
  refine List.pairwise_append.mpr ⟨h.distinct, List.pairwise_singleton _ _, fun u hu v hv => ?_⟩
  obtain rfl := List.mem_singleton.mp hv
  rintro ⟨hne, hteam, htarget, htype⟩
  obtain ⟨t, ht⟩ := Option.ne_none_iff_exists'.mp hne
  obtain ⟨n, hn, hpid, hevent⟩ := Service.mem_past hbought.new
  have haccount : account cfg p.teamId p.userId = .team (some t) := by
    rw [account, if_pos hteams, ← ht]
    exact congrArg Account.team hteam.symm
  rw [haccount] at hevent
  refine h.new n hn p.req.target p.req.type t hevent ?_ ?_ u hu htarget htype ht
  · rw [hpid]
    exact hunder.isOpen
  · rwa [hpid]

/-- **What becomes of the tables.** An unlock is stored with an award, or nothing changes. -/
theorem tables_after (cfg : HintConfig) (e : HintEnv) (o : HintOp) (s : HintWorld) :
    (∃ unlock award, o = .saveUnlock unlock award ∧
        (HintOp.exec cfg e o s).2 = (s.saveUnlock unlock award).2) ∨
      ((HintOp.exec cfg e o s).2.unlocks = s.unlocks ∧
        (HintOp.exec cfg e o s).2.score = s.score) := by
  rcases exec_cases cfg e o s with ⟨lo, rfl, hafter⟩ | ⟨unlock, award, rfl, hafter⟩ | hafter
  · rw [hafter]
    exact .inr ⟨rfl, rfl⟩
  · exact .inl ⟨unlock, award, rfl, hafter⟩
  · rw [hafter]
    exact .inr ⟨rfl, rfl⟩

theorem teams_after (cfg : HintConfig) (e : HintEnv) (o : HintOp) (s : HintWorld) :
    (HintOp.exec cfg e o s).2.score.teams = s.score.teams := by
  rcases tables_after cfg e o s with ⟨unlock, award, rfl, hafter⟩ | ⟨-, hscore⟩
  · rw [hafter]
    rfl
  · rw [hscore]

/-- The team that is found has a contest. -/
theorem contestId_of_userTeam {userId contestId : ℤ} {team : ScoreAccount}
    (h : s.userTeam userId contestId = some team) :
    team ∈ s.score.teams ∧ team.contestId = some contestId ∧
      (userId, team.id) ∈ s.score.userTeams := by
  have hboth := List.find?_some h
  rw [Bool.and_eq_true, decide_eq_true_iff, List.contains_iff_mem] at hboth
  exact ⟨List.mem_of_find?_eq_some h, hboth⟩

/-- **One operation** keeps it. -/
theorem Kept.act {contestOf : ℤ → ℤ} {n : (hintService cfg).Entry} (h : Kept contestOf log n.before)
    (hteams : cfg.teamsMode = true) (hreasoned : Service.Reasoned (Reason cfg) log)
    (hreason : Reason cfg n.call (Service.past log n.pid) n.op)
    (hadmitted : Admitted log n.before n.pid n.env n.op) :
    Kept contestOf (log ++ [n]) n.after where
  locked := h.locked.act hreason hadmitted
  home t ht c hc := h.home t (teams_after cfg n.env n.op n.before ▸ ht) c hc
  found m hm userId contestId team hevent := by
    rcases List.mem_append.mp hm with hm | hm
    · exact h.found m hm userId contestId team hevent
    · obtain rfl := List.mem_singleton.mp hm
      obtain ⟨pid, c, e, o, w⟩ := m
      obtain ⟨rfl, hreply⟩ := Event.mk.inj hevent
      obtain ⟨hmem, hcontest, -⟩ :=
        contestId_of_userTeam (HintEnv.eq_of_read (eq_of_heq hreply))
      exact h.home team hmem contestId hcontest
  new m hm target type t hevent hopen htime u hu htarget htype := by
    have hclock : n.after.lock.clock = n.before.lock.clock := exec_clock cfg n.env n.op n.before
    rw [hclock] at htime
    rcases List.mem_append.mp hm with hm | hm
    · rcases tables_after cfg n.env n.op n.before with ⟨unlock, award, hop, hafter⟩ | ⟨hsame, -⟩
      · change n.after = _ at hafter
        rw [hafter] at hu
        rcases List.mem_append.mp hu with hu | hu
        · exact h.new m hm target type t hevent hopen.of_append htime.of_append u hu htarget htype
        · -- it is the one that this call has just stored
          obtain rfl := List.mem_singleton.mp hu
          rw [hop] at hreason hadmitted
          obtain ⟨p, token, date, awardDate, hunder, -, rfl, rfl⟩ := hreason
          intro hteam
          have hpid := h.alone hreasoned hteams hm hevent hopen.of_append htime.of_append hunder
            hteam hadmitted
          have hfinal := hopen n (List.mem_append_right _ (List.mem_singleton_self n)) hpid.symm
          rw [hop] at hfinal
          cases hfinal
      · change n.after.unlocks = _ at hsame
        rw [hsame] at hu
        exact h.new m hm target type t hevent hopen.of_append htime.of_append u hu htarget htype
    · obtain rfl := List.mem_singleton.mp hm
      obtain ⟨pid, c, e, o, w⟩ := m
      obtain ⟨rfl, hreply⟩ := Event.mk.inj hevent
      have hnone : w.findUnlock cfg.sql target type (.team (some t)) = none :=
        HintEnv.eq_of_read (eq_of_heq hreply)
      have hnot := List.find?_eq_none.mp hnone u hu
      rw [htarget, htype, decide_eq_true rfl, Bool.true_and, Bool.true_and] at hnot
      exact fun hteam => hnot (decide_eq_true hteam)
  distinct := by
    rcases tables_after cfg n.env n.op n.before with ⟨unlock, award, hop, hafter⟩ | ⟨hsame, -⟩
    · change n.after = _ at hafter
      rw [hop] at hreason hadmitted
      obtain ⟨p, token, date, awardDate, hunder, hbought, rfl, rfl⟩ := hreason
      rw [hafter]
      exact h.store hteams hunder hbought hadmitted _
    · change n.after.unlocks = _ at hsame
      rw [hsame]
      exact h.distinct

/-- Others do something. -/
theorem Kept.ambient {contestOf : ℤ → ℤ} (h : Kept contestOf log s) {x : HintWorld}
    (hx : AddsNoUnlocks contestOf s x) : Kept contestOf log x where
  locked := h.locked.ambient hx.leaves
  home := hx.home
  found := h.found
  new n hn target type t hevent hopen htime u hu :=
    h.new n hn target type t hevent hopen (htime.earlier hx.leaves.clock) u (hx.unlocks.subset hu)
  distinct := h.distinct.sublist hx.unlocks

theorem Orderly.of_pending {others : HintWorld → HintWorld → Prop} {w : (hintService cfg).Pool}
    {e : HintEnv} {c : HintCall} {o : HintOp}
    {k : Except HintError o.Reply → Prog hintI HintError HintAnswer}
    (h : Orderly others log w (.act pid e)) (hp : Service.Pending w pid c o k) :
    Admitted log w.shared pid e o := by
  have hprocs : w.procs[pid]? = some (c, .call o k) := hp
  simpa only [Orderly, hprocs] using h

/-- It holds all along. -/
theorem kept_of_records {contestOf : ℤ → ℤ} {s₀ : HintWorld} {w : (hintService cfg).Pool}
    (hteams : cfg.teamsMode = true) (hhome : AtHome contestOf s₀)
    (hdistinct : Distinct cfg s₀.unlocks)
    (h : Service.Records (Orderly (AddsNoUnlocks contestOf)) ((hintService cfg).start s₀) log w) :
    Kept contestOf log w.shared := by
  induction h with
  | refl =>
      exact ⟨.nil s₀, hhome, fun n hn => (by cases hn), fun n hn => (by cases hn), hdistinct⟩
  | spawn _ _ ih => exact ih
  | ambient _ hg ih => exact ih.ambient hg
  | @act log w pid e c o k hr hp hg ih =>
      exact Kept.act (n := ⟨pid, c, e, o, w.shared⟩) ih hteams
        (hr.justified (program_reasoned cfg)).1 (reason_of_records (hr.act hp hg))
        (Orderly.of_pending hg hp)

/-- **One unlock.** With teams, in every run in which guids are drawn once and no unlock is stored
by a call whose lock has run out, no two unlocks get to be for the same team, hint and type; others
may do anything but add unlocks, move a team to another contest, or touch the locks. -/
theorem oneUnlock (cfg : HintConfig) (contestOf : ℤ → ℤ) (s₀ : HintWorld)
    (log : List (hintService cfg).Entry) (w : (hintService cfg).Pool)
    (hteams : cfg.teamsMode = true) (hhome : AtHome contestOf s₀)
    (hdistinct : Distinct cfg s₀.unlocks)
    (h : Service.Records (Orderly (AddsNoUnlocks contestOf)) ((hintService cfg).start s₀) log w) :
    Distinct cfg w.shared.unlocks :=
  (kept_of_records hteams hhome hdistinct h).distinct

end Runs

/-! ### Two requests at the same time -/

instance Admitted.decidable {cfg : HintConfig} (log : List (hintService cfg).Entry) (s : HintWorld)
    (pid : ℕ) (e : HintEnv) (o : HintOp) : Decidable (Admitted log s pid e o) := by
  unfold Admitted
  induction o using HintOp.casesOn <;> dsimp only <;> infer_instance

instance (cfg : HintConfig) (others : HintWorld → HintWorld → Prop)
    [hothers : ∀ s x, Decidable (others s x)] (log : List (hintService cfg).Entry)
    (w : (hintService cfg).Pool) (m : (hintService cfg).Move) :
    Decidable (Orderly others log w m) := by
  unfold Orderly
  induction m using Service.Move.casesOn with
  | spawn c => dsimp only; infer_instance
  | act pid e =>
      dsimp only
      generalize w.procs[pid]? = found
      rcases found with _ | ⟨c, _ | ⟨o, k⟩⟩
      · exact .isTrue trivial
      · exact .isTrue trivial
      · exact Admitted.decidable log w.shared pid e o
  | ambient x => exact hothers w.shared x

/-- Others do nothing. -/
def nothing (_ _ : HintWorld) : Prop := False

instance (s x : HintWorld) : Decidable (nothing s x) := .isFalse id

/-- Where others do nothing they do nothing wrong. -/
theorem Orderly.of_nothing {cfg : HintConfig} (others : HintWorld → HintWorld → Prop)
    {log : List (hintService cfg).Entry} {w : (hintService cfg).Pool}
    {m : (hintService cfg).Move} (h : Orderly nothing log w m) : Orderly others log w m := by
  cases m with
  | spawn c => exact trivial
  | act pid e => exact h
  | ambient x => exact h.elim

/-- The second request finds the lock taken. -/
def twoRequests : List (hintService plainHints).Move :=
  Service.callNow 0 (unlockIt (some "hints")) (calmHints "a") 9 ++
    Service.callNow 1 (unlockIt (some "hints")) (calmHints "b") 9 ++
      List.replicate 10 (.act 0 (calmHints "a"))

theorem oneUnlock_example :
    ∃ log w, Service.Records (Orderly (AddsNoUnlocks fun _ => 1))
        ((hintService plainHints).start oneHint) log w ∧ w.shared.unlocks.length = 1 ∧
      Service.Quiescent w ∧ Distinct plainHints w.shared.unlocks := by
  have hrun : (Service.runLogged (Orderly nothing) [] ((hintService plainHints).start oneHint)
      twoRequests).any (fun r => decide (r.2.shared.unlocks.length = 1) &&
        Service.atRest r.2) = true := by
    decide +kernel
  obtain ⟨⟨log, w⟩, hw, hboth⟩ := (Option.any_eq_true _ _).mp hrun
  obtain ⟨hlength, hrest⟩ := (Bool.and_eq_true _ _).mp hboth
  have hrecords : Service.Records (Orderly (AddsNoUnlocks fun _ => 1)) _ log w :=
    (Service.records_of_runLogged .refl hw).mono fun _ _ _ h => h.of_nothing _
  refine ⟨log, w, hrecords, of_decide_eq_true hlength, Service.quiescent_of_atRest hrest, ?_⟩
  refine oneUnlock plainHints (fun _ => 1) oneHint log w rfl (fun t ht c hc => ?_) .nil hrecords
  obtain rfl := List.mem_singleton.mp ht
  exact Option.some.inj hc

end Hints

end Fctf
