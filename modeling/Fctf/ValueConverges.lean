import Fctf.ChallengeColumns
import Fctf.Lib.History
import Fctf.Lib.Lease

/-!
# The Decaying Value Converges

A right answer stores its solve first and recalculates the value then, under a lock. The
solve it has stored is counted by its own recalculation at the latest, and recalculations
come one after the other: once all requests have finished, the value is that of all solves.

## Main results

* `converges_of_undisturbed`: in every run in which no operation of a recalculation is lost,
  the value is at last the decay of the number of solves, and does not rise on the way if the
  decay does not.
* `not_converges`: a recalculation that is lost is not made up for, and a decay that rises
  makes the value rise.
-/

open Concurrent RedisDb

namespace Fctf

namespace DynamicValue

/-! ### The challenge -/

/-- The challenge `id` of a contest decays as `d` says. -/
structure Decaying (contestId id : ℤ) (d : DynamicChallenge) (tables : AttemptTables) : Prop where
  /-- The ids are the key of the rows. -/
  keyed : Keyed tables
  /-- Its row and its bank challenge. -/
  row : ∃ cc ∈ tables.contestsChallenges, cc.id = id ∧ cc.contestId = contestId ∧
    ∃ bank, cc.bankChallenge = some bank ∧ bank.dynamic = true ∧
      tables.dynamicChallenges bank.id = some d

/-- The value that is stored. -/
def storedValue (tables : AttemptTables) (id : ℤ) : Option ℤ :=
  (tables.contestsChallenge id).bind (·.value)

section Tables

variable {contestId id : ℤ} {d : DynamicChallenge} {tables tables' : AttemptTables}

theorem contestsChallenge_eq_some (hkeyed : Keyed tables) {cc : ContestsChallenge}
    (hcc : cc ∈ tables.contestsChallenges) : tables.contestsChallenge cc.id = some cc := by
  obtain ⟨cc', hfind⟩ : ∃ cc', tables.contestsChallenge cc.id = some cc' := by
    rw [← Option.isSome_iff_exists, AttemptTables.contestsChallenge, List.find?_isSome]
    exact ⟨cc, hcc, decide_eq_true rfl⟩
  have hid := List.find?_some hfind
  rw [hfind, List.inj_on_of_nodup_map hkeyed (List.mem_of_find?_eq_some hfind) hcc
    (of_decide_eq_true hid)]

/-- Values do not matter for it. -/
theorem Decaying.congr (h : Decaying contestId id d tables)
    (htables : tableColumns tables = tableColumns tables') : Decaying contestId id d tables' := by
  obtain ⟨cc, hcc, hid, hcontest, bank, hbank, hdynamic, hd⟩ := h.row
  have hmem : columns cc ∈ (tableColumns tables').contestsChallenges :=
    htables ▸ List.mem_map_of_mem hcc
  obtain ⟨cc', hcc', hcolumns⟩ := List.mem_map.mp hmem
  have hsettings : tables'.dynamicChallenges = tables.dynamicChallenges :=
    (congrArg AttemptTables.dynamicChallenges htables).symm
  refine ⟨keyed_congr htables h.keyed, cc', hcc', ?_, ?_, bank, ?_, hdynamic, hsettings ▸ hd⟩
  · exact (congrArg ContestsChallenge.id hcolumns).trans hid
  · exact (congrArg ContestsChallenge.contestId hcolumns).trans hcontest
  · exact (congrArg ContestsChallenge.bankChallenge hcolumns).trans hbank

/-- What the recalculation finds. -/
theorem Decaying.settings (h : Decaying contestId id d tables) :
    ((tables.contestsChallenge id).bind fun c => c.bankChallenge.bind fun bank =>
      tables.dynamicChallenges bank.id) = some d := by
  obtain ⟨cc, hcc, rfl, -, bank, hbank, -, hd⟩ := h.row
  rw [contestsChallenge_eq_some h.keyed hcc, Option.bind_some, hbank, Option.bind_some, hd]

/-- What a request knows of the challenge once it has loaded it. -/
theorem Decaying.of_columns (h : Decaying contestId id d tables) {cc : ContestsChallenge}
    (hcc : columns cc ∈ (tableColumns tables).contestsChallenges) (hid : cc.id = id) :
    cc.contestId = contestId ∧ dynamic cc = true := by
  obtain ⟨c, hc, hcid, hcontest, bank, hbank, hdynamic, -⟩ := h.row
  obtain ⟨c', hc', hcolumns⟩ := List.mem_map.mp hcc
  have hc'id : c'.id = id := (congrArg ContestsChallenge.id hcolumns).trans hid
  obtain rfl : c' = c := List.inj_on_of_nodup_map h.keyed hc' hc (hc'id.trans hcid.symm)
  refine ⟨(congrArg ContestsChallenge.contestId hcolumns).symm.trans hcontest, ?_⟩
  have hbank' : cc.bankChallenge = some bank :=
    (congrArg ContestsChallenge.bankChallenge hcolumns).symm.trans hbank
  rw [dynamic, hbank', Option.any_some, hdynamic]

theorem contestsChallenge_store (row : ContestsChallenge) :
    (tables.store row).contestsChallenge id =
      (tables.contestsChallenge id).map fun c => if c.id = row.id then row else c := by
  rw [AttemptTables.contestsChallenge, AttemptTables.store, List.find?_map]
  congr 1
  refine congrArg (fun p => tables.contestsChallenges.find? p) (funext fun c => ?_)
  rw [Function.comp_apply]
  split
  · next h => rw [h]
  · rfl

/-- The value of a row that was stored. -/
theorem storedValue_store_self (h : Decaying contestId id d tables) {row : ContestsChallenge}
    (hid : row.id = id) : storedValue (tables.store row) id = row.value := by
  obtain ⟨cc, hcc, hccid, -⟩ := h.row
  subst hccid
  rw [storedValue, contestsChallenge_store, contestsChallenge_eq_some h.keyed hcc,
    Option.map_some, if_pos hid.symm, Option.bind_some]

/-- The value of another one. -/
theorem storedValue_store_of_ne {row : ContestsChallenge} (hid : row.id ≠ id) :
    storedValue (tables.store row) id = storedValue tables id := by
  rw [storedValue, contestsChallenge_store, storedValue]
  cases hfind : tables.contestsChallenge id with
  | none => rfl
  | some c =>
      have hc := List.find?_some hfind
      rw [Option.map_some, if_neg (of_decide_eq_true hc ▸ hid.symm)]

end Tables

/-! ### Stages -/

/-- What a request owes to the value of the challenge `id`. -/
def Stage.work (id : ℤ) : Stage → Refresh ℤ
  | .owing cc => if cc.id = id then .due else .idle
  | .locked cc => if cc.id = id then .due else .idle
  | .loaded cc _ => if cc.id = id then .due else .idle
  | .counted cc _ count => if cc.id = id then .read count else .idle
  | _ => .idle

/-- The settings a request has loaded. -/
def Stage.settings : Stage → Option DynamicChallenge
  | .loaded _ d => some d
  | .counted _ d _ => some d
  | _ => none

/-- What the requests owe. -/
def works (id : ℤ) (qs : List Stage) (pid : ℕ) : Refresh ℤ :=
  (qs[pid]?.map (Stage.work id)).getD .idle

theorem works_of_get {id : ℤ} {qs : List Stage} {pid : ℕ} {q : Stage} (h : qs[pid]? = some q) :
    works id qs pid = q.work id := by
  rw [works, h, Option.map_some, Option.getD_some]

theorem works_set {id : ℤ} {qs : List Stage} {pid : ℕ} {q q' : Stage} (h : qs[pid]? = some q) :
    works id (qs.set pid q') = Function.update (works id qs) pid (q'.work id) := by
  funext p
  by_cases hp : p = pid
  · subst hp
    rw [Function.update_self, works, List.getElem?_set_self (List.getElem?_eq_some_iff.mp h).1,
      Option.map_some, Option.getD_some]
  · rw [Function.update_of_ne hp, works, List.getElem?_set_ne (Ne.symm hp), works]

theorem works_append_start {id : ℤ} (qs : List Stage) :
    works id (qs ++ [.start]) = works id qs := by
  funext p
  rw [works, works]
  rcases Nat.lt_trichotomy p qs.length with hlt | rfl | hgt
  · rw [List.getElem?_append_left hlt]
  · rw [List.getElem?_concat_length, List.getElem?_eq_none (le_refl _)]
    rfl
  · rw [List.getElem?_eq_none (by simpa using hgt), List.getElem?_eq_none (le_of_lt hgt)]

/-! ### Runs -/

section Runs

variable {cfg : AttemptConfig} {visible : ℤ → Bool}

/-- What an operation does to the lock `key`. -/
def lockEvent (key : String) (n : (service cfg (some visible)).Entry) : Option (LeaseEvent ℕ ℤ) :=
  match n.op with
  | .acquireLock k =>
      if k = key ∧ AttemptEnv.fault n.env ≠ .before ∧ AttemptEnv.lockFree n.env = true then
        some (.got n.pid (n.before.world.redis.clock + 10))
      else none
  | .releaseLock k =>
      if k = key ∧ AttemptEnv.fault n.env ≠ .before then some (.returned n.pid) else none
  | _ => none

/-- What has happened to the lock of the challenge's recalculation. -/
def lease (contestId id : ℤ) (log : List (service cfg (some visible)).Entry) :
    List (LeaseEvent ℕ ℤ) :=
  log.filterMap (lockEvent (recalculationKey contestId id))

/-- A request holds the lock, which lives for ten seconds. -/
def HoldsLock (contestId id : ℤ) (log : List (service cfg (some visible)).Entry) (s : World)
    (pid : ℕ) : Prop :=
  Lease.Holds (lease contestId id log) s.world.redis.clock pid

instance (contestId id : ℤ) (log : List (service cfg (some visible)).Entry) (s : World)
    (pid : ℕ) : Decidable (HoldsLock contestId id log s pid) :=
  inferInstanceAs (Decidable (Lease.Holds _ _ _))

/-- Does it ask for the lock? -/
def asksFor (key : String) : AttemptOp → Bool
  | .acquireLock k => k = key
  | _ => false

/-- Is it part of the challenge's recalculation? -/
def recalculates (id : ℤ) : AttemptOp → Bool
  | .findDynamicChallenge cc => cc = id
  | .getSolveCount cc _ => cc = id
  | .saveChallenge row => row.id = id
  | _ => false

/-- Does it store a solve of the challenge? -/
def solves (id : ℤ) : AttemptOp → Bool
  | .addSolve s => s.contestChallengeId = id
  | _ => false

/-- Nobody gets the lock while somebody holds it, and no recalculation outlives it. -/
def LockKept (contestId id : ℤ) (log : List (service cfg (some visible)).Entry) (s : World)
    (pid : ℕ) (e : AttemptEnv) (o : AttemptOp) : Prop :=
  (asksFor (recalculationKey contestId id) o = true → e.fault ≠ .before → e.lockFree = true →
    ∀ n ∈ log, ¬HoldsLock contestId id log s n.pid) ∧
  (recalculates id o = true → HoldsLock contestId id log s pid)

/-- Nothing of the challenge's recalculation is lost, and no reply to a solve that was
stored. -/
def NothingLost (contestId id : ℤ) (e : AttemptEnv) (o : AttemptOp) : Prop :=
  (asksFor (recalculationKey contestId id) o = true → e.fault = .none) ∧
  (recalculates id o = true → e.fault = .none) ∧
  (solves id o = true → e.fault ≠ .after)

/-- Only answers are submitted, the tables are not edited, and what the requests do meets
`φ`. -/
def Submitted (φ : List (service cfg (some visible)).Entry → World → ℕ → AttemptEnv →
    AttemptOp → Prop) (log : List (service cfg (some visible)).Entry)
    (w : (service cfg (some visible)).Pool) : (service cfg (some visible)).Move → Prop
  | .spawn (.attempt _) => True
  | .spawn _ => False
  | .ambient (.tables _) => False
  | .ambient _ => True
  | .act pid e =>
      match w.procs[pid]? with
      | some (_, .call o _) => φ log w.shared pid e o
      | _ => True

/-- A run as the law has it: the lock is kept. -/
def Locked (contestId id : ℤ) (log : List (service cfg (some visible)).Entry)
    (w : (service cfg (some visible)).Pool) (m : (service cfg (some visible)).Move) : Prop :=
  Submitted (LockKept contestId id) log w m

/-- A run in which nothing of a recalculation is lost, either. -/
def Undisturbed (contestId id : ℤ) (log : List (service cfg (some visible)).Entry)
    (w : (service cfg (some visible)).Pool) (m : (service cfg (some visible)).Move) : Prop :=
  Submitted (fun log s pid e o => LockKept contestId id log s pid e o ∧
    NothingLost contestId id e o) log w m

/-- All requests have finished, and none has given up waiting for the lock. -/
def AllServed (w : (service cfg (some visible)).Pool) : Prop :=
  ∀ p ∈ w.procs, ∃ r, p.2 = .ret r ∧ r ≠ .error .canceled

/-- What a request knows of the challenge. -/
def Knows (id : ℤ) (d : DynamicChallenge) (tables : AttemptTables) (c : AttemptCall)
    (q : Stage) : Prop :=
  ∃ req, c = .attempt req ∧ (∀ cc, q.challenge = some cc →
    columns cc ∈ (tableColumns tables).contestsChallenges ∧ cc.contestId = req.contestId ∧
      (cc.id = id → ∀ d', q.settings = some d' → d' = d))

/-- The value the decay gives for so many solves is stored. -/
def Shows (cfg : AttemptConfig) (id : ℤ) (d : DynamicChallenge) (s : World) (count : ℤ) : Prop :=
  storedValue s.world.tables id = some (d.decayed cfg count)

/-- **The invariant.** The stored value is that of an earlier number of solves, and whoever
has counted under the lock has counted no fewer. -/
structure Converging (contestId id : ℤ) (d : DynamicChallenge) (tables : AttemptTables)
    (log : List (service cfg (some visible)).Entry) (w : (service cfg (some visible)).Pool)
    (qs : List Stage) : Prop where
  /-- Only values have changed. -/
  kept : tableColumns w.shared.world.tables = tableColumns tables
  /-- What the requests know. -/
  knows : List.Forall₂ (fun p q => Knows id d tables p.1 q) w.procs qs
  /-- One request at most holds the lock. -/
  unique : Lease.Unique (lease contestId id log) w.shared.world.redis.clock
  /-- What is stored, and what is owed. -/
  fresh : ∃ copy : ℤ, 0 ≤ copy ∧ Shows cfg id d w.shared copy ∧
    Fresh (works id qs) (HoldsLock contestId id log w.shared) copy
      (solveCount visible w.shared.world id)
  /-- What every operation has done to the value. -/
  values : ∀ n ∈ log, ∃ a b : ℤ, 0 ≤ a ∧ a ≤ b ∧ b ≤ solveCount visible w.shared.world id ∧
    Shows cfg id d n.before a ∧ Shows cfg id d n.after b

/-! ### One operation -/

theorem exec_findDynamicChallenge {e : AttemptEnv} {id : ℤ} {w : AttemptWorld}
    {r : Option DynamicChallenge}
    (h : (exec (some visible) e (.findDynamicChallenge id) w).1 = .ok r) :
    r = (w.tables.contestsChallenge id).bind fun c =>
      c.bankChallenge.bind fun bank => w.tables.dynamicChallenges bank.id := by
  cases hf : e.fault with
  | none =>
      simp only [exec, AttemptOp.exec, AttemptEnv.read, Fault.apply, hf] at h
      exact (Except.ok.inj h).symm
  | _ => simp [exec, AttemptOp.exec, AttemptEnv.read, Fault.apply, hf] at h

/-- Settings are known from the tables. -/
theorem settings_of_next {q : Stage} {o : AttemptOp} {r : Except Exn o.Reply}
    {d : DynamicChallenge} (h : (q.next o r).settings = some d) :
    q.settings = some d ∨ ∃ cc id, q = .locked cc ∧ ∃ ho : o = .findDynamicChallenge id,
      ho ▸ r = (.ok (some d) : Except Exn (AttemptOp.findDynamicChallenge id).Reply) := by
  unfold Stage.next at h
  split at h
  case h_2 => split at h <;> cases h
  case h_5 cc id d' =>
      obtain rfl := Option.some.inj h
      exact .inr ⟨cc, id, rfl, rfl, rfl⟩
  case h_8 => exact .inl h
  case h_12 => exact .inl h
  all_goals cases h

theorem clock_exec (e : AttemptEnv) (o : AttemptOp) (w : AttemptWorld) :
    (exec (some visible) e o w).2.redis.clock = w.redis.clock := by
  rw [exec_snd, AttemptOp.exec_redis]
  split
  · exact RedisOp.clock_execFaulty _ _ _
  · rfl

/-- Does it change the table of solves? -/
def changesSolves : AttemptOp → Bool
  | .addSolve _ => true
  | .resetSubmissions => true
  | _ => false

theorem solveCount_exec {e : AttemptEnv} {o : AttemptOp} {w : AttemptWorld} (id : ℤ)
    (h : changesSolves o = false) :
    solveCount visible (exec (some visible) e o w).2 id = solveCount visible w id := by
  have hsolves : (exec (some visible) e o w).2.solves = w.solves := by
    rw [exec_snd, AttemptOp.exec_solves]
    cases o with
    | addSolve s => cases h
    | resetSubmissions => cases h
    | _ => rfl
  rw [solveCount, hsolves, solveCount]

/-- A solve that is stored adds to the count of its challenge, if its account counts. -/
theorem solveCount_addSolve (e : AttemptEnv) (s : NewSubmission) (w : AttemptWorld) (id : ℤ) :
    solveCount visible w id ≤ solveCount visible (exec (some visible) e (.addSolve s) w).2 id ∧
      (s.contestChallengeId ≠ id →
        solveCount visible (exec (some visible) e (.addSolve s) w).2 id =
          solveCount visible w id) := by
  have hsolves := AttemptOp.exec_solves e (.addSolve s) w
  rw [solveCount, solveCount, exec_snd, hsolves]
  dsimp only
  split
  · exact ⟨le_refl _, fun _ => rfl⟩
  · rw [List.countP_append]
    refine ⟨Nat.le_add_right _ _, fun hne => ?_⟩
    simp [NewSubmission.solf, hne]

/-- A solve that was refused was not stored. -/
theorem exec_addSolve_error {e : AttemptEnv} {s : NewSubmission} {w : AttemptWorld} {exn : Exn}
    (hf : e.fault ≠ .after) (h : (exec (some visible) e (.addSolve s) w).1 = .error exn) :
    (exec (some visible) e (.addSolve s) w).2 = w := by
  cases hfault : e.fault with
  | after => exact absurd hfault hf
  | before => simp [exec, AttemptOp.exec, Fault.apply, hfault]
  | none =>
      simp only [exec, AttemptOp.exec, Fault.apply, hfault, AttemptWorld.insertSolve] at h ⊢
      split at h
      · next hv => rw [if_pos hv]
      · cases h

section Act

variable {contestId id : ℤ} {d : DynamicChallenge} {tables : AttemptTables}
  {log : List (service cfg (some visible)).Entry} {w : (service cfg (some visible)).Pool}
  {qs : List Stage} {pid : ℕ} {e : AttemptEnv} {c : AttemptCall} {o : AttemptOp} {q : Stage}

/-- What a request knows of the challenge stays true as it goes on. -/
theorem Knows.next (h₀ : Decaying contestId id d tables) {s : AttemptWorld}
    (hkept : tableColumns s.tables = tableColumns tables) (h : Knows id d tables c q)
    (ho : (protocol cfg c).allows q o) :
    Knows id d tables c ((protocol cfg c).next q o (exec (some visible) e o s).1) := by
  obtain ⟨req, rfl, hq⟩ := h
  refine ⟨req, rfl, fun cc hcc => ?_⟩
  have hsettings (hid : cc.id = id)
      (hq' : q.challenge = some cc → ∀ d', q.settings = some d' → d' = d) (d' : DynamicChallenge)
      (hd' : (q.next o (exec (some visible) e o s).1).settings = some d') : d' = d := by
    rcases settings_of_next hd' with hold | ⟨cc', id', rfl, rfl, hr⟩
    · rcases challenge_of_next hcc with hcc | ⟨i, contest, rfl, -, -⟩
      · exact hq' hcc d' hold
      · -- it has just been loaded
        cases q with
        | loaded cc' d => cases ho
        | counted cc' d count => cases ho
        | _ => cases hold
    · obtain rfl := AttemptOp.findDynamicChallenge.inj ho
      have hcc' : cc' = cc := by
        rcases challenge_of_next hcc with hcc | ⟨i, contest, hlook, -, -⟩
        · exact Option.some.inj hcc
        · cases hlook
      subst hcc'
      have hfound := exec_findDynamicChallenge hr
      rw [hid, (h₀.congr hkept.symm).settings] at hfound
      exact Option.some.inj hfound
  rcases challenge_of_next hcc with hcc' | ⟨i, contest, rfl, hmem, hcontest⟩
  · obtain ⟨hcolumns, hcontest, hold⟩ := hq cc hcc'
    exact ⟨hcolumns, hcontest, fun hid => hsettings hid fun _ => hold hid⟩
  · refine ⟨hkept ▸ List.mem_map_of_mem hmem, ?_, fun hid => hsettings hid fun hcc' =>
      (hq cc hcc').2.2 hid⟩
    cases q with
    | start => exact hcontest.trans ho.2
    | found cc => exact ho.elim
    | done cc =>
        rcases ho with ho | ho
        · cases ho
        · exact ho.elim
    | _ => cases ho

/-! ### The lock -/

theorem lease_concat (n : (service cfg (some visible)).Entry) :
    lease contestId id (log ++ [n]) =
      lease contestId id log ++ (lockEvent (recalculationKey contestId id) n).toList := by
  rw [lease, lease, List.filterMap_append]
  congr 1

/-- Everything an operation can do to the lock. -/
theorem lockEvent_cases (key : String) (n : (service cfg (some visible)).Entry) :
    lockEvent key n = none ∨ lockEvent key n = some (.returned n.pid) ∨
      lockEvent key n = some (.got n.pid (n.before.world.redis.clock + 10)) ∧ asksFor key n.op = true ∧
        AttemptEnv.fault n.env ≠ .before ∧ AttemptEnv.lockFree n.env = true := by
  obtain ⟨pid, c, e, o, s⟩ := n
  cases o with
  | acquireLock k =>
      simp only [lockEvent]
      split
      · next h => exact .inr (.inr ⟨rfl, decide_eq_true h.1, h.2⟩)
      · exact .inl rfl
  | releaseLock k =>
      simp only [lockEvent]
      split
      · exact .inr (.inl rfl)
      · exact .inl rfl
  | _ => exact .inl rfl

/-- An operation of the recalculation itself does nothing to the lock. -/
theorem lockEvent_of_recalculates {key : String} {n : (service cfg (some visible)).Entry}
    (h : recalculates id n.op = true) : lockEvent key n = none := by
  obtain ⟨pid, c, e, o, s⟩ := n
  cases o with
  | findDynamicChallenge cc => rfl
  | getSolveCount cc contestId => rfl
  | saveChallenge row => rfl
  | _ => cases h

/-- The log holds the lock's holders. -/
theorem exists_entry_of_holds {s : World} {p : ℕ} (h : HoldsLock contestId id log s p) :
    ∃ n ∈ log, n.pid = p := by
  obtain ⟨t, ht⟩ := Lease.Holds.exists_got h
  obtain ⟨n, hn, hevent⟩ := List.mem_filterMap.mp ht
  refine ⟨n, hn, ?_⟩
  rcases lockEvent_cases (recalculationKey contestId id) n with h | h | ⟨h, -⟩
  · rw [h] at hevent
    cases hevent
  · rw [h] at hevent
    cases hevent
  · rw [h] at hevent
    exact (LeaseEvent.got.inj (Option.some.inj hevent)).1

/-- The state after an operation. -/
def after (visible : ℤ → Bool) (e : AttemptEnv) (o : AttemptOp) (s : World) : World :=
  { s with world := (exec (some visible) e o s.world).2 }

/-- Who holds the lock after an operation: who has held it before, or who has just got it. -/
theorem holdsLock_concat {p : ℕ}
    (h : HoldsLock contestId id (log ++ [⟨pid, c, e, o, w.shared⟩]) (after visible e o w.shared) p) :
    HoldsLock contestId id log w.shared p ∨
      asksFor (recalculationKey contestId id) o = true ∧ p = pid := by
  rw [HoldsLock, lease_concat, after, clock_exec] at h
  rcases lockEvent_cases (recalculationKey contestId id)
    (⟨pid, c, e, o, w.shared⟩ : (service cfg (some visible)).Entry) with hn | hn | ⟨hn, hasks, -⟩
  · rw [hn, Option.toList_none, List.append_nil] at h
    exact .inl h
  · rw [hn] at h
    exact .inl h.of_returned
  · rw [hn] at h
    by_cases hp : pid = p
    · exact .inr ⟨hasks, hp.symm⟩
    · exact .inl (h.of_got_of_ne hp)

/-- The lock has one holder after an operation, too. -/
theorem unique_concat (h : Lease.Unique (lease contestId id log) w.shared.world.redis.clock)
    (hlock : LockKept contestId id log w.shared pid e o) :
    Lease.Unique (lease contestId id (log ++ [⟨pid, c, e, o, w.shared⟩]))
      (after visible e o w.shared).world.redis.clock := by
  rw [lease_concat, after, clock_exec]
  rcases lockEvent_cases (recalculationKey contestId id)
    (⟨pid, c, e, o, w.shared⟩ : (service cfg (some visible)).Entry)
    with hn | hn | ⟨hn, hasks, hfault, hfree⟩
  · rwa [hn, Option.toList_none, List.append_nil]
  · rw [hn]
    exact h.returned
  · rw [hn]
    refine Lease.Unique.got (fun p hp => ?_) _
    obtain ⟨n, hnlog, rfl⟩ := exists_entry_of_holds hp
    exact hlock.1 hasks hfault hfree n hnlog hp

/-- Within the recalculation the holder is the one who acts. -/
theorem holder_eq (h : Lease.Unique (lease contestId id log) w.shared.world.redis.clock)
    (hlock : LockKept contestId id log w.shared pid e o) (ho : recalculates id o = true) {p : ℕ}
    (hp : HoldsLock contestId id (log ++ [⟨pid, c, e, o, w.shared⟩])
      (after visible e o w.shared) p) : p = pid := by
  rcases holdsLock_concat hp with hp | ⟨-, hp⟩
  · exact h p pid hp (hlock.2 ho)
  · exact hp

theorem holdsLock_self (hlock : LockKept contestId id log w.shared pid e o)
    (ho : recalculates id o = true) :
    HoldsLock contestId id (log ++ [⟨pid, c, e, o, w.shared⟩]) (after visible e o w.shared) pid := by
  rw [HoldsLock, lease_concat, lockEvent_of_recalculates ho, Option.toList_none, List.append_nil,
    after, clock_exec]
  exact hlock.2 ho

/-! ### The invariant -/

/-- **One operation** keeps the invariant, if what is stored and what is owed after it fit. -/
theorem Converging.concat (hJ : Converging contestId id d tables log w qs)
    {k : Except Exn (attemptI.Reply o) → Prog attemptI Exn AttemptResponse}
    (hp : Service.Pending w pid c o k) (hq : qs[pid]? = some q)
    (hlock : LockKept contestId id log w.shared pid e o) {q' : Stage}
    (hkept : tableColumns (after visible e o w.shared).world.tables =
      tableColumns w.shared.world.tables)
    (hknows : Knows id d tables c q')
    (hcount : solveCount visible w.shared.world id ≤
      solveCount visible (after visible e o w.shared).world id)
    (hread : asksFor (recalculationKey contestId id) o = true → ∀ x, q.work id ≠ .read x)
    (hfresh : ∀ copy, Shows cfg id d w.shared copy →
      Fresh (works id qs) (HoldsLock contestId id (log ++ [⟨pid, c, e, o, w.shared⟩])
        (after visible e o w.shared)) copy (solveCount visible w.shared.world id) →
      ∃ copy', copy ≤ copy' ∧ Shows cfg id d (after visible e o w.shared) copy' ∧
        Fresh (Function.update (works id qs) pid (q'.work id))
          (HoldsLock contestId id (log ++ [⟨pid, c, e, o, w.shared⟩])
            (after visible e o w.shared)) copy'
          (solveCount visible (after visible e o w.shared).world id)) :
    Converging contestId id d tables (log ++ [⟨pid, c, e, o, w.shared⟩])
      ⟨after visible e o w.shared,
        w.procs.set pid (c, k (exec (some visible) e o w.shared.world).1)⟩ (qs.set pid q') := by
  obtain ⟨copy, hcopy, hshows, hJfresh⟩ := hJ.fresh
  obtain ⟨copy', hle, hshows', hfresh'⟩ := hfresh copy hshows <| hJfresh.of_holds
    fun p x hx hold => by
      refine (holdsLock_concat hold).resolve_right ?_
      rintro ⟨hasks, rfl⟩
      exact hread hasks x ((works_of_get hq).symm.trans hx)
  have hfresh'' := hfresh'
  rw [← works_set hq] at hfresh''
  refine ⟨hkept.trans hJ.kept, Service.forall₂_set hJ.knows hknows pid,
    unique_concat hJ.unique hlock, ⟨copy', le_trans hcopy hle, hshows', hfresh''⟩, ?_⟩
  refine List.forall_mem_append.mpr ⟨fun n hn => ?_, List.forall_mem_singleton.mpr ?_⟩
  · obtain ⟨a, b, ha, hab, hb, hbefore, hafter⟩ := hJ.values n hn
    exact ⟨a, b, ha, hab, le_trans hb (Int.ofNat_le.mpr hcount), hbefore, hafter⟩
  · exact ⟨copy, copy', hcopy, hle, hfresh'.le, hshows, hshows'⟩

/-- An operation that stores neither a row nor a solve, and changes nothing of what is owed. -/
theorem Converging.plain (h₀ : Decaying contestId id d tables)
    (hJ : Converging contestId id d tables log w qs)
    {k : Except Exn (attemptI.Reply o) → Prog attemptI Exn AttemptResponse}
    (hp : Service.Pending w pid c o k) (hq : qs[pid]? = some q)
    (hlock : LockKept contestId id log w.shared pid e o) (ho : (protocol cfg c).allows q o)
    (hstores : storesRow o = false) (hsolves : changesSolves o = false)
    (hread : asksFor (recalculationKey contestId id) o = true → ∀ x, q.work id ≠ .read x)
    (hwork : ((protocol cfg c).next q o (exec (some visible) e o w.shared.world).1).work id =
      q.work id) :
    Converging contestId id d tables (log ++ [⟨pid, c, e, o, w.shared⟩])
      ⟨after visible e o w.shared,
        w.procs.set pid (c, k (exec (some visible) e o w.shared.world).1)⟩
      (qs.set pid ((protocol cfg c).next q o (exec (some visible) e o w.shared.world).1)) := by
  have htables : (after visible e o w.shared).world.tables = w.shared.world.tables :=
    exec_tables e w.shared.world hstores
  have hcount : solveCount visible (after visible e o w.shared).world id =
      solveCount visible w.shared.world id := solveCount_exec id hsolves
  refine hJ.concat hp hq hlock (congrArg tableColumns htables)
    ((Service.forall₂_getElem? hJ.knows hp hq).next h₀ hJ.kept ho) hcount.ge hread
    fun copy hshows hfresh => ⟨copy, le_refl _, ?_, ?_⟩
  · rwa [Shows, htables]
  · rwa [hwork, ← works_of_get hq, Function.update_eq_self, hcount]

theorem plain_of_aside (h : Aside o) : storesRow o = false ∧ changesSolves o = false ∧
    asksFor (recalculationKey contestId id) o = false := by
  cases o with
  | addSolve s => exact h.elim
  | resetSubmissions => exact h.elim
  | acquireLock key => exact (h trivial).elim
  | saveChallenge row => exact (h trivial).elim
  | _ => exact ⟨rfl, rfl, rfl⟩

theorem not_true_of_eq_false {P : Prop} {b : Bool} (h : b = false) (hb : b = true) : P :=
  absurd (h.symm.trans hb) Bool.false_ne_true

/-- A solve is stored, or refused. -/
theorem Converging.addSolve {req : ChallengeAttemptRequest} {cc : ContestsChallenge}
    {s : NewSubmission} (h₀ : Decaying contestId id d tables)
    (hJ : Converging contestId id d tables log w qs)
    {k : Except Exn (attemptI.Reply (.addSolve s)) → Prog attemptI Exn AttemptResponse}
    (hp : Service.Pending w pid (.attempt req) (.addSolve s) k)
    (hq : qs[pid]? = some (.found cc)) (hs : s.contestChallengeId = cc.id)
    (hlock : LockKept contestId id log w.shared pid e (.addSolve s))
    (hlost : NothingLost contestId id e (.addSolve s)) :
    Converging contestId id d tables (log ++ [⟨pid, .attempt req, e, .addSolve s, w.shared⟩])
      ⟨after visible e (.addSolve s) w.shared,
        w.procs.set pid (.attempt req, k (exec (some visible) e (.addSolve s) w.shared.world).1)⟩
      (qs.set pid ((Stage.found cc).next (.addSolve s)
        (exec (some visible) e (.addSolve s) w.shared.world).1)) := by
  have hown := Service.forall₂_getElem? hJ.knows hp hq
  have htables : (after visible e (.addSolve s) w.shared).world.tables =
      w.shared.world.tables := exec_tables e w.shared.world rfl
  obtain ⟨hle, hne⟩ := @solveCount_addSolve visible e s w.shared.world id
  refine hJ.concat hp hq hlock (congrArg tableColumns htables)
    (@Knows.next cfg visible contestId id d tables e _ (.addSolve s) _ h₀ _ hJ.kept hown hs) hle
    (not_true_of_eq_false rfl) fun copy hshows hfresh => ⟨copy, le_refl _, ?_, ?_⟩
  · rwa [Shows, htables]
  · by_cases hid : cc.id = id
    · cases hr : (exec (some visible) e (.addSolve s) w.shared.world).1 with
      | ok u =>
          -- the request owes a recalculation
          have hdynamic : dynamic cc = true := by
            obtain ⟨req', -, hcc⟩ := hown
            exact (h₀.of_columns (hcc cc rfl).1 hid).2
          have hstage : (Stage.found cc).next (.addSolve s) (.ok u) = .owing cc :=
            if_pos hdynamic
          have hwork : (Stage.owing cc).work id = .due := if_pos hid
          rw [hstage, hwork]
          exact hfresh.due (Int.ofNat_le.mpr hle)
      | error exn =>
          have hsame : (after visible e (.addSolve s) w.shared).world = w.shared.world :=
            exec_addSolve_error (hlost.2.2 (decide_eq_true (hs.trans hid))) hr
          have hstage : (Stage.found cc).next (.addSolve s) (.error exn) = .found cc := rfl
          rw [hsame, hstage, ← works_of_get hq, Function.update_eq_self]
          exact hfresh
    · have hwork : ((Stage.found cc).next (.addSolve s)
          (exec (some visible) e (.addSolve s) w.shared.world).1).work id =
            (Stage.found cc).work id := by
        cases (exec (some visible) e (.addSolve s) w.shared.world).1 with
        | ok u =>
            have hstage : (Stage.found cc).next (.addSolve s) (.ok u) =
                if dynamic cc then .owing cc else .done cc := rfl
            rw [hstage]
            split
            · exact if_neg hid
            · rfl
        | error exn => rfl
      rw [hwork, ← works_of_get hq, Function.update_eq_self, after, hne (hs ▸ hid)]
      exact hfresh

/-- The solves are counted. -/
theorem Converging.count {req : ChallengeAttemptRequest} {cc : ContestsChallenge}
    {d' : DynamicChallenge} (h₀ : Decaying contestId id d tables)
    (hJ : Converging contestId id d tables log w qs)
    {k : Except Exn (attemptI.Reply (.getSolveCount cc.id req.contestId)) →
      Prog attemptI Exn AttemptResponse}
    (hp : Service.Pending w pid (.attempt req) (.getSolveCount cc.id req.contestId) k)
    (hq : qs[pid]? = some (.loaded cc d')) (hid : cc.id = id)
    (hlock : LockKept contestId id log w.shared pid e (.getSolveCount cc.id req.contestId))
    (hlost : NothingLost contestId id e (.getSolveCount cc.id req.contestId)) :
    Converging contestId id d tables
      (log ++ [⟨pid, .attempt req, e, .getSolveCount cc.id req.contestId, w.shared⟩])
      ⟨after visible e (.getSolveCount cc.id req.contestId) w.shared,
        w.procs.set pid (.attempt req,
          k (exec (some visible) e (.getSolveCount cc.id req.contestId) w.shared.world).1)⟩
      (qs.set pid ((Stage.loaded cc d').next (.getSolveCount cc.id req.contestId)
        (exec (some visible) e (.getSolveCount cc.id req.contestId) w.shared.world).1)) := by
  have hown := Service.forall₂_getElem? hJ.knows hp hq
  have hrecalculates : recalculates id (.getSolveCount cc.id req.contestId) = true :=
    decide_eq_true hid
  have hsame : (after visible e (.getSolveCount cc.id req.contestId) w.shared).world =
      w.shared.world := by
    cases hf : e.fault <;> simp [after, exec, AttemptEnv.read, Fault.apply, hf]
  have hreply : (exec (some visible) e (.getSolveCount cc.id req.contestId) w.shared.world).1 =
      .ok (solveCount visible w.shared.world id : ℤ) := by
    simp [exec, AttemptEnv.read, Fault.apply, hlost.2.1 hrecalculates, hid]
  refine hJ.concat hp hq hlock (congrArg (fun s => tableColumns s.tables) hsame)
    (@Knows.next cfg visible contestId id d tables e _ (.getSolveCount cc.id req.contestId) _ h₀ _
      hJ.kept hown rfl) (hsame ▸ le_refl _)
    (not_true_of_eq_false rfl) fun copy hshows hfresh => ⟨copy, le_refl _, ?_, ?_⟩
  · rwa [Shows, hsame]
  · have hwork : ((Stage.loaded cc d').next (.getSolveCount cc.id req.contestId)
        (exec (some visible) e (.getSolveCount cc.id req.contestId) w.shared.world).1).work id =
          .read (solveCount visible w.shared.world id) := by
      rw [hreply]
      exact if_pos hid
    have hread := @Fresh.read _ _ _ _ _ _ pid hfresh fun p hold =>
      holder_eq hJ.unique hlock hrecalculates hold
    rw [hwork, hsame]
    exact hread

/-- The new value is stored. -/
theorem Converging.save {req : ChallengeAttemptRequest} {cc : ContestsChallenge}
    {d' : DynamicChallenge} {count : ℤ} (h₀ : Decaying contestId id d tables)
    (hJ : Converging contestId id d tables log w qs)
    {k : Except Exn (attemptI.Reply (.saveChallenge
      { cc with value := some (d'.decayed cfg count) })) → Prog attemptI Exn AttemptResponse}
    (hp : Service.Pending w pid (.attempt req)
      (.saveChallenge { cc with value := some (d'.decayed cfg count) }) k)
    (hq : qs[pid]? = some (.counted cc d' count))
    (hlock : LockKept contestId id log w.shared pid e
      (.saveChallenge { cc with value := some (d'.decayed cfg count) }))
    (hlost : NothingLost contestId id e
      (.saveChallenge { cc with value := some (d'.decayed cfg count) })) :
    Converging contestId id d tables
      (log ++ [⟨pid, .attempt req, e,
        .saveChallenge { cc with value := some (d'.decayed cfg count) }, w.shared⟩])
      ⟨after visible e (.saveChallenge { cc with value := some (d'.decayed cfg count) }) w.shared,
        w.procs.set pid (.attempt req, k (exec (some visible) e
          (.saveChallenge { cc with value := some (d'.decayed cfg count) }) w.shared.world).1)⟩
      (qs.set pid ((Stage.counted cc d' count).next
        (.saveChallenge { cc with value := some (d'.decayed cfg count) })
        (exec (some visible) e (.saveChallenge { cc with value := some (d'.decayed cfg count) })
          w.shared.world).1)) := by
  have hown := Service.forall₂_getElem? hJ.knows hp hq
  have hdecays : Decaying contestId id d w.shared.world.tables := h₀.congr hJ.kept.symm
  set row : ContestsChallenge := { cc with value := some (d'.decayed cfg count) } with hrow
  have hcolumns : columns row ∈ (tableColumns w.shared.world.tables).contestsChallenges := by
    obtain ⟨req', -, hcc⟩ := hown
    exact hJ.kept ▸ (hcc cc rfl).1
  have htables : (after visible e (.saveChallenge row) w.shared).world.tables =
      if e.fault = .before then w.shared.world.tables else w.shared.world.tables.store row :=
    exec_saveChallenge e row w.shared.world
  have hkept : tableColumns (after visible e (.saveChallenge row) w.shared).world.tables =
      tableColumns w.shared.world.tables := by
    rw [htables]
    split
    · rfl
    · exact tableColumns_store hdecays.keyed hcolumns
  have hcount : solveCount visible (after visible e (.saveChallenge row) w.shared).world id =
      solveCount visible w.shared.world id := solveCount_exec id rfl
  refine hJ.concat hp hq hlock hkept
    (@Knows.next cfg visible contestId id d tables e _ (.saveChallenge row) _ h₀ _
      hJ.kept hown rfl) hcount.ge (not_true_of_eq_false rfl) fun copy hshows hfresh => ?_
  by_cases hid : cc.id = id
  · have hrecalculates : recalculates id (.saveChallenge row) = true := decide_eq_true hid
    have hfault : e.fault = .none := hlost.2.1 hrecalculates
    have hread : works id qs pid = .read count := by
      rw [works_of_get hq, Stage.work, if_pos hid]
    have hd : d' = d := by
      obtain ⟨req', -, hcc⟩ := hown
      exact (hcc cc rfl).2.2 hid d' rfl
    refine ⟨count, (hfresh.pending pid count hread (holdsLock_self hlock hrecalculates)).1, ?_, ?_⟩
    · have hstored : storedValue (w.shared.world.tables.store row) id = row.value :=
        storedValue_store_self hdecays hid
      rw [Shows, htables, hfault, if_neg (by decide), hstored, hrow, hd]
    · have hwork : ((Stage.counted cc d' count).next (.saveChallenge row)
          (exec (some visible) e (.saveChallenge row) w.shared.world).1).work id = .idle := by
        cases (exec (some visible) e (.saveChallenge row) w.shared.world).1 <;> rfl
      rw [hwork, hcount]
      exact hfresh.write hread (holdsLock_self hlock hrecalculates) fun p hold =>
        holder_eq hJ.unique hlock hrecalculates hold
  · refine ⟨copy, le_refl _, ?_, ?_⟩
    · rw [Shows, htables]
      split
      · exact hshows
      · exact (@storedValue_store_of_ne _ _ row hid).trans hshows
    · have hwork : ((Stage.counted cc d' count).next (.saveChallenge row)
          (exec (some visible) e (.saveChallenge row) w.shared.world).1).work id =
            (Stage.counted cc d' count).work id := by
        cases (exec (some visible) e (.saveChallenge row) w.shared.world).1 <;>
          simp [Stage.next, Stage.work, hid]
      rwa [hwork, ← works_of_get hq, Function.update_eq_self, hcount]

theorem work_next_of_ne {o : AttemptOp} {r : Except Exn o.Reply} {cc : ContestsChallenge}
    (hcc : q.challenge = some cc) (hid : cc.id ≠ id) :
    (q.next o r).work id = .idle ∧ q.work id = .idle := by
  have hidle (q' : Stage) (hq' : q'.challenge = some cc) : q'.work id = .idle := by
    cases q' with
    | start => cases hq'
    | found c => rfl
    | done c => rfl
    | failed c => rfl
    | _ =>
        obtain rfl := Option.some.inj hq'
        exact if_neg hid
  refine ⟨hidle _ ?_, hidle q hcc⟩
  rw [← hcc]
  unfold Stage.next
  split
  · cases hcc
  · split <;> rfl
  all_goals rfl

/-- **One operation** of an undisturbed run keeps the invariant. -/
theorem Converging.act (h₀ : Decaying contestId id d tables)
    (hJ : Converging contestId id d tables log w qs)
    {k : Except Exn (attemptI.Reply o) → Prog attemptI Exn AttemptResponse}
    (hp : Service.Pending w pid c o k) (hq : qs[pid]? = some q)
    (hlock : LockKept contestId id log w.shared pid e o) (hlost : NothingLost contestId id e o)
    (ho : (protocol cfg c).allows q o) :
    Converging contestId id d tables (log ++ [⟨pid, c, e, o, w.shared⟩])
      ⟨after visible e o w.shared,
        w.procs.set pid (c, k (exec (some visible) e o w.shared.world).1)⟩
      (qs.set pid ((protocol cfg c).next q o (exec (some visible) e o w.shared.world).1)) := by
  have hown := Service.forall₂_getElem? hJ.knows hp hq
  obtain ⟨req, rfl, hcc⟩ := hown
  have hplain (hstores : storesRow o = false) (hsolves : changesSolves o = false)
      (hread : ∀ x, q.work id ≠ .read x)
      (hwork : (q.next o (exec (some visible) e o w.shared.world).1).work id = q.work id) :=
    hJ.plain h₀ hp hq hlock ho hstores hsolves (fun _ => hread) hwork
  have hother {cc : ContestsChallenge} (hfound : q.challenge = some cc) (hid : cc.id ≠ id)
      (hstores : storesRow o = false) (hsolves : changesSolves o = false) :=
    have hidle := work_next_of_ne (r := (exec (some visible) e o w.shared.world).1) hfound hid
    hplain hstores hsolves (fun x hx => by rw [hidle.2] at hx; cases hx)
      (hidle.1.trans hidle.2.symm)
  have haside (h : Aside o) (hidle : q.Idle) :=
    have hstay := (@stay_of_aside cfg req _ h _ hidle).2
    hJ.plain h₀ hp hq hlock ho (@plain_of_aside contestId id _ h).1
      (@plain_of_aside contestId id _ h).2.1
      (not_true_of_eq_false (plain_of_aside h).2.2) (congrArg (Stage.work id) (hstay _))
  cases q with
  | start =>
      have hlook (i contest : ℤ) (hlook : o = .findContestsChallenge i contest) :
          storesRow o = false ∧ changesSolves o = false := by
        subst hlook
        exact ⟨rfl, rfl⟩
      cases o with
      | findContestsChallenge i contest =>
          refine hplain rfl rfl (fun x hx => by cases hx) ?_
          rcases (exec (some visible) e (.findContestsChallenge i contest) w.shared.world).1
            with exn | _ | cc <;> rfl
      | _ => exact haside ho trivial
  | found cc =>
      cases o with
      | addSolve s => exact hJ.addSolve h₀ hp hq ho hlock hlost
      | _ => exact haside ho trivial
  | owing cc =>
      obtain rfl : o = .acquireLock (recalculationKey req.contestId cc.id) := ho
      by_cases hid : cc.id = id
      · -- the reply tells whether the lock was free
        obtain ⟨hcolumns, hcontest, -⟩ := hcc cc rfl
        have hasks : asksFor (recalculationKey contestId id)
            (.acquireLock (recalculationKey req.contestId cc.id)) = true := by
          rw [← hcontest, (h₀.of_columns hcolumns hid).1, hid]
          exact decide_eq_true rfl
        have hreply : (exec (some visible) e (.acquireLock (recalculationKey req.contestId cc.id))
            w.shared.world).1 = .ok e.lockFree := by
          simp [exec, AttemptOp.exec, AttemptEnv.read, Fault.apply, hlost.1 hasks]
        have hdue : (Stage.owing cc).work id = .due := if_pos hid
        refine hplain rfl rfl (fun x hx => by rw [hdue] at hx; cases hx) ?_
        rw [hreply, hdue]
        cases e.lockFree with
        | true => exact if_pos hid
        | false => exact if_pos hid
      · exact hother rfl hid rfl rfl
  | locked cc =>
      obtain rfl : o = .findDynamicChallenge cc.id := ho
      by_cases hid : cc.id = id
      · have hreply : (exec (some visible) e (.findDynamicChallenge cc.id) w.shared.world).1 =
            .ok (some d) := by
          have hsettings := (h₀.congr hJ.kept.symm).settings
          simp only [exec, AttemptOp.exec, AttemptEnv.read, Fault.apply,
            hlost.2.1 (decide_eq_true hid)]
          rw [hid, hsettings]
        have hdue : (Stage.locked cc).work id = .due := if_pos hid
        refine hplain rfl rfl (fun x hx => by rw [hdue] at hx; cases hx) ?_
        rw [hreply, hdue]
        exact if_pos hid
      · exact hother rfl hid rfl rfl
  | loaded cc d' =>
      obtain rfl : o = .getSolveCount cc.id req.contestId := ho
      by_cases hid : cc.id = id
      · exact hJ.count h₀ hp hq hid hlock hlost
      · exact hother rfl hid rfl rfl
  | counted cc d' count =>
      obtain rfl : o = .saveChallenge { cc with value := some (d'.decayed cfg count) } := ho
      exact hJ.save h₀ hp hq hlock hlost
  | done cc =>
      rcases ho with rfl | haside'
      · exact hplain rfl rfl (fun x hx => by cases hx) rfl
      · exact haside haside' trivial
  | failed cc =>
      obtain rfl : o = .releaseLock (recalculationKey req.contestId cc.id) := ho
      exact hplain rfl rfl (fun x hx => by cases hx) rfl

/-! ### Runs -/

/-- A request that has arrived has done nothing yet. -/
theorem Converging.spawn (hJ : Converging contestId id d tables log w qs)
    (req : ChallengeAttemptRequest) (p : Prog attemptI Exn AttemptResponse) :
    Converging contestId id d tables log ⟨w.shared, w.procs ++ [(.attempt req, p)]⟩
      (qs ++ [.start]) := by
  obtain ⟨copy, hcopy, hshows, hfresh⟩ := hJ.fresh
  refine ⟨hJ.kept, List.rel_append hJ.knows (.cons ⟨req, rfl, fun cc hcc => nomatch hcc⟩ .nil),
    hJ.unique, ⟨copy, hcopy, hshows, ?_⟩, hJ.values⟩
  rwa [works_append_start]

/-- A move of the surroundings changes neither the tables nor the solves. -/
theorem Converging.ambient {m : AttemptMove} (hm : ∀ tables, m ≠ .tables tables)
    (hJ : Converging contestId id d tables log w qs) :
    Converging contestId id d tables log ⟨DynamicValue.ambient m w.shared, w.procs⟩ qs := by
  obtain ⟨copy, hcopy, hshows, hfresh⟩ := hJ.fresh
  cases m with
  | tables tables => exact absurd rfl (hm tables)
  | tick seconds =>
      have hle : w.shared.world.redis.clock ≤ (w.shared.world.redis.tick seconds).clock :=
        Int.le_add_of_nonneg_right (Int.natCast_nonneg seconds)
      exact ⟨hJ.kept, hJ.knows, hJ.unique.later hle,
        ⟨copy, hcopy, hshows, hfresh.of_holds fun p x _ hold => hold.later hle⟩, hJ.values⟩
  | evict key => exact ⟨hJ.kept, hJ.knows, hJ.unique, ⟨copy, hcopy, hshows, hfresh⟩, hJ.values⟩
  | deployments strings zsets =>
      exact ⟨hJ.kept, hJ.knows, hJ.unique, ⟨copy, hcopy, hshows, hfresh⟩, hJ.values⟩

/-- **The invariant holds in every undisturbed run.** -/
theorem converging_of_undisturbed {world : AttemptWorld}
    (hd : Decaying contestId id d world.tables)
    (hstart : storedValue world.tables id = some (d.decayed cfg (solveCount visible world id)))
    (h : Service.Records (Undisturbed contestId id)
      ((service cfg (some visible)).start (World.of world)) log w) :
    ∃ qs, Converging contestId id d world.tables log w qs ∧
      Service.Standings (protocol cfg) (fun _ => Stage.ends) w qs := by
  refine h.protocol_invariant (J := Converging contestId id d world.tables) (fun _ => .start) ?_
    (fun _ _ c _ => follows_call cfg c) ?_ ?_ ?_
  · refine ⟨rfl, .nil, Lease.unique_nil, ⟨solveCount visible world id, ?_, hstart, ?_⟩, ?_⟩
    · exact Int.natCast_nonneg _
    · exact fresh_self _ _ (fun p => rfl) _
    · exact fun n hn => nomatch hn
  · intro log w qs c hJ hst hg
    cases c with
    | attempt req => exact hJ.spawn req _
    | _ => exact hg.elim
  · intro log w qs pid e c o k q hJ hst hp hq hg hf
    simp only [Undisturbed, Submitted, show w.procs[pid]? = some (c, .call o k) from hp] at hg
    have hc := Service.forall₂_getElem? hJ.knows hp hq
    obtain ⟨req, rfl, -⟩ := hc
    exact hJ.act hd hp hq hg.1 hg.2 hf.1
  · intro log w qs m hJ hst hg
    refine hJ.ambient fun tables hm => ?_
    subst hm
    exact hg

/-- What a request owes when it has finished: nothing, unless it has given up. -/
theorem work_of_ends {r : Except Exn AttemptResponse} (h : q.ends r) (hr : r ≠ .error .canceled) :
    q.work id = .idle := by
  cases q with
  | owing cc => exact absurd h hr
  | locked cc => exact h.elim
  | loaded cc d => exact h.elim
  | counted cc d count => exact h.elim
  | _ => rfl

end Act

/-! ### Convergence -/

/-- The value does not rise by an operation. -/
def NotRaised (id : ℤ) (n : (service cfg (some visible)).Entry) : Prop :=
  ∀ a b, storedValue n.before.world.tables id = some a →
    storedValue n.after.world.tables id = some b → b ≤ a

/-- **The value converges.** If the value stored is that of the solves at the start, then in
every run in which no recalculation outlives its lock and none of its operations is lost, the
value is that of all solves once every request is served. It does not rise on the way if
its decay does not rise up to their number. -/
theorem converges_of_undisturbed (cfg : AttemptConfig) (visible : ℤ → Bool) (contestId id : ℤ)
    (d : DynamicChallenge) (world : AttemptWorld) (log : List (service cfg (some visible)).Entry)
    (w : (service cfg (some visible)).Pool) (hd : Decaying contestId id d world.tables)
    (hstart : storedValue world.tables id = some (d.decayed cfg (solveCount visible world id)))
    (h : Service.Records (Undisturbed contestId id)
      ((service cfg (some visible)).start (World.of world)) log w) :
    (AllServed w → storedValue w.shared.world.tables id =
      some (d.decayed cfg (solveCount visible w.shared.world id))) ∧
    ((∀ m n : ℤ, 0 ≤ m → m ≤ n → n ≤ solveCount visible w.shared.world id →
        d.decayed cfg n ≤ d.decayed cfg m) →
      ∀ n ∈ log, NotRaised id n) := by
  obtain ⟨qs, hJ, hst⟩ := converging_of_undisturbed hd hstart h
  refine ⟨fun hserved => ?_, fun hdecays n hn a b ha hb => ?_⟩
  · obtain ⟨copy, -, hshows, hfresh⟩ := hJ.fresh
    have hidle (pid : ℕ) : works id qs pid = .idle := by
      cases hq : qs[pid]? with
      | none =>
          rw [works, hq]
          rfl
      | some q =>
          have hlt : pid < w.procs.length :=
            hst.length_eq ▸ (List.getElem?_eq_some_iff.mp hq).1
          obtain ⟨r, hr, hne⟩ := hserved _ (List.getElem_mem hlt)
          have hfollows := Service.forall₂_getElem? hst (List.getElem?_eq_getElem hlt) hq
          rw [hr] at hfollows
          exact (works_of_get hq).trans (work_of_ends hfollows hne)
    exact hfresh.settled hidle ▸ hshows
  · obtain ⟨m, k, hm, hmk, hk, hbefore, hafter⟩ := hJ.values n hn
    obtain rfl := Option.some.inj (ha.symm.trans hbefore)
    obtain rfl := Option.some.inj (hb.symm.trans hafter)
    exact hdecays m k hm hmk hk

/-- However the requests interleave: if no recalculation outlives its lock, the value is at
last that of all solves. -/
def Converges (cfg : AttemptConfig) (visible : ℤ → Bool) (contestId id : ℤ)
    (d : DynamicChallenge) : Prop :=
  ∀ world log w, Decaying contestId id d world.tables →
    storedValue world.tables id = some (d.decayed cfg (solveCount visible world id)) →
    Service.Records (Locked contestId id)
      ((service cfg (some visible)).start (World.of world)) log w →
    AllServed w → storedValue w.shared.world.tables id =
      some (d.decayed cfg (solveCount visible w.shared.world id))

/-- And no operation makes it rise. -/
def NeverRaised (cfg : AttemptConfig) (visible : ℤ → Bool) (contestId id : ℤ)
    (d : DynamicChallenge) : Prop :=
  ∀ world log w, Decaying contestId id d world.tables →
    storedValue world.tables id = some (d.decayed cfg (solveCount visible world id)) →
    Service.Records (Locked contestId id)
      ((service cfg (some visible)).start (World.of world)) log w →
    ∀ n ∈ log, NotRaised id n

end Runs

/-! ### Two runs -/

section Decide

variable {cfg : AttemptConfig} {visible : ℤ → Bool}

instance (contestId id : ℤ) (log : List (service cfg (some visible)).Entry) (s : World) (pid : ℕ)
    (e : AttemptEnv) (o : AttemptOp) : Decidable (LockKept contestId id log s pid e o) :=
  inferInstanceAs (Decidable (_ ∧ _))

instance (contestId id : ℤ) (e : AttemptEnv) (o : AttemptOp) :
    Decidable (NothingLost contestId id e o) :=
  inferInstanceAs (Decidable (_ ∧ _ ∧ _))

instance (φ : List (service cfg (some visible)).Entry → World → ℕ → AttemptEnv → AttemptOp → Prop)
    [hφ : ∀ log s pid e o, Decidable (φ log s pid e o)] (log : List (service cfg (some visible)).Entry)
    (w : (service cfg (some visible)).Pool) (m : (service cfg (some visible)).Move) :
    Decidable (Submitted φ log w m) := by
  unfold Submitted
  split
  · infer_instance
  · infer_instance
  · infer_instance
  · infer_instance
  · split
    · exact hφ _ _ _ _ _
    · infer_instance

instance (contestId id : ℤ) (log : List (service cfg (some visible)).Entry)
    (w : (service cfg (some visible)).Pool) (m : (service cfg (some visible)).Move) :
    Decidable (Locked contestId id log w m) :=
  inferInstanceAs (Decidable (Submitted _ _ _ _))

instance (contestId id : ℤ) (log : List (service cfg (some visible)).Entry)
    (w : (service cfg (some visible)).Pool) (m : (service cfg (some visible)).Move) :
    Decidable (Undisturbed contestId id log w m) :=
  inferInstanceAs (Decidable (Submitted _ _ _ _))

/-- All have finished, and none has given up. -/
def allServed (w : (service cfg (some visible)).Pool) : Bool :=
  w.procs.all fun p =>
    match p.2 with
    | .ret (.error .canceled) => false
    | .ret _ => true
    | .call _ _ => false

theorem allServed_of_eq_true {w : (service cfg (some visible)).Pool} (h : allServed w = true) :
    AllServed w := by
  intro p hp
  have hserved := List.all_eq_true.mp h p hp
  split at hserved
  · cases hserved
  · next r hne heq => exact ⟨r, heq, hne⟩
  · cases hserved

end Decide

/-- From 100 down to 50, in steps of 10. -/
def tenLess : DynamicChallenge := ⟨some 100, some 50, some 10, true⟩

/-- From 100 upwards, in steps of 10. -/
def tenMore : DynamicChallenge := ⟨some 100, some 50, some (-10), true⟩

/-- The state in which one team has solved the challenge, which decays as `d` says. -/
def solvedOnce (d : DynamicChallenge) : AttemptWorld where
  redis := Db.empty 1000
  submissions := []
  solves := [⟨1, 7, some 3, some 4⟩]
  nextId := 2
  tables := { attemptTables decayingChallenge with dynamicChallenges := fun _ => some d }

theorem decaying_solvedOnce (d : DynamicChallenge) : Decaying 1 7 d (solvedOnce d).tables :=
  ⟨List.nodup_singleton _, decayingChallenge, List.mem_singleton_self _, rfl, rfl, _, rfl, rfl, rfl⟩

/-- A second team solves the challenge, and its value falls to 90. -/
theorem converges_example :
    ∃ log w, Service.runLogged (Undisturbed 1 7) []
        ((service defaultAttemptConfig everyone).start (World.of (solvedOnce tenLess)))
        (Service.callNow 0 rightAnswer calmAttempt 12) = some (log, w) ∧
      AllServed w ∧ storedValue w.shared.world.tables 7 = some 90 ∧
      ((AllServed w → storedValue w.shared.world.tables 7 = some (tenLess.decayed
          defaultAttemptConfig (solveCount (fun _ => true) w.shared.world 7))) ∧
        ((∀ m n : ℤ, 0 ≤ m → m ≤ n → n ≤ solveCount (fun _ => true) w.shared.world 7 →
            tenLess.decayed defaultAttemptConfig n ≤ tenLess.decayed defaultAttemptConfig m) →
          ∀ n ∈ log, NotRaised 7 n)) := by
  have hrun : (Service.runLogged (Undisturbed 1 7) []
      ((service defaultAttemptConfig everyone).start (World.of (solvedOnce tenLess)))
      (Service.callNow 0 rightAnswer calmAttempt 12)).any
      (fun p => allServed p.2 &&
        decide (storedValue p.2.shared.world.tables 7 = some 90)) = true := by
    decide +kernel
  obtain ⟨⟨log, w⟩, hw, hboth⟩ := (Option.any_eq_true _ _).mp hrun
  obtain ⟨hserved, hvalue⟩ := Bool.and_eq_true_iff.mp hboth
  exact ⟨log, w, hw, allServed_of_eq_true hserved, of_decide_eq_true hvalue,
    converges_of_undisturbed defaultAttemptConfig (fun _ => true) 1 7 tenLess (solvedOnce tenLess)
      log w (decaying_solvedOnce tenLess) (by decide) (Service.records_of_runLogged .refl hw)⟩

/-- **What is not promised.** A new value that is lost stays lost, and with a decay that is
negative a solve makes the value rise. -/
theorem not_converges :
    ¬Converges defaultAttemptConfig (fun _ => true) 1 7 tenLess ∧
      ¬NeverRaised defaultAttemptConfig (fun _ => true) 1 7 tenMore := by
  constructor
  · have hrun : (Service.runLogged (Locked 1 7) []
        ((service defaultAttemptConfig everyone).start (World.of (solvedOnce tenLess)))
        (Service.callNow 0 rightAnswer calmAttempt 9 ++
          [.act 0 { calmAttempt with fault := .before }, .act 0 calmAttempt])).any
        (fun p => allServed p.2 && (decide (storedValue p.2.shared.world.tables 7 = some 100) &&
          decide (solveCount (fun _ => true) p.2.shared.world 7 = 2))) = true := by
      decide +kernel
    obtain ⟨⟨log, w⟩, hw, hall⟩ := (Option.any_eq_true _ _).mp hrun
    obtain ⟨hserved, hboth⟩ := Bool.and_eq_true_iff.mp hall
    obtain ⟨hvalue, hcount⟩ := Bool.and_eq_true_iff.mp hboth
    intro h
    have hconverged := h (solvedOnce tenLess) log w (decaying_solvedOnce tenLess) (by decide)
      (Service.records_of_runLogged .refl hw) (allServed_of_eq_true hserved)
    rw [of_decide_eq_true hvalue, of_decide_eq_true hcount] at hconverged
    exact absurd hconverged (by decide)
  · have hrun : (Service.runLogged (Locked 1 7) []
        ((service defaultAttemptConfig everyone).start (World.of (solvedOnce tenMore)))
        (Service.callNow 0 rightAnswer calmAttempt 12)).any
        (fun p => p.1.any fun n =>
          decide (storedValue n.before.world.tables 7 = some 100) &&
            decide (storedValue n.after.world.tables 7 = some 110)) = true := by
      decide +kernel
    obtain ⟨⟨log, w⟩, hw, hany⟩ := (Option.any_eq_true _ _).mp hrun
    obtain ⟨n, hn, hboth⟩ := List.any_eq_true.mp hany
    obtain ⟨hbefore, hafter⟩ := Bool.and_eq_true_iff.mp hboth
    intro h
    have hle := h (solvedOnce tenMore) log w (decaying_solvedOnce tenMore) (by decide)
      (Service.records_of_runLogged .refl hw) n hn 100 110 (of_decide_eq_true hbefore)
      (of_decide_eq_true hafter)
    exact absurd hle (by decide)

end DynamicValue

end Fctf
