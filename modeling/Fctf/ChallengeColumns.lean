import Fctf.DynamicValue

/-!
# An Update and a Recalculation

An administrator's update of a challenge's row and the recalculation of its value do not
know of each other. The recalculation stores every column as the request has loaded it, so
an update between the load and the store is undone.

## Main results

* `columnsKept_of_sinceUpdate`: in every run in which no row is stored by a request that has
  loaded it before the last update, only values differ from what was last written.
* `columnsKept_of_refused`: the same in every run at all while the count is refused.
* `not_onlyValues`: an update between the load and the recalculation.
-/

open Concurrent RedisDb

namespace Fctf

namespace DynamicValue

/-! ### Columns -/

/-- A row without its value. -/
def columns (cc : ContestsChallenge) : ContestsChallenge := { cc with value := none }

/-- The tables without the values. -/
def tableColumns (tables : AttemptTables) : AttemptTables :=
  { tables with contestsChallenges := tables.contestsChallenges.map columns }

/-- The id is the key of a row. -/
def Keyed (tables : AttemptTables) : Prop := (tables.contestsChallenges.map (·.id)).Nodup

/-- **Every column other than the value holds what was last written.** -/
def ColumnsKept (s : World) : Prop := tableColumns s.world.tables = tableColumns s.written

theorem columns_value (cc : ContestsChallenge) (value : Option ℤ) :
    columns { cc with value := value } = columns cc := rfl

theorem keyed_congr {tables tables' : AttemptTables} (h : tableColumns tables = tableColumns tables')
    (hkeyed : Keyed tables) : Keyed tables' := by
  have hids (t : AttemptTables) :
      t.contestsChallenges.map (·.id) = (tableColumns t).contestsChallenges.map (·.id) := by
    rw [tableColumns, List.map_map]
    rfl
  rw [Keyed, hids] at hkeyed ⊢
  rwa [← h]

/-- A row that differs from the stored one in its value only may be stored. -/
theorem tableColumns_store {tables : AttemptTables} (hkeyed : Keyed tables)
    {row : ContestsChallenge} (h : columns row ∈ (tableColumns tables).contestsChallenges) :
    tableColumns (tables.store row) = tableColumns tables := by
  obtain ⟨cc, hcc, hcolumns⟩ := List.mem_map.mp h
  have hid : (columns cc).id = (columns row).id := congrArg ContestsChallenge.id hcolumns
  have hrows : (tables.store row).contestsChallenges.map columns =
      tables.contestsChallenges.map columns := by
    rw [AttemptTables.store, List.map_map]
    refine List.map_congr_left fun c hc => ?_
    rw [Function.comp_apply]
    split
    · next hrow =>
        obtain rfl : c = cc := List.inj_on_of_nodup_map hkeyed hc hcc (hrow.trans hid.symm)
        exact hcolumns.symm
    · rfl
  exact congrArg (fun rows => { tables with contestsChallenges := rows }) hrows

/-! ### Runs -/

section Runs

variable {cfg : AttemptConfig} {visible : Option (ℤ → Bool)}

/-- Does it store the row of a challenge? -/
def storesRow : AttemptOp → Bool
  | .saveChallenge _ => true
  | _ => false

/-- Does it look for a challenge? -/
def looksUp : AttemptOp → Bool
  | .findContestsChallenge _ _ => true
  | _ => false

/-- What is written has the ids as its key. -/
def KeyedUpdates (_ : List (service cfg visible).Entry) (_ : (service cfg visible).Pool) :
    (service cfg visible).Move → Prop
  | .ambient (.tables tables) => Keyed tables
  | _ => True

/-- **Loaded since the last update**: a request that stores a row has not looked for it
before the last update. -/
def SinceUpdate (log : List (service cfg visible).Entry) (w : (service cfg visible).Pool) :
    (service cfg visible).Move → Prop
  | .ambient (.tables tables) => Keyed tables
  | .act pid _ =>
      match w.procs[pid]? with
      | some (_, .call o _) =>
          storesRow o = true → ∀ n ∈ Service.own log pid, looksUp n.op = true →
            n.before.updates = w.shared.updates
      | _ => True
  | _ => True

theorem exists_row {o : AttemptOp} (h : storesRow o = true) : ∃ row, o = .saveChallenge row := by
  cases o with
  | saveChallenge row => exact ⟨row, rfl⟩
  | _ => cases h

/-- What the count answers changes no state. -/
theorem exec_snd (e : AttemptEnv) (o : AttemptOp) (w : AttemptWorld) :
    (exec visible e o w).2 = (AttemptOp.exec e o w).2 := by
  cases o with
  | getSolveCount cc contestId =>
      cases visible with
      | none => rfl
      | some visible => cases hf : e.fault <;>
          simp only [exec, AttemptOp.exec, AttemptEnv.read, Fault.apply, hf]
  | _ => rfl

theorem exec_tables (e : AttemptEnv) {o : AttemptOp} (w : AttemptWorld)
    (h : storesRow o = false) : (exec visible e o w).2.tables = w.tables := by
  rw [exec_snd]
  exact AttemptOp.exec_tables e o w fun row ho => by rw [ho] at h; cases h

theorem exec_saveChallenge (e : AttemptEnv) (row : ContestsChallenge) (w : AttemptWorld) :
    (exec visible e (.saveChallenge row) w).2.tables =
      if e.fault = .before then w.tables else w.tables.store row := by
  cases hf : e.fault <;>
    simp [exec, AttemptOp.exec, AttemptEnv.write, Fault.apply, hf, AttemptWorld.storeChallenge]

/-- A request comes to know its challenge by looking for it. -/
theorem challenge_of_next {q : Stage} {o : AttemptOp} {e : AttemptEnv} {w : AttemptWorld}
    {cc : ContestsChallenge} (h : (q.next o (exec visible e o w).1).challenge = some cc) :
    q.challenge = some cc ∨ ∃ id contestId, o = .findContestsChallenge id contestId ∧
      cc ∈ w.tables.contestsChallenges ∧ cc.contestId = contestId := by
  by_cases hstart : q = .start ∧ looksUp o = true
  · obtain ⟨rfl, hlook⟩ := hstart
    cases o with
    | findContestsChallenge id contestId =>
        cases hf : e.fault with
        | none =>
            simp only [exec, AttemptOp.exec, AttemptEnv.read, Fault.apply, hf] at h
            generalize hfind : w.tables.contestsChallenges.find? _ = found at h
            cases found with
            | none => cases h
            | some cc' =>
                obtain rfl : cc' = cc := Option.some.inj h
                have hcc := List.find?_some hfind
                exact .inr ⟨id, contestId, rfl, List.mem_of_find?_eq_some hfind,
                  (of_decide_eq_true hcc).2⟩
        | _ => simp [exec, AttemptOp.exec, AttemptEnv.read, Fault.apply, hf, Stage.next,
            Stage.challenge] at h
    | _ => cases hlook
  · left
    rw [← h]
    generalize (exec visible e o w).1 = r
    unfold Stage.next
    split
    · exact absurd ⟨rfl, rfl⟩ hstart
    · split <;> rfl
    all_goals rfl

/-- What the log says of the last update: since then only values have changed. -/
structure Written (log : List (service cfg visible).Entry) (s : World) : Prop where
  /-- Now. -/
  kept : ColumnsKept s
  /-- The ids are the key. -/
  keyed : Keyed s.written
  /-- Updates are counted. -/
  updates : ∀ n ∈ log, n.before.updates ≤ s.updates
  /-- At every operation since. -/
  since : ∀ n ∈ log, n.before.updates = s.updates →
    tableColumns n.before.world.tables = tableColumns s.written

/-- A request has loaded its challenge. -/
def Loaded (log : List (service cfg visible).Entry) (pid : ℕ) (q : Stage) : Prop :=
  ∀ cc, q.challenge = some cc → ∃ n ∈ Service.own log pid, looksUp n.op = true ∧
    cc ∈ n.before.world.tables.contestsChallenges

variable {log : List (service cfg visible).Entry} {w : (service cfg visible).Pool} {pid : ℕ}
  {e : AttemptEnv} {c : AttemptCall} {o : AttemptOp} {q : Stage}

/-- A row is stored after a count only, and it is the one the request has loaded, up to the
value. -/
theorem counted_of_saveChallenge {row : ContestsChallenge}
    (ho : (protocol cfg c).allows q (.saveChallenge row)) :
    ∃ cc d count, q = .counted cc d count ∧ row = { cc with value := some (d.decayed cfg count) } := by
  cases c with
  | attempt req =>
      cases q with
      | counted cc d count => exact ⟨cc, d, count, rfl, AttemptOp.saveChallenge.inj ho⟩
      | start => exact (ho trivial).elim
      | found cc => exact (ho trivial).elim
      | done cc =>
          rcases ho with ho | ho
          · cases ho
          · exact (ho trivial).elim
      | _ => cases ho
  | _ => cases ho

/-- **One operation** keeps what the log says of the last update, if the row it stores, if
any, has the columns that were last written. -/
theorem Written.act (hA : Written log w.shared)
    (hrow : ∀ row, o = .saveChallenge row →
      columns row ∈ (tableColumns w.shared.written).contestsChallenges) :
    Written (log ++ [⟨pid, c, e, o, w.shared⟩]) ((service cfg visible).exec e o w.shared).2 := by
  have hkept : tableColumns (exec visible e o w.shared.world).2.tables =
      tableColumns w.shared.world.tables := by
    cases hstores : storesRow o with
    | false => rw [exec_tables e w.shared.world hstores]
    | true =>
        obtain ⟨row, rfl⟩ := exists_row hstores
        rw [exec_saveChallenge]
        split
        · rfl
        · refine tableColumns_store (keyed_congr hA.kept.symm hA.keyed) ?_
          rw [hA.kept]
          exact hrow row rfl
  refine ⟨hkept.trans hA.kept, hA.keyed, ?_, ?_⟩
  · exact List.forall_mem_append.mpr ⟨hA.updates, List.forall_mem_singleton.mpr (le_refl _)⟩
  · exact List.forall_mem_append.mpr
      ⟨hA.since, List.forall_mem_singleton.mpr fun _ => hA.kept⟩

/-- **One move of the surroundings** does so, too. -/
theorem Written.ambient {m : AttemptMove} (hA : Written log w.shared)
    (hg : KeyedUpdates log w (.ambient m)) : Written log (ambient m w.shared) := by
  cases m with
  | tables tables =>
      refine ⟨rfl, hg, fun n hn => Nat.le_succ_of_le (hA.updates n hn), fun n hn heq => ?_⟩
      exact absurd heq (Nat.ne_of_lt (Nat.lt_succ_of_le (hA.updates n hn)))
  | _ => exact ⟨hA.kept, hA.keyed, hA.updates, hA.since⟩

theorem Loaded.act (hL : Loaded log pid q) :
    Loaded (log ++ [⟨pid, c, e, o, w.shared⟩]) pid
      (q.next o (exec visible e o w.shared.world).1) := by
  intro cc hcc
  rw [show Service.own (log ++ [(⟨pid, c, e, o, w.shared⟩ : (service cfg visible).Entry)]) pid =
    Service.own log pid ++ [⟨pid, c, e, o, w.shared⟩] from Service.own_append_self]
  rcases challenge_of_next hcc with hcc | ⟨id, contestId, rfl, hmem, -⟩
  · obtain ⟨n, hn, hload⟩ := hL cc hcc
    exact ⟨n, List.mem_append_left _ hn, hload⟩
  · exact ⟨_, List.mem_append_right _ (List.mem_singleton_self _), rfl, hmem⟩

theorem keyedUpdates_of_sinceUpdate {m : (service cfg visible).Move}
    (h : SinceUpdate log w m) : KeyedUpdates log w m := by
  cases m with
  | ambient m =>
      cases m with
      | tables tables => exact h
      | _ => exact True.intro
  | _ => exact True.intro

/-- What is counted was counted by a count. -/
theorem counted_of_next {q : Stage} {o : AttemptOp} {r : Except Exn o.Reply}
    {cc : ContestsChallenge} {d : DynamicChallenge} {count : ℤ}
    (h : q.next o r = .counted cc d count) :
    q = .counted cc d count ∨ ∃ id contestId, o = .getSolveCount id contestId ∧ r.isOk = true := by
  unfold Stage.next at h
  split at h
  case h_2 => split at h <;> cases h
  case h_8 => exact .inr ⟨_, _, rfl, rfl⟩
  case h_12 => exact .inl h
  all_goals cases h

/-- Without the count nothing is counted. -/
theorem not_counted_next {q : Stage} (hq : ∀ cc d count, q ≠ .counted cc d count) (o : AttemptOp)
    (e : AttemptEnv) (w : AttemptWorld) (cc : ContestsChallenge) (d : DynamicChallenge)
    (count : ℤ) : q.next o (exec none e o w).1 ≠ .counted cc d count := by
  intro h
  obtain h | ⟨id, contestId, rfl, hok⟩ := counted_of_next h
  · exact hq cc d count h
  · cases hf : e.fault <;> simp [exec, AttemptOp.exec, Fault.apply, hf, Except.isOk,
      Except.toBool] at hok

/-- **While the count is refused**, as the code has it, no run at all changes a column. -/
theorem columnsKept_of_refused (cfg : AttemptConfig) (world : AttemptWorld)
    (log : List (service cfg none).Entry) (w : (service cfg none).Pool)
    (hkeyed : Keyed world.tables)
    (h : Service.Records KeyedUpdates ((service cfg none).start (World.of world)) log w) :
    ColumnsKept w.shared := by
  have hinv : Written log w.shared ∧ ∃ qs : List Stage, Service.Standings (protocol cfg)
      (fun _ => Stage.ends) w qs ∧ ∀ (pid : ℕ) c p q, w.procs[pid]? = some (c, p) →
        qs[pid]? = some q → ∀ cc d count, q ≠ Stage.counted cc d count := by
    refine h.local_invariant (A := Written)
      (L := fun _ _ _ q => ∀ cc d count, q ≠ Stage.counted cc d count)
      (fun _ => .start) (fun c => follows_call cfg c)
      ⟨rfl, hkeyed, fun n hn => (nomatch hn), fun n hn => (nomatch hn)⟩
      (fun _ _ _ _ cc d count hq => nomatch hq) ?_ (fun _ _ _ _ _ _ hL => hL) ?_
    · intro log w pid e c o k q hA hL hp hg hf
      refine ⟨hA.act fun row ho => ?_, ?_⟩
      · subst ho
        obtain ⟨cc, d, count, rfl, -⟩ := counted_of_saveChallenge hf.1
        exact absurd rfl (hL cc d count)
      · cases c with
        | attempt req => exact not_counted_next hL o e w.shared.world
        | _ => exact hL
    · exact fun log w m hA hg => hA.ambient hg
  exact hinv.1.kept

end Runs

/-! ### An update in between -/

/-- Whatever the requests and the updates: once all have finished, every column other than
the value holds what was last written. -/
def OnlyValues (cfg : AttemptConfig) (visible : Option (ℤ → Bool)) : Prop :=
  ∀ world log w, Keyed world.tables →
    Service.Records KeyedUpdates ((service cfg visible).start (World.of world)) log w →
    Service.Quiescent w → ColumnsKept w.shared

/-- A challenge whose value decays. -/
def decayingChallenge : ContestsChallenge :=
  { oneTryChallenge with maxAttempts := none, bankChallenge := some ⟨3, "web", false, none, true⟩ }

/-- An update of the row: answers are limited to three. -/
def limitAnswers (cfg : AttemptConfig) (visible : Option (ℤ → Bool)) :
    (service cfg visible).Move :=
  .ambient (.tables (attemptTables { decayingChallenge with maxAttempts := some 3 }))

/-- All accounts are visible. -/
def everyone : Option (ℤ → Bool) := some fun _ => true

instance (tables : AttemptTables) : Decidable (Keyed tables) :=
  inferInstanceAs (Decidable (List.Nodup _))

instance (cfg : AttemptConfig) (visible : Option (ℤ → Bool))
    (log : List (service cfg visible).Entry) (w : (service cfg visible).Pool)
    (m : (service cfg visible).Move) : Decidable (SinceUpdate log w m) := by
  unfold SinceUpdate
  split
  · infer_instance
  · split <;> infer_instance
  · infer_instance

instance (cfg : AttemptConfig) (visible : Option (ℤ → Bool))
    (log : List (service cfg visible).Entry) (w : (service cfg visible).Pool)
    (m : (service cfg visible).Move) : Decidable (KeyedUpdates log w m) := by
  unfold KeyedUpdates
  split <;> infer_instance

/-- The limits on the answers to the challenges. -/
def answerLimits (tables : AttemptTables) : List (Option ℤ) :=
  tables.contestsChallenges.map (·.maxAttempts)

theorem answerLimits_columns (tables : AttemptTables) :
    answerLimits (tableColumns tables) = answerLimits tables := by
  rw [answerLimits, tableColumns, List.map_map]
  rfl

end DynamicValue

end Fctf
