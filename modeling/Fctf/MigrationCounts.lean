import Mathlib.Algebra.BigOperators.Group.List.Basic
import Mathlib.Algebra.Order.Ring.Nat
import Fctf.MigrationBatches

/-!
# What a Migration Counts

The rows that are counted as inserted, updated or unchanged, and those that are lost with a batch
that failed, are the rows of the source. Rows are lost only where an error is logged.

## Main results

* `migrate_accounts`: a migration that reports success has counted all rows but those lost in the
  batches that it has logged, of at most five thousand rows each.
-/

open Concurrent

namespace Fctf

namespace Migrator

variable {V : Type} {values : Values V} {w w' : World V} {α : Type} {task : Task V}
  {direction : Direction}

/-! ### Without a note -/

/-- The operations that count nothing. -/
def Quiet (o : MigOp V) : Prop := ∀ n, o ≠ .note n

/-- A program without notes counts nothing. -/
theorem eval_silent (values : Values V) {p : Prog (migI V) MigError α}
    (h : p.Throughout Quiet) (w : World V) :
    Silent w (p.eval (migExec values) w).2 :=
  h.eval (Silent.refl w) fun o s ho hs => hs.trans (exec_silent values o s ho)

/-- A part without notes, and what follows it. -/
theorem eval_after_quiet {β : Type} {p : Prog (migI V) MigError α}
    {f : α → Prog (migI V) MigError β} {P : Except MigError β × World V → Prop}
    (hp : p.Throughout Quiet)
    (hok : ∀ a w₁, Silent w w₁ → P ((f a).eval (migExec values) w₁))
    (herr : ∀ e w₁, Silent w w₁ → P (.error e, w₁)) :
    P ((p >>= f).eval (migExec values) w) := by
  have hsilent := eval_silent values hp w
  rw [Prog.eval_bind]
  generalize p.eval (migExec values) w = out at hsilent ⊢
  obtain ⟨e | a, w₁⟩ := out
  · exact herr e w₁ hsilent
  · exact hok a w₁ hsilent

/-- One operation. -/
theorem throughout_request {φ : MigOp V → Prop} {o : MigOp V} (ho : φ o) :
    (request o).Throughout φ := ⟨ho, fun _ => trivial⟩

theorem quiet_request {o : MigOp V} (ho : Quiet o) : (request o).Throughout Quiet :=
  throughout_request ho

theorem executeAll_throughout {φ : MigOp V → Prop} {sqls : List String} (hcommit : φ .commit)
    (hsqls : ∀ sql ∈ sqls, φ (.execute sql)) :
    (executeAll sqls : Prog (migI V) MigError Unit).Throughout φ := by
  induction sqls with
  | nil => exact trivial
  | cons sql rest ih =>
      refine Prog.Throughout.bind (Prog.Throughout.handle (Prog.Throughout.bind ?_ fun _ => ?_)
        fun _ => trivial) fun _ => ih fun sql h => hsqls sql (List.mem_cons_of_mem _ h)
      · exact throughout_request (hsqls sql List.mem_cons_self)
      · exact throughout_request hcommit

/-- The operations with which `dynamic_challenge` is built anew and filled. -/
def Rebuilds : MigOp V → Prop
  | .commit => True
  | .reflectTarget _ => True
  | .insert table _ => table = "dynamic_challenge"
  | .setForeignKeyChecks _ => True
  | .dropDynamicChallenge => True
  | .createDynamicChallenge => True
  | .countForeignKeys => True
  | .existingIds _ => True
  | _ => False

theorem rebuild_throughout :
    (rebuildCtfdDynamicChallenge : Prog (migI V) MigError Unit).Throughout Rebuilds := by
  refine Prog.Throughout.bind (throughout_request trivial) fun _ => ?_
  refine Prog.Throughout.bind (throughout_request trivial) fun _ => ?_
  refine Prog.Throughout.bind (throughout_request trivial) fun _ => ?_
  refine Prog.Throughout.bind (throughout_request trivial) fun _ => ?_
  exact throughout_request trivial

theorem existingIdsOf_throughout (n : ℕ) (ids : List V) :
    (existingIdsOf n ids).Throughout Rebuilds := by
  induction n generalizing ids with
  | zero => exact trivial
  | succ n ih =>
      rw [existingIdsOf]
      split
      · exact trivial
      · refine Prog.Throughout.bind (throughout_request trivial) fun _ => ?_
        exact Prog.Throughout.bind (ih _) fun _ => trivial

/-- The foreign key is seen to by such operations only. -/
theorem ensureDynamicChallengeFk_throughout (direction : Direction) (rows : List (Data V)) :
    (ensureDynamicChallengeFk values direction rows).Throughout Rebuilds := by
  rw [ensureDynamicChallengeFk]
  split
  swap
  · exact trivial
  refine Prog.Throughout.bind (Prog.Throughout.handle (Prog.Throughout.bind
    (throughout_request trivial) fun _ => Prog.Throughout.bind
      (throughout_request trivial) fun _ => trivial) fun e => ?_) fun count => ?_
  · cases e with
    | other message => exact trivial
    | database e =>
        dsimp only
        split
        · exact Prog.Throughout.bind rebuild_throughout fun _ => trivial
        · exact trivial
  · split
    · exact trivial
    refine Prog.Throughout.bind ?_ fun filtered =>
      Prog.Throughout.bind rebuild_throughout fun _ => ?_
    · rw [filterDynamicRows]
      split
      · exact trivial
      · exact Prog.Throughout.bind (existingIdsOf_throughout _ _) fun _ => trivial
    · rw [reinsertDynamicRows]
      split
      · exact trivial
      refine Prog.Throughout.bind (throughout_request trivial) fun _ => ?_
      refine Prog.Throughout.bind (throughout_request rfl) fun _ => ?_
      exact throughout_request trivial

theorem quiet_of_rebuilds {o : MigOp V} (h : Rebuilds o) : Quiet o := by
  rintro n rfl
  exact h

theorem executeAll_quiet (sqls : List String) :
    (executeAll sqls : Prog (migI V) MigError Unit).Throughout Quiet :=
  executeAll_throughout (fun n h => by cases h) fun sql _ n h => by cases h

theorem rebuild_quiet :
    (rebuildCtfdDynamicChallenge : Prog (migI V) MigError Unit).Throughout Quiet :=
  rebuild_throughout.mono fun _ => quiet_of_rebuilds

theorem ensureDynamicChallengeFk_quiet (direction : Direction) (rows : List (Data V)) :
    (ensureDynamicChallengeFk values direction rows).Throughout Quiet :=
  (ensureDynamicChallengeFk_throughout direction rows).mono fun _ => quiet_of_rebuilds

/-! ### Accounts -/

/-- The rows that are counted. -/
def Stats.handled (s : Stats) : ℕ := s.insertedRows + s.updatedRows + s.unchangedRows

/-- **Accounts**: `n` rows were counted, or lost in batches that are logged. -/
def Accounts (n : ℕ) (s s' : Stats) : Prop :=
  ∃ errors lost, s'.errors = s.errors ++ errors ∧ s'.handled + lost = s.handled + n ∧
    lost ≤ 5000 * errors.length

theorem Accounts.of_eq {s s' : Stats} (h : s' = s) : Accounts 0 s s' := by
  subst h
  exact ⟨[], 0, (List.append_nil _).symm, rfl, Nat.le_refl 0⟩

theorem Accounts.error (s : Stats) (message : String) : Accounts 0 s (s.add (.error message)) :=
  ⟨[message], 0, rfl, rfl, Nat.zero_le _⟩

theorem Accounts.rows (s : Stats) (n : ℕ) : Accounts 0 s (s.add (.rows n)) :=
  ⟨[], 0, (List.append_nil _).symm, rfl, Nat.le_refl 0⟩

/-- One after the other. -/
theorem Accounts.trans {n m : ℕ} {s s₁ s₂ : Stats} (h : Accounts n s s₁) (h' : Accounts m s₁ s₂) :
    Accounts (n + m) s s₂ := by
  obtain ⟨errors, lost, herrors, htotal, hlost⟩ := h
  obtain ⟨errors', lost', herrors', htotal', hlost'⟩ := h'
  refine ⟨errors ++ errors', lost + lost', ?_, by omega, ?_⟩
  · rw [herrors', herrors, List.append_assoc]
  · rw [List.length_append]
    omega

theorem Accounts.after {n : ℕ} {s s₁ s₂ : Stats} (h : Accounts n s₁ s₂) (hs : s₁ = s) :
    Accounts n s s₂ := hs ▸ h

/-- The accounts of a program that counts `n` rows if it returns what it should. -/
def Balanced (n : ℕ) (good : Except MigError α → Bool) (w : World V)
    (out : Except MigError α × World V) : Prop :=
  Accounts (if good out.1 then n else 0) w.stats out.2.stats

/-- The batches of a task, whose counts are noted at the end. -/
theorem migrateRows_balanced (hwrites : task.writes) (sourceColumns : List String)
    (targetColumns : List Column) (rows : List (Row V)) (w : World V) :
    Balanced rows.length Except.isOk w
      ((migrateRows values task direction sourceColumns targetColumns rows).eval
        (migExec values) w) := by
  obtain ⟨counts, w₁, errors, lost, heval, hrun⟩ := eval_processRows values task
    (targetColumns.map (·.name)) 5000
    (rows.map (targetData values task sourceColumns targetColumns)) [] (Nat.zero_lt_succ _)
    ⟨0, 0, 0⟩ w
  have htotal := hrun.total hwrites
  rw [List.nil_append, List.length_map] at htotal
  have hlogged (e : MigError) (w₂ : World V) (h : w₂.stats = w₁.stats) :
      Balanced rows.length Except.isOk w ((.error e : Except MigError Unit), w₂) := by
    refine ⟨errors, 0, ?_, ?_, Nat.zero_le _⟩
    · rw [h, hrun.stats]
    · rw [h, hrun.stats]
      rfl
  have hcounted (w₂ : World V) (h : w₂.stats = w₁.stats) : Balanced rows.length Except.isOk w
      ((note (.counts counts.inserted counts.updated counts.unchanged)).eval
        (migExec values) w₂) := by
    refine ⟨errors, lost, ?_, ?_, hrun.lost_le⟩
    · rw [eval_note, h, hrun.stats]
      rfl
    · rw [eval_note, h, hrun.stats]
      simp only [BatchResult.total, Stats.add, Stats.handled, Except.isOk, Except.toBool,
        if_true] at htotal ⊢
      omega
  rw [migrateRows, Prog.eval_bind, heval]
  refine eval_after_quiet (quiet_request fun n h => by cases h) (fun _ w₂ hcommit => ?_)
    fun e w₂ hcommit => hlogged e w₂ hcommit.stats
  refine eval_after_quiet (executeAll_quiet _) (fun _ w₃ hpost => ?_)
    fun e w₃ hpost => hlogged e w₃ (hpost.stats.trans hcommit.stats)
  have hstats := hpost.stats.trans hcommit.stats
  split
  · refine eval_after_quiet (ensureDynamicChallengeFk_quiet _ _) (fun _ w₄ hfk => ?_)
      fun e w₄ hfk => hlogged e w₄ (hfk.stats.trans hstats)
    exact hcounted w₄ (hfk.stats.trans hstats)
  · exact hcounted w₃ hstats

/-- Did a task succeed? -/
def succeeded : Except MigError Bool → Bool
  | .ok success => success
  | .error _ => false

/-- Other notes than the counts leave the accounts open. -/
theorem Balanced.after {n : ℕ} {good : Except MigError α → Bool} {w₁ : World V}
    {out : Except MigError α × World V} (h : Balanced n good w₁ out)
    (hstats : Accounts 0 w.stats w₁.stats) : Balanced n good w out := by
  have haccounts := hstats.trans h
  rw [Nat.zero_add] at haccounts
  exact haccounts

theorem Balanced.of_bad {n : ℕ} {good : Except MigError α → Bool} {r : Except MigError α}
    (hbad : good r = false) (h : Accounts 0 w.stats w'.stats) : Balanced n good w (r, w') := by
  rw [Balanced, hbad]
  exact h

theorem Balanced.of_keeps {n n' : ℕ} {good : Except MigError α → Bool}
    {out : Except MigError α × World V} (h : Balanced n good w out) (hn : n = n') :
    Balanced n' good w out := hn ▸ h

/-- A program that is followed by a success. -/
theorem Balanced.success {n : ℕ} {p : Prog (migI V) MigError α} {w₁ : World V}
    (h : Balanced n Except.isOk w (p.eval (migExec values) w₁)) :
    Balanced n succeeded w ((p >>= fun _ => pure true).eval (migExec values) w₁) := by
  rw [Prog.eval_bind]
  generalize p.eval (migExec values) w₁ = out at h ⊢
  obtain ⟨e | a, w₂⟩ := out
  · exact h
  · exact h

/-- **The rows of a task.** -/
theorem copyRows_balanced (hwrites : task.writes) (w : World V) :
    Balanced (w.source task.source).length succeeded w
      ((copyRows values task direction).eval (migExec values) w) := by
  have hfailed (e : MigError) (w₁ : World V) (h : Silent w w₁) :
      Balanced (w.source task.source).length succeeded w (.error e, w₁) :=
    .of_bad rfl (.of_eq h.stats)
  refine eval_after_quiet (quiet_request fun n h => by cases h) (fun sourceColumns w₁ h₁ => ?_)
    hfailed
  refine eval_after_quiet (quiet_request fun n h => by cases h) (fun targetColumns w₂ h₂ => ?_)
    fun e w₂ h₂ => hfailed e w₂ (h₁.trans h₂)
  have h₁₂ := h₁.trans h₂
  have hselect : (Session.select task.source : Prog (migI V) MigError (List (Row V))).eval
      (migExec values) w₂ = w₂.query (·.source task.source) := rfl
  rw [Prog.eval_bind, hselect, World.query]
  have hkeeps : Silent w₂ (w₂.query (·.source task.source)).2 :=
    eval_silent values (p := Session.select task.source)
      (quiet_request fun n h => by cases h) w₂
  rw [World.query] at hkeeps
  rcases statement_cases (fun w : World V => w.source task.source) id (fun _ w => w) w₂ with
    h | ⟨done, dropped, e, h⟩
  · rw [h] at hkeeps ⊢
    have hsource : w₂.source task.source = w.source task.source := congrFun h₁₂.keeps.source _
    dsimp only
    rw [hsource, Prog.eval_bind, eval_note]
    have hsilent := h₁₂.trans hkeeps
    have hnoted : Accounts 0 w.stats
        ((id w₂ : World V).stats.add (.rows (w.source task.source).length)) :=
      (Accounts.rows _ _).after hsilent.stats
    dsimp only
    split
    · next hempty =>
        refine Balanced.of_keeps (n := 0) ?_ (by rw [List.isEmpty_iff.mp hempty]; rfl)
        exact hnoted
    · refine Balanced.success (Balanced.after (migrateRows_balanced hwrites _ _ _ _) ?_)
      exact hnoted
  · rw [h] at hkeeps ⊢
    exact hfailed _ _ (h₁₂.trans hkeeps)

/-- The body of a task. -/
theorem taskBody_balanced (values : Values V) (direction : Direction) (hwrites : task.writes)
    (w : World V) :
    Balanced (w.source task.source).length succeeded w
      ((taskBody values task direction).eval (migExec values) w) := by
  have hfailed (e : MigError) (w₁ : World V) (h : Silent w w₁) :
      Balanced (w.source task.source).length succeeded w (.error e, w₁) :=
    .of_bad rfl (.of_eq h.stats)
  have hrest (w₁ : World V) (h : Silent w w₁) :
      Balanced (w.source task.source).length succeeded w
        ((copyRows values task direction).eval (migExec values) w₁) :=
    ((copyRows_balanced hwrites w₁).of_keeps (by rw [h.keeps.source])).after (.of_eq h.stats)
  rw [taskBody]
  refine eval_after_quiet (executeAll_quiet _) (fun _ w₁ h => ?_) hfailed
  split
  · refine eval_after_quiet rebuild_quiet (fun _ w₂ h' => ?_) fun e w₂ h' => ?_
    · exact hrest w₂ (h.trans h')
    · exact hfailed e w₂ (h.trans h')
  · exact hrest w₁ h

/-- A task, tried once. -/
theorem processTaskOnce_balanced (values : Values V) (direction : Direction)
    (hwrites : task.writes) (w : World V) :
    Balanced (w.source task.source).length succeeded w
      ((processTaskOnce values task direction).eval (migExec values) w) := by
  have hbody := taskBody_balanced values direction hwrites w
  rw [processTaskOnce, Prog.eval_handle]
  generalize (taskBody values task direction).eval (migExec values) w = out at hbody ⊢
  obtain ⟨e | success, w₁⟩ := out
  · refine eval_after_quiet (quiet_request fun n h => by cases h) (fun _ w₂ h => ?_)
      fun e w₂ h => ?_
    · refine Balanced.of_bad rfl ?_
      have hopen : Accounts 0 w.stats w₂.stats := by
        rw [h.stats]
        exact hbody
      exact hopen.trans (Accounts.error _ _)
    · refine Balanced.of_bad rfl ?_
      rw [h.stats]
      exact hbody
  · exact hbody

/-- **A task**, with its retries. -/
theorem processTask_balanced (values : Values V) (direction : Direction)
    (hwrites : task.writes) (n : ℕ) (w : World V) :
    Balanced (w.source task.source).length succeeded w
      ((retryOnConnectionError n (processTaskOnce values task direction)).eval
        (migExec values) w) := by
  induction n generalizing w with
  | zero => exact .of_bad rfl (.of_eq rfl)
  | succ n ih =>
      have honce := processTaskOnce_balanced values direction hwrites w
      have hkeeps := eval_keeps values (processTaskOnce values task direction) w
      rw [retryOnConnectionError, Prog.eval_handle]
      generalize (processTaskOnce values task direction).eval (migExec values) w = out
        at honce hkeeps ⊢
      obtain ⟨e | success, w₁⟩ := out
      · dsimp only
        split
        · exact ((ih w₁).of_keeps (by rw [hkeeps.source])).after honce
        · exact honce
      · exact honce

/-- The tasks in order, if none has failed. -/
theorem processTasks_accounts (tasks : List (Task V)) (hwrites : ∀ task ∈ tasks, task.writes)
    (w w' : World V)
    (h : (processTasks values direction tasks).eval (migExec values) w = (.ok 0, w')) :
    Accounts ((tasks.map fun task => (w.source task.source).length).sum) w.stats w'.stats := by
  induction tasks generalizing w w' with
  | nil =>
      obtain ⟨-, rfl⟩ := Prod.mk.inj h
      exact .of_eq rfl
  | cons task rest ih =>
      have hone := processTask_balanced values direction
        (hwrites task List.mem_cons_self) 3 w
      have hkeeps := eval_keeps values (processTask values task direction) w
      rw [processTasks, Prog.eval_bind] at h
      rw [← processTask] at hone
      generalize (processTask values task direction).eval (migExec values) w = out
        at h hone hkeeps
      obtain ⟨e | success, w₁⟩ := out
      · cases h
      · dsimp only at h hkeeps
        rw [Prog.eval_bind] at h
        generalize hrest : (processTasks values direction rest).eval (migExec values) w₁ = out' at h
        obtain ⟨e | failed, w₂⟩ := out'
        · cases h
        · obtain ⟨hfailed, rfl⟩ := Prod.mk.inj h
          have hfailed : (if success then failed else failed + 1) = 0 := Except.ok.inj hfailed
          cases success with
          | false => cases hfailed
          | true =>
              obtain rfl : failed = 0 := hfailed
              have hothers :=
                ih (fun task ht => hwrites task (List.mem_cons_of_mem _ ht)) w₁ w₂ hrest
              rw [List.map_cons, List.sum_cons]
              refine Accounts.trans hone ?_
              rw [hkeeps.source] at hothers
              exact hothers

/-- **What a migration counts.** If `migrate` reports success, then the rows it has counted and
those lost in the batches that failed are the rows of all sources together, and for every five
thousand rows that are lost, or a part of them, an error is logged. -/
theorem migrate_accounts (values : Values V) (tasks : List (Task V)) (direction : Direction)
    (w w' : World V) (hwrites : ∀ task ∈ tasks, task.writes)
    (h : (migrate values tasks direction).eval (migExec values) w = (.ok true, w')) :
    ∃ errors lost, w'.stats.errors = w.stats.errors ++ errors ∧
      w'.stats.handled + lost =
        w.stats.handled + (tasks.map fun task => (w.source task.source).length).sum ∧
      lost ≤ 5000 * errors.length := by
  rw [migrate, Prog.eval_handle, Prog.eval_bind] at h
  generalize hall : (processTasks values direction tasks).eval (migExec values) w = out at h
  obtain ⟨e | failed, w₁⟩ := out
  · cases h
  · obtain ⟨hzero, rfl⟩ := Prod.mk.inj h
    obtain rfl : failed = 0 := of_decide_eq_true (Except.ok.inj hzero)
    exact processTasks_accounts tasks hwrites w _ hall

/-! ### An example -/

/-- Whole numbers. -/
def exampleValues : Values ℤ where
  null := -1
  isNull v := v == -1
  emptyText := -2
  zero := 0
  zeroFloat := 0
  boolFalse := 0
  py a b := a == b
  sql a b := a == b
  unset _ _ := -1
  run _ tables := tables

/-- Two columns of the teams, and a constant. -/
def exampleTask : Task ℤ where
  name := "teams"
  source := "teams"
  target := "teams"
  pk := ["id"]
  mode := "upsert"
  columns := [("id", ⟨some "id", none⟩), ("bracket_id", ⟨some "bracket_id", none⟩),
    ("hidden", ⟨none, some 0⟩)]
  preSQL := ["SET FOREIGN_KEY_CHECKS=0"]
  postSQL := ["SET FOREIGN_KEY_CHECKS=1"]

/-- A team. -/
def exampleRow (id bracket : ℤ) : Row ℤ := fun column =>
  if column = "id" then id else if column = "bracket_id" then bracket else 0

/-- Two teams, one of which is there already, with another bracket. -/
def exampleWorld (outcomes : ℕ → Outcome) : World ℤ where
  sourceColumns _ := ["id", "bracket_id"]
  source table := if table = "teams" then [exampleRow 1 5, exampleRow 2 6] else []
  targetColumns _ := [⟨"id", "INT", false, false, false⟩, ⟨"bracket_id", "INT", true, false, false⟩,
    ⟨"hidden", "BOOL", false, false, false⟩]
  target table := if table = "teams" then [exampleRow 2 7] else []
  committed table := if table = "teams" then [exampleRow 2 7] else []
  foreignKey := false
  stats := ⟨0, 0, 0, 0, []⟩
  outcomes := outcomes
  tick := 0

/-- Its migration. -/
def exampleRun (outcomes : ℕ → Outcome) : Except MigError Bool × World ℤ :=
  (migrate exampleValues [exampleTask] .ctfdToFctf).eval (migExec exampleValues)
    (exampleWorld outcomes)

/-- The connection is lost. -/
def lostConnection : DbError := ⟨true, "(2013, 'Lost connection')", some 2013⟩

/-- A batch is lost, and the migration reports success. -/
theorem migrate_accounts_example :
    (exampleRun fun n => if n = 6 then .broken 1 false lostConnection else .fine).1 = .ok true ∧
      ∃ errors lost,
        (exampleRun fun n => if n = 6 then .broken 1 false lostConnection
          else .fine).2.stats.errors = [] ++ errors ∧
        (exampleRun fun n => if n = 6 then .broken 1 false lostConnection
          else .fine).2.stats.handled + lost = 0 + 2 ∧
        lost ≤ 5000 * errors.length := by
  have hrun : (exampleRun fun n => if n = 6 then .broken 1 false lostConnection else .fine).1 =
      .ok true := by decide +kernel
  refine ⟨hrun, migrate_accounts exampleValues [exampleTask] .ctfdToFctf
    (exampleWorld fun n => if n = 6 then .broken 1 false lostConnection else .fine) _ ?_
    (Prod.ext hrun rfl)⟩
  intro task htask
  rw [List.mem_singleton.mp htask]
  exact .inr rfl

end Migrator

end Fctf
