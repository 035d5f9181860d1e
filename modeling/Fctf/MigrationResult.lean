import Fctf.MigrationCounts
import Fctf.MigrationUpserts

/-!
# What a Migration Leaves

A migration that reports success and has logged no error has upserted the mapped rows of every task
into its table and committed them, whatever has failed and was tried again in between. A second one
finds nothing to change.

On the way the tables are always before or after the upsert of a task, so that the task may be
interrupted at a commit that was done and not acknowledged, and be tried again.

## Main results

* `migrate_upserts`: the tables afterwards.
* `migrate_again`: the second time all rows are counted as unchanged.
-/

open Concurrent

namespace Fctf

namespace Migrator

variable {V : Type} {values : Values V} {w w' : World V} {α : Type} {task : Task V}
  {direction : Direction} {isKey : V → Prop}

/-! ### Errors that are logged -/

/-- What is logged stays. -/
theorem errors_eval (values : Values V) (p : Prog (migI V) MigError α) (w : World V) :
    w.stats.errors <+: (p.eval (migExec values) w).2.stats.errors := by
  refine (Prog.Throughout.of_forall (φ := fun _ => True) (fun _ => trivial) p).eval
    (J := fun w' : World V => w.stats.errors <+: w'.stats.errors) (List.prefix_refl _)
      fun o s _ h => ?_
  by_cases ho : ∃ n, o = .note n
  · obtain ⟨n, rfl⟩ := ho
    change _ <+: (s.stats.add n).errors
    cases n with
    | error message => exact h.trans (List.prefix_append _ _)
    | rows n => exact h
    | counts inserted updated unchanged => exact h
  · change _ <+: (MigOp.exec values o s).2.stats.errors
    rwa [(exec_silent values o s fun n hn => ho ⟨n, hn⟩).stats]

/-- Between two states without a new error no error is logged. -/
theorem errors_between {l l₁ l₂ : List String} (h : l <+: l₁) (h' : l₁ <+: l₂) (hsame : l₂ = l) :
    l₁ = l :=
  (h.eq_of_length_le (hsame ▸ h'.length_le)).symm

/-! ### Before or after -/

/-- Is the table built anew on the way? -/
def Rebuilt (direction : Direction) (table : String) : Prop :=
  table = "dynamic_challenge" ∧ direction = .fctfToCtfd

/-- The tables agree, those that are built anew aside. -/
def Agree (direction : Direction) (a b : String → List (Row V)) : Prop :=
  ∀ table, ¬Rebuilt direction table → a table = b table

variable {before after a b c : String → List (Row V)}

theorem Agree.refl (a : String → List (Row V)) : Agree direction a a := fun _ _ => rfl

theorem Agree.trans (h : Agree direction a b) (h' : Agree direction b c) : Agree direction a c :=
  fun table ht => (h table ht).trans (h' table ht)

/-- A table that is built anew does not count. -/
theorem Agree.update {table : String} (ht : Rebuilt direction table) (rows : List (Row V))
    (h : Agree direction a b) : Agree direction (Function.update a table rows) b := by
  intro other hother
  have hne : other ≠ table := by
    rintro rfl
    exact hother ht
  rw [Function.update_of_ne hne]
  exact h other hother

/-- The target, and what is committed of it, are as before or as after. -/
structure Between (direction : Direction) (before after : String → List (Row V)) (w : World V) :
    Prop where
  target : Agree direction w.target before ∨ Agree direction w.target after
  committed : Agree direction w.committed before ∨ Agree direction w.committed after

theorem Between.of_after (h : Between direction after after w) :
    Between direction before after w :=
  ⟨.inr (or_self_iff.mp h.target), .inr (or_self_iff.mp h.committed)⟩

theorem Between.rollback (h : Between direction before after w) :
    Between direction before after w.rollback :=
  ⟨h.committed, h.committed⟩

theorem Between.commit (h : Between direction before after w) :
    Between direction before after w.commit :=
  ⟨h.target, h.target⟩

theorem Between.withTable {table : String} (ht : Rebuilt direction table) (rows : List (Row V))
    (h : Between direction before after w) :
    Between direction before after (w.withTable table rows) :=
  ⟨h.target.imp (·.update ht rows) (·.update ht rows), h.committed⟩

/-- The operations that change no table but one that is built anew, as far as the SQL of a mapping
does not, and count no row. -/
def Harmless (values : Values V) (direction : Direction) : MigOp V → Prop
  | .execute sql => ∀ tables, values.run sql tables = tables
  | .insert table _ => Rebuilt direction table
  | .update table _ _ => Rebuilt direction table
  | .dropDynamicChallenge => direction = .fctfToCtfd
  | .note (.counts _ _ _) => False
  | _ => True

/-- The counts of the rows that were written. -/
def SameWrites (s s' : Stats) : Prop :=
  s'.insertedRows = s.insertedRows ∧ s'.updatedRows = s.updatedRows

theorem SameWrites.trans {s s₁ s₂ : Stats} (h : SameWrites s s₁) (h' : SameWrites s₁ s₂) :
    SameWrites s s₂ :=
  ⟨h'.1.trans h.1, h'.2.trans h.2⟩

/-- A harmless operation leaves the tables before or after. -/
theorem Between.exec {o : MigOp V} (ho : Harmless values direction o)
    (h : Between direction before after w) :
    Between direction before after (o.exec values w).2 := by
  have hrollback (w' : World V)
      (hw : Between direction before after w → Between direction before after w') :
      Between direction before after w → Between direction before after w'.rollback :=
    fun hb => (hw hb).rollback
  have htick (w' : World V) (n : ℕ)
      (hw : Between direction before after w → Between direction before after w') :
      Between direction before after w → Between direction before after { w' with tick := n } :=
    fun hb => ⟨(hw hb).target, (hw hb).committed⟩
  have hstatement (g : World V → World V)
      (hg : Between direction before after w → Between direction before after (g w)) :
      Between direction before after (w.statement₁ g).2 :=
    statement₁_keeps (J := fun w w' => Between direction before after w →
      Between direction before after w') id hg hrollback htick h
  have hquery {β : Type} (g : World V → β) : Between direction before after (w.query g).2 :=
    query_keeps (J := fun w w' => Between direction before after w →
      Between direction before after w') id hrollback htick h
  cases o with
  | execute sql =>
      refine hstatement _ fun hb => ⟨?_, hb.committed⟩
      change Agree direction (values.run sql w.target) _ ∨
        Agree direction (values.run sql w.target) _
      rw [ho w.target]
      exact hb.target
  | commit => exact hstatement _ fun hb => hb.commit
  | rollback => exact hstatement _ fun hb => hb.rollback
  | reflectSource table => exact hquery _
  | reflectTarget table => exact hquery _
  | select table => exact hquery _
  | insert table rows =>
      exact statement_keeps (J := fun w w' => Between direction before after w →
        Between direction before after w') (fun hb => hb.withTable ho _)
          (fun _ hb => hb.withTable ho _) hrollback htick h
  | find table conditions => exact hquery _
  | update table condition data => exact hstatement _ fun hb => hb.withTable ho _
  | setForeignKeyChecks on => exact hstatement _ id
  | dropDynamicChallenge =>
      refine hstatement _ fun hb => ?_
      have hdone := (hb.commit.withTable ⟨rfl, ho⟩ []).commit
      exact ⟨hdone.target, hdone.committed⟩
  | createDynamicChallenge => exact hstatement _ fun hb => ⟨hb.commit.target, hb.commit.committed⟩
  | countForeignKeys => exact hquery _
  | existingIds ids => exact hquery _
  | note n => exact ⟨h.target, h.committed⟩

/-- It counts no row. -/
theorem sameWrites_exec {o : MigOp V} (ho : Harmless values direction o) (w : World V) :
    SameWrites w.stats (o.exec values w).2.stats := by
  by_cases hnote : ∃ n, o = .note n
  · obtain ⟨n, rfl⟩ := hnote
    cases n with
    | rows n => exact ⟨rfl, rfl⟩
    | error message => exact ⟨rfl, rfl⟩
    | counts inserted updated unchanged => exact ho.elim
  · rw [(exec_silent values o w fun n hn => hnote ⟨n, hn⟩).stats]
    exact ⟨rfl, rfl⟩

/-- What a harmless program leaves. -/
theorem eval_harmless {p : Prog (migI V) MigError α} (hp : p.Throughout (Harmless values direction))
    (hw : Between direction before after w) :
    Between direction before after (p.eval (migExec values) w).2 ∧
      SameWrites w.stats (p.eval (migExec values) w).2.stats := by
  refine ⟨hp.eval hw fun o s ho hs => hs.exec ho, ?_⟩
  exact hp.eval (J := fun w' : World V => SameWrites w.stats w'.stats) ⟨rfl, rfl⟩
    fun o s ho hs => hs.trans (sameWrites_exec ho s)

/-- What a program delivers if it has logged no error: the tables are before or after; rows are
counted as written only if it is `busy`; and if it returns what it should, the tables are after. -/
structure Delivers (direction : Direction) (before after : String → List (Row V)) (busy : Prop)
    (good : Except MigError α → Bool) (w : World V) (out : Except MigError α × World V) : Prop where
  between : out.2.stats.errors = w.stats.errors → Between direction before after out.2
  idle : out.2.stats.errors = w.stats.errors → ¬busy → SameWrites w.stats out.2.stats
  done : out.2.stats.errors = w.stats.errors → good out.1 = true →
    Between direction after after out.2

variable {busy : Prop}

/-- What follows a part is only asked for if that has logged no error. -/
theorem Delivers.later {good : Except MigError α → Bool} {w₁ : World V}
    {out : Except MigError α × World V} (hlogged : w.stats.errors <+: w₁.stats.errors)
    (hlater : w₁.stats.errors <+: out.2.stats.errors)
    (h : w₁.stats.errors = w.stats.errors → (¬busy → SameWrites w.stats w₁.stats) ∧
      Delivers direction before after busy good w₁ out) :
    Delivers direction before after busy good w out where
  between hsame := by
    have hcalm := errors_between hlogged hlater hsame
    exact (h hcalm).2.between (hsame.trans hcalm.symm)
  idle hsame hidle := by
    have hcalm := errors_between hlogged hlater hsame
    exact ((h hcalm).1 hidle).trans ((h hcalm).2.idle (hsame.trans hcalm.symm) hidle)
  done hsame := by
    have hcalm := errors_between hlogged hlater hsame
    exact (h hcalm).2.done (hsame.trans hcalm.symm)

/-- A program that starts where the tables are as after. -/
theorem Delivers.of_after {good : Except MigError α → Bool} {out : Except MigError α × World V}
    (h : Delivers direction after after busy good w out) :
    Delivers direction before after busy good w out where
  between hsame := (h.between hsame).of_after
  idle := h.idle
  done := h.done

/-- A harmless part, and what follows it. -/
theorem eval_after_harmless {β : Type} {p : Prog (migI V) MigError α}
    {f : α → Prog (migI V) MigError β} {good : Except MigError β → Bool}
    (hp : p.Throughout (Harmless values direction)) (hbad : ∀ e, good (.error e) = false)
    (hw : Between direction before after w)
    (hok : ∀ a w₁, p.eval (migExec values) w = (.ok a, w₁) → Keeps w w₁ →
      Between direction before after w₁ →
        Delivers direction before after busy good w₁ ((f a).eval (migExec values) w₁)) :
    Delivers direction before after busy good w ((p >>= f).eval (migExec values) w) := by
  obtain ⟨hbetween, hwrites⟩ := eval_harmless hp hw
  have hkeeps := eval_keeps values p w
  have herrors := errors_eval values p w
  rw [Prog.eval_bind]
  generalize hout : p.eval (migExec values) w = out at hbetween hwrites hkeeps herrors
  obtain ⟨e | a, w₁⟩ := out
  · refine ⟨fun _ => hbetween, fun _ _ => hwrites, fun _ h => ?_⟩
    rw [hbad e] at h
    cases h
  · exact .later herrors (errors_eval values (f a) w₁)
      fun _ => ⟨fun _ => hwrites, hok a w₁ hout hkeeps hbetween⟩

/-- What follows the batches of a task, if none of them was logged. -/
theorem Delivers.of_batches {columns : List String} {size lost : ℕ} {rows : List (Data V)}
    {counts result : BatchResult} {w₁ : World V} {errors : List String}
    {good : Except MigError α → Bool} {out : Except MigError α × World V}
    (hrun : RowsRun values task columns size rows counts w result w₁ errors lost)
    (hlater : w₁.stats.errors <+: out.2.stats.errors)
    (h : errors = [] → Delivers direction before after busy good w₁ out) :
    Delivers direction before after busy good w out := by
  have hlogged : w.stats.errors <+: w₁.stats.errors := by
    rw [hrun.stats]
    exact List.prefix_append _ _
  refine .later hlogged hlater fun hcalm => ?_
  rw [hrun.stats] at hcalm
  refine ⟨fun _ => ?_, h (List.append_right_eq_self.mp hcalm)⟩
  rw [hrun.stats]
  exact ⟨rfl, rfl⟩

theorem harmless_of_rebuilds {o : MigOp V} (ho : Rebuilds o) :
    Harmless values .fctfToCtfd o := by
  cases o with
  | insert table rows => exact ⟨ho, rfl⟩
  | dropDynamicChallenge => exact rfl
  | execute sql => exact ho.elim
  | update table condition data => exact ho.elim
  | note n => exact ho.elim
  | _ => exact trivial

/-- The foreign key is not seen to, or `dynamic_challenge` is built anew. -/
theorem ensureDynamicChallengeFk_harmless (direction : Direction) (rows : List (Data V)) :
    (ensureDynamicChallengeFk values direction rows).Throughout (Harmless values direction) := by
  cases direction with
  | fctfToCtfd =>
      exact (ensureDynamicChallengeFk_throughout .fctfToCtfd rows).mono
        fun _ => harmless_of_rebuilds
  | ctfdToFctf => exact trivial

theorem executeAll_harmless {sqls : List String}
    (h : ∀ sql ∈ sqls, ∀ tables, values.run sql tables = tables) :
    (executeAll sqls : Prog (migI V) MigError Unit).Throughout (Harmless values direction) :=
  executeAll_throughout trivial h

/-- A commit that succeeds. -/
theorem commit_ok {u : Unit} {w₁ : World V}
    (h : (Session.commit : Prog (migI V) MigError Unit).eval (migExec values) w = (.ok u, w₁)) :
    w₁.target = w.target ∧ w₁.committed = w.target := by
  have heval : (Session.commit : Prog (migI V) MigError Unit).eval (migExec values) w =
      w.statement₁ World.commit := rfl
  rw [heval, World.statement₁] at h
  rcases statement_cases (fun _ => ()) World.commit
    (fun done w => if done = 0 then w else w.commit) w with h' | ⟨done, dropped, e, h'⟩
  · rw [h'] at h
    obtain ⟨-, rfl⟩ := Prod.mk.inj h
    exact ⟨rfl, rfl⟩
  · rw [h'] at h
    cases h

/-- A query that succeeds. -/
theorem query_ok {answer : World V → α} {a : α} {w₁ : World V}
    (h : w.query answer = (.ok a, w₁)) : a = answer w := by
  rw [World.query] at h
  rcases statement_cases answer id (fun _ w => w) w with
    h' | ⟨done, dropped, e, h'⟩
  · rw [h'] at h
    exact (Except.ok.inj (Prod.mk.inj h).1).symm
  · rw [h'] at h
    cases h

theorem eval_reflectSource (table : String) (w : World V) :
    (Session.reflectSource table).eval (migExec values) w = w.query (·.sourceColumns table) := rfl

theorem eval_reflectTarget (table : String) (w : World V) :
    (Session.reflectTarget table).eval (migExec values) w = w.query (·.targetColumns table) := rfl

theorem eval_select (table : String) (w : World V) :
    (Session.select table).eval (migExec values) w = w.query (·.source table) := rfl

/-! ### A task -/

section Tasks

variable [DecidableEq V] {tables : String → List (Row V)}

/-- The columns of the target of a task. -/
def taskColumns (task : Task V) (w : World V) : List String :=
  (w.targetColumns task.target).map (·.name)

/-- The mapped rows of a task. -/
def taskData (values : Values V) (task : Task V) (w : World V) : List (Data V) :=
  (w.source task.source).map
    (targetData values task (w.sourceColumns task.source) (w.targetColumns task.target))

/-- The upsert of a task. -/
def taskRows (values : Values V) (task : Task V) (w : World V) (rows : List (Row V)) :
    List (Row V) :=
  (scheme values task.target task.pk (taskColumns task w)).rows (taskData values task w) rows

/-- The tables after a task. -/
def afterTask (values : Values V) (task : Task V) (w : World V) (tables : String → List (Row V)) :
    String → List (Row V) :=
  Function.update tables task.target (taskRows values task w (tables task.target))

/-- What a task can rely on. -/
structure Prepared (values : Values V) (isKey : V → Prop) (task : Task V) (w : World V)
    (rows : List (Row V)) : Prop where
  mode : task.mode = "upsert"
  sound : Sound values task.pk isKey (taskData values task w) rows

/-- May rows be written by a task? -/
def Busy (values : Values V) (direction : Direction) (task : Task V) (w : World V)
    (tables : String → List (Row V)) : Prop :=
  Rebuilt direction task.target ∨
    taskRows values task w (tables task.target) ≠ tables task.target

omit [DecidableEq V] in
theorem flatten_taskData (values : Values V) (task : Task V) (w : World V) :
    (chunks 5000 (taskData values task w) []).flatten = taskData values task w :=
  flatten_chunks 5000 _ []

/-- Either way the other tables are as before. -/
theorem agree_of_ne {table : String} (hne : table ≠ task.target) (ht : ¬Rebuilt direction table)
    (h : Agree direction w.target tables ∨
      Agree direction w.target (afterTask values task w' tables)) :
    w.target table = tables table := by
  rcases h with h | h
  · exact h table ht
  · rw [h table ht, afterTask, Function.update_of_ne hne]

/-- **The batches of a task**, without an error. -/
theorem RowsRun.agree {result : BatchResult} {w₀ w₁ : World V} {lost : ℕ}
    (hrun : RowsRun values task (taskColumns task w₀) 5000 (taskData values task w₀) ⟨0, 0, 0⟩ w
      result w₁ [] lost)
    (hprepared : ¬Rebuilt direction task.target →
      Prepared values isKey task w₀ (tables task.target))
    (hw : Agree direction w.target tables ∨
      Agree direction w.target (afterTask values task w₀ tables)) :
    Agree direction w₁.target (afterTask values task w₀ tables) := by
  obtain ⟨-, hdone⟩ := hrun.done rfl
  intro table ht
  by_cases hne : table = task.target
  · subst hne
    obtain ⟨hmode, hsound⟩ := hprepared ht
    have hrows (rows : List (Row V))
        (h : Sound values task.pk isKey (taskData values task w₀) rows) :
        (batchesDone values task (taskColumns task w₀) ⟨0, 0, 0⟩ rows
          (chunks 5000 (taskData values task w₀) [])).2 = taskRows values task w₀ rows := by
      rw [← flatten_taskData values task w₀] at h
      rw [batchesDone_eq hmode _ _ h, flatten_taskData, taskRows]
    rw [hdone, Function.update_self, afterTask, Function.update_self]
    rcases hw with hw | hw
    · rw [hw _ ht, hrows _ hsound]
    · rw [hw _ ht, afterTask, Function.update_self]
      refine (hrows _ hsound.again).trans ?_
      exact Upsert.rows_rows (scheme_lawful values task.target task.pk _ isKey) hsound.data
        hsound.keys hsound.rowKeys
  · rw [hdone, Function.update_of_ne hne, agree_of_ne hne ht hw, afterTask,
      Function.update_of_ne hne]

/-- A task with nothing to do counts no row as written. -/
theorem RowsRun.idle {result : BatchResult} {w₀ w₁ : World V} {lost : ℕ}
    (hrun : RowsRun values task (taskColumns task w₀) 5000 (taskData values task w₀) ⟨0, 0, 0⟩ w
      result w₁ [] lost)
    (hprepared : ¬Rebuilt direction task.target →
      Prepared values isKey task w₀ (tables task.target))
    (hw : Agree direction w.target tables ∨
      Agree direction w.target (afterTask values task w₀ tables))
    (hidle : ¬Busy values direction task w₀ tables) : result.inserted = 0 ∧ result.updated = 0 := by
  obtain ⟨ht, hsame⟩ := not_or.mp hidle
  have hsame := not_not.mp hsame
  obtain ⟨hmode, hsound⟩ := hprepared ht
  obtain ⟨hresult, -⟩ := hrun.done rfl
  have hrows : w.target task.target = tables task.target := by
    rcases hw with hw | hw
    · exact hw _ ht
    · rw [hw _ ht, afterTask, Function.update_self, hsame]
  have hsettled (d : Data V) (hd : d ∈ taskData values task w₀) :
      (scheme values task.target task.pk (taskColumns task w₀)).Settled (tables task.target) d := by
    have h : (scheme values task.target task.pk (taskColumns task w₀)).Settled
        (taskRows values task w₀ (tables task.target)) d :=
      Upsert.settled_of_mem (scheme_lawful values task.target task.pk _ isKey) hsound.data
        hsound.keys hd
    rwa [hsame] at h
  rw [← flatten_taskData values task w₀] at hsound hsettled
  rw [hrows, batchesDone_of_settled hmode _ _ hsound hsettled] at hresult
  rw [hresult]
  exact ⟨rfl, rfl⟩

/-- **The batches of a task and what follows them.** -/
theorem migrateRows_delivers {w₀ : World V}
    (hpost : ∀ sql ∈ task.postSQL, ∀ tables, values.run sql tables = tables)
    (hprepared : ¬Rebuilt direction task.target →
      Prepared values isKey task w₀ (tables task.target))
    (hw : Between direction tables (afterTask values task w₀ tables) w) :
    Delivers direction tables (afterTask values task w₀ tables)
      (Busy values direction task w₀ tables)
      Except.isOk w ((migrateRows values task direction (w₀.sourceColumns task.source)
        (w₀.targetColumns task.target) (w₀.source task.source)).eval (migExec values) w) := by
  obtain ⟨counts, w₁, errors, lost, heval, hrun⟩ := eval_processRows values task
    (taskColumns task w₀) 5000 (taskData values task w₀) [] (Nat.zero_lt_succ _)
    ⟨0, 0, 0⟩ w
  rw [List.nil_append] at hrun
  rw [migrateRows, Prog.eval_bind]
  have heval' := heval
  rw [taskColumns, taskData] at heval'
  rw [heval']
  dsimp only
  refine Delivers.of_batches hrun (errors_eval values _ w₁) fun hnone => ?_
  subst hnone
  have htarget := hrun.agree hprepared hw.target
  have hbetween : Between direction tables (afterTask values task w₀ tables) w₁ :=
    ⟨.inr htarget, by rw [hrun.within.committed]; exact hw.committed⟩
  have hbad (e : MigError) : Except.isOk (.error e : Except MigError Unit) = false := rfl
  refine eval_after_harmless (throughout_request trivial) hbad hbetween
    fun _ w₂ hcommit _ _ => Delivers.of_after ?_
  obtain ⟨htarget₂, hcommitted₂⟩ := commit_ok hcommit
  have hdone : Between direction (afterTask values task w₀ tables)
      (afterTask values task w₀ tables) w₂ :=
    ⟨.inl (by rw [htarget₂]; exact htarget), .inl (by rw [hcommitted₂]; exact htarget)⟩
  have hnoted (w' : World V) (h : Between direction (afterTask values task w₀ tables)
      (afterTask values task w₀ tables) w') :
      Delivers direction (afterTask values task w₀ tables) (afterTask values task w₀ tables)
        (Busy values direction task w₀ tables) Except.isOk w'
        ((note (.counts counts.inserted counts.updated counts.unchanged)).eval
          (migExec values) w') := by
    refine ⟨fun _ => ⟨h.target, h.committed⟩, fun _ hidle => ?_, fun _ _ => ⟨h.target, h.committed⟩⟩
    obtain ⟨hinserted, hupdated⟩ := hrun.idle hprepared hw.target hidle
    rw [eval_note, hinserted, hupdated]
    exact ⟨rfl, rfl⟩
  refine eval_after_harmless (executeAll_harmless hpost) hbad hdone fun _ w₃ _ _ hdone => ?_
  split
  · exact eval_after_harmless (ensureDynamicChallengeFk_harmless _ _) hbad hdone
      fun _ w₄ _ _ hdone => hnoted w₄ hdone
  · exact hnoted w₃ hdone

/-- **The rows of a task.** -/
theorem copyRows_delivers {w₀ : World V} (hkeeps : Keeps w₀ w)
    (hpost : ∀ sql ∈ task.postSQL, ∀ tables, values.run sql tables = tables)
    (hprepared : ¬Rebuilt direction task.target →
      Prepared values isKey task w₀ (tables task.target))
    (hw : Between direction tables (afterTask values task w₀ tables) w) :
    Delivers direction tables (afterTask values task w₀ tables)
      (Busy values direction task w₀ tables)
      succeeded w ((copyRows values task direction).eval (migExec values) w) := by
  have hbad (e : MigError) : succeeded (.error e) = false := rfl
  refine eval_after_harmless (throughout_request trivial) hbad hw
    fun sourceColumns w₁ h h₁ hw₁ => ?_
  obtain rfl : sourceColumns = w₀.sourceColumns task.source :=
    (query_ok ((eval_reflectSource _ _).symm.trans h)).trans (congrFun hkeeps.sourceColumns _)
  have hkeeps₁ := hkeeps.trans h₁
  refine eval_after_harmless (throughout_request trivial) hbad hw₁
    fun targetColumns w₂ h h₂ hw₂ => ?_
  obtain rfl : targetColumns = w₀.targetColumns task.target :=
    (query_ok ((eval_reflectTarget _ _).symm.trans h)).trans (congrFun hkeeps₁.targetColumns _)
  have hkeeps₂ := hkeeps₁.trans h₂
  refine eval_after_harmless (throughout_request trivial) hbad hw₂ fun rows w₃ h h₃ hw₃ => ?_
  obtain rfl : rows = w₀.source task.source :=
    (query_ok ((eval_select _ _).symm.trans h)).trans (congrFun hkeeps₂.source _)
  refine eval_after_harmless (throughout_request trivial) hbad hw₃ fun _ w₄ _ h₄ hw₄ => ?_
  split
  · next hempty =>
      have hdone (table : String) (ht : ¬Rebuilt direction table) :
          afterTask values task w₀ tables table = tables table := by
        by_cases hne : table = task.target
        · subst hne
          rw [afterTask, Function.update_self, taskRows, taskData, List.isEmpty_iff.mp hempty]
          exact Upsert.rows_nil _
        · rw [afterTask, Function.update_of_ne hne]
      have hafter {current : String → List (Row V)} (h : Agree direction current tables ∨
          Agree direction current (afterTask values task w₀ tables)) :
          Agree direction current (afterTask values task w₀ tables) := by
        rcases h with h | h
        · exact h.trans fun table ht => (hdone table ht).symm
        · exact h
      exact ⟨fun _ => hw₄, fun _ _ => ⟨rfl, rfl⟩,
        fun _ _ => ⟨.inl (hafter hw₄.target), .inl (hafter hw₄.committed)⟩⟩
  · have hrows := migrateRows_delivers hpost hprepared hw₄
    rw [Prog.eval_bind]
    generalize (migrateRows values task direction (w₀.sourceColumns task.source)
      (w₀.targetColumns task.target) (w₀.source task.source)).eval (migExec values) w₄ = out
      at hrows ⊢
    obtain ⟨e | _, w₅⟩ := out
    · exact ⟨hrows.between, hrows.idle, fun _ h => by cases h⟩
    · exact ⟨hrows.between, hrows.idle, fun hsame _ => hrows.done hsame rfl⟩

/-- The body of a task. -/
theorem taskBody_delivers {w₀ : World V} (hkeeps : Keeps w₀ w)
    (hpre : ∀ sql ∈ task.preSQL, ∀ tables, values.run sql tables = tables)
    (hpost : ∀ sql ∈ task.postSQL, ∀ tables, values.run sql tables = tables)
    (hprepared : ¬Rebuilt direction task.target →
      Prepared values isKey task w₀ (tables task.target))
    (hw : Between direction tables (afterTask values task w₀ tables) w) :
    Delivers direction tables (afterTask values task w₀ tables)
      (Busy values direction task w₀ tables)
      succeeded w ((taskBody values task direction).eval (migExec values) w) := by
  have hbad (e : MigError) : succeeded (.error e) = false := rfl
  refine eval_after_harmless (executeAll_harmless hpre) hbad hw fun _ w₁ _ h₁ hw₁ => ?_
  split
  · next hdynamic =>
      obtain ⟨-, rfl⟩ := hdynamic
      exact eval_after_harmless (rebuild_throughout.mono fun _ => harmless_of_rebuilds) hbad hw₁
        fun _ w₂ _ h₂ hw₂ => copyRows_delivers ((hkeeps.trans h₁).trans h₂) hpost hprepared hw₂
  · exact copyRows_delivers (hkeeps.trans h₁) hpost hprepared hw₁

/-- A task that is tried once. -/
theorem processTaskOnce_delivers {w₀ : World V} (hkeeps : Keeps w₀ w)
    (hpre : ∀ sql ∈ task.preSQL, ∀ tables, values.run sql tables = tables)
    (hpost : ∀ sql ∈ task.postSQL, ∀ tables, values.run sql tables = tables)
    (hprepared : ¬Rebuilt direction task.target →
      Prepared values isKey task w₀ (tables task.target))
    (hw : Between direction tables (afterTask values task w₀ tables) w) :
    Delivers direction tables (afterTask values task w₀ tables)
      (Busy values direction task w₀ tables)
      succeeded w ((processTaskOnce values task direction).eval (migExec values) w) := by
  have hbody := taskBody_delivers hkeeps hpre hpost hprepared hw
  have hlogged := errors_eval values (taskBody values task direction) w
  rw [processTaskOnce, Prog.eval_handle]
  generalize (taskBody values task direction).eval (migExec values) w = out at hbody hlogged ⊢
  obtain ⟨e | success, w₁⟩ := out
  swap
  · exact hbody
  dsimp only at hlogged ⊢
  have hrest := errors_eval values (Session.rollback >>= fun _ =>
    note (.error ("Task '" ++ task.name ++ "' failed: " ++ e.text)) >>= fun _ => pure false) w₁
  refine .later hlogged hrest fun hcalm => ⟨hbody.idle hcalm, ?_⟩
  refine eval_after_harmless (throughout_request trivial) (fun _ => rfl) (hbody.between hcalm)
    fun _ w₂ _ _ hw₂ => ?_
  exact ⟨fun _ => ⟨hw₂.target, hw₂.committed⟩, fun _ _ => ⟨rfl, rfl⟩, fun _ h => by cases h⟩

/-- **A task**, with its retries. -/
theorem processTask_delivers {w₀ : World V} (hkeeps : Keeps w₀ w)
    (hpre : ∀ sql ∈ task.preSQL, ∀ tables, values.run sql tables = tables)
    (hpost : ∀ sql ∈ task.postSQL, ∀ tables, values.run sql tables = tables)
    (hprepared : ¬Rebuilt direction task.target →
      Prepared values isKey task w₀ (tables task.target)) (n : ℕ)
    (hw : Between direction tables (afterTask values task w₀ tables) w) :
    Delivers direction tables (afterTask values task w₀ tables)
      (Busy values direction task w₀ tables)
      succeeded w ((retryOnConnectionError n (processTaskOnce values task direction)).eval
        (migExec values) w) := by
  induction n generalizing w with
  | zero => exact ⟨fun _ => hw, fun _ _ => ⟨rfl, rfl⟩, fun _ h => by cases h⟩
  | succ n ih =>
      have honce := processTaskOnce_delivers hkeeps hpre hpost hprepared hw
      have hlogged := errors_eval values (processTaskOnce values task direction) w
      have hkept := eval_keeps values (processTaskOnce values task direction) w
      rw [retryOnConnectionError, Prog.eval_handle]
      generalize (processTaskOnce values task direction).eval (migExec values) w = out
        at honce hlogged hkept ⊢
      obtain ⟨e | success, w₁⟩ := out
      swap
      · exact honce
      dsimp only at hlogged hkept ⊢
      split
      swap
      · exact honce
      have hrest := errors_eval values
        (retryOnConnectionError n (processTaskOnce values task direction)) w₁
      exact .later hlogged hrest fun hcalm =>
        ⟨honce.idle hcalm, ih (hkeeps.trans hkept) (honce.between hcalm)⟩

/-! ### The tasks -/

/-- What a migration can rely on. -/
structure Migratable (values : Values V) (isKey : V → Prop) (direction : Direction)
    (tasks : List (Task V)) (w : World V) (tables : String → List (Row V)) : Prop where
  targets : (tasks.map Task.target).Nodup
  preSQL : ∀ task ∈ tasks, ∀ sql ∈ task.preSQL, ∀ tables, values.run sql tables = tables
  postSQL : ∀ task ∈ tasks, ∀ sql ∈ task.postSQL, ∀ tables, values.run sql tables = tables
  prepared : ∀ task ∈ tasks, ¬Rebuilt direction task.target →
    Prepared values isKey task w (tables task.target)

/-- The tables after some tasks. -/
def afterTasks (values : Values V) (w : World V) (tasks : List (Task V))
    (tables : String → List (Row V)) : String → List (Row V) :=
  tasks.foldl (fun tables task => afterTask values task w tables) tables

theorem afterTasks_cons (rest : List (Task V)) :
    afterTasks values w (task :: rest) tables =
      afterTasks values w rest (afterTask values task w tables) := rfl

theorem afterTask_of_ne {table : String} (hne : table ≠ task.target) :
    afterTask values task w tables table = tables table := by
  rw [afterTask, Function.update_of_ne hne]

/-- Other tables stay as they are. -/
theorem afterTasks_of_none {tasks : List (Task V)} {table : String}
    (h : ∀ task ∈ tasks, task.target ≠ table) :
    afterTasks values w tasks tables table = tables table := by
  induction tasks generalizing tables with
  | nil => rfl
  | cons task rest ih =>
      rw [afterTasks_cons, ih fun task ht => h task (List.mem_cons_of_mem _ ht)]
      exact afterTask_of_ne (h task List.mem_cons_self).symm

/-- The table of a task. -/
theorem afterTasks_of_mem {tasks : List (Task V)} (htargets : (tasks.map Task.target).Nodup)
    (ht : task ∈ tasks) : afterTasks values w tasks tables task.target =
      taskRows values task w (tables task.target) := by
  induction tasks generalizing tables with
  | nil => cases ht
  | cons first rest ih =>
      rw [List.map_cons, List.nodup_cons] at htargets
      rcases List.mem_cons.mp ht with rfl | ht
      · have hrest : ∀ other ∈ rest, other.target ≠ task.target :=
          fun other ho heq => htargets.1 (heq ▸ List.mem_map_of_mem ho)
        rw [afterTasks_cons, afterTasks_of_none hrest, afterTask, Function.update_self]
      · have hne : task.target ≠ first.target :=
          fun heq => htargets.1 (heq ▸ List.mem_map_of_mem ht)
        rw [afterTasks_cons, ih htargets.2 ht, afterTask_of_ne hne]

/-- After the first task the others can rely on the same. -/
theorem Migratable.tail {rest : List (Task V)} {w : World V}
    (h : Migratable values isKey direction (task :: rest) w tables) :
    Migratable values isKey direction rest w (afterTask values task w tables) where
  targets := (List.nodup_cons.mp h.targets).2
  preSQL task ht := h.preSQL task (List.mem_cons_of_mem _ ht)
  postSQL task ht := h.postSQL task (List.mem_cons_of_mem _ ht)
  prepared other ho hrebuilt := by
    have hne : other.target ≠ task.target :=
      fun heq => (List.nodup_cons.mp h.targets).1 (heq ▸ List.mem_map_of_mem ho)
    rw [afterTask_of_ne hne]
    exact h.prepared other (List.mem_cons_of_mem _ ho) hrebuilt

/-- **The tasks in order**, if none has failed. -/
theorem processTasks_delivers {tasks : List (Task V)} {w₀ : World V} (hkeeps : Keeps w₀ w)
    (hm : Migratable values isKey direction tasks w₀ tables)
    (hw : Between direction tables tables w)
    (h : (processTasks values direction tasks).eval (migExec values) w = (.ok 0, w'))
    (hcalm : w'.stats.errors = w.stats.errors) :
    Between direction (afterTasks values w₀ tasks tables) (afterTasks values w₀ tasks tables) w' ∧
      ((∀ task ∈ tasks, ¬Busy values direction task w₀ tables) → SameWrites w.stats w'.stats) := by
  induction tasks generalizing tables w w' with
  | nil =>
      obtain ⟨-, rfl⟩ := Prod.mk.inj h
      exact ⟨hw, fun _ => ⟨rfl, rfl⟩⟩
  | cons task rest ih =>
      have hbefore : Between direction tables (afterTask values task w₀ tables) w :=
        ⟨.inl (or_self_iff.mp hw.target), .inl (or_self_iff.mp hw.committed)⟩
      have hone := processTask_delivers hkeeps (hm.preSQL task List.mem_cons_self)
        (hm.postSQL task List.mem_cons_self) (hm.prepared task List.mem_cons_self) 3 hbefore
      have hlogged := errors_eval values (processTask values task direction) w
      have hkept := eval_keeps values (processTask values task direction) w
      rw [processTasks, Prog.eval_bind] at h
      rw [← processTask] at hone
      generalize (processTask values task direction).eval (migExec values) w = out
        at h hone hlogged hkept
      obtain ⟨e | success, w₁⟩ := out
      · cases h
      dsimp only at h hlogged hkept
      rw [Prog.eval_bind] at h
      have hlater := errors_eval values (processTasks values direction rest) w₁
      generalize hrest : (processTasks values direction rest).eval (migExec values) w₁ = out'
        at h hlater
      obtain ⟨e | failed, w₂⟩ := out'
      · cases h
      obtain ⟨hfailed, rfl⟩ := Prod.mk.inj h
      have hfailed : (if success then failed else failed + 1) = 0 := Except.ok.inj hfailed
      cases success with
      | false => cases hfailed
      | true =>
          obtain rfl : failed = 0 := hfailed
          have hcalm₁ := errors_between hlogged hlater hcalm
          obtain ⟨hdone, hwrites⟩ := ih (hkeeps.trans hkept) hm.tail (hone.done hcalm₁ rfl) hrest
            (hcalm.trans hcalm₁.symm)
          refine ⟨hdone, fun hidle => ?_⟩
          refine (hone.idle hcalm₁ (hidle task List.mem_cons_self)).trans (hwrites ?_)
          intro other ho hbusy
          have hne : other.target ≠ task.target :=
            fun heq => (List.nodup_cons.mp hm.targets).1 (heq ▸ List.mem_map_of_mem ho)
          rw [Busy, afterTask_of_ne hne] at hbusy
          exact hidle other (List.mem_cons_of_mem _ ho) hbusy

omit [DecidableEq V] in
/-- A migration that reports success. -/
theorem processTasks_of_migrate {tasks : List (Task V)}
    (h : (migrate values tasks direction).eval (migExec values) w = (.ok true, w')) :
    (processTasks values direction tasks).eval (migExec values) w = (.ok 0, w') := by
  rw [migrate, Prog.eval_handle, Prog.eval_bind] at h
  generalize (processTasks values direction tasks).eval (migExec values) w = out at h ⊢
  obtain ⟨e | failed, w₁⟩ := out
  · cases h
  · obtain ⟨hzero, rfl⟩ := Prod.mk.inj h
    obtain rfl : failed = 0 := of_decide_eq_true (Except.ok.inj hzero)
    rfl

/-- What is committed by a migration. -/
theorem committed_of_migrate {tasks : List (Task V)}
    (hm : Migratable values isKey direction tasks w w.committed) (hclean : w.target = w.committed)
    (h : (migrate values tasks direction).eval (migExec values) w = (.ok true, w'))
    (hcalm : w'.stats.errors = w.stats.errors) :
    Agree direction w'.committed (afterTasks values w tasks w.committed) :=
  or_self_iff.mp (processTasks_delivers (.refl w) hm
    ⟨.inl (hclean ▸ .refl _), .inl (.refl _)⟩ (processTasks_of_migrate h) hcalm).1.committed

/-- The tables of the tasks, and the others. -/
theorem migrate_leaves {tasks : List (Task V)}
    (hm : Migratable values isKey direction tasks w w.committed) (hclean : w.target = w.committed)
    (h : (migrate values tasks direction).eval (migExec values) w = (.ok true, w'))
    (hcalm : w'.stats.errors = w.stats.errors) :
    (∀ task ∈ tasks, ¬Rebuilt direction task.target →
        w'.committed task.target = taskRows values task w (w.committed task.target)) ∧
      ∀ table, ¬Rebuilt direction table → (∀ task ∈ tasks, task.target ≠ table) →
        w'.committed table = w.committed table := by
  have hcommitted := committed_of_migrate hm hclean h hcalm
  refine ⟨fun task ht hrebuilt => ?_, fun table hrebuilt hnone => ?_⟩
  · rw [hcommitted _ hrebuilt, afterTasks_of_mem hm.targets ht]
  · rw [hcommitted _ hrebuilt, afterTasks_of_none hnone]

/-- **What a migration leaves.** If `migrate` reports success and has logged no error, whatever
failed on the way, then in the table of a task every mapped row of its source is there with its
values, the rows with other keys are as they were, and nothing else is there: a row is an old one,
an old one with the values for its key, or a new one for a key that there was not. No key is there
twice, and the tables without a task are as they were. A table that is built anew is left out. -/
theorem migrate_upserts (tasks : List (Task V)) (w w' : World V)
    (hm : Migratable values isKey direction tasks w w.committed) (hclean : w.target = w.committed)
    (h : (migrate values tasks direction).eval (migExec values) w = (.ok true, w'))
    (hcalm : w'.stats.errors = w.stats.errors) :
    (∀ task ∈ tasks, ¬Rebuilt direction task.target →
      (∀ d ∈ taskData values task w, ∃ r ∈ w'.committed task.target,
        task.pk.map r = keyOfData task.pk d ∧
          hasChanges values task.pk (taskColumns task w) r d = false) ∧
      (∀ r ∈ w.committed task.target,
        (∀ d ∈ taskData values task w, keyOfData task.pk d ≠ task.pk.map r) →
          r ∈ w'.committed task.target) ∧
      (∀ r ∈ w'.committed task.target,
        (r ∈ w.committed task.target ∧ ∀ d ∈ taskData values task w,
          keyOfData task.pk d = task.pk.map r →
            hasChanges values task.pk (taskColumns task w) r d = false) ∨
        (∃ old ∈ w.committed task.target, ∃ d ∈ taskData values task w,
          keyOfData task.pk d = task.pk.map old ∧ r = old.setAll d) ∨
        ∃ d ∈ taskData values task w, r = freshRow values task.target d ∧
          ∀ old ∈ w.committed task.target, task.pk.map old ≠ keyOfData task.pk d) ∧
      ((w'.committed task.target).map fun r : Row V => task.pk.map r).Nodup) ∧
    ∀ table, ¬Rebuilt direction table → (∀ task ∈ tasks, task.target ≠ table) →
      w'.committed table = w.committed table := by
  obtain ⟨hdone, hother⟩ := migrate_leaves hm hclean h hcalm
  refine ⟨fun task ht hrebuilt => ?_, hother⟩
  have hlawful := scheme_lawful values task.target task.pk (taskColumns task w) isKey
  obtain ⟨-, hsound⟩ := hm.prepared task ht hrebuilt
  rw [hdone task ht hrebuilt, taskRows]
  refine ⟨fun d hd => Upsert.settled_of_mem hlawful hsound.data hsound.keys hd,
    fun r hr hnone => Upsert.mem_rows_of_none hr hnone, fun r hr => ?_,
    Upsert.nodup_rows hlawful hsound.data hsound.keys hsound.rowKeys⟩
  rcases Upsert.mem_rows hsound.keys hr with h | ⟨old, hold, d, hd, hkey, hset⟩ | ⟨d, hd, hnew, hr⟩
  · exact .inl h
  · exact .inr (.inl ⟨old, hold, d, hd, hkey, hset⟩)
  · exact .inr (.inr ⟨d, hd, hr, Upsert.missing_iff.mp hnew⟩)

/-- The example is migratable. -/
theorem exampleMigratable (outcomes : ℕ → Outcome) :
    Migratable exampleValues (fun _ => True) .ctfdToFctf [exampleTask] (exampleWorld outcomes)
      (exampleWorld outcomes).committed where
  targets := List.nodup_singleton _
  preSQL _ _ _ _ _ := rfl
  postSQL _ _ _ _ _ := rfl
  prepared task htask _ := by
    rw [List.mem_singleton.mp htask]
    refine ⟨rfl, ⟨⟨fun a b _ _ => beq_iff_eq, fun a b _ _ => beq_iff_eq⟩, List.cons_ne_nil _ _, ?_,
      ?_, fun r _ column _ => trivial, ?_⟩⟩
    · intro d hd
      obtain ⟨row, hrow, rfl⟩ := List.mem_map.mp hd
      refine ⟨fun column hcolumn => ?_, ?_, fun c _ => beq_self_eq_true c.2⟩
      · rw [List.mem_singleton.mp hcolumn]
        exact ⟨row "id", rfl, trivial⟩
      · change ["id", "bracket_id", "hidden"].Nodup
        decide
    · change [[(1 : ℤ)], [2]].Nodup
      decide
    · exact List.nodup_singleton _

/-- A commit is done and not acknowledged, the rollback fails, and the task is tried again. -/
def interrupted (n : ℕ) : Outcome :=
  if n = 8 ∨ n = 9 then .broken 1 true lostConnection else .fine

theorem migrate_upserts_example :
    (exampleRun interrupted).1 = .ok true ∧
      ((exampleRun interrupted).2.committed "teams").length = 2 ∧
      ∀ d ∈ taskData exampleValues exampleTask (exampleWorld interrupted),
        ∃ r ∈ (exampleRun interrupted).2.committed "teams",
          exampleTask.pk.map r = keyOfData exampleTask.pk d ∧
            hasChanges exampleValues exampleTask.pk
              (taskColumns exampleTask (exampleWorld interrupted)) r d = false := by
  have hrun : (exampleRun interrupted).1 = .ok true := by decide +kernel
  have hcalm : (exampleRun interrupted).2.stats.errors = [] := by decide +kernel
  refine ⟨hrun, by decide +kernel, ?_⟩
  exact ((migrate_upserts [exampleTask] (exampleWorld interrupted) (exampleRun interrupted).2
    (exampleMigratable interrupted) rfl (Prod.ext hrun rfl) hcalm).1 exampleTask
      (List.mem_singleton_self _) fun h => Direction.noConfusion h.2).1

/-- The data of a task depend on the source and the columns only. -/
theorem Keeps.taskRows_eq (h : Keeps w w') (rows : List (Row V)) :
    taskRows values task w' rows = taskRows values task w rows := by
  rw [taskRows, taskRows, taskData, taskData, taskColumns, taskColumns, h.source, h.sourceColumns,
    h.targetColumns]

/-- What a task has left, it can rely on again. -/
theorem Prepared.again (h : Keeps w w') {rows : List (Row V)}
    (hprepared : Prepared values isKey task w rows) :
    Prepared values isKey task w' (taskRows values task w rows) where
  mode := hprepared.mode
  sound := by
    rw [taskData, h.source, h.sourceColumns, h.targetColumns]
    exact hprepared.sound.again

/-- Again a task does nothing. -/
theorem Prepared.taskRows_taskRows {rows : List (Row V)}
    (h : Prepared values isKey task w rows) :
    taskRows values task w (taskRows values task w rows) = taskRows values task w rows :=
  Upsert.rows_rows (scheme_lawful values task.target task.pk _ isKey) h.sound.data h.sound.keys
    h.sound.rowKeys

/-- **A second migration**, of the same source, finds nothing to change: what is committed stays,
and if no table is built anew, all rows of the source are counted as unchanged. -/
theorem migrate_again (tasks : List (Task V)) (w w₁ w₂ w₃ : World V)
    (hm : Migratable values isKey direction tasks w w.committed) (hclean : w.target = w.committed)
    (h : (migrate values tasks direction).eval (migExec values) w = (.ok true, w₁))
    (hcalm : w₁.stats.errors = w.stats.errors) (hkeeps : Keeps w w₂)
    (hcommitted : w₂.committed = w₁.committed) (hclean₂ : w₂.target = w₂.committed)
    (h₂ : (migrate values tasks direction).eval (migExec values) w₂ = (.ok true, w₃))
    (hcalm₂ : w₃.stats.errors = w₂.stats.errors) :
    (∀ table, ¬Rebuilt direction table → w₃.committed table = w₂.committed table) ∧
      ((∀ task ∈ tasks, ¬Rebuilt direction task.target) →
        w₃.stats.insertedRows = w₂.stats.insertedRows ∧
          w₃.stats.updatedRows = w₂.stats.updatedRows ∧
            w₃.stats.unchangedRows = w₂.stats.unchangedRows +
              (tasks.map fun task => (w₂.source task.source).length).sum) := by
  obtain ⟨hdone, -⟩ := migrate_leaves hm hclean h hcalm
  have hm₂ : Migratable values isKey direction tasks w₂ w₂.committed := by
    refine ⟨hm.targets, hm.preSQL, hm.postSQL, fun task ht hrebuilt => ?_⟩
    rw [hcommitted, hdone task ht hrebuilt]
    exact (hm.prepared task ht hrebuilt).again hkeeps
  have hidle (task : Task V) (ht : task ∈ tasks) (hrebuilt : ¬Rebuilt direction task.target) :
      taskRows values task w₂ (w₂.committed task.target) = w₂.committed task.target := by
    rw [hcommitted, hdone task ht hrebuilt, hkeeps.taskRows_eq]
    exact (hm.prepared task ht hrebuilt).taskRows_taskRows
  obtain ⟨hdone₂, hother₂⟩ := migrate_leaves hm₂ hclean₂ h₂ hcalm₂
  refine ⟨fun table hrebuilt => ?_, fun hnone => ?_⟩
  · by_cases hsome : ∃ task ∈ tasks, task.target = table
    · obtain ⟨task, ht, rfl⟩ := hsome
      rw [hdone₂ task ht hrebuilt, hidle task ht hrebuilt]
    · exact hother₂ table hrebuilt fun task ht heq => hsome ⟨task, ht, heq⟩
  · have htasks := processTasks_of_migrate h₂
    obtain ⟨hinserted, hupdated⟩ := (processTasks_delivers (.refl w₂) hm₂
      ⟨.inl (hclean₂ ▸ .refl _), .inl (.refl _)⟩ htasks hcalm₂).2 fun task ht hbusy =>
        hbusy.elim (hnone task ht) fun hne => hne (hidle task ht (hnone task ht))
    obtain ⟨errors, lost, herrors, hhandled, hlost⟩ := processTasks_accounts tasks
      (fun task ht => .inr (hm.prepared task ht (hnone task ht)).mode) w₂ w₃ htasks
    have hnoErrors : errors = [] := by
      rw [hcalm₂] at herrors
      exact List.append_right_eq_self.mp herrors.symm
    rw [hnoErrors, List.length_nil, Nat.mul_zero] at hlost
    refine ⟨hinserted, hupdated, ?_⟩
    rw [Stats.handled, Stats.handled] at hhandled
    omega

/-- The second time, with a connection that is lost again. -/
def exampleAgain : World ℤ :=
  { exampleWorld fun n => if n = 0 then .broken 0 true lostConnection else .fine with
    target := (exampleRun interrupted).2.committed
    committed := (exampleRun interrupted).2.committed }

theorem migrate_again_example :
    ((migrate exampleValues [exampleTask] .ctfdToFctf).eval (migExec exampleValues)
        exampleAgain).1 = .ok true ∧
      ((migrate exampleValues [exampleTask] .ctfdToFctf).eval (migExec exampleValues)
        exampleAgain).2.stats.unchangedRows = 0 + 2 := by
  have hrun : (exampleRun interrupted).1 = .ok true := by decide +kernel
  have hcalm : (exampleRun interrupted).2.stats.errors = [] := by decide +kernel
  have hrun₂ : ((migrate exampleValues [exampleTask] .ctfdToFctf).eval (migExec exampleValues)
      exampleAgain).1 = .ok true := by decide +kernel
  have hcalm₂ : ((migrate exampleValues [exampleTask] .ctfdToFctf).eval (migExec exampleValues)
      exampleAgain).2.stats.errors = [] := by decide +kernel
  refine ⟨hrun₂, ((migrate_again [exampleTask] (exampleWorld interrupted) (exampleRun interrupted).2
    exampleAgain _ (exampleMigratable interrupted) rfl (Prod.ext hrun rfl) hcalm ⟨rfl, rfl, rfl⟩ rfl
    rfl (Prod.ext hrun₂ rfl) hcalm₂).2 fun task htask h => ?_).2.2⟩
  exact Direction.noConfusion h.2

end Tasks

end Migrator

end Fctf
