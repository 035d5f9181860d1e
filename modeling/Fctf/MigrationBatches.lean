import Mathlib.Tactic.Common
import Fctf.Migrator

/-!
# What a Batch Does

A batch that is not logged as an error has done what it is for, and has counted every one of its
rows. A batch that is logged has counted fewer than it has.

## Main results

* `eval_executeBatch`: one batch.
* `eval_processRows`: the rows of a task, whatever becomes of the statements.
-/

open Concurrent

namespace Fctf

namespace Migrator

variable {V : Type} {values : Values V} {w w' : World V} {α : Type}

/-! ### Running a program -/

/-- What a run leaves as it is. -/
structure Keeps (w w' : World V) : Prop where
  sourceColumns : w'.sourceColumns = w.sourceColumns
  source : w'.source = w.source
  targetColumns : w'.targetColumns = w.targetColumns

theorem Keeps.refl (w : World V) : Keeps w w := ⟨rfl, rfl, rfl⟩

theorem Keeps.trans {w₁ w₂ w₃ : World V} (h : Keeps w₁ w₂) (h' : Keeps w₂ w₃) : Keeps w₁ w₃ :=
  ⟨h'.sourceColumns.trans h.sourceColumns, h'.source.trans h.source,
    h'.targetColumns.trans h.targetColumns⟩

/-- **A statement** answers and acts, or it breaks. -/
theorem statement_cases (answer : World V → α) (act : World V → World V)
    (part : ℕ → World V → World V) (w : World V) :
    w.statement answer act part = (.ok (answer w), { act w with tick := w.tick + 1 }) ∨
      ∃ done dropped e, w.statement answer act part =
        (.error (.database e), { (part done w).broken dropped with tick := w.tick + 1 }) := by
  rw [World.statement]
  cases w.outcomes w.tick with
  | fine => exact .inl rfl
  | broken done dropped e => exact .inr ⟨done, dropped, e, rfl⟩

/-- What every part of a statement keeps, the statement keeps. -/
theorem statement_keeps {J : World V → World V → Prop} {answer : World V → α}
    {act : World V → World V} {part : ℕ → World V → World V}
    (hact : J w (act w)) (hpart : ∀ done, J w (part done w))
    (hrollback : ∀ w', J w w' → J w w'.rollback)
    (htick : ∀ w' n, J w w' → J w { w' with tick := n }) :
    J w (w.statement answer act part).2 := by
  rcases statement_cases answer act part w with
    h | ⟨done, dropped, e, h⟩
  · rw [h]
    exact htick _ _ hact
  · rw [h, World.broken]
    cases dropped with
    | false => exact htick _ _ (hpart done)
    | true => exact htick _ _ (hrollback _ (hpart done))

theorem statement₁_keeps {J : World V → World V → Prop} {act : World V → World V}
    (hrefl : J w w) (hact : J w (act w)) (hrollback : ∀ w', J w w' → J w w'.rollback)
    (htick : ∀ w' n, J w w' → J w { w' with tick := n }) : J w (w.statement₁ act).2 := by
  refine statement_keeps hact (fun done => ?_) hrollback htick
  split
  · exact hrefl
  · exact hact

theorem query_keeps {J : World V → World V → Prop} {answer : World V → α} (hrefl : J w w)
    (hrollback : ∀ w', J w w' → J w w'.rollback)
    (htick : ∀ w' n, J w w' → J w { w' with tick := n }) : J w (w.query answer).2 :=
  statement_keeps hrefl (fun _ => hrefl) hrollback htick

/-- What is kept by everything but a note. -/
structure Silent (w w' : World V) : Prop where
  keeps : Keeps w w'
  stats : w'.stats = w.stats

theorem Silent.refl (w : World V) : Silent w w := ⟨.refl w, rfl⟩

theorem Silent.trans {w₁ w₂ w₃ : World V} (h : Silent w₁ w₂) (h' : Silent w₂ w₃) :
    Silent w₁ w₃ :=
  ⟨h.keeps.trans h'.keeps, h'.stats.trans h.stats⟩

/-- No operation but a note touches the source, the columns, or the counts. -/
theorem exec_silent (values : Values V) (o : MigOp V) (w : World V) (ho : ∀ n, o ≠ .note n) :
    Silent w (o.exec values w).2 := by
  have hrollback (w' : World V) (h : Silent w w') : Silent w w'.rollback :=
    ⟨⟨h.1.1, h.1.2, h.1.3⟩, h.2⟩
  have htick (w' : World V) (n : ℕ) (h : Silent w w') : Silent w { w' with tick := n } :=
    ⟨⟨h.1.1, h.1.2, h.1.3⟩, h.2⟩
  cases o with
  | note n => exact absurd rfl (ho n)
  | insert table rows =>
      exact statement_keeps (J := Silent) ⟨⟨rfl, rfl, rfl⟩, rfl⟩
        (fun _ => ⟨⟨rfl, rfl, rfl⟩, rfl⟩) hrollback htick
  | reflectSource table => exact query_keeps (J := Silent) (.refl w) hrollback htick
  | reflectTarget table => exact query_keeps (J := Silent) (.refl w) hrollback htick
  | select table => exact query_keeps (J := Silent) (.refl w) hrollback htick
  | find table conditions => exact query_keeps (J := Silent) (.refl w) hrollback htick
  | countForeignKeys => exact query_keeps (J := Silent) (.refl w) hrollback htick
  | existingIds ids => exact query_keeps (J := Silent) (.refl w) hrollback htick
  | _ => exact statement₁_keeps (J := Silent) (.refl w) ⟨⟨rfl, rfl, rfl⟩, rfl⟩ hrollback htick

/-- No operation touches the source, or the columns. -/
theorem exec_keeps (values : Values V) (o : MigOp V) (w : World V) :
    Keeps w (o.exec values w).2 := by
  by_cases ho : ∃ n, o = .note n
  · obtain ⟨n, rfl⟩ := ho
    exact ⟨rfl, rfl, rfl⟩
  · exact (exec_silent values o w fun n hn => ho ⟨n, hn⟩).keeps

/-- No program does. -/
theorem eval_keeps (values : Values V) (p : Prog (migI V) MigError α) (w : World V) :
    Keeps w (p.eval (migExec values) w).2 :=
  (Prog.Throughout.of_forall (φ := fun _ => True) (fun _ => trivial) p).eval (Keeps.refl w)
    fun o s _ h => h.trans (exec_keeps values o s)

theorem eval_insert (table : String) (rows : List (Data V)) (w : World V) :
    (Session.insert table rows).eval (migExec values) w =
      w.statement (fun _ => ()) (·.insert values table rows) fun done w =>
        w.insert values table (rows.take done) := rfl

theorem eval_update (table : String) (condition data : Data V) (w : World V) :
    (Session.update table condition data).eval (migExec values) w =
      w.statement₁ (·.update values table condition data) := rfl

theorem eval_note (n : Note) (w : World V) :
    (note n).eval (migExec values) w = (.ok (), { w with stats := w.stats.add n }) := rfl

/-- What is tried raises nothing. -/
theorem eval_tried (p : Prog (migI V) MigError α) (w : World V) :
    (tried p).eval (migExec values) w =
      (.ok (p.eval (migExec values) w).1, (p.eval (migExec values) w).2) := by
  rw [tried, Prog.eval_handle, Prog.eval_bind]
  generalize p.eval (migExec values) w = out
  obtain ⟨_ | a, s⟩ := out
  · rfl
  · rfl

/-! ### One batch -/

section Batches

variable {task : Task V} {table : String} {columns pk : List String} {batch : List (Data V)}

/-- What a batch leaves as it is. -/
structure InBatch (w w' : World V) : Prop where
  silent : Silent w w'
  committed : w'.committed = w.committed

theorem InBatch.refl (w : World V) : InBatch w w := ⟨.refl w, rfl⟩

theorem InBatch.trans {w₁ w₂ w₃ : World V} (h : InBatch w₁ w₂) (h' : InBatch w₂ w₃) :
    InBatch w₁ w₃ :=
  ⟨h.silent.trans h'.silent, h'.committed.trans h.committed⟩

theorem InBatch.rollback {w w' : World V} (h : InBatch w w') : InBatch w w'.rollback :=
  ⟨⟨⟨h.1.1.1, h.1.1.2, h.1.1.3⟩, h.1.2⟩, h.2⟩

theorem InBatch.tick {w w' : World V} (h : InBatch w w') (n : ℕ) :
    InBatch w { w' with tick := n } :=
  ⟨⟨⟨h.1.1.1, h.1.1.2, h.1.1.3⟩, h.1.2⟩, h.2⟩

/-- An insertion inserts, or fails. -/
theorem eval_insertAll (values : Values V) (table : String) (rows : List (Data V)) (w : World V) :
    InBatch w ((insertAll table rows).eval (migExec values) w).2 ∧
      ((((insertAll table rows).eval (migExec values) w).1 = .ok () ∧
        ((insertAll table rows).eval (migExec values) w).2.target =
          Function.update w.target table (w.target table ++ rows.map (freshRow values table))) ∨
        ∃ e, ((insertAll table rows).eval (migExec values) w).1 = .error e ∧ rows ≠ []) := by
  rw [insertAll]
  split
  · next hrows =>
      refine ⟨.refl w, .inl ⟨rfl, ?_⟩⟩
      rw [List.isEmpty_iff.mp hrows, List.map_nil, List.append_nil, Function.update_eq_self]
      rfl
  · next hrows =>
      rw [eval_insert]
      refine ⟨statement_keeps (J := InBatch) ⟨⟨⟨rfl, rfl, rfl⟩, rfl⟩, rfl⟩
        (fun _ => ⟨⟨⟨rfl, rfl, rfl⟩, rfl⟩, rfl⟩) (fun _ h => h.rollback) fun _ n h => h.tick n, ?_⟩
      rcases statement_cases (fun _ => ()) (·.insert values table rows)
        (fun done w => w.insert values table (rows.take done)) w with
        h | ⟨done, dropped, e, h⟩
      · rw [h]
        exact .inl ⟨rfl, rfl⟩
      · rw [h]
        exact .inr ⟨.database e, rfl, by simpa using hrows⟩

/-- The updates, up to one that fails. -/
theorem eval_updateAll (values : Values V) (table : String) (pk : List String)
    (ds : List (Data V)) (n : ℕ) (w : World V) :
    ∃ k e w', (updateAll table pk ds n).eval (migExec values) w = (.ok (n + k, e), w') ∧
      InBatch w w' ∧
      ((e = none ∧ k = ds.length ∧ w'.target = Function.update w.target table
        (ds.foldl (fun rows d => updateRows values (keyCondition pk d) d rows) (w.target table))) ∨
        e.isSome = true ∧ k < ds.length) := by
  induction ds generalizing n w with
  | nil => exact ⟨0, none, w, rfl, .refl w, .inl ⟨rfl, rfl, (Function.update_eq_self _ _).symm⟩⟩
  | cons d ds ih =>
      rw [updateAll, Prog.eval_bind, eval_tried, eval_update]
      have hkeeps : InBatch w (w.statement₁ (·.update values table (keyCondition pk d) d)).2 :=
        statement₁_keeps (J := InBatch) (.refl w) ⟨⟨⟨rfl, rfl, rfl⟩, rfl⟩, rfl⟩
          (fun _ h => h.rollback) fun _ n h => h.tick n
      rw [World.statement₁] at hkeeps ⊢
      rcases statement_cases (fun _ => ()) (·.update values table (keyCondition pk d) d)
        (fun done w => if done = 0 then w else w.update values table (keyCondition pk d) d)
        w with h | ⟨done, dropped, e, h⟩
      · rw [h] at hkeeps ⊢
        obtain ⟨k, e, w', heval, hbatch, hcases⟩ := ih (n + 1)
          { w.update values table (keyCondition pk d) d with tick := w.tick + 1 }
        refine ⟨k + 1, e, w', ?_, hkeeps.trans hbatch, ?_⟩
        · rw [show n + (k + 1) = n + 1 + k by omega, ← heval]
        · rcases hcases with ⟨hnone, hk, htarget⟩ | ⟨hsome, hk⟩
          · refine .inl ⟨hnone, by rw [hk, List.length_cons], htarget.trans ?_⟩
            change Function.update (Function.update w.target table _) table
              (ds.foldl _ (Function.update w.target table _ table)) = _
            rw [Function.update_self, Function.update_idem]
            rfl
          · exact .inr ⟨hsome, by rw [List.length_cons]; omega⟩
      · rw [h] at hkeeps ⊢
        exact ⟨0, some (.database e), _, rfl, hkeeps, .inr ⟨rfl, Nat.zero_lt_succ _⟩⟩

/-- The rows that a batch finds. -/
def existingRows (values : Values V) (pk : List String) (batch : List (Data V))
    (rows : List (Row V)) : List (Row V) :=
  rows.filter fun row =>
    ((batch.map (keyCondition pk)).filter (!·.isEmpty)).any (row.meets values)

/-- The query finds the rows, or fails. -/
theorem eval_findExisting (values : Values V) (table : String) (pk : List String)
    (batch : List (Data V)) (w : World V) :
    InBatch w ((findExisting table pk batch).eval (migExec values) w).2 ∧
      ((((findExisting table pk batch).eval (migExec values) w).1 =
          .ok (existingRows values pk batch (w.target table)) ∧
        ((findExisting table pk batch).eval (migExec values) w).2.target = w.target) ∨
        ∃ e, ((findExisting table pk batch).eval (migExec values) w).1 = .error e ∧
          batch ≠ []) := by
  rw [findExisting]
  split
  · next hnone =>
      refine ⟨.refl w, .inl ⟨?_, rfl⟩⟩
      rw [existingRows, List.isEmpty_iff.mp hnone]
      simp
  · next hsome =>
      have heval (conditions : List (Data V)) :
          (Session.find table conditions).eval (migExec values) w = w.query fun w =>
            (w.target table).filter fun row => conditions.any (row.meets values) := rfl
      rw [heval]
      refine ⟨query_keeps (J := InBatch) (.refl w) (fun _ h => h.rollback)
        fun _ n h => h.tick n, ?_⟩
      rw [World.query]
      rcases statement_cases (fun w : World V => (w.target table).filter fun row =>
          ((batch.map (keyCondition pk)).filter (!·.isEmpty)).any (row.meets values)) id
        (fun _ w => w) w with
        h | ⟨done, dropped, e, h⟩
      · rw [h]
        exact .inl ⟨rfl, rfl⟩
      · rw [h]
        refine .inr ⟨.database e, rfl, ?_⟩
        rintro rfl
        exact hsome rfl

/-- The rows of a table after an upsert, as it is done. -/
def upsertedRows (values : Values V) (table : String) (columns pk : List String)
    (batch : List (Data V)) (rows : List (Row V)) : List (Row V) :=
  (batch.filter (isChanged values pk columns (existingRows values pk batch rows))).foldl
    (fun rows d => updateRows values (keyCondition pk d) d rows)
    (rows ++ (batch.filter (isNew values pk (existingRows values pk batch rows))).map
      (freshRow values table))

/-- What an upsert counts. -/
def upsertCounts (values : Values V) (columns pk : List String) (batch : List (Data V))
    (rows : List (Row V)) : BatchResult :=
  ⟨(batch.filter (isNew values pk (existingRows values pk batch rows))).length,
    (batch.filter (isChanged values pk columns (existingRows values pk batch rows))).length,
    (batch.filter (isUnchanged values pk columns (existingRows values pk batch rows))).length⟩

/-- **Every row** is new, changed or unchanged. -/
theorem length_partition (values : Values V) (pk columns : List String) (existing : List (Row V))
    (batch : List (Data V)) :
    (batch.filter (isNew values pk existing)).length +
        (batch.filter (isChanged values pk columns existing)).length +
          (batch.filter (isUnchanged values pk columns existing)).length = batch.length := by
  induction batch with
  | nil => rfl
  | cons d batch ih =>
      have hone : (if isNew values pk existing d then 1 else 0) +
          (if isChanged values pk columns existing d then 1 else 0) +
            (if isUnchanged values pk columns existing d then 1 else 0) = 1 := by
        rw [isUnchanged, isNew, isChanged]
        cases existingRow values pk existing d with
        | none => rfl
        | some row => cases hchanged : hasChanges values pk columns row d <;> simp [hchanged]
      simp only [← List.countP_eq_length_filter, List.countP_cons, List.length_cons] at ih ⊢
      omega

/-- What becomes of a batch: it is done, or it has counted too little. -/
def Settles (batch : List (Data V)) (counts : BatchResult) (target : String → List (Row V))
    (out : BatchResult × Option MigError) (w' : World V) : Prop :=
  (out = (counts, none) ∧ w'.target = target) ∨
    (out.2.isSome = true ∧ (batch ≠ [] ∧ out.1.total < batch.length))

/-- **The upsert of a batch.** -/
theorem eval_upsertBatch (table : String) (columns pk : List String) (batch : List (Data V))
    (w : World V) :
    ∃ out w', (upsertBatch values table columns pk batch).eval (migExec values) w = (.ok out, w') ∧
      InBatch w w' ∧ Settles batch (upsertCounts values columns pk batch (w.target table))
        (Function.update w.target table
          (upsertedRows values table columns pk batch (w.target table)))
        out w' := by
  obtain ⟨hkeeps, hfound⟩ := eval_findExisting values table pk batch w
  rw [upsertBatch, Prog.eval_bind, eval_tried]
  generalize (findExisting table pk batch).eval (migExec values) w = found at hkeeps hfound ⊢
  obtain ⟨found, w₁⟩ := found
  dsimp only at hkeeps hfound ⊢
  rcases hfound with ⟨rfl, htarget⟩ | ⟨e, rfl, hne⟩
  swap
  · exact ⟨_, _, rfl, hkeeps, .inr ⟨rfl, hne, List.length_pos_iff.mpr hne⟩⟩
  dsimp only
  have hpartition := length_partition values pk columns
    (existingRows values pk batch (w.target table)) batch
  generalize hcolumn : (if (existingRows values pk batch (w.target table)).isEmpty then none
    else pk.find? (!columns.contains ·)) = column
  cases column with
  | some column =>
      have hne : batch ≠ [] := by
        rintro rfl
        simp [existingRows] at hcolumn
      exact ⟨_, _, rfl, hkeeps, .inr ⟨rfl, hne, List.length_pos_iff.mpr hne⟩⟩
  | none =>
      obtain ⟨hkeeps₂, hinserted⟩ := eval_insertAll values table
        (batch.filter (isNew values pk (existingRows values pk batch (w.target table)))) w₁
      dsimp only
      rw [Prog.eval_bind, eval_tried]
      generalize (insertAll table (batch.filter (isNew values pk
        (existingRows values pk batch (w.target table))))).eval (migExec values) w₁ = inserted
        at hkeeps₂ hinserted ⊢
      obtain ⟨inserted, w₂⟩ := inserted
      dsimp only at hkeeps₂ hinserted ⊢
      rcases hinserted with ⟨rfl, htarget₂⟩ | ⟨e, rfl, hne⟩
      swap
      · have hpos := List.length_pos_iff.mpr hne
        refine ⟨_, _, rfl, hkeeps.trans hkeeps₂, .inr ⟨rfl, ?_, ?_⟩⟩
        · rintro rfl
          exact hne rfl
        · simp only [BatchResult.total]
          omega
      dsimp only
      obtain ⟨k, e, w₃, heval, hkeeps₃, hupdated⟩ := eval_updateAll values table pk
        (batch.filter (isChanged values pk columns (existingRows values pk batch (w.target table))))
        0 w₂
      rw [Prog.eval_bind, heval]
      refine ⟨_, _, rfl, (hkeeps.trans hkeeps₂).trans hkeeps₃, ?_⟩
      rcases hupdated with ⟨rfl, hk, htarget₃⟩ | ⟨hsome, hk⟩
      · refine .inl ⟨?_, ?_⟩
        · rw [upsertCounts, hk, Nat.zero_add]
        · rw [htarget₃, htarget₂, htarget, Function.update_self, Function.update_idem, upsertedRows]
      · refine .inr ⟨hsome, ?_, ?_⟩
        · rintro rfl
          exact Nat.not_lt_zero _ hk
        · simp only [BatchResult.total]
          omega

/-- The insertion of a batch. -/
theorem eval_insertBatch (table : String) (batch : List (Data V)) (w : World V) :
    ∃ out w', (insertBatch table batch).eval (migExec values) w = (.ok out, w') ∧
      InBatch w w' ∧ Settles batch ⟨batch.length, 0, 0⟩
        (Function.update w.target table (w.target table ++ batch.map (freshRow values table)))
        out w' := by
  obtain ⟨hkeeps, hinserted⟩ := eval_insertAll values table batch w
  rw [insertBatch, Prog.eval_bind, eval_tried]
  generalize (insertAll table batch).eval (migExec values) w = inserted at hkeeps hinserted ⊢
  obtain ⟨inserted, w₁⟩ := inserted
  dsimp only at hkeeps hinserted ⊢
  rcases hinserted with ⟨rfl, htarget⟩ | ⟨e, rfl, hne⟩
  · exact ⟨_, _, rfl, hkeeps, .inl ⟨rfl, htarget⟩⟩
  · exact ⟨_, _, rfl, hkeeps, .inr ⟨rfl, hne, List.length_pos_iff.mpr hne⟩⟩

/-- The rows of a table after a batch. -/
def batchRows (values : Values V) (task : Task V) (columns : List String) (batch : List (Data V))
    (rows : List (Row V)) : List (Row V) :=
  if task.mode = "insert" then rows ++ batch.map (freshRow values task.target)
  else if task.mode = "upsert" then upsertedRows values task.target columns task.pk batch rows
  else rows

/-- What a batch counts. -/
def batchCounts (values : Values V) (task : Task V) (columns : List String) (batch : List (Data V))
    (rows : List (Row V)) : BatchResult :=
  if task.mode = "insert" then ⟨batch.length, 0, 0⟩
  else if task.mode = "upsert" then upsertCounts values columns task.pk batch rows
  else ⟨0, 0, 0⟩

/-- A mode in which rows are written. -/
def Task.writes (task : Task V) : Prop := task.mode = "insert" ∨ task.mode = "upsert"

theorem total_batchCounts (hwrites : task.writes) (batch : List (Data V)) (rows : List (Row V)) :
    (batchCounts values task columns batch rows).total = batch.length := by
  rw [batchCounts]
  split
  · exact Nat.add_zero _
  · next hinsert =>
      rw [if_pos (hwrites.resolve_left hinsert)]
      exact length_partition values task.pk columns _ batch

theorem eval_batchBody (values : Values V) (task : Task V) (columns : List String)
    (batch : List (Data V)) (w : World V) :
    ∃ out w', (batchBody values task columns batch).eval (migExec values) w = (.ok out, w') ∧
      InBatch w w' ∧ Settles batch (batchCounts values task columns batch (w.target task.target))
        (Function.update w.target task.target
          (batchRows values task columns batch (w.target task.target))) out w' := by
  rw [batchBody, batchCounts, batchRows]
  split
  · exact eval_insertBatch task.target batch w
  · split
    · exact eval_upsertBatch task.target columns task.pk batch w
    · exact ⟨_, _, rfl, .refl w, .inl ⟨rfl, (Function.update_eq_self _ _).symm⟩⟩

/-- What raises nothing is not tried again. -/
theorem eval_retry {p : Prog (migI V) MigError α} {a : α} (n : ℕ)
    (h : p.eval (migExec values) w = (.ok a, w')) :
    (retryOnConnectionError (n + 1) p).eval (migExec values) w = (.ok a, w') := by
  rw [retryOnConnectionError, Prog.eval_handle, h]

/-- What is left by a batch, or by several. -/
structure Within (w w' : World V) : Prop where
  keeps : Keeps w w'
  committed : w'.committed = w.committed

theorem Within.refl (w : World V) : Within w w := ⟨.refl w, rfl⟩

theorem Within.trans {w₁ w₂ w₃ : World V} (h : Within w₁ w₂) (h' : Within w₂ w₃) :
    Within w₁ w₃ :=
  ⟨h.1.trans h'.1, h'.2.trans h.2⟩

/-- A batch whose statements raised nothing is done. -/
theorem eval_executeBatch_of_done {task : Task V} {columns : List String} {batch : List (Data V)}
    {counts : BatchResult}
    (h : (batchBody values task columns batch).eval (migExec values) w =
      (.ok (counts, none), w')) :
    (executeBatch values task columns batch).eval (migExec values) w = (.ok counts, w') := by
  apply eval_retry 2
  rw [executeBatchOnce, Prog.eval_bind, h]
  rfl

/-- A batch that broke is logged, and its caller is not told. -/
theorem eval_executeBatch_of_failed {task : Task V} {columns : List String}
    {batch : List (Data V)} {counts : BatchResult} {e : MigError}
    (h : (batchBody values task columns batch).eval (migExec values) w =
      (.ok (counts, some e), w')) :
    (executeBatch values task columns batch).eval (migExec values) w =
      (.ok counts,
        { w' with stats := w'.stats.add (.error ("Batch operation error: " ++ e.text)) }) := by
  apply eval_retry 2
  rw [executeBatchOnce, Prog.eval_bind, h]
  rfl

/-- **One batch.** It raises nothing, so it is not tried again. It is done, or it is logged, with
fewer rows counted than it has. -/
theorem eval_executeBatch (values : Values V) (task : Task V) (columns : List String)
    (batch : List (Data V)) (w : World V) :
    ∃ counts w', (executeBatch values task columns batch).eval (migExec values) w =
        (.ok counts, w') ∧ Within w w' ∧
      ((counts = batchCounts values task columns batch (w.target task.target) ∧
          w'.stats = w.stats ∧ w'.target = Function.update w.target task.target
            (batchRows values task columns batch (w.target task.target))) ∨
        ∃ message, w'.stats = w.stats.add (.error message) ∧ counts.total < batch.length) := by
  obtain ⟨⟨counts, failure⟩, w₁, heval, hkeeps, hsettles⟩ :=
    eval_batchBody values task columns batch w
  have hwithin : Within w w₁ := ⟨hkeeps.silent.keeps, hkeeps.committed⟩
  have hstats : w₁.stats = w.stats := hkeeps.silent.stats
  cases failure with
  | none =>
      refine ⟨counts, w₁, eval_executeBatch_of_done heval, hwithin, .inl ?_⟩
      rcases hsettles with ⟨hout, htarget⟩ | ⟨hsome, -⟩
      · exact ⟨(Prod.mk.inj hout).1, hstats, htarget⟩
      · cases hsome
  | some e =>
      refine ⟨counts, _, eval_executeBatch_of_failed heval, ?_, .inr ?_⟩
      · exact ⟨⟨hwithin.1.sourceColumns, hwithin.1.source, hwithin.1.targetColumns⟩, hwithin.2⟩
      · rcases hsettles with ⟨hout, -⟩ | ⟨-, -, hlt⟩
        · cases (Prod.mk.inj hout).2
        · exact ⟨"Batch operation error: " ++ e.text, by rw [hstats], hlt⟩

/-! ### The rows of a task -/

/-- The batches that rows are cut into. -/
def chunks {β : Type} (size : ℕ) : List β → List β → List (List β)
  | [], batch => if batch.isEmpty then [] else [batch]
  | x :: rest, batch =>
      if size ≤ (batch ++ [x]).length then (batch ++ [x]) :: chunks size rest []
      else chunks size rest (batch ++ [x])

theorem flatten_chunks {β : Type} (size : ℕ) (rest batch : List β) :
    (chunks size rest batch).flatten = batch ++ rest := by
  induction rest generalizing batch with
  | nil =>
      rw [chunks]
      split
      · next h => rw [List.isEmpty_iff.mp h, List.flatten_nil, List.append_nil]
      · rw [List.flatten_singleton, List.append_nil]
  | cons x rest ih =>
      rw [chunks]
      split
      · rw [List.flatten_cons, ih, List.nil_append, List.append_assoc, List.singleton_append]
      · rw [ih, List.append_assoc, List.singleton_append]

/-- What some batches count and leave. -/
def batchesDone (values : Values V) (task : Task V) (columns : List String)
    (counts : BatchResult) (rows : List (Row V)) : List (List (Data V)) → BatchResult × List (Row V)
  | [] => (counts, rows)
  | batch :: batches =>
      batchesDone values task columns (counts.add (batchCounts values task columns batch rows))
        (batchRows values task columns batch rows) batches

/-- Rows that do not fill a batch are put before the others. -/
theorem chunks_append {β : Type} {size : ℕ} (rest batch first : List β)
    (h : (first ++ batch).length < size) :
    chunks size (batch ++ rest) first = chunks size rest (first ++ batch) := by
  induction batch generalizing first with
  | nil => rw [List.nil_append, List.append_nil]
  | cons x batch ih =>
      have hcons : first ++ x :: batch = first ++ [x] ++ batch := by simp
      have hfull : ¬size ≤ (first ++ [x]).length := by
        simp only [List.length_append, List.length_cons, List.length_nil] at h ⊢
        omega
      rw [List.cons_append, chunks, if_neg hfull, ih (first ++ [x]) (hcons ▸ h), hcons]

/-- What becomes of the rows of a task: some batches are logged, with the rows that are not counted,
or all of them are done. -/
structure RowsRun (values : Values V) (task : Task V) (columns : List String) (size : ℕ)
    (rows : List (Data V)) (counts : BatchResult) (w : World V) (result : BatchResult)
    (w' : World V) (errors : List String) (lost : ℕ) : Prop where
  within : Within w w'
  stats : w'.stats = { w.stats with errors := w.stats.errors ++ errors }
  total : task.writes → result.total + lost = counts.total + rows.length
  lost_le : lost ≤ size * errors.length
  le_lost : errors.length ≤ lost
  done : errors = [] → result = (batchesDone values task columns counts (w.target task.target)
      (chunks size rows [])).1 ∧
    w'.target = Function.update w.target task.target (batchesDone values task columns counts
      (w.target task.target) (chunks size rows [])).2

theorem total_add (a b : BatchResult) : (a.add b).total = a.total + b.total := by
  simp only [BatchResult.add, BatchResult.total]
  omega

/-- No rows are left. -/
theorem RowsRun.nil (size : ℕ) (counts : BatchResult) (w : World V) :
    RowsRun values task columns size [] counts w counts w [] 0 where
  within := .refl w
  stats := by rw [List.append_nil]
  total _ := rfl
  lost_le := Nat.zero_le _
  le_lost := Nat.le_refl 0
  done _ := ⟨rfl, (Function.update_eq_self _ _).symm⟩

/-- **A batch**, and the rest. -/
theorem RowsRun.cons {size : ℕ} {rest : List (Data V)} {counts counts₁ result : BatchResult}
    {w₁ : World V} {errors : List String} {lost : ℕ}
    (h : RowsRun values task columns size rest (counts.add counts₁) w₁ result w' errors lost)
    (hlength : batch.length ≤ size) (hwithin : Within w w₁)
    (hchunks : chunks size (batch ++ rest) [] = batch :: chunks size rest [])
    (hcases : (counts₁ = batchCounts values task columns batch (w.target task.target) ∧
        w₁.stats = w.stats ∧ w₁.target = Function.update w.target task.target
          (batchRows values task columns batch (w.target task.target))) ∨
      ∃ message, w₁.stats = w.stats.add (.error message) ∧ counts₁.total < batch.length) :
    ∃ errors lost, RowsRun values task columns size (batch ++ rest) counts w result w' errors
      lost := by
  rcases hcases with ⟨rfl, hstats, htarget⟩ | ⟨message, hstats, hlt⟩
  · refine ⟨errors, lost, hwithin.trans h.within, by rw [h.stats, hstats], fun hwrites => ?_,
      h.lost_le, h.le_lost, fun hnone => ?_⟩
    · have htotal := h.total hwrites
      rw [total_add, total_batchCounts hwrites] at htotal
      rw [List.length_append]
      omega
    · obtain ⟨hresult, hdone⟩ := h.done hnone
      rw [htarget, Function.update_self] at hresult hdone
      rw [hchunks, batchesDone]
      exact ⟨hresult, by rw [hdone, Function.update_idem]⟩
  · refine ⟨message :: errors, lost + (batch.length - counts₁.total), hwithin.trans h.within, ?_,
      fun hwrites => ?_, ?_, ?_, fun hnone => by cases hnone⟩
    · rw [h.stats, hstats, Stats.add, List.append_assoc, List.singleton_append]
    · have htotal := h.total hwrites
      rw [total_add] at htotal
      rw [List.length_append]
      omega
    · have hlost := h.lost_le
      rw [List.length_cons, Nat.mul_succ]
      omega
    · have hlost := h.le_lost
      rw [List.length_cons]
      omega

/-- **The rows of a task.** -/
theorem eval_processRows (values : Values V) (task : Task V) (columns : List String) (size : ℕ)
    (rest batch : List (Data V)) (hbatch : batch.length < size) (counts : BatchResult)
    (w : World V) :
    ∃ result w' errors lost,
      (processRows values task columns size rest batch counts).eval (migExec values) w =
          (.ok result, w') ∧
        RowsRun values task columns size (batch ++ rest) counts w result w' errors lost := by
  have hchunks (rest : List (Data V)) (batch : List (Data V)) (h : batch.length < size) :
      chunks size (batch ++ rest) [] = chunks size rest batch :=
    chunks_append rest batch [] h
  induction rest generalizing batch counts w with
  | nil =>
      rw [processRows]
      split
      · next hnone =>
          rw [List.isEmpty_iff.mp hnone]
          exact ⟨counts, w, [], 0, rfl, .nil size counts w⟩
      · next hsome =>
          obtain ⟨counts₁, w₁, heval, hwithin, hcases⟩ :=
            eval_executeBatch values task columns batch w
          have hone : chunks size (batch ++ []) [] = batch :: chunks size [] [] := by
            rw [hchunks [] batch hbatch, chunks, if_neg hsome]
            rfl
          rw [Prog.eval_bind, heval]
          obtain ⟨errors, lost, hrun⟩ := (RowsRun.nil size (counts.add counts₁) w₁).cons
            (Nat.le_of_lt hbatch) hwithin hone hcases
          exact ⟨counts.add counts₁, w₁, errors, lost, rfl, hrun⟩
  | cons x rest ih =>
      have hcons : batch ++ x :: rest = batch ++ [x] ++ rest := by simp
      rw [processRows, hcons]
      split
      · next hfull =>
          obtain ⟨counts₁, w₁, heval, hwithin, hcases⟩ :=
            eval_executeBatch values task columns (batch ++ [x]) w
          have hnext : chunks size (batch ++ [x] ++ rest) [] =
              (batch ++ [x]) :: chunks size rest [] := by
            rw [← hcons, hchunks (x :: rest) batch hbatch, chunks, if_pos hfull]
          obtain ⟨result, w', errors, lost, heval', hrun⟩ :=
            ih [] (Nat.lt_of_le_of_lt (Nat.zero_le _) hbatch) (counts.add counts₁) w₁
          obtain ⟨errors', lost', hrun'⟩ := hrun.cons
            (by rw [List.length_append, List.length_singleton]; exact hbatch) hwithin hnext hcases
          refine ⟨result, w', errors', lost', ?_, hrun'⟩
          rw [Prog.eval_bind, heval]
          exact heval'
      · next hfull => exact ih (batch ++ [x]) (Nat.lt_of_not_le hfull) counts w

end Batches

end Migrator

end Fctf
