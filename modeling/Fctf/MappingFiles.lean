import Fctf.MigrationResult

/-!
# The Mapping Files

`mapping_fctf_to_ctfd.json` and `mapping_ctfd_to_fctf.json` list the tables that are migrated, with
the columns that are carried over under the same name. All tables but two have the same columns in
both files. For these, a migration there and back leaves every row as it was.

The exceptions: some columns of `challenges` are set to constants, and on the way back those of
`dynamic_challenge` are taken from columns that are named otherwise on the way there.

## Main results

* `there_and_back`: the rows of the first database after a migration to the second and one back.
-/

open Concurrent

namespace Fctf

namespace Migrator

variable {V : Type} {values : Values V} {task back : Task V} {cols pk : List String}
  {sourceColumns : List String} {targetColumns : List Column} {row : Row V}

/-! ### The files -/

/-- `{"from": name}`, for columns of the same name. -/
def same (cols : List String) : List (String × Mapping V) :=
  cols.map fun column => (column, ⟨some column, none⟩)

/-- `{"const": value}`. -/
def constant (column : String) (v : V) : String × Mapping V := (column, ⟨none, some v⟩)

/-- A task between tables of the same name, with the key `id`. -/
def upsertTask (name : String) (columns : List (String × Mapping V)) : Task V where
  name := name
  source := name
  target := name
  pk := ["id"]
  mode := "upsert"
  columns := columns
  preSQL := []
  postSQL := []

/-- A task while foreign keys are not checked. -/
def uncheckedTask (name : String) (columns : List (String × Mapping V)) : Task V :=
  { upsertTask name columns with
    preSQL := ["SET FOREIGN_KEY_CHECKS=0"]
    postSQL := ["SET FOREIGN_KEY_CHECKS=1"] }

/-- The tasks up to those of the challenges. -/
def peopleTasks : List (Task V) :=
  [upsertTask "brackets" (same ["id", "name", "description", "type"]),
    upsertTask "config" (same ["id", "key", "value"]),
    uncheckedTask "teams" (same ["id", "oauth_id", "name", "email", "password", "secret",
      "website", "affiliation", "country", "bracket_id", "hidden", "banned", "captain_id",
      "created"]),
    uncheckedTask "users" (same ["id", "oauth_id", "name", "password", "email", "type", "secret",
      "website", "affiliation", "country", "hidden", "banned", "verified", "team_id", "created",
      "language", "bracket_id"])]

/-- The tasks after those of the challenges. -/
def playTasks : List (Task V) :=
  [upsertTask "flags" (same ["id", "challenge_id", "type", "content", "data"]),
    upsertTask "hints" (same ["id", "challenge_id", "content", "cost", "requirements", "type"]),
    upsertTask "tags" (same ["id", "challenge_id", "value"]),
    upsertTask "topics" (same ["id", "value"]),
    uncheckedTask "challenge_topics" (same ["id", "challenge_id", "topic_id"]),
    uncheckedTask "submissions" (same ["id", "challenge_id", "user_id", "team_id", "ip",
      "provided", "type", "date"]),
    upsertTask "solves" (same ["id", "challenge_id", "user_id", "team_id"]),
    upsertTask "unlocks" (same ["id", "user_id", "team_id", "target", "date", "type"]),
    upsertTask "awards" (same ["id", "user_id", "team_id", "type", "name", "description", "date",
      "value", "category", "icon", "requirements"]),
    upsertTask "comments" (same ["id", "type", "content", "date", "author_id", "challenge_id",
      "user_id", "team_id"]),
    upsertTask "fields" (same ["id", "name", "type", "field_type", "description", "required",
      "public", "editable"]),
    upsertTask "field_entries" (same ["id", "type", "field_id", "value", "user_id", "team_id"]),
    upsertTask "files" (same ["id", "type", "location", "challenge_id", "sha1sum"]),
    upsertTask "tracking" (same ["id", "type", "ip", "user_id", "date"])]

/-- The columns of a challenge that both have. -/
def challengeColumns : List String :=
  ["id", "name", "description", "max_attempts", "value", "category", "type", "state",
    "requirements", "connection_info", "next_id"]

/-- The constants of the files. -/
structure Constants (V : Type) where
  null : V
  number : ℤ → V
  text : String → V

/-- `mapping_fctf_to_ctfd.json`. -/
def fctfToCtfdTasks (k : Constants V) : List (Task V) :=
  peopleTasks ++
    [uncheckedTask "challenges" (same challengeColumns ++ [constant "require_deploy" (k.number 0),
        constant "deploy_status" (k.text "CREATED"), constant "user_id" (k.number 1),
        constant "time_limit" (k.number (-1)), constant "initial" k.null,
        constant "minimum" k.null, constant "decay" k.null, constant "function" k.null,
        constant "attribution" k.null, constant "logic" (k.text "")]),
      uncheckedTask "dynamic_challenge" (same ["id", "initial", "minimum", "decay", "function"])] ++
    playTasks

/-- `mapping_ctfd_to_fctf.json`. -/
def ctfdToFctfTasks (k : Constants V) : List (Task V) :=
  peopleTasks ++
    [uncheckedTask "challenges" (same challengeColumns ++ [constant "require_deploy" (k.number 0),
        constant "deploy_status" (k.text "CREATED"), constant "user_id" (k.number 1)]),
      uncheckedTask "dynamic_challenge" (same ["id"] ++
        [("initial", ⟨some "dynamic_initial", none⟩), ("minimum", ⟨some "dynamic_minimum", none⟩),
          ("decay", ⟨some "dynamic_decay", none⟩),
          ("function", ⟨some "dynamic_function", none⟩)])] ++
    playTasks

/-! ### The columns of a row -/

/-- The mapped columns are those that both tables have. -/
theorem mem_mapRow {names : List String} {c : String × V} :
    c ∈ mapRow sourceColumns names (same cols) row ↔
      c.1 ∈ cols ∧ c.1 ∈ names ∧ c.1 ∈ sourceColumns ∧ row c.1 = c.2 := by
  simp only [mapRow, same, mapColumn, List.mem_filterMap, List.mem_map, exists_exists_and_eq_and,
    List.contains_iff_mem]
  constructor
  · rintro ⟨column, hcolumn, hmapped⟩
    split at hmapped
    · next htarget =>
        split at hmapped
        · next hsource =>
            obtain rfl := Option.some.inj hmapped
            exact ⟨hcolumn, htarget, hsource, rfl⟩
        · cases hmapped
    · cases hmapped
  · rintro ⟨hcolumn, htarget, hsource, hvalue⟩
    refine ⟨c.1, hcolumn, ?_⟩
    rw [if_pos htarget, if_pos hsource, hvalue]

theorem lookup_mapRow {names : List String} {column : String} (hcolumn : column ∈ cols)
    (htarget : column ∈ names) (hsource : column ∈ sourceColumns) :
    (mapRow sourceColumns names (same cols) row).lookup column = some (row column) := by
  have hmem : (column, row column) ∈ mapRow sourceColumns names (same cols) row :=
    mem_mapRow.mpr ⟨hcolumn, htarget, hsource, rfl⟩
  cases hfound : (mapRow sourceColumns names (same cols) row).lookup column with
  | none =>
      have hnone := List.lookup_eq_none_iff.mp hfound _ hmem
      simp at hnone
  | some v =>
      obtain ⟨l₁, l₂, hsplit, -⟩ := List.lookup_eq_some_iff.mp hfound
      have hv : (column, v) ∈ mapRow sourceColumns names (same cols) row := by
        rw [hsplit]
        exact List.mem_append_right _ List.mem_cons_self
      rw [(mem_mapRow.mp hv).2.2.2]

/-- What has a value keeps it. -/
theorem lookup_addDefaults {data : Data V} {column : String} {v : V}
    (h : data.lookup column = some v) :
    (addDefaults values targetColumns data).lookup column = some v := by
  induction targetColumns generalizing data with
  | nil => exact h
  | cons c targetColumns ih =>
      refine ih ?_
      dsimp only
      split
      · exact h
      · split
        · rw [List.lookup_append, h, Option.some_or]
        · exact h

/-- What is added are the columns that need a value and have none. -/
theorem mem_addDefaults {data : Data V} {c : String × V}
    (h : c ∈ addDefaults values targetColumns data) :
    c ∈ data ∨ ∃ column ∈ targetColumns, column.required = true ∧ column.name = c.1 ∧
      data.lookup c.1 = none := by
  induction targetColumns generalizing data with
  | nil => exact .inl h
  | cons column targetColumns ih =>
      rcases ih h with h | ⟨other, hother, hrequired, hname, hnone⟩
      · dsimp only at h
        split at h
        · exact .inl h
        · next hnone =>
            split at h
            · next hrequired =>
                rcases List.mem_append.mp h with h | h
                · exact .inl h
                · obtain rfl := List.mem_singleton.mp h
                  exact .inr ⟨column, List.mem_cons_self, hrequired, rfl,
                    Option.not_isSome_iff_eq_none.mp hnone⟩
            · exact .inl h
      · refine .inr ⟨other, List.mem_cons_of_mem _ hother, hrequired, hname, ?_⟩
        dsimp only at hnone
        split at hnone
        · exact hnone
        · split at hnone
          · rw [List.lookup_append] at hnone
            exact (Option.or_eq_none_iff.mp hnone).1
          · exact hnone

/-- The key of a row that carries it. -/
theorem keyOfData_targetData (hcols : task.columns = same cols)
    (hpk : ∀ column ∈ pk, column ∈ cols ∧ column ∈ sourceColumns ∧
      column ∈ targetColumns.map (·.name)) :
    keyOfData pk (targetData values task sourceColumns targetColumns row) = pk.map row := by
  rw [keyOfData, ← List.filterMap_eq_map]
  refine List.filterMap_congr fun column hcolumn => ?_
  obtain ⟨hcol, hsource, htarget⟩ := hpk column hcolumn
  rw [targetData, hcols]
  exact lookup_addDefaults (lookup_mapRow hcol htarget hsource)

/-! ### There and back -/

/-- A row that was carried over with its values, and is carried back, has nothing to change. -/
theorem hasChanges_back {names : List String} {there : List Column} {far : Row V}
    (hsymm : ∀ a b, values.py a b = true → values.py b a = true)
    (hthere : task.columns = same cols) (hback : back.columns = same cols)
    (hnames : targetColumns.map (·.name) = names)
    (hrequired : ∀ column ∈ targetColumns, column.required = true →
      column.name ∈ cols ∧ column.name ∈ there.map (·.name))
    (hsame : hasChanges values pk (there.map (·.name)) far
      (targetData values task names there row) = false) :
    hasChanges values pk names row
      (targetData values back (there.map (·.name)) targetColumns far) = false := by
  rw [hasChanges, List.any_eq_false]
  intro c hc hchanged
  simp only [Bool.and_eq_true, Bool.not_eq_true', List.contains_iff_mem] at hchanged
  obtain ⟨⟨hkey, hname⟩, hdiffers⟩ := hchanged
  rw [targetData, hback] at hc
  rcases mem_addDefaults hc with hmapped | ⟨column, hcolumn, hneeds, hcname, hnone⟩
  · obtain ⟨hcol, -, hfar, hvalue⟩ := mem_mapRow.mp hmapped
    have hdata : (c.1, row c.1) ∈ targetData values task names there row := by
      rw [targetData, hthere]
      have hlookup : (addDefaults values there (mapRow names (there.map (·.name)) (same cols)
          row)).lookup c.1 = some (row c.1) := lookup_addDefaults (lookup_mapRow hcol hfar hname)
      obtain ⟨l₁, l₂, hsplit, -⟩ := List.lookup_eq_some_iff.mp hlookup
      rw [hsplit]
      exact List.mem_append_right _ List.mem_cons_self
    rw [hasChanges, List.any_eq_false] at hsame
    have hcarried := hsame _ hdata
    simp only [hkey, List.contains_iff_mem.mpr hfar, Bool.not_false, Bool.true_and,
      Bool.not_eq_true', Bool.not_eq_false] at hcarried
    rw [← hvalue, hsymm _ _ hcarried] at hdiffers
    cases hdiffers
  · obtain ⟨hcol, hfar⟩ := hrequired column hcolumn hneeds
    rw [hcname] at hcol hfar
    rw [lookup_mapRow hcol (hnames ▸ hname) hfar] at hnone
    cases hnone

/-! ### The tasks of the files -/

/-- The tasks of the files have one form. -/
structure Plain (task : Task V) : Prop where
  mode : task.mode = "upsert"
  pk : task.pk = ["id"]
  source : task.source = task.target
  preSQL : ∀ sql ∈ task.preSQL, sql = "SET FOREIGN_KEY_CHECKS=0"
  postSQL : ∀ sql ∈ task.postSQL, sql = "SET FOREIGN_KEY_CHECKS=1"

theorem plain_upsertTask (name : String) (columns : List (String × Mapping V)) :
    Plain (upsertTask name columns) where
  mode := rfl
  pk := rfl
  source := rfl
  preSQL _ h := by cases h
  postSQL _ h := by cases h

theorem plain_uncheckedTask (name : String) (columns : List (String × Mapping V)) :
    Plain (uncheckedTask name columns) where
  mode := rfl
  pk := rfl
  source := rfl
  preSQL _ h := List.mem_singleton.mp h
  postSQL _ h := List.mem_singleton.mp h

theorem plain_fctfToCtfdTasks (k : Constants V) : ∀ task ∈ fctfToCtfdTasks k, Plain task := by
  simp [fctfToCtfdTasks, peopleTasks, playTasks, plain_upsertTask, plain_uncheckedTask]

theorem plain_ctfdToFctfTasks (k : Constants V) : ∀ task ∈ ctfdToFctfTasks k, Plain task := by
  simp [ctfdToFctfTasks, peopleTasks, playTasks, plain_upsertTask, plain_uncheckedTask]

/-- The files have the same tables, and none of them twice. -/
theorem targets_eq (k : Constants V) :
    (fctfToCtfdTasks k).map Task.target = (ctfdToFctfTasks k).map Task.target := rfl

theorem nodup_targets (k : Constants V) : ((ctfdToFctfTasks k).map Task.target).Nodup := by
  change ["brackets", "config", "teams", "users", "challenges", "dynamic_challenge", "flags",
    "hints", "tags", "topics", "challenge_topics", "submissions", "solves", "unlocks", "awards",
    "comments", "fields", "field_entries", "files", "tracking"].Nodup
  decide

/-- The columns that a task names. -/
def Task.names (task : Task V) : List String := task.columns.map Prod.fst

/-- A table is carried over with its key. -/
structure Carried (task : Task V) : Prop where
  target : task.target ≠ "dynamic_challenge"
  columns : task.columns = same task.names
  id : "id" ∈ task.names

theorem names_same (cols : List String) :
    (same cols : List (String × Mapping V)).map Prod.fst = cols := by
  rw [same, List.map_map]
  exact List.map_id cols

theorem carried_upsertTask {name : String} (hname : name ≠ "dynamic_challenge")
    (hid : "id" ∈ cols) : Carried (upsertTask name (same cols) : Task V) where
  target := hname
  columns := congrArg same (names_same cols).symm
  id := by
    change "id" ∈ (same cols : List (String × Mapping V)).map Prod.fst
    rwa [names_same]

theorem carried_uncheckedTask {name : String} (hname : name ≠ "dynamic_challenge")
    (hid : "id" ∈ cols) : Carried (uncheckedTask name (same cols) : Task V) where
  target := hname
  columns := congrArg same (names_same cols).symm
  id := by
    change "id" ∈ (same cols : List (String × Mapping V)).map Prod.fst
    rwa [names_same]

/-- **The tables that are carried over** are the same in both files. -/
theorem carried_of_mem : ∀ task ∈ (peopleTasks ++ playTasks : List (Task V)), Carried task := by
  simp [peopleTasks, playTasks, carried_upsertTask, carried_uncheckedTask]

theorem mem_files (k : Constants V) (h : task ∈ peopleTasks ++ playTasks) :
    task ∈ fctfToCtfdTasks k ∧ task ∈ ctfdToFctfTasks k := by
  rw [fctfToCtfdTasks, ctfdToFctfTasks, List.append_assoc, List.append_assoc]
  rcases List.mem_append.mp h with h | h
  · exact ⟨List.mem_append_left _ h, List.mem_append_left _ h⟩
  · exact ⟨List.mem_append_right _ (List.mem_append_right _ h),
      List.mem_append_right _ (List.mem_append_right _ h)⟩

/-- What a database promises for the tasks of a file: the session starts with nothing pending, the
checks of foreign keys change no table, and the keys are sound. -/
structure Ready (values : Values V) (isKey : V → Prop) (direction : Direction)
    (tasks : List (Task V)) (w : World V) : Prop where
  clean : w.target = w.committed
  checks : ∀ sql ∈ ["SET FOREIGN_KEY_CHECKS=0", "SET FOREIGN_KEY_CHECKS=1"],
    ∀ tables, values.run sql tables = tables
  sound : ∀ task ∈ tasks, ¬Rebuilt direction task.target →
    Sound values ["id"] isKey (taskData values task w) (w.committed task.target)

theorem Ready.migratable {isKey : V → Prop} {direction : Direction} {tasks : List (Task V)}
    {w : World V} (h : Ready values isKey direction tasks w) (hplain : ∀ task ∈ tasks, Plain task)
    (htargets : (tasks.map Task.target).Nodup) :
    Migratable values isKey direction tasks w w.committed where
  targets := htargets
  preSQL task ht sql hsql := by
    rw [(hplain task ht).preSQL sql hsql]
    exact h.checks _ List.mem_cons_self
  postSQL task ht sql hsql := by
    rw [(hplain task ht).postSQL sql hsql]
    exact h.checks _ (List.mem_cons_of_mem _ List.mem_cons_self)
  prepared task ht hrebuilt :=
    ⟨(hplain task ht).mode, (hplain task ht).pk ▸ h.sound task ht hrebuilt⟩

/-- What a migration back has for its databases, after one there. -/
structure Back (w w₁ w₂ : World V) : Prop where
  source : w₂.source = w₁.committed
  committed : w₂.committed = w.source
  sourceColumns : ∀ table, w₂.sourceColumns table = (w.targetColumns table).map (·.name)
  targetColumns : ∀ table, (w₂.targetColumns table).map (·.name) = w.sourceColumns table

section Tasks

variable [DecidableEq V] {isKey : V → Prop}

/-- **A row survives**: it is carried there and back. -/
theorem mem_taskRows_back {w w₁ w₂ : World V} (hback : Back w w₁ w₂)
    (hsymm : ∀ a b, values.py a b = true → values.py b a = true)
    (hdone : w₁.committed task.target = taskRows values task w (w.committed task.target))
    (hsound : Sound values task.pk isKey (taskData values task w) (w.committed task.target))
    (hthere : task.columns = same cols) (hcols : back.columns = same cols)
    (hpk : back.pk = task.pk) (hsource : back.source = task.target)
    (htarget : back.target = task.source)
    (hkeys : ∀ column ∈ task.pk, column ∈ cols ∧ column ∈ w.sourceColumns task.source ∧
      column ∈ (w.targetColumns task.target).map (·.name))
    (hrequired : ∀ column ∈ w₂.targetColumns task.source, column.required = true →
      column.name ∈ cols ∧ column.name ∈ (w.targetColumns task.target).map (·.name))
    (hrow : row ∈ w.source task.source) :
    row ∈ taskRows values back w₂ (w₂.committed back.target) := by
  rw [htarget, hback.committed]
  refine Upsert.mem_rows_of_same hrow fun d hd hkey => ?_
  change keyOfData back.pk d = back.pk.map row at hkey
  change hasChanges values back.pk (taskColumns back w₂) row d = false
  obtain ⟨far, hfar, rfl⟩ := List.mem_map.mp hd
  rw [hsource, hback.source, hdone, taskRows] at hfar
  rw [hpk] at hkey ⊢
  rw [hsource, htarget, hback.sourceColumns] at hkey
  rw [taskColumns, hsource, htarget, hback.sourceColumns]
  have hnames := hback.targetColumns task.source
  -- the row that comes back is the one that the row was carried to
  have hthereMem : targetData values task (w.sourceColumns task.source)
      (w.targetColumns task.target) row ∈ taskData values task w := List.mem_map_of_mem hrow
  obtain ⟨far', hfar', hkey', hsame⟩ := Upsert.settled_of_mem
    (scheme_lawful values task.target task.pk (taskColumns task w) isKey) hsound.data hsound.keys
      hthereMem
  change task.pk.map far' = keyOfData task.pk _ at hkey'
  rw [keyOfData_targetData hthere hkeys] at hkey'
  rw [keyOfData_targetData hcols fun column hcolumn => ?_] at hkey
  · obtain rfl : far = far' :=
      List.inj_on_of_nodup_map hsound.nodup_rows hfar hfar' (hkey.trans hkey'.symm)
    rw [hnames]
    exact hasChanges_back hsymm hthere hcols hnames hrequired hsame
  · obtain ⟨hcol, hnear, hfarColumn⟩ := hkeys column hcolumn
    exact ⟨hcol, hfarColumn, hnames ▸ hnear⟩

/-- **There and back.** After `fctf_to_ctfd` and then `ctfd_to_fctf` on the same databases, both
without an error, every row of a table that is carried over is there as it was, if the columns that
the first platform needs are all carried, and the other platform has them. -/
theorem there_and_back (k : Constants V) (w w₁ w₂ w₃ : World V) (task : Task V) (row : Row V)
    (hsymm : ∀ a b, values.py a b = true → values.py b a = true)
    (hready : Ready values isKey .fctfToCtfd (fctfToCtfdTasks k) w)
    (h : (migrate values (fctfToCtfdTasks k) .fctfToCtfd).eval (migExec values) w = (.ok true, w₁))
    (hcalm : w₁.stats.errors = w.stats.errors) (hback : Back w w₁ w₂)
    (hready₂ : Ready values isKey .ctfdToFctf (ctfdToFctfTasks k) w₂)
    (h₂ : (migrate values (ctfdToFctfTasks k) .ctfdToFctf).eval (migExec values) w₂ =
      (.ok true, w₃))
    (hcalm₂ : w₃.stats.errors = w₂.stats.errors) (htask : task ∈ peopleTasks ++ playTasks)
    (hid : "id" ∈ w.sourceColumns task.target ∧
      "id" ∈ (w.targetColumns task.target).map (·.name))
    (hrequired : ∀ column ∈ w₂.targetColumns task.target, column.required = true →
      column.name ∈ task.names ∧ column.name ∈ (w.targetColumns task.target).map (·.name))
    (hrow : row ∈ w.source task.target) : row ∈ w₃.committed task.target := by
  have hcarried := carried_of_mem task htask
  obtain ⟨hmem, hmem₂⟩ := mem_files k htask
  have hplain := plain_fctfToCtfdTasks k task hmem
  have hrebuilt (direction : Direction) : ¬Rebuilt direction task.target :=
    fun h => hcarried.target h.1
  have hm := hready.migratable (plain_fctfToCtfdTasks k) (targets_eq k ▸ nodup_targets k)
  have hm₂ := hready₂.migratable (plain_ctfdToFctfTasks k) (nodup_targets k)
  have hdone := (migrate_leaves hm hready.clean h hcalm).1 task hmem (hrebuilt _)
  have hdone₂ := (migrate_leaves hm₂ hready₂.clean h₂ hcalm₂).1 task hmem₂ (hrebuilt _)
  rw [← hplain.source] at hid hrequired hrow
  rw [hdone₂]
  refine mem_taskRows_back hback hsymm hdone (hm.prepared task hmem (hrebuilt _)).sound
    hcarried.columns hcarried.columns rfl hplain.source hplain.source.symm
    (fun column hcolumn => ?_) (fun column hcolumn hneeds => ?_) hrow
  · rw [hplain.pk, List.mem_singleton] at hcolumn
    subst hcolumn
    exact ⟨hcarried.id, hid.1, hplain.source ▸ hid.2⟩
  · rw [← hplain.source]
    exact hrequired column hcolumn hneeds

end Tasks

/-! ### An example -/

/-- The constants. -/
def exampleConstants : Constants ℤ := ⟨-1, id, fun _ => 0⟩

/-- The columns of all tables. -/
def tagColumns : List Column :=
  [⟨"id", "INT", false, false, false⟩, ⟨"challenge_id", "INT", true, false, false⟩,
    ⟨"value", "VARCHAR(80)", false, false, false⟩]

/-- Two databases with some tables. -/
def tagWorld (source target : String → List (Row ℤ)) : World ℤ where
  sourceColumns _ := tagColumns.map (·.name)
  source := source
  targetColumns _ := tagColumns
  target := target
  committed := target
  foreignKey := false
  stats := ⟨0, 0, 0, 0, []⟩
  outcomes _ := .fine
  tick := 0

/-- One tag. -/
def exampleTag : Row ℤ := fun column =>
  if column = "id" then 3 else if column = "challenge_id" then 4 else 5

/-- The first platform has a tag, and the other has nothing. -/
def tagThere : World ℤ :=
  tagWorld (fun table => if table = "tags" then [exampleTag] else []) fun _ => []

/-- After the migration there. -/
def tagFar : Except MigError Bool × World ℤ :=
  (migrate exampleValues (fctfToCtfdTasks exampleConstants) .fctfToCtfd).eval
    (migExec exampleValues) tagThere

/-- Before the migration back. -/
def tagBack : World ℤ := tagWorld tagFar.2.committed tagThere.source

/-- After it. -/
def tagNear : Except MigError Bool × World ℤ :=
  (migrate exampleValues (ctfdToFctfTasks exampleConstants) .ctfdToFctf).eval
    (migExec exampleValues) tagBack

theorem nodup_of_length_le_one {α : Type} {l : List α} (h : l.length ≤ 1) : l.Nodup := by
  match l, h with
  | [], _ => exact List.nodup_nil
  | [a], _ => exact List.nodup_singleton a

/-- A table with one tag at most is sound. -/
theorem sound_tags (task : Task ℤ) {source rows : List (Row ℤ)}
    (hcolumns : task.columns = same ["id", "challenge_id", "value"]) (hsource : source.length ≤ 1)
    (hrows : rows.length ≤ 1) :
    Sound exampleValues ["id"] (fun _ => True)
      (source.map (targetData exampleValues task (tagColumns.map (·.name)) tagColumns)) rows where
  exact := ⟨fun a b _ _ => beq_iff_eq, fun a b _ _ => beq_iff_eq⟩
  key := List.cons_ne_nil _ _
  data d hd := by
    obtain ⟨row, -, rfl⟩ := List.mem_map.mp hd
    have hdata : targetData exampleValues task (tagColumns.map (·.name)) tagColumns row =
        [("id", row "id"), ("challenge_id", row "challenge_id"), ("value", row "value")] := by
      rw [targetData, hcolumns]
      rfl
    rw [hdata]
    refine ⟨fun column hcolumn => ?_, ?_, fun c _ => beq_self_eq_true c.2⟩
    · rw [List.mem_singleton.mp hcolumn]
      exact ⟨row "id", rfl, trivial⟩
    · change ["id", "challenge_id", "value"].Nodup
      decide
  keys := nodup_of_length_le_one (by simpa using hsource)
  keyed _ _ _ _ := trivial
  rowKeys := nodup_of_length_le_one (by simpa using hrows)

/-- The worlds of the example are ready. -/
theorem ready_tags {source target : String → List (Row ℤ)} {direction : Direction}
    {tasks : List (Task ℤ)}
    (h : ∀ task ∈ tasks, (target task.target).length ≤ 1 ∧
      (source task.source = [] ∨
        task.columns = same ["id", "challenge_id", "value"] ∧ (source task.source).length ≤ 1)) :
    Ready exampleValues (fun _ => True) direction tasks (tagWorld source target) where
  clean := rfl
  checks _ _ _ := rfl
  sound task htask _ := by
    obtain ⟨hrows, hnone | ⟨hcolumns, hsource⟩⟩ := h task htask
    · have hdata : taskData exampleValues task (tagWorld source target) = [] := by
        change (source task.source).map _ = []
        rw [hnone, List.map_nil]
      have hnil : ([] : List (Row ℤ)).length ≤ 1 := Nat.zero_le 1
      rw [hdata]
      exact sound_tags (upsertTask "tags" (same ["id", "challenge_id", "value"])) rfl hnil hrows
    · exact sound_tags task hcolumns hsource hrows

theorem there_and_back_example :
    tagNear.1 = .ok true ∧ exampleTag ∈ tagNear.2.committed "tags" := by
  have h : tagFar.1 = .ok true := by decide +kernel
  have hcalm : tagFar.2.stats.errors = [] := by decide +kernel
  have h₂ : tagNear.1 = .ok true := by decide +kernel
  have hcalm₂ : tagNear.2.stats.errors = [] := by decide +kernel
  have hready : ∀ task ∈ fctfToCtfdTasks exampleConstants,
      (tagThere.target task.target).length ≤ 1 ∧ (tagThere.source task.source = [] ∨
        task.columns = same ["id", "challenge_id", "value"] ∧
          (tagThere.source task.source).length ≤ 1) := by
    decide +kernel
  have hready₂ : ∀ task ∈ ctfdToFctfTasks exampleConstants,
      (tagThere.source task.target).length ≤ 1 ∧ (tagFar.2.committed task.source = [] ∨
        task.columns = same ["id", "challenge_id", "value"] ∧
          (tagFar.2.committed task.source).length ≤ 1) := by
    decide +kernel
  refine ⟨h₂, there_and_back exampleConstants tagThere tagFar.2 tagBack tagNear.2
    (upsertTask "tags" (same ["id", "challenge_id", "value"])) exampleTag
    (fun a b hab => ?_) (ready_tags hready) (Prod.ext h rfl) hcalm ⟨rfl, rfl, fun _ => rfl,
      fun _ => rfl⟩ (ready_tags hready₂) (Prod.ext h₂ rfl) hcalm₂ ?_ ?_ ?_ ?_⟩
  · exact beq_iff_eq.mpr (beq_iff_eq.mp hab).symm
  · simp [peopleTasks, playTasks]
  · exact ⟨List.mem_cons_self, List.mem_cons_self⟩
  · intro column hcolumn _
    exact ⟨List.mem_map_of_mem hcolumn, List.mem_map_of_mem hcolumn⟩
  · exact List.mem_singleton_self _

end Migrator

end Fctf
