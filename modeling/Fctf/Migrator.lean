import Mathlib.Data.Int.Notation
import Mathlib.Logic.Function.Basic
import Fctf.Lib.Prog
import Fctf.Lib.Upsert

/-!
# The Migrator

`DataMigrator` copies tables between the databases of the two platforms. A task reads a table of
the source, maps the columns of its rows, and inserts or upserts them into a table of the target in
batches, in one transaction. A batch that fails is logged and skipped; a task that fails is rolled
back; the retries of a connection error are around both.

The database sees statements. Any of them may fail, at any time, having done some of its work, and
with or without the loss of what the transaction has done before.
-/

open Concurrent

namespace Fctf

namespace Migrator

/-! ### Mappings -/

/-- Where a column of the target comes from. -/
structure Mapping (V : Type) where
  /-- `mapping['from']`. -/
  fromColumn : Option String
  /-- The value that it has in all rows. -/
  const : Option V
  deriving DecidableEq, Repr

/-- A task. -/
structure Task (V : Type) where
  name : String
  source : String
  target : String
  /-- `task['target']['pk']`. -/
  pk : List String
  mode : String
  columns : List (String × Mapping V)
  preSQL : List String
  postSQL : List String
  deriving DecidableEq, Repr

/-- Which way the data go. -/
inductive Direction where
  | fctfToCtfd
  | ctfdToFctf
  deriving DecidableEq, Repr

/-- A column of a table, as it is reflected. -/
structure Column where
  name : String
  type : String
  nullable : Bool
  hasDefault : Bool
  hasServerDefault : Bool
  deriving DecidableEq, Repr

/-- A row of a table. -/
abbrev Row (V : Type) := String → V

/-- A dictionary of values. -/
abbrev Data (V : Type) := List (String × V)

/-- The values: those that the code mentions, and how they are compared. -/
structure Values (V : Type) where
  /-- `None`. -/
  null : V
  isNull : V → Bool
  emptyText : V
  zero : V
  zeroFloat : V
  boolFalse : V
  /-- `==` of Python. -/
  py : V → V → Bool
  /-- The equality of the database. -/
  sql : V → V → Bool
  /-- What a column gets that an insertion does not mention. -/
  unset : String → String → V
  /-- What the SQL of a mapping does to the tables. -/
  run : String → (String → List (Row V)) → String → List (Row V)

/-! ### The database -/

/-- An exception of the database. -/
structure DbError where
  /-- Is it an `OperationalError`? -/
  operational : Bool
  message : String
  code : Option ℤ
  deriving DecidableEq, Repr

/-- The exceptions. -/
inductive MigError where
  | database (e : DbError)
  | other (message : String)
  deriving DecidableEq, Repr

/-- `str(e)`. -/
def MigError.text : MigError → String
  | database e => e.message
  | other message => message

/-- What is counted. -/
inductive Note where
  | rows (n : ℕ)
  | counts (inserted updated unchanged : ℕ)
  | error (message : String)
  deriving DecidableEq, Repr

/-- `self.stats`. -/
structure Stats where
  totalRows : ℕ
  insertedRows : ℕ
  updatedRows : ℕ
  unchangedRows : ℕ
  errors : List String
  deriving DecidableEq, Repr

/-- A note is taken. -/
def Stats.add (s : Stats) : Note → Stats
  | .rows n => { s with totalRows := s.totalRows + n }
  | .counts inserted updated unchanged =>
      { s with
        insertedRows := s.insertedRows + inserted
        updatedRows := s.updatedRows + updated
        unchangedRows := s.unchangedRows + unchanged }
  | .error message => { s with errors := s.errors ++ [message] }

/-- What becomes of a statement. One that breaks may have done some of its work, and the
transaction may be lost with it. -/
inductive Outcome where
  | fine
  | broken (done : ℕ) (dropped : Bool) (e : DbError)
  deriving DecidableEq, Repr

/-- The two databases, the counts, and what becomes of the statements to come. -/
structure World (V : Type) where
  sourceColumns : String → List String
  source : String → List (Row V)
  targetColumns : String → List Column
  /-- The tables of the target as the transaction sees them. -/
  target : String → List (Row V)
  /-- What a rollback leads back to. -/
  committed : String → List (Row V)
  /-- Is there the foreign key of `dynamic_challenge`? -/
  foreignKey : Bool
  stats : Stats
  outcomes : ℕ → Outcome
  tick : ℕ

/-- What the migrator asks for. -/
inductive MigOp (V : Type) where
  | execute (sql : String)
  | commit
  | rollback
  | reflectSource (table : String)
  | reflectTarget (table : String)
  | select (table : String)
  | insert (table : String) (rows : List (Data V))
  | find (table : String) (conditions : List (Data V))
  | update (table : String) (condition values : Data V)
  | setForeignKeyChecks (on : Bool)
  | dropDynamicChallenge
  | createDynamicChallenge
  | countForeignKeys
  | existingIds (ids : List V)
  | note (n : Note)

/-- The type of an operation's reply. -/
def MigOp.Reply {V : Type} : MigOp V → Type
  | reflectSource _ => List String
  | reflectTarget _ => List Column
  | select _ => List (Row V)
  | find _ _ => List (Row V)
  | countForeignKeys => ℕ
  | existingIds _ => List V
  | _ => Unit

/-- The interface. -/
def migI (V : Type) : Interface := ⟨MigOp V, MigOp.Reply⟩

section Database

variable {V : Type} (values : Values V)

/-- Does a row meet the condition that columns have values? -/
def Row.meets (row : Row V) (condition : Data V) : Bool :=
  condition.all fun c => values.sql (row c.1) c.2

/-- The row that is inserted. -/
def freshRow (table : String) (data : Data V) : Row V := fun column =>
  (data.lookup column).getD (values.unset table column)

/-- The row with the values that are set. -/
def Row.setAll (row : Row V) (data : Data V) : Row V := fun column =>
  (data.lookup column).getD (row column)

/-- The rows of a table after an update of those that meet a condition. -/
def updateRows (condition data : Data V) (rows : List (Row V)) : List (Row V) :=
  rows.map fun row => if row.meets values condition then row.setAll data else row

namespace World

variable (w : World V)

/-- The tables of the target with another content of one of them. -/
def withTable (table : String) (rows : List (Row V)) : World V :=
  { w with target := Function.update w.target table rows }

/-- `INSERT`. -/
def insert (table : String) (rows : List (Data V)) : World V :=
  w.withTable table (w.target table ++ rows.map (freshRow values table))

/-- `UPDATE`. -/
def update (table : String) (condition data : Data V) : World V :=
  w.withTable table (updateRows values condition data (w.target table))

/-- `COMMIT`. -/
def commit : World V := { w with committed := w.target }

/-- `ROLLBACK`, or the loss of the connection. -/
def rollback : World V := { w with target := w.committed }

/-- What a statement leaves that breaks. -/
def broken (dropped : Bool) : World V := if dropped then w.rollback else w

/-- A statement. It answers and acts, or it breaks after a part of its work. -/
def statement {α : Type} (answer : World V → α) (act : World V → World V)
    (part : ℕ → World V → World V) : Except MigError α × World V :=
  match w.outcomes w.tick with
  | .fine => (.ok (answer w), { act w with tick := w.tick + 1 })
  | .broken done dropped e =>
      (.error (.database e), { (part done w).broken dropped with tick := w.tick + 1 })

/-- A statement that is done or not. -/
def statement₁ (act : World V → World V) : Except MigError Unit × World V :=
  w.statement (fun _ => ()) act fun done w => if done = 0 then w else act w

/-- A query. -/
def query {α : Type} (answer : World V → α) : Except MigError α × World V :=
  w.statement answer id fun _ w => w

end World

/-- What one operation answers and does. `DROP TABLE` commits. -/
def MigOp.exec : (o : MigOp V) → World V → Except MigError o.Reply × World V
  | execute sql, w => w.statement₁ fun w => { w with target := values.run sql w.target }
  | commit, w => w.statement₁ World.commit
  | rollback, w => w.statement₁ World.rollback
  | reflectSource table, w => w.query (·.sourceColumns table)
  | reflectTarget table, w => w.query (·.targetColumns table)
  | select table, w => w.query (·.source table)
  | insert table rows, w =>
      w.statement (fun _ => ()) (·.insert values table rows) fun done w =>
        w.insert values table (rows.take done)
  | find table conditions, w =>
      w.query fun w => (w.target table).filter fun row => conditions.any (row.meets values)
  | update table condition data, w => w.statement₁ (·.update values table condition data)
  | setForeignKeyChecks _, w => w.statement₁ id
  | dropDynamicChallenge, w =>
      w.statement₁ fun w =>
        { (w.commit.withTable "dynamic_challenge" []).commit with foreignKey := false }
  | createDynamicChallenge, w => w.statement₁ fun w => { w.commit with foreignKey := true }
  | countForeignKeys, w => w.query fun w => (if w.foreignKey then 1 else 0 : ℕ)
  | existingIds ids, w =>
      w.query fun w => ((w.target "challenges").map (· "id")).filter fun id =>
        ids.any (values.sql id)
  | note n, w => (.ok (), { w with stats := w.stats.add n })

/-- The operations of the interface. -/
def migExec (o : (migI V).Op) (w : World V) : Except MigError ((migI V).Reply o) × World V :=
  MigOp.exec values o w

end Database

/-! ### Rows -/

section Rows

variable {V : Type} (values : Values V)

/-- One column, unless the target has none of that name or the source has none to take it from. -/
def mapColumn (sourceColumns targetColumns : List String) (row : Row V)
    (column : String × Mapping V) : Option (String × V) :=
  if targetColumns.contains column.1 then
    match column.2.fromColumn with
    | some source => if sourceColumns.contains source then some (column.1, row source) else none
    | none => column.2.const.map (column.1, ·)
  else none

/-- The columns of the mapping, as in `_map_rows_for_target`. -/
def mapRow (sourceColumns targetColumns : List String) (columns : List (String × Mapping V))
    (row : Row V) : Data V :=
  columns.filterMap (mapColumn sourceColumns targetColumns row)

/-- The value of a column that needs one. -/
def Column.value (column : Column) : V :=
  if "VARCHAR".isPrefixOf column.type || "TEXT".isPrefixOf column.type then values.emptyText
  else if "INT".isPrefixOf column.type || "BIGINT".isPrefixOf column.type then values.zero
  else if "FLOAT".isPrefixOf column.type || "DECIMAL".isPrefixOf column.type then values.zeroFloat
  else if "BOOL".isPrefixOf column.type then values.boolFalse
  else values.emptyText

/-- Does a column need a value? -/
def Column.required (column : Column) : Bool :=
  !column.nullable && !column.hasDefault && !column.hasServerDefault

/-- The columns that need a value and have none. -/
def addDefaults (targetColumns : List Column) (data : Data V) : Data V :=
  targetColumns.foldl (fun data column =>
    if (data.lookup column.name).isSome then data
    else if column.required then data ++ [(column.name, column.value values)]
    else data) data

/-- The row for the target. -/
def targetData (task : Task V) (sourceColumns : List String) (targetColumns : List Column)
    (row : Row V) : Data V :=
  addDefaults values targetColumns
    (mapRow sourceColumns (targetColumns.map (·.name)) task.columns row)

/-! ### Batches -/

/-- The values of the key that there are. -/
def keyOfData (pk : List String) (data : Data V) : List V :=
  pk.filterMap fun column => data.lookup column

/-- The condition that the key is that of the data. -/
def keyCondition (pk : List String) (data : Data V) : Data V :=
  pk.filterMap fun column => (data.lookup column).map (column, ·)

/-- The equality of tuples. -/
def tupleEq : List V → List V → Bool
  | [], [] => true
  | a :: as, b :: bs => values.py a b && tupleEq as bs
  | _, _ => false

/-- The row in the dictionary of existing rows. A later row replaces an earlier one. -/
def existingRow (pk : List String) (existing : List (Row V)) (data : Data V) : Option (Row V) :=
  existing.reverse.find? fun row => tupleEq values (pk.map row) (keyOfData pk data)

/-- Has anything but the key changed? -/
def hasChanges (pk columns : List String) (row : Row V) (data : Data V) : Bool :=
  data.any fun c => !pk.contains c.1 && columns.contains c.1 && !values.py (row c.1) c.2

/-- Is there no row yet? -/
def isNew (pk : List String) (existing : List (Row V)) (data : Data V) : Bool :=
  (existingRow values pk existing data).isNone

/-- Is there a row that differs? -/
def isChanged (pk columns : List String) (existing : List (Row V)) (data : Data V) : Bool :=
  (existingRow values pk existing data).any fun row => hasChanges values pk columns row data

/-- Is there a row that does not differ? -/
def isUnchanged (pk columns : List String) (existing : List (Row V)) (data : Data V) : Bool :=
  !isNew values pk existing data && !isChanged values pk columns existing data

/-- What has been counted. -/
structure BatchResult where
  inserted : ℕ
  updated : ℕ
  unchanged : ℕ
  deriving DecidableEq, Repr

/-- The sum of two. -/
def BatchResult.add (a b : BatchResult) : BatchResult :=
  ⟨a.inserted + b.inserted, a.updated + b.updated, a.unchanged + b.unchanged⟩

/-- How many rows they are. -/
def BatchResult.total (r : BatchResult) : ℕ := r.inserted + r.updated + r.unchanged

end Rows

section Programs

variable {V : Type}

/-- One operation. -/
def request (o : MigOp V) : Prog (migI V) MigError o.Reply := Prog.perform (I := migI V) o

/-- A note. -/
def note (n : Note) : Prog (migI V) MigError Unit := request (.note n)

namespace Session

/-- `target_session.execute(text(sql))`. -/
def execute (sql : String) : Prog (migI V) MigError Unit := request (.execute sql)

/-- `target_session.commit()`. -/
def commit : Prog (migI V) MigError Unit := request .commit

/-- `target_session.rollback()`. -/
def rollback : Prog (migI V) MigError Unit := request .rollback

/-- The columns of a table of the source. -/
def reflectSource (table : String) : Prog (migI V) MigError (List String) :=
  request (.reflectSource table)

/-- The columns of a table of the target. -/
def reflectTarget (table : String) : Prog (migI V) MigError (List Column) :=
  request (.reflectTarget table)

/-- `select(source_table)`. -/
def select (table : String) : Prog (migI V) MigError (List (Row V)) := request (.select table)

/-- `insert(target_table)`. -/
def insert (table : String) (rows : List (Data V)) : Prog (migI V) MigError Unit :=
  request (.insert table rows)

/-- `select(target_table)`, with alternatives to meet. -/
def find (table : String) (conditions : List (Data V)) : Prog (migI V) MigError (List (Row V)) :=
  request (.find table conditions)

/-- `update(target_table)`. -/
def update (table : String) (condition data : Data V) : Prog (migI V) MigError Unit :=
  request (.update table condition data)

/-- `SET FOREIGN_KEY_CHECKS`. -/
def setForeignKeyChecks (on : Bool) : Prog (migI V) MigError Unit :=
  request (.setForeignKeyChecks on)

/-- `DROP TABLE IF EXISTS dynamic_challenge`. -/
def dropDynamicChallenge : Prog (migI V) MigError Unit := request .dropDynamicChallenge

/-- `CREATE TABLE dynamic_challenge`. -/
def createDynamicChallenge : Prog (migI V) MigError Unit := request .createDynamicChallenge

/-- How many constraints `dynamic_challenge_ibfk_1` there are. -/
def countForeignKeys : Prog (migI V) MigError ℕ := request .countForeignKeys

/-- `SELECT id FROM challenges WHERE id IN :ids`. -/
def existingIds (ids : List V) : Prog (migI V) MigError (List V) := request (.existingIds ids)

end Session

/-- `try`, with what was raised as a value. -/
def tried {α : Type} (p : Prog (migI V) MigError α) :
    Prog (migI V) MigError (Except MigError α) :=
  (p >>= fun a => pure (Except.ok a)).handle fun e => pure (Except.error e)

variable (values : Values V)

/-- The updates, up to one that fails. -/
def updateAll (table : String) (pk : List String) :
    List (Data V) → ℕ → Prog (migI V) MigError (ℕ × Option MigError)
  | [], updated => pure (updated, none)
  | data :: rest, updated => do
      let result : Except MigError Unit ←
        tried (Session.update table (keyCondition pk data) data)
      match result with
      | .error e => return (updated, some e)
      | .ok () => updateAll table pk rest (updated + 1)

/-- The query for the rows that there are, if there is anything to ask for. -/
def findExisting (table : String) (pk : List String) (batch : List (Data V)) :
    Prog (migI V) MigError (List (Row V)) :=
  let conditions := (batch.map (keyCondition pk)).filter (!·.isEmpty)
  if conditions.isEmpty then pure [] else Session.find table conditions

/-- The insertion, unless there is nothing to insert. -/
def insertAll (table : String) (batch : List (Data V)) : Prog (migI V) MigError Unit :=
  if batch.isEmpty then pure () else Session.insert table batch

/-- The upsert of a batch. -/
def upsertBatch (table : String) (columns pk : List String) (batch : List (Data V)) :
    Prog (migI V) MigError (BatchResult × Option MigError) := do
  let found ← tried (findExisting table pk batch)
  match found with
  | .error e => return (⟨0, 0, 0⟩, some e)
  | .ok existing =>
      match if existing.isEmpty then none else pk.find? (!columns.contains ·) with
      | some column =>
          return (⟨0, 0, 0⟩,
            some (.other ("Could not locate column in row for column '" ++ column ++ "'")))
      | none =>
          let toInsert := batch.filter (isNew values pk existing)
          let toUpdate := batch.filter (isChanged values pk columns existing)
          let unchanged := (batch.filter (isUnchanged values pk columns existing)).length
          let inserted ← tried (insertAll table toInsert)
          match inserted with
          | .error e => return (⟨0, 0, unchanged⟩, some e)
          | .ok () =>
              let updated ← updateAll table pk toUpdate 0
              return (⟨toInsert.length, updated.1, unchanged⟩, updated.2)

/-- The insertion of a batch. -/
def insertBatch (table : String) (batch : List (Data V)) :
    Prog (migI V) MigError (BatchResult × Option MigError) := do
  let inserted ← tried (insertAll table batch)
  match inserted with
  | .error e => return (⟨0, 0, 0⟩, some e)
  | .ok () => return (⟨batch.length, 0, 0⟩, none)

/-- What the `try` of `_execute_batch` does, in a mode. -/
def batchBody (task : Task V) (columns : List String) (batch : List (Data V)) :
    Prog (migI V) MigError (BatchResult × Option MigError) :=
  if task.mode = "insert" then insertBatch task.target batch
  else if task.mode = "upsert" then upsertBatch values task.target columns task.pk batch
  else pure (⟨0, 0, 0⟩, none)

/-- The keywords of a connection error. -/
def connectionKeywords : List String :=
  ["timeout", "lost connection", "server has gone away", "connection refused", "can't connect",
    "broken pipe"]

/-- `in`, for texts. -/
def containsText (text part : String) : Bool :=
  text.toList.tails.any part.toList.isPrefixOf

/-- Is it an error of the database that names a connection? -/
def MigError.isConnection : MigError → Bool
  | database e => connectionKeywords.any (containsText e.message.toLower)
  | other _ => false

/-- `retry_on_connection_error`, with the attempts that are left. -/
def retryOnConnectionError {α : Type} :
    ℕ → Prog (migI V) MigError α → Prog (migI V) MigError α
  | 0, _ => throw (.other "exceptions must derive from BaseException")
  | n + 1, p => p.handle fun e =>
      if e.isConnection && decide (0 < n) then retryOnConnectionError n p else throw e

/-- `_execute_batch`, without its decorator. -/
def executeBatchOnce (task : Task V) (columns : List String) (batch : List (Data V)) :
    Prog (migI V) MigError BatchResult := do
  let result ← batchBody values task columns batch
  match result.2 with
  | some e => note (.error ("Batch operation error: " ++ e.text))
  | none => pure ()
  return result.1

/-- `_execute_batch`. -/
def executeBatch (task : Task V) (columns : List String) (batch : List (Data V)) :
    Prog (migI V) MigError BatchResult :=
  retryOnConnectionError 3 (executeBatchOnce values task columns batch)

/-! ### Tasks -/

/-- The rows of a task in batches of `size`, and what is left at the end. -/
def processRows (task : Task V) (columns : List String) (size : ℕ) :
    List (Data V) → List (Data V) → BatchResult → Prog (migI V) MigError BatchResult
  | [], batch, counts =>
      if batch.isEmpty then pure counts
      else do
        let result ← executeBatch values task columns batch
        return counts.add result
  | data :: rest, batch, counts =>
      if size ≤ (batch ++ [data]).length then do
        let result ← executeBatch values task columns (batch ++ [data])
        processRows task columns size rest [] (counts.add result)
      else processRows task columns size rest (batch ++ [data]) counts

/-- The SQL before or after a task. What it raises is ignored. -/
def executeAll : List String → Prog (migI V) MigError Unit
  | [] => pure ()
  | sql :: rest => do
      (do
        Session.execute sql
        Session.commit).handle fun _ => pure ()
      executeAll rest

/-- `_rebuild_ctfd_dynamic_challenge`. -/
def rebuildCtfdDynamicChallenge : Prog (migI V) MigError Unit := do
  Session.setForeignKeyChecks false
  Session.dropDynamicChallenge
  Session.createDynamicChallenge
  Session.setForeignKeyChecks true
  Session.commit

/-- `_is_missing_tablespace_error`, or `_is_table_missing_error`. -/
def DbError.isMissing (e : DbError) : Bool :=
  containsText e.message.toLower "tablespace is missing" || decide (e.code = some 194) ||
    (containsText e.message.toLower "doesn't exist" ||
      containsText e.message.toLower "unknown table" || decide (e.code = some 1146))

/-- The ids of a list that challenges have, in chunks of a thousand. -/
def existingIdsOf : ℕ → List V → Prog (migI V) MigError (List V)
  | 0, _ => pure []
  | n + 1, ids =>
      if ids.isEmpty then pure []
      else do
        let found ← Session.existingIds (ids.take 1000)
        let others ← existingIdsOf n (ids.drop 1000)
        return found ++ others

/-- `_filter_dynamic_rows_to_existing_challenges`. -/
def filterDynamicRows (rows : List (Data V)) :
    Prog (migI V) MigError (List (Data V)) := do
  let ids := (rows.filterMap fun row => row.lookup "id").filter (!values.isNull ·)
  if ids.isEmpty then return []
  else
    let existing ← existingIdsOf ids.length ids
    return rows.filter fun row =>
      existing.any (values.py ((row.lookup "id").getD values.null))

/-- `_reinsert_dynamic_challenge_rows`. -/
def reinsertDynamicRows (rows : List (Data V)) : Prog (migI V) MigError Unit :=
  if rows.isEmpty then pure ()
  else do
    let _ ← Session.reflectTarget "dynamic_challenge"
    Session.insert "dynamic_challenge" rows
    Session.commit

/-- How many foreign keys there are. If the table is missing it is built anew. -/
def foreignKeyCount : Prog (migI V) MigError ℕ :=
  (do
    let count ← Session.countForeignKeys
    Session.commit
    return count).handle fun e =>
      match e with
      | .database db =>
          if db.operational && db.isMissing then do
            rebuildCtfdDynamicChallenge
            return 0
          else throw e
      | .other _ => throw e

/-- `_ensure_dynamic_challenge_fk`. -/
def ensureDynamicChallengeFk (direction : Direction) (rows : List (Data V))
    : Prog (migI V) MigError Unit :=
  if direction = .fctfToCtfd then do
    let count ← foreignKeyCount
    if count ≠ 0 then return ()
    else
      let filtered ← filterDynamicRows values rows
      rebuildCtfdDynamicChallenge
      reinsertDynamicRows filtered
  else pure ()

/-- The batches of a task and what follows them. -/
def migrateRows (task : Task V) (direction : Direction)
    (sourceColumns : List String) (targetColumns : List Column) (rows : List (Row V)) :
    Prog (migI V) MigError Unit := do
  let names := targetColumns.map (·.name)
  let counts ← processRows values task names 5000
    (rows.map (targetData values task sourceColumns targetColumns)) [] ⟨0, 0, 0⟩
  Session.commit
  executeAll task.postSQL
  if task.target = "dynamic_challenge" then
    ensureDynamicChallengeFk values direction
      (rows.map (mapRow sourceColumns names task.columns))
  note (.counts counts.inserted counts.updated counts.unchanged)

/-- The tables are reflected, and the rows are read and migrated. -/
def copyRows (task : Task V) (direction : Direction) : Prog (migI V) MigError Bool := do
  let sourceColumns ← Session.reflectSource task.source
  let targetColumns ← Session.reflectTarget task.target
  let rows ← Session.select task.source
  note (.rows rows.length)
  if rows.isEmpty then return true
  else
    migrateRows values task direction sourceColumns targetColumns rows
    return true

/-- The body of the `try` of `_process_task`. -/
def taskBody (task : Task V) (direction : Direction) : Prog (migI V) MigError Bool := do
  executeAll task.preSQL
  if task.target = "dynamic_challenge" ∧ direction = .fctfToCtfd then
    rebuildCtfdDynamicChallenge
  copyRows values task direction

/-- `_process_task`, without its decorator. -/
def processTaskOnce (task : Task V) (direction : Direction) :
    Prog (migI V) MigError Bool :=
  (taskBody values task direction).handle fun e => do
    Session.rollback
    note (.error ("Task '" ++ task.name ++ "' failed: " ++ e.text))
    return false

/-- `_process_task`. -/
def processTask (task : Task V) (direction : Direction) :
    Prog (migI V) MigError Bool :=
  retryOnConnectionError 3 (processTaskOnce values task direction)

/-- The tasks in order, with the number of those that have failed. -/
def processTasks (direction : Direction) :
    List (Task V) → Prog (migI V) MigError ℕ
  | [] => pure 0
  | task :: rest => do
      let success ← processTask values task direction
      let failed ← processTasks direction rest
      return (if success then failed else failed + 1)

/-- `migrate`, with the tasks of the mapping. -/
def migrate (tasks : List (Task V)) (direction : Direction) :
    Prog (migI V) MigError Bool :=
  (do
    let failed ← processTasks values direction tasks
    return decide (failed = 0)).handle fun e => do
      note (.error e.text)
      return false

end Programs

end Migrator

end Fctf
